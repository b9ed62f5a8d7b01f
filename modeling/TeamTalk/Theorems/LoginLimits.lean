import TeamTalk.DbProxy.LoginLimits

/-!
# Guesses in a window

How many requests of one login name reach the password within 30 minutes. A request that has not recorded its failure is not
counted, and an error that is recorded late stands before newer ones, which then go with it.
-/

namespace TeamTalk.DbProxy.Login

/-! ## The properties -/

/-- The 30 minutes from a second on. -/
def InWindow (start time : Nat) : Prop := start ≤ time ∧ time ≤ start + 30 * 60

instance (start time : Nat) : Decidable (InWindow start time) := inferInstanceAs (Decidable (_ ∧ _))

/-- The requests that reach the password in a window. -/
def guesses (log : List LoginOut) (start : Nat) : Nat :=
  log.countP fun
    | .passed t => InWindow start t
    | _ => false

/-- No login succeeds in a window. -/
def NoSuccess (log : List LoginOut) (start : Nat) : Prop := ∀ t, .succeeded t ∈ log → ¬InWindow start t

/-- The failures since the last success that were recorded at some second or later. -/
def failures (log : List LoginOut) (since : Nat) : Nat :=
  (log.reverse.takeWhile fun
    | .succeeded _ => false
    | _ => true).countP fun
    | .recorded t => since ≤ t
    | _ => false

/-- A window without a success has at most 11 guesses, and whoever is refused has had more than 10 failures. -/
structure Limited (log : List LoginOut) : Prop where
  bounded : ∀ start, NoSuccess log start → guesses log start ≤ 11
  refused : ∀ before t after, log = before ++ .refused t :: after → 10 < failures before (t - 30 * 60)

/-- Every run from some time on whose steps all meet `ok` is limited. -/
def LoginsLimited (now : Nat) (ok : Limits → LoginEvent → Prop) : Prop :=
  ∀ log s, Machine.Run loginStep ok (Limits.init now) log s → Limited log

/-! ## The condition -/

/-- The condition on a check: no error that counts stands behind one that is too old; and a request passes only when the errors
and the requests between their check and their end, of the last 30 minutes, are at most 10 together. -/
def LoginMeets (s : Limits) : LoginEvent → Prop
  | .check =>
    (s.lsErrorTime.Pairwise fun time behind => Fresh s.now behind → Fresh s.now time) ∧
      (s.lsErrorTime.countP (Fresh s.now ·) ≤ 10 →
        s.lsErrorTime.countP (Fresh s.now ·) + s.requests.countP (fun r => Fresh s.now r.entered) ≤ 10)
  | _ => True

namespace LoginLimitsAux

/-! ## Logs -/

/-- The guesses of a window, step by step. -/
theorem guesses_append (log : List LoginOut) (o : LoginOut) (start : Nat) :
    guesses (log ++ [o]) start = guesses log start + guesses [o] start := List.countP_append

/-- A check that passed is one where it falls in the window. -/
theorem guesses_passed (t start : Nat) : guesses [.passed t] start = if InWindow start t then 1 else 0 := by
  by_cases h : InWindow start t <;> simp [guesses, h]

/-- And nothing else is. -/
theorem guesses_other {o : LoginOut} (h : ∀ t, o ≠ .passed t) (start : Nat) : guesses [o] start = 0 := by
  cases o with
  | passed t => exact absurd rfl (h t)
  | refused t => rfl
  | recorded t => rfl
  | succeeded t => rfl

/-- A second that is not reached has no guesses from there on. -/
theorem guesses_eq_zero {log : List LoginOut} {start : Nat} (h : ∀ o ∈ log, o.time < start) : guesses log start = 0 := by
  refine List.countP_eq_zero.2 fun o ho => ?_
  have hlt := h o ho
  cases o with
  | passed t =>
    simp only [decide_eq_true_eq]
    exact fun hin => absurd hin.1 (Nat.not_le_of_lt hlt)
  | refused t => simp
  | recorded t => simp
  | succeeded t => simp

/-- A log without a success had none before. -/
theorem noSuccess_append {log : List LoginOut} {o : LoginOut} {start : Nat} (h : NoSuccess (log ++ [o]) start) :
    NoSuccess log start := fun t ht => h t (List.mem_append_left _ ht)

/-- The failures recorded since a time, with one more. -/
theorem failures_recorded (log : List LoginOut) (t since : Nat) :
    failures (log ++ [.recorded t]) since = failures log since + if since ≤ t then 1 else 0 := by
  by_cases h : since ≤ t <;> simp [failures, h]

/-- A check that passed records none. -/
theorem failures_passed (log : List LoginOut) (t since : Nat) : failures (log ++ [.passed t]) since = failures log since := by
  simp [failures]

/-- Nor does one that was refused. -/
theorem failures_refused (log : List LoginOut) (t since : Nat) :
    failures (log ++ [.refused t]) since = failures log since := by
  simp [failures]

/-- What is put out last is refused rightly, or not refused. -/
theorem refused_append {log : List LoginOut} {o : LoginOut}
    (h : ∀ before t after, log = before ++ .refused t :: after → 10 < failures before (t - 30 * 60))
    (ho : ∀ t, o = .refused t → 10 < failures log (t - 30 * 60)) :
    ∀ before t after, log ++ [o] = before ++ .refused t :: after → 10 < failures before (t - 30 * 60) := by
  intro before t after heq
  rcases List.eq_nil_or_concat after with rfl | ⟨after', o', rfl⟩
  · obtain ⟨rfl, hlast⟩ := List.append_inj' heq rfl
    exact ho t (List.cons.inj hlast).1
  · rw [List.concat_eq_append, ← List.cons_append, ← List.append_assoc] at heq
    exact h before t after' (List.append_inj' heq rfl).1

/-! ## The invariant -/

/-- How many requests have entered at some second or later. -/
def enteredSince (requests : List Request) (start : Nat) : Nat := requests.countP fun r => start ≤ r.entered

/-- The invariant. In a window that is not over, every guess is an error or a request on its way; and an error is a failure since
the last success. -/
structure Inv (log : List LoginOut) (s : Limits) : Prop where
  errors_le : ∀ t ∈ s.lsErrorTime, t ≤ s.now
  entered_le : ∀ r ∈ s.requests, r.entered ≤ s.now
  current : ∀ r ∈ s.requests, ∀ t, r.tmCurrent = some t → r.entered ≤ t ∧ t ≤ s.now
  log_le : ∀ o ∈ log, o.time ≤ s.now
  counted : ∀ start, NoSuccess log start → s.now ≤ start + 30 * 60 →
    guesses log start ≤ s.lsErrorTime.countP (start ≤ ·) + enteredSince s.requests start
  recorded : ∀ since, s.lsErrorTime.countP (since ≤ ·) ≤ failures log since
  limited : Limited log

/-- The invariant holds before the first login. -/
theorem inv_init (now : Nat) : Inv [] (Limits.init now) where
  errors_le t ht := absurd ht List.not_mem_nil
  entered_le r hr := absurd hr List.not_mem_nil
  current r hr := absurd hr List.not_mem_nil
  log_le o ho := absurd ho List.not_mem_nil
  counted start _ _ := Nat.zero_le _
  recorded since := Nat.zero_le _
  limited := ⟨fun start _ => Nat.zero_le _, fun before t after h => by simp at h⟩

/-! ## The check -/

/-- What pruning leaves was there and is fresh. -/
theorem mem_prune {now t : Nat} {errors : List Nat} (h : t ∈ prune now errors) : t ∈ errors ∧ Fresh now t := by
  have hsub := (List.takeWhile_sublist (l := errors) fun time => decide (Fresh now time)).subset h
  have hfresh : decide (Fresh now t) = true := List.mem_takeWhile_imp (p := fun time => decide (Fresh now time)) h
  exact ⟨hsub, of_decide_eq_true hfresh⟩

/-- What is kept in order is pruned to what counts. -/
theorem prune_eq_filter {now : Nat} {errors : List Nat}
    (h : errors.Pairwise fun time behind => Fresh now behind → Fresh now time) :
    prune now errors = errors.filter fun time => Fresh now time := by
  induction errors with
  | nil => rfl
  | cons t errors ih =>
    obtain ⟨hhead, htail⟩ := List.pairwise_cons.1 h
    unfold prune at ih ⊢
    by_cases ht : Fresh now t
    · rw [List.takeWhile_cons_of_pos (by simpa using ht), List.filter_cons_of_pos (by simpa using ht), ih htail]
    · rw [List.takeWhile_cons_of_neg (by simpa using ht), List.filter_cons_of_neg (by simpa using ht)]
      refine (List.filter_eq_nil_iff.2 fun t' ht' hfresh => ?_).symm
      exact ht (hhead t' ht' (of_decide_eq_true hfresh))

/-- What is in a window that is not over counts. -/
theorem fresh_of_window {now start t : Nat} (hnow : now ≤ start + 30 * 60) (h : start ≤ t) : Fresh now t := by
  unfold Fresh
  omega

/-- Pruning takes no error of a window that is not over. -/
theorem countP_prune {now start : Nat} {errors : List Nat}
    (h : errors.Pairwise fun time behind => Fresh now behind → Fresh now time) (hnow : now ≤ start + 30 * 60) :
    (prune now errors).countP (start ≤ ·) = errors.countP (start ≤ ·) := by
  rw [prune_eq_filter h, List.countP_filter]
  refine List.countP_congr fun t _ => ?_
  simp only [Bool.and_eq_true, decide_eq_true_eq]
  exact ⟨fun h => h.1, fun h => ⟨h, fresh_of_window hnow h⟩⟩

/-- And not more than there was. -/
theorem countP_prune_le (now since : Nat) (errors : List Nat) :
    (prune now errors).countP (since ≤ ·) ≤ errors.countP (since ≤ ·) :=
  (List.takeWhile_sublist _).countP_le

/-- After pruning the newest error is not too old. -/
theorem tooMany_prune (now : Nat) (errors : List Nat) :
    tooMany now (prune now errors) = decide (10 < (prune now errors).length) := by
  unfold tooMany
  cases hprune : prune now errors with
  | nil => simp
  | cons t rest =>
    have hfresh : Fresh now t := (mem_prune (hprune ▸ List.mem_cons_self)).2
    simp [hfresh]

/-- Whoever is refused has had more than ten failures. -/
theorem failures_of_tooMany {log : List LoginOut} {s : Limits} (hinv : Inv log s)
    (h : tooMany s.now (prune s.now s.lsErrorTime) = true) : 10 < failures log (s.now - 30 * 60) := by
  rw [tooMany_prune] at h
  have hlen : 10 < (prune s.now s.lsErrorTime).length := of_decide_eq_true h
  have hall : (prune s.now s.lsErrorTime).countP (s.now - 30 * 60 ≤ ·) = (prune s.now s.lsErrorTime).length := by
    refine List.countP_eq_length.2 fun t ht => decide_eq_true ?_
    have hfresh := (mem_prune ht).2
    unfold Fresh at hfresh
    omega
  have hle := countP_prune_le s.now (s.now - 30 * 60) s.lsErrorTime
  have hrec := hinv.recorded (s.now - 30 * 60)
  omega

/-- Whoever passes is the eleventh at most of a window that is not over. -/
theorem guesses_of_pass {log : List LoginOut} {s : Limits} (hinv : Inv log s) (hmeets : LoginMeets s .check)
    (h : ¬tooMany s.now (prune s.now s.lsErrorTime) = true) {start : Nat} (hno : NoSuccess log start)
    (hnow : s.now ≤ start + 30 * 60) : guesses log start ≤ 10 := by
  obtain ⟨horder, hroom⟩ := hmeets
  rw [tooMany_prune, decide_eq_true_eq, prune_eq_filter horder, ← List.countP_eq_length_filter] at h
  have hsum := hroom (Nat.le_of_not_lt h)
  have hcounted := hinv.counted start hno hnow
  have herrors : s.lsErrorTime.countP (start ≤ ·) ≤ s.lsErrorTime.countP (Fresh s.now ·) := by
    refine List.countP_mono_left fun t _ ht => decide_eq_true ?_
    exact fresh_of_window hnow (of_decide_eq_true ht)
  have hrequests : enteredSince s.requests start ≤ s.requests.countP (fun r => Fresh s.now r.entered) := by
    refine List.countP_mono_left fun r _ hr => decide_eq_true ?_
    exact fresh_of_window hnow (of_decide_eq_true hr)
  omega

/-- A log goes on with something that is no guess and no success. -/
theorem limited_append {log : List LoginOut} {o : LoginOut} (h : Limited log) (hpassed : ∀ t, o ≠ .passed t)
    (ho : ∀ t, o = .refused t → 10 < failures log (t - 30 * 60)) : Limited (log ++ [o]) where
  bounded start hno := by
    rw [guesses_append, guesses_other hpassed]
    exact h.bounded start (noSuccess_append hno)
  refused := refused_append h.refused ho

/-- The log stays in the past. -/
theorem log_le_append {log : List LoginOut} {o : LoginOut} {now : Nat} (h : ∀ o ∈ log, o.time ≤ now) (ho : o.time ≤ now) :
    ∀ o' ∈ log ++ [o], o'.time ≤ now := by
  intro o' ho'
  rcases List.mem_append.1 ho' with hlog | hlast
  · exact h o' hlog
  · rw [List.mem_singleton.1 hlast]
    exact ho

/-- A refused check keeps the invariant. -/
theorem inv_refused {log : List LoginOut} {s : Limits} (hinv : Inv log s) (hmeets : LoginMeets s .check)
    (h : tooMany s.now (prune s.now s.lsErrorTime) = true) :
    Inv (log ++ [.refused s.now]) { s with lsErrorTime := prune s.now s.lsErrorTime } where
  errors_le t ht := hinv.errors_le t (mem_prune ht).1
  entered_le := hinv.entered_le
  current := hinv.current
  log_le := log_le_append hinv.log_le le_rfl
  counted start hno hnow := by
    rw [guesses_append, guesses_other (by simp)]
    dsimp only
    rw [countP_prune hmeets.1 hnow]
    exact hinv.counted start (noSuccess_append hno) hnow
  recorded since := by
    rw [failures_refused]
    exact (countP_prune_le s.now since s.lsErrorTime).trans (hinv.recorded since)
  limited := by
    refine limited_append hinv.limited (by simp) fun t ht => ?_
    cases ht
    exact failures_of_tooMany hinv h

/-- And so does one that passed. -/
theorem inv_passed {log : List LoginOut} {s : Limits} (hinv : Inv log s) (hmeets : LoginMeets s .check)
    (h : ¬tooMany s.now (prune s.now s.lsErrorTime) = true) :
    Inv (log ++ [.passed s.now]) { s with
      lsErrorTime := prune s.now s.lsErrorTime
      requests := s.requests ++ [{ entered := s.now, tmCurrent := none }] } where
  errors_le t ht := hinv.errors_le t (mem_prune ht).1
  entered_le r hr := by
    rcases List.mem_append.1 hr with hold | hnew
    · exact hinv.entered_le r hold
    · rw [List.mem_singleton.1 hnew]
  current r hr t ht := by
    rcases List.mem_append.1 hr with hold | hnew
    · exact hinv.current r hold t ht
    · rw [List.mem_singleton.1 hnew] at ht
      cases ht
  log_le := log_le_append hinv.log_le le_rfl
  counted start hno hnow := by
    have hcounted := hinv.counted start (noSuccess_append hno) hnow
    have hentered : enteredSince (s.requests ++ [{ entered := s.now, tmCurrent := none }]) start =
        enteredSince s.requests start + if start ≤ s.now then 1 else 0 := by
      rw [enteredSince, List.countP_append]
      by_cases hle : start ≤ s.now <;> simp [enteredSince, hle]
    rw [guesses_append, guesses_passed]
    dsimp only
    rw [countP_prune hmeets.1 hnow, hentered]
    split
    next hin =>
      rw [if_pos hin.1]
      omega
    next => omega
  recorded since := by
    rw [failures_passed]
    exact (countP_prune_le s.now since s.lsErrorTime).trans (hinv.recorded since)
  limited := by
    refine ⟨fun start hno => ?_, refused_append hinv.limited.refused (by simp)⟩
    rw [guesses_append, guesses_passed]
    split
    next hin =>
      have hle := guesses_of_pass hinv hmeets h (noSuccess_append hno) hin.2
      omega
    next => exact hinv.limited.bounded start (noSuccess_append hno)

/-! ## The end of a request -/

/-- A request that is left was there. -/
theorem mem_eraseIdx {requests : List Request} {i : Nat} {r : Request} (h : r ∈ requests.eraseIdx i) : r ∈ requests :=
  (List.eraseIdx_sublist requests i).subset h

/-- One request less is on its way. -/
theorem enteredSince_eraseIdx {requests : List Request} {i : Nat} {r : Request} (h : requests[i]? = some r) (start : Nat) :
    enteredSince requests start = enteredSince (requests.eraseIdx i) start + if start ≤ r.entered then 1 else 0 := by
  obtain ⟨hlt, rfl⟩ := List.getElem?_eq_some_iff.1 h
  have hperm := List.getElem_cons_eraseIdx_perm hlt
  rw [enteredSince, ← hperm.countP_eq, List.countP_cons, enteredSince]
  by_cases hle : start ≤ requests[i].entered <;> simp [hle]

/-- The wrong password of a request does not move it. -/
theorem enteredSince_set {requests : List Request} {i : Nat} {r q : Request} (h : requests[i]? = some r)
    (hentered : q.entered = r.entered) (start : Nat) : enteredSince (requests.set i q) start = enteredSince requests start := by
  obtain ⟨hlt, rfl⟩ := List.getElem?_eq_some_iff.1 h
  have hmap : ∀ l : List Request, enteredSince l start = (l.map Request.entered).countP (start ≤ ·) := fun l => by
    rw [List.countP_map]
    rfl
  have hlt' : i < (requests.map Request.entered).length := by simpa using hlt
  have hsame : (requests.map Request.entered)[i] = q.entered := by rw [List.getElem_map, hentered]
  rw [hmap, hmap, List.map_set, ← hsame, List.set_getElem_self]

/-- A wrong password keeps the invariant. -/
theorem inv_wrong {log : List LoginOut} {s : Limits} {i entered : Nat} (hinv : Inv log s)
    (h : s.requests[i]? = some { entered, tmCurrent := none }) :
    Inv log { s with requests := s.requests.set i { entered, tmCurrent := some s.now } } := by
  have hentered : entered ≤ s.now := hinv.entered_le _ (List.mem_of_getElem? h)
  refine ⟨hinv.errors_le, fun r hr => ?_, fun r hr t ht => ?_, hinv.log_le, fun start hno hnow => ?_, hinv.recorded,
    hinv.limited⟩
  · rcases List.mem_or_eq_of_mem_set hr with hold | rfl
    · exact hinv.entered_le r hold
    · exact hentered
  · rcases List.mem_or_eq_of_mem_set hr with hold | rfl
    · exact hinv.current r hold t ht
    · cases ht
      exact ⟨hentered, le_rfl⟩
  · have hsame : enteredSince (s.requests.set i { entered, tmCurrent := some s.now }) start = enteredSince s.requests start :=
      enteredSince_set (q := { entered, tmCurrent := some s.now }) h rfl start
    dsimp only
    rw [hsame]
    exact hinv.counted start hno hnow

/-- And so does its record. -/
theorem inv_record {log : List LoginOut} {s : Limits} {i entered tmCurrent : Nat} (hinv : Inv log s)
    (h : s.requests[i]? = some { entered, tmCurrent := some tmCurrent }) :
    Inv (log ++ [.recorded s.now])
      { s with lsErrorTime := tmCurrent :: s.lsErrorTime, requests := s.requests.eraseIdx i } := by
  obtain ⟨hentered, hcurrent⟩ := hinv.current _ (List.mem_of_getElem? h) tmCurrent rfl
  refine ⟨?_, fun r hr => hinv.entered_le r (mem_eraseIdx hr), fun r hr => hinv.current r (mem_eraseIdx hr),
    log_le_append hinv.log_le le_rfl, ?_, ?_, limited_append hinv.limited (by simp) (by simp)⟩
  · intro t ht
    rcases List.mem_cons.1 ht with rfl | hold
    · exact hcurrent
    · exact hinv.errors_le t hold
  · intro start hno hnow
    have hcounted := hinv.counted start (noSuccess_append hno) hnow
    have hless := enteredSince_eraseIdx h start
    rw [guesses_append, guesses_other (by simp), List.countP_cons]
    dsimp only at hless ⊢
    simp only [decide_eq_true_eq]
    -- a guess of the window is an error of the window, as the clock does not go back
    by_cases hle : start ≤ entered
    · rw [if_pos hle] at hless
      rw [if_pos (hle.trans hentered)]
      omega
    · rw [if_neg hle] at hless
      omega
  · intro since
    have hrec := hinv.recorded since
    rw [failures_recorded, List.countP_cons]
    simp only [decide_eq_true_eq]
    by_cases hle : since ≤ tmCurrent
    · rw [if_pos hle, if_pos (hle.trans hcurrent)]
      omega
    · rw [if_neg hle]
      omega

/-- And a right password. -/
theorem inv_right {log : List LoginOut} {s : Limits} (hinv : Inv log s) (i : Nat) :
    Inv (log ++ [.succeeded s.now]) { s with lsErrorTime := [], requests := s.requests.eraseIdx i } where
  errors_le t ht := absurd ht List.not_mem_nil
  entered_le r hr := hinv.entered_le r (mem_eraseIdx hr)
  current r hr := hinv.current r (mem_eraseIdx hr)
  log_le := log_le_append hinv.log_le le_rfl
  counted start hno hnow := by
    have hout : ¬InWindow start s.now := hno s.now (List.mem_append_right _ List.mem_cons_self)
    have hnow' : s.now ≤ start + 30 * 60 := hnow
    have hlt : s.now < start := by
      unfold InWindow at hout
      omega
    rw [guesses_append, guesses_other (by simp), guesses_eq_zero fun o ho => (hinv.log_le o ho).trans_lt hlt]
    exact Nat.zero_le _
  recorded since := Nat.zero_le _
  limited := limited_append hinv.limited (by simp) (by simp)

/-- A step keeps the invariant. -/
theorem inv_step {log out : List LoginOut} {s s' : Limits} {e : LoginEvent} (hinv : Inv log s) (hmeets : LoginMeets s e)
    (hstep : loginStep s e = some (s', out)) : Inv (log ++ out) s' := by
  cases e with
  | tick seconds =>
    cases hstep
    rw [List.append_nil]
    refine ⟨fun t ht => (hinv.errors_le t ht).trans (Nat.le_add_right _ _),
      fun r hr => (hinv.entered_le r hr).trans (Nat.le_add_right _ _), fun r hr t ht => ?_,
      fun o ho => (hinv.log_le o ho).trans (Nat.le_add_right _ _), fun start hno hnow => ?_, hinv.recorded, hinv.limited⟩
    · obtain ⟨hentered, hcurrent⟩ := hinv.current r hr t ht
      exact ⟨hentered, hcurrent.trans (Nat.le_add_right _ _)⟩
    · exact hinv.counted start hno ((Nat.le_add_right _ _).trans hnow)
  | check =>
    rw [loginStep] at hstep
    split at hstep
    next h =>
      cases hstep
      exact inv_refused hinv hmeets h
    next h =>
      cases hstep
      exact inv_passed hinv hmeets h
  | wrong i =>
    rw [loginStep] at hstep
    split at hstep
    next entered h =>
      cases hstep
      rw [List.append_nil]
      exact inv_wrong hinv h
    next => cases hstep
  | record i =>
    rw [loginStep] at hstep
    split at hstep
    next entered tmCurrent h =>
      cases hstep
      exact inv_record hinv h
    next => cases hstep
  | right i =>
    rw [loginStep] at hstep
    split at hstep
    next entered h =>
      cases hstep
      exact inv_right hinv i
    next => cases hstep

/-- One wrong guess after the other, each recorded before the next, up to the eleventh. -/
theorem run_wrongGuesses {n : Nat} (hn : n ≤ 11) : ∃ log,
    Machine.Run loginStep LoginMeets (Limits.init 0) log { now := 0, lsErrorTime := List.replicate n 0, requests := [] } ∧
      guesses log 0 = n := by
  induction n with
  | zero => exact ⟨[], .start, rfl⟩
  | succ n ih =>
    obtain ⟨log, hrun, hguesses⟩ := ih (Nat.le_of_succ_le hn)
    have hfresh : ∀ t ∈ List.replicate n 0, Fresh 0 t := fun t ht => by
      rw [List.eq_of_mem_replicate ht]
      decide
    have hcount : (List.replicate n 0).countP (Fresh 0 ·) = n := by
      rw [List.countP_eq_length.2 fun t ht => decide_eq_true (hfresh t ht), List.length_replicate]
    have hpruned : prune 0 (List.replicate n 0) = List.replicate n 0 :=
      List.takeWhile_eq_self_iff.2 fun t ht => decide_eq_true (hfresh t ht)
    have hmeets : LoginMeets { now := 0, lsErrorTime := List.replicate n 0, requests := [] } .check := by
      refine ⟨List.pairwise_of_forall_mem_list fun t ht _ _ _ => hfresh t ht, fun hle => ?_⟩
      rw [hcount] at hle ⊢
      exact hle
    have hfew : tooMany 0 (List.replicate n 0) = false := by
      simp [tooMany, Nat.le_of_succ_le_succ hn]
    have hcheck : loginStep { now := 0, lsErrorTime := List.replicate n 0, requests := [] } .check =
        some ({ now := 0, lsErrorTime := List.replicate n 0, requests := [⟨0, none⟩] }, [.passed 0]) := by
      simp [loginStep, hpruned, hfew]
    have hpassed := hrun.step (e := LoginEvent.check) hmeets hcheck
    have hwrong := hpassed.step (e := LoginEvent.wrong 0) trivial rfl
    have hrecorded := hwrong.step (e := LoginEvent.record 0) trivial rfl
    refine ⟨_, hrecorded, ?_⟩
    rw [List.append_nil, guesses_append, guesses_append, hguesses]
    rfl

end LoginLimitsAux

open LoginLimitsAux

/-- The logins are limited in every run whose checks meet the condition. -/
theorem logins_limited (now : Nat) : LoginsLimited now LoginMeets := by
  intro log s h
  exact (h.invariant (I := Inv) (inv_init now) inv_step).limited

/-- Eleven wrong guesses are recorded, and the twelfth is refused. -/
theorem logins_limited_eleven : ∃ log s, Machine.Run loginStep LoginMeets (Limits.init 0) (log ++ [.refused 0]) s ∧
    guesses (log ++ [.refused 0]) 0 = 11 ∧ Limited (log ++ [.refused 0]) := by
  obtain ⟨log, hrun, hguesses⟩ := run_wrongGuesses (Nat.le_refl 11)
  have hrefused := hrun.step (e := LoginEvent.check) ⟨by decide, fun hle => absurd hle (by decide)⟩ rfl
  refine ⟨log, _, hrefused, ?_, logins_limited 0 _ _ hrefused⟩
  rw [guesses_append, hguesses]
  rfl

/-- Twelve threads check before one of them records its failure: twelve guesses in one second. -/
theorem not_logins_limited : ¬∀ now, LoginsLimited now fun _ _ => True := by
  intro h
  have hsteps : Machine.steps loginStep (Limits.init 0) (List.replicate 12 .check) =
      some ({ now := 0, lsErrorTime := [], requests := List.replicate 12 { entered := 0, tmCurrent := none } },
        List.replicate 12 (.passed 0)) := by decide
  have hrun : Machine.Run loginStep (fun _ _ => True) (Limits.init 0) (List.replicate 12 (.passed 0)) _ :=
    Machine.Run.of_steps (fun _ _ => trivial) .start hsteps
  have hno : NoSuccess (List.replicate 12 (.passed 0)) 0 := by
    intro t ht
    cases List.eq_of_mem_replicate ht
  exact absurd ((h 0 _ _ hrun).bounded 0 hno) (by decide)

end TeamTalk.DbProxy.Login
