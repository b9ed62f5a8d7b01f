import TeamTalk.DbProxy.Counters

/-!
# Counters of groups go forward

What a user has read of a group is never more than was sent, and never becomes less, in every run in which no job writes back a
count while a later one has been written since it read its own. The commands of a job are not one step: a late `HMSET` turns the
counter of a user back.
-/

namespace TeamTalk.DbProxy

open Prog

/-- This entry of the history is a thread's `HGETALL` of the hash of a group. -/
def readsGroup (i groupId : Nat) (e : Nat × Entry counterCalls) : Bool :=
  match (e.2.1 : CounterOp) with
  | .hgetAll g => e.1 == i && g == groupId
  | _ => false

/-- What all threads have done since a thread has read the hash of a group. -/
def sinceRead (i groupId : Nat) (history : List (Nat × Entry counterCalls)) : List (Nat × Entry counterCalls) :=
  history.takeWhile fun e => !readsGroup i groupId e

/-- A count has been written for a user. -/
def wrote (j userId groupId n : Nat) : Nat × Entry counterCalls := (j, ⟨CounterOp.hmset userId groupId (some n), ()⟩)

/-- The condition on a turn: who writes a count back has not been overtaken, since he read it, by a later one. -/
def WritesMeet (s : CounterThreads) : Sched CounterJob → Prop
  | .start _ _ => True
  | .go i => ∀ t u g n, s.threads i = some t → t.prog.next = some (CounterOp.hmset u g (some n)) →
      ∀ j n', wrote j u g n' ∈ sinceRead i g s.history → n' ≤ n

/-- In every run whose turns all meet a condition: nobody has read more than was sent; what is read never becomes less; and where a
user had read everything, and nothing was sent since, whatever was counted for the group before, he is shown nothing. -/
def CountersForwardIn (ok : CounterThreads → Sched CounterJob → Prop) : Prop :=
  ∀ log (s : CounterThreads), Machine.Run counterStep ok (Threads.init Counters.init) log s →
    (∀ u g, s.store.userCount u g ≤ s.store.groupCount g) ∧
    ∀ log' (s' : CounterThreads), Machine.Run counterStep ok s log' s' →
      (∀ u g, s.store.userCount u g ≤ s'.store.userCount u g) ∧
      ∀ log'' (s'' : CounterThreads), Machine.Run counterStep ok s' log'' s'' →
        ∀ u g nCount, s.store.userCount u g = s.store.groupCount g → s''.store.groupCount g = s.store.groupCount g →
          unreadCount nCount (s'.store.groupCount g) (s''.store.userCount u g) = 0

namespace CountersAux

/-! ## What jobs write -/

/-- What a job has read last of each group. A job writes only what it has read. -/
def counterMonitor : Monitor counterCalls where
  State := Nat → Option (Option Nat)
  next m o r :=
    match o, r with
    | .hgetAll g, n => fun g' => if g' = g then some n else m g'
    | _, _ => m
  allows m o :=
    match o with
    | .hmset _ g n => m g = some n
    | _ => True

/-- Nothing has been read. -/
def unread : counterMonitor.State := fun _ => none

/-- Whatever a job has read. -/
def Any (_ : CounterJob) (_ : counterMonitor.State) : Prop := True

theorem safe_copy (m : counterMonitor.State) (userId groupId : Nat) :
    Safe counterMonitor m (clearMessageCount userId groupId) fun _ _ => True := by
  refine ⟨trivial, fun n => ⟨?_, fun _ => trivial⟩⟩
  exact if_pos rfl

theorem safe_getUnreadMsgCount (m : counterMonitor.State) (userId nCount : Nat) (lsGroupId : List Nat) :
    Safe counterMonitor m (getUnreadMsgCount userId nCount lsGroupId) fun _ _ => True := by
  induction lsGroupId generalizing m nCount with
  | nil => exact safe_pure trivial
  | cons g lsGroupId ih =>
    refine Safe.bind (Q := fun _ _ => True) (safe_ask trivial fun _ => trivial) fun n m1 _ => ?_
    cases n with
    | none => exact ih m1 nCount
    | some nGroupCnt =>
      refine Safe.bind (Q := fun _ _ => True) (safe_ask trivial fun _ => trivial) fun nUserCnt m2 _ => ?_
      refine Safe.bind (ih m2 _) fun rest m3 _ => ?_
      exact safe_pure trivial

theorem safe_body (job : CounterJob) : Safe counterMonitor unread job.body fun _ m => Any job m := by
  cases job with
  | sendMessage fromId groupId =>
    refine Safe.bind (Q := fun _ _ => True) ?_ fun _ m _ => safe_copy m fromId groupId
    exact ⟨trivial, fun _ => safe_copy unread fromId groupId⟩
  | clearUserCounter userId groupId => exact safe_copy unread userId groupId
  | getUnreadMsgCount userId lsGroupId =>
    exact Safe.bind (safe_getUnreadMsgCount unread userId 0 lsGroupId) fun _ _ _ => safe_pure trivial

/-! ## The counts -/

/-- No count that a thread has read is more than was sent; and what a user has read is no more than that, unless somebody has
written it since. -/
structure CountsSound (s : CounterThreads) : Prop where
  bounded : ∀ u g, s.store.userCount u g ≤ s.store.groupCount g
  reads : ∀ i g n, s.monitor unread i g = some n → n.getD 0 ≤ s.store.groupCount g
  pending : ∀ i g n u, s.monitor unread i g = some n → s.store.userCount u g ≤ n.getD 0 ∨
    ∃ j n', wrote j u g n' ∈ sinceRead i g s.history ∧ s.store.userCount u g = n'

/-- The counts are as before, or greater. -/
structure Forward (c c' : Counters) : Prop where
  group : ∀ g, c.groupCount g ≤ c'.groupCount g
  user : ∀ u g, c.userCount u g ≤ c'.userCount u g

theorem Forward.refl (c : Counters) : Forward c c := ⟨fun _ => Nat.le_refl _, fun _ _ => Nat.le_refl _⟩

theorem Forward.trans {c c' c'' : Counters} (h : Forward c c') (h' : Forward c' c'') : Forward c c'' :=
  ⟨fun g => Nat.le_trans (h.group g) (h'.group g), fun u g => Nat.le_trans (h.user u g) (h'.user u g)⟩

theorem countsSound_init : CountsSound (Threads.init Counters.init) := by
  refine ⟨fun u g => Nat.le_refl _, ?_, ?_⟩
  · intro i g n h
    cases h
  · intro i g n u h
    cases h

theorem countsSound_start {s : CounterThreads} (h : CountsSound s) (i : Nat) (job : CounterJob) :
    CountsSound (s.setThread i { job, trace := [], prog := job.body }) := by
  have hmonitor : ∀ j g n, (s.setThread i { job, trace := [], prog := job.body }).monitor unread j g = some n →
      s.monitor unread j g = some n := by
    intro j g n hj
    rw [Threads.monitor_setThread] at hj
    split at hj
    · cases hj
    · exact hj
  exact ⟨h.bounded, fun j g n hj => h.reads j g n (hmonitor j g n hj), fun j g n u hj => h.pending j g n u (hmonitor j g n hj)⟩

/-- An entry that is no `HGETALL` of the thread is one more since its last. -/
theorem sinceRead_cons {i g : Nat} {e : Nat × Entry counterCalls} {history : List (Nat × Entry counterCalls)}
    (h : readsGroup i g e = false) : sinceRead i g (e :: history) = e :: sinceRead i g history := by
  rw [sinceRead, List.takeWhile_cons_of_pos (by rw [h]; rfl)]
  rfl

/-- A command that reads nothing and writes no counter of a user. -/
theorem countsSound_same {s s' : CounterThreads} {e : Nat × Entry counterCalls} (h : CountsSound s)
    (hgroup : ∀ g, s.store.groupCount g ≤ s'.store.groupCount g) (huser : s'.store.user = s.store.user)
    (hmonitor : ∀ j, s'.monitor unread j = s.monitor unread j) (hhistory : s'.history = e :: s.history)
    (he : ∀ i g, readsGroup i g e = false) : CountsSound s' := by
  have hcount : ∀ u g, s'.store.userCount u g = s.store.userCount u g := by
    intro u g
    rw [Counters.userCount, huser]
    rfl
  refine ⟨fun u g => ?_, fun i g n hi => ?_, fun i g n u hi => ?_⟩
  · rw [hcount]
    exact Nat.le_trans (h.bounded u g) (hgroup g)
  · rw [hmonitor] at hi
    exact Nat.le_trans (h.reads i g n hi) (hgroup g)
  · rw [hmonitor] at hi
    rw [hcount, hhistory, sinceRead_cons (he i g)]
    refine (h.pending i g n u hi).imp_right ?_
    rintro ⟨j, n', hin, heq⟩
    exact ⟨j, n', List.mem_cons_of_mem _ hin, heq⟩

section Call

variable {s : CounterThreads} {i : Nat} {t : Runner counterCalls CounterJob}

/-- What every job has read after a call. -/
theorem monitor_after {o : CounterOp} (k : o.Reply → Prog counterCalls Unit) (ht : s.threads i = some t) (j : Nat) :
    (s.called Counters.serve i t o k).monitor unread j =
      if j = i then counterMonitor.next (s.monitor unread i) o (s.store.serve o).2 else s.monitor unread j :=
  Threads.monitor_called ht o k j

/-- A call that reads nothing leaves it as it was. -/
theorem monitor_unchanged {o : CounterOp} (k : o.Reply → Prog counterCalls Unit) (ht : s.threads i = some t)
    (hnext : counterMonitor.next (s.monitor unread i) o (s.store.serve o).2 = s.monitor unread i) (j : Nat) :
    (s.called Counters.serve i t o k).monitor unread j = s.monitor unread j := by
  rw [monitor_after k ht]
  split
  · rename_i heq
    rw [heq]
    exact hnext
  · rfl

/-- One more message is counted. -/
theorem countsSound_hincrBy (h : CountsSound s) (ht : s.threads i = some t) (g : Nat)
    (k : (CounterOp.hincrBy g).Reply → Prog counterCalls Unit) :
    CountsSound (s.called Counters.serve i t (.hincrBy g) k) ∧
      Forward s.store (s.called Counters.serve i t (.hincrBy g) k).store := by
  have hgroup : ∀ g', s.store.groupCount g' ≤ (s.called Counters.serve i t (.hincrBy g) k).store.groupCount g' := by
    intro g'
    change _ ≤ Option.getD (if g' = g then some (s.store.groupCount g + 1) else s.store.group g') 0
    split
    · rename_i heq
      rw [heq]
      exact Nat.le_succ _
    · exact Nat.le_refl _
  exact ⟨countsSound_same h hgroup rfl (monitor_unchanged k ht rfl) rfl fun _ _ => rfl, hgroup, fun _ _ => Nat.le_refl _⟩

/-- A job reads the count of a group. -/
theorem countsSound_hgetAll (h : CountsSound s) (ht : s.threads i = some t) (g : Nat)
    (k : (CounterOp.hgetAll g).Reply → Prog counterCalls Unit) : CountsSound (s.called Counters.serve i t (.hgetAll g) k) := by
  have hread : ∀ j g' n, (s.called Counters.serve i t (.hgetAll g) k).monitor unread j g' = some n →
      (j = i ∧ g' = g ∧ n = s.store.group g) ∨ (¬(j = i ∧ g' = g) ∧ s.monitor unread j g' = some n) := by
    intro j g' n hj
    rw [monitor_after k ht] at hj
    split at hj
    · rename_i heq
      subst heq
      change (if g' = g then some (s.store.group g) else s.monitor unread j g') = some n at hj
      split at hj
      · exact .inl ⟨rfl, ‹_›, (Option.some.inj hj).symm⟩
      · exact .inr ⟨fun hand => absurd hand.2 ‹_›, hj⟩
    · exact .inr ⟨fun hand => absurd hand.1 ‹_›, hj⟩
  refine ⟨h.bounded, fun j g' n hj => ?_, fun j g' n u hj => ?_⟩
  · rcases hread j g' n hj with ⟨-, rfl, rfl⟩ | ⟨-, hj⟩
    · exact Nat.le_refl _
    · exact h.reads j g' n hj
  · rcases hread j g' n hj with ⟨-, rfl, rfl⟩ | ⟨hne, hj⟩
    · exact .inl (h.bounded u g')
    · refine (h.pending j g' n u hj).imp_right ?_
      rintro ⟨j', n', hin, heq⟩
      refine ⟨j', n', ?_, heq⟩
      have hnot : readsGroup j g' (i, ⟨CounterOp.hgetAll g, (s.store.serve (.hgetAll g)).2⟩) = false := by
        rw [Bool.eq_false_iff]
        intro hin
        obtain ⟨hi, hg⟩ := Bool.and_eq_true_iff.1 hin
        exact hne ⟨(beq_iff_eq.1 hi).symm, (beq_iff_eq.1 hg).symm⟩
      change wrote j' u g' n' ∈ sinceRead j g' (_ :: s.history)
      rw [sinceRead_cons hnot]
      exact List.mem_cons_of_mem _ hin

/-- The users' counts after one is written. -/
theorem userCount_hmset (u g n : Nat) (k : (CounterOp.hmset u g (some n)).Reply → Prog counterCalls Unit) (u' g' : Nat) :
    (s.called Counters.serve i t (.hmset u g (some n)) k).store.userCount u' g' =
      if u' = u ∧ g' = g then n else s.store.userCount u' g' := by
  change Option.getD (if u' = u ∧ g' = g then some n else s.store.user u' g') 0 = _
  split
  · rfl
  · rfl

/-- A count is written back that no job has written a later one for. -/
theorem countsSound_hmset {u g n : Nat} {k : (CounterOp.hmset u g (some n)).Reply → Prog counterCalls Unit} (h : CountsSound s)
    (hok : WritesMeet s (.go i)) (ht : s.threads i = some t)
    (hprog : t.prog = .call (C := counterCalls) (CounterOp.hmset u g (some n)) k)
    (hallows : counterMonitor.allows (s.monitor unread i) (.hmset u g (some n))) :
    CountsSound (s.called Counters.serve i t (.hmset u g (some n)) k) ∧
      Forward s.store (s.called Counters.serve i t (.hmset u g (some n)) k).store := by
  have hsame := monitor_unchanged k ht rfl
  have huser := userCount_hmset (s := s) (i := i) (t := t) u g n k
  -- what the user has read is no more than what the thread read
  have hle : s.store.userCount u g ≤ n := by
    rcases h.pending i g (some n) u hallows with hle | ⟨j, n', hin, heq⟩
    · exact hle
    · rw [heq]
      refine hok t u g n ht ?_ j n' hin
      rw [hprog]
      rfl
  refine ⟨⟨fun u' g' => ?_, fun j g' n' hj => ?_, fun j g' n' u' hj => ?_⟩, fun _ => Nat.le_refl _, fun u' g' => ?_⟩
  · rw [huser]
    split
    · rename_i heq
      rw [heq.2]
      exact h.reads i g (some n) hallows
    · exact h.bounded u' g'
  · rw [hsame] at hj
    exact h.reads j g' n' hj
  · rw [hsame] at hj
    rw [huser]
    change _ ∨ ∃ j' n'', wrote j' u' g' n'' ∈ sinceRead j g' (wrote i u g n :: s.history) ∧ _
    rw [sinceRead_cons rfl]
    split
    · rename_i heq
      rw [heq.1, heq.2]
      exact .inr ⟨i, n, List.mem_cons_self, rfl⟩
    · refine (h.pending j g' n' u' hj).imp_right ?_
      rintro ⟨j', n'', hin, heq⟩
      exact ⟨j', n'', List.mem_cons_of_mem _ hin, heq⟩
  · rw [huser]
    split
    · rename_i heq
      rw [heq.1, heq.2]
      exact hle
    · exact Nat.le_refl _

/-- Each call keeps the counts sound, and takes them forward. -/
theorem countsSound_call {o : CounterOp} {k : o.Reply → Prog counterCalls Unit} (h : CountsSound s) (hok : WritesMeet s (.go i))
    (ht : s.threads i = some t) (hprog : t.prog = .call (C := counterCalls) o k)
    (hallows : counterMonitor.allows (s.monitor unread i) o) :
    CountsSound (s.called Counters.serve i t o k) ∧ Forward s.store (s.called Counters.serve i t o k).store := by
  cases o with
  | hincrBy g => exact countsSound_hincrBy h ht g k
  | hgetGroup g =>
    exact ⟨countsSound_same h (fun _ => Nat.le_refl _) rfl (monitor_unchanged k ht rfl) rfl fun _ _ => rfl, .refl _⟩
  | hgetUser u g =>
    exact ⟨countsSound_same h (fun _ => Nat.le_refl _) rfl (monitor_unchanged k ht rfl) rfl fun _ _ => rfl, .refl _⟩
  | hgetAll g => exact ⟨countsSound_hgetAll h ht g k, .refl _⟩
  | hmset u g n =>
    cases n with
    | none =>
      exact ⟨countsSound_same h (fun _ => Nat.le_refl _) rfl (monitor_unchanged k ht rfl) rfl fun _ _ => rfl, .refl _⟩
    | some n => exact countsSound_hmset h hok ht hprog hallows

end Call

/-! ## Runs -/

/-- The counts of a run go forward. -/
theorem forward_run {s s' : CounterThreads} {log : List Empty}
    (hsafe : Threads.AllSafe counterMonitor unread Any s) (h : CountsSound s)
    (hrun : Machine.Run counterStep WritesMeet s log s') :
    Threads.AllSafe counterMonitor unread Any s' ∧ CountsSound s' ∧ Forward s.store s'.store := by
  refine Threads.run_invariant (I := fun s' => CountsSound s' ∧ Forward s.store s'.store) safe_body hsafe ⟨h, .refl _⟩ ?_ ?_ hrun
  · rintro s1 i job ⟨h1, hforward⟩ - -
    exact ⟨countsSound_start h1 i job, hforward⟩
  · rintro s1 i t o k ⟨h1, hforward⟩ hok ht hprog hallows
    obtain ⟨h2, hforward'⟩ := countsSound_call h1 hok ht hprog hallows
    exact ⟨h2, hforward.trans hforward'⟩

/-- User 1 has read the count of group 5 while sending; another message is sent, and counted as read by user 1 elsewhere. -/
def overtaken : List (Sched CounterJob) :=
  [.start 0 (.sendMessage 1 5), .go 0, .go 0, .start 1 (.sendMessage 2 5), .go 1, .start 2 (.clearUserCounter 1 5), .go 2, .go 2]

section Turns

variable {s : CounterThreads} {i : Nat} {t : Runner counterCalls CounterJob}

/-- A turn in which nothing is written back. -/
theorem writesMeet_quiet {o : CounterOp} (ht : s.threads i = some t) (hnext : t.prog.next = some o)
    (hquiet : ∀ u g n, o ≠ .hmset u g (some n)) : WritesMeet s (.go i) := by
  intro t' u g n ht' hnext'
  obtain rfl := Option.some.inj (ht.symm.trans ht')
  exact absurd (Option.some.inj (hnext.symm.trans hnext')) (hquiet u g n)

/-- A turn in which a count is written back. -/
theorem writesMeet_hmset {u g n : Nat} (ht : s.threads i = some t) (hnext : t.prog.next = some (CounterOp.hmset u g (some n)))
    (hall : ∀ j n', wrote j u g n' ∈ sinceRead i g s.history → n' ≤ n) : WritesMeet s (.go i) := by
  intro t' u' g' n' ht' hnext'
  obtain rfl := Option.some.inj (ht.symm.trans ht')
  obtain ⟨rfl, rfl, heq⟩ := CounterOp.hmset.inj (Option.some.inj (hnext.symm.trans hnext'))
  obtain rfl := Option.some.inj heq
  exact hall

end Turns

/-- User 1 sends a message to group 5, and its count is read; before it is written back, it is written for user 1 elsewhere. -/
theorem run_readTwice : ∃ log s, Machine.Run counterStep WritesMeet (Threads.init Counters.init) log s ∧
    (∃ log' s', Machine.Run counterStep WritesMeet s log' s' ∧
      (∃ log'' s'', Machine.Run counterStep WritesMeet s' log'' s'' ∧ s''.store.userCount 1 5 = 1 ∧ s''.store.userCount 2 5 = 1 ∧
        s''.store.groupCount 5 = s.store.groupCount 5)) ∧ s.store.userCount 1 5 = s.store.groupCount 5 := by
  refine ⟨_, _, .step (.step (.step (.step (.step (.step .start (e := .start 0 (.sendMessage 1 5)) trivial rfl)
    (e := .go 0) (writesMeet_quiet rfl rfl ?_) rfl) (e := .go 0) (writesMeet_quiet rfl rfl ?_) rfl)
    (e := .start 1 (.clearUserCounter 1 5)) trivial rfl) (e := .go 1) (writesMeet_quiet rfl rfl ?_) rfl)
    (e := .go 1) (writesMeet_hmset rfl rfl ?_) rfl,
    ⟨_, _, .step .start (e := .go 0) (writesMeet_hmset rfl rfl ?_) rfl,
      ⟨_, _, .step (.step (.step .start (e := .start 2 (.clearUserCounter 2 5)) trivial rfl)
        (e := .go 2) (writesMeet_quiet rfl rfl ?_) rfl) (e := .go 2) (writesMeet_hmset rfl rfl ?_) rfl, rfl, rfl, rfl⟩⟩, rfl⟩
  · rintro u g n ⟨⟩
  · rintro u g n ⟨⟩
  · rintro u g n ⟨⟩
  · intro j n' hin
    cases hin
  · intro j n' hin
    rcases List.mem_cons.1 hin with heq | hin
    · obtain ⟨-, -, heq⟩ := CounterOp.hmset.inj (congrArg (fun e : Nat × Entry counterCalls => (e.2.1 : CounterOp)) heq)
      exact Nat.le_of_eq (Option.some.inj heq)
    · have heq := congrArg (fun e : Nat × Entry counterCalls => (e.2.1 : CounterOp)) (List.mem_singleton.1 hin)
      cases heq
  · rintro u g n ⟨⟩
  · intro j n' hin
    cases hin

end CountersAux

open CountersAux

/-- No job writes back a count after a later one, and the counters go forward. -/
theorem counters_forward (log : List Empty) (s : CounterThreads)
    (hrun : Machine.Run counterStep WritesMeet (Threads.init Counters.init) log s) :
    (∀ u g, s.store.userCount u g ≤ s.store.groupCount g) ∧
    ∀ log' (s' : CounterThreads), Machine.Run counterStep WritesMeet s log' s' →
      (∀ u g, s.store.userCount u g ≤ s'.store.userCount u g) ∧
      ∀ log'' (s'' : CounterThreads), Machine.Run counterStep WritesMeet s' log'' s'' →
        ∀ u g nCount, s.store.userCount u g = s.store.groupCount g → s''.store.groupCount g = s.store.groupCount g →
          unreadCount nCount (s'.store.groupCount g) (s''.store.userCount u g) = 0 := by
  obtain ⟨hsafe, h, -⟩ := forward_run Threads.allSafe_init countsSound_init hrun
  refine ⟨h.bounded, fun log' s' hrun' => ?_⟩
  obtain ⟨hsafe', h', hforward'⟩ := forward_run hsafe h hrun'
  refine ⟨hforward'.user, fun log'' s'' hrun'' u g nCount hall hsent => ?_⟩
  obtain ⟨-, h'', hforward''⟩ := forward_run hsafe' h' hrun''
  have hgroup := hforward'.group g
  have hgroup' := hforward''.group g
  have huser := hforward'.user u g
  have huser' := hforward''.user u g
  have hbound := h''.bounded u g
  rw [unreadCount, if_pos (by omega)]
  omega

/-- Two jobs write the count of one user, and a third one that of another user; the first user has read everything all the time. -/
theorem counters_forward_two : ∃ log s log' s' log'' s'', Machine.Run counterStep WritesMeet (Threads.init Counters.init) log s ∧
    Machine.Run counterStep WritesMeet s log' s' ∧ Machine.Run counterStep WritesMeet s' log'' s'' ∧
      s''.store.userCount 1 5 = 1 ∧ s''.store.userCount 2 5 = 1 ∧ (∀ u g, s.store.userCount u g ≤ s.store.groupCount g) ∧
      (∀ u g, s.store.userCount u g ≤ s'.store.userCount u g) ∧
      unreadCount 0 (s'.store.groupCount 5) (s''.store.userCount 1 5) = 0 := by
  obtain ⟨log, s, hrun, ⟨log', s', hrun', ⟨log'', s'', hrun'', hone, htwo, hsent⟩⟩, hall⟩ := run_readTwice
  obtain ⟨hbounded, hforward⟩ := counters_forward log s hrun
  obtain ⟨hgrows, hnothing⟩ := hforward log' s' hrun'
  exact ⟨log, s, log', s', log'', s'', hrun, hrun', hrun'', hone, htwo, hbounded, hgrows, hnothing log'' s'' hrun'' 1 5 0 hall hsent⟩

/-- The sender's first `HMSET` comes last, and turns the counter back from 2 to 1. -/
theorem counters_not_forward : ¬CountersForwardIn fun _ _ => True := by
  intro hall
  have hsteps : Machine.steps counterStep (Threads.init Counters.init) overtaken = some (_, _) := rfl
  have hback := ((hall _ _ (Machine.Run.of_steps (fun _ _ => trivial) .start hsteps)).2 _ _
    (.step .start (e := .go 0) trivial rfl)).1 1 5
  exact absurd hback (by decide)

end TeamTalk.DbProxy
