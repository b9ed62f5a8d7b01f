import TeamTalk.DbProxy.Responses

/-!
# Responses go back to the asker

In every run with fewer than 2^32 connections, the responses are taken from the list in the order in which they were added, each
once, and each is sent on the open connection that has its uuid, which no other connection ever had, or discarded when there is
none.
-/

namespace TeamTalk.DbProxy.Responses

variable {π : Type}

/-! ## The property -/

/-- The responses that were added, in order. -/
def added (log : List (Effect π)) : List (ResponsePdu π) :=
  log.filterMap fun
    | .added resp => some resp
    | _ => none

/-- The responses that were freed, in order. -/
def freed (log : List (Effect π)) : List (ResponsePdu π) :=
  log.filterMap fun
    | .freed resp => some resp
    | _ => none

/-- The responses that were sent, in order, each with its connection. -/
def sent (log : List (Effect π)) : List (Nat × ResponsePdu π) :=
  log.filterMap fun
    | .sent c resp => some (c, resp)
    | _ => none

/-- The responses that were sent on a connection, in order. -/
def sentOn (c : Nat) (log : List (Effect π)) : List (ResponsePdu π) := ((sent log).filter fun e => e.1 = c).map Prod.snd

/-- The response that the main thread has taken from the list and not yet freed. -/
def inHand (s : State π) : List (ResponsePdu π) :=
  match s.main with
  | .unlocking (some resp) => [resp]
  | .sending resp => [resp]
  | _ => []

/-- A thread is between `lock` and `unlock`. -/
def Inside (s : State π) : Holder → Prop
  | .main => s.main = .testing ∨ ∃ taken, s.main = .unlocking taken
  | .worker i => (∃ resp, s.workers i = .pushing resp) ∨ s.workers i = .unlocking

/-- What has become of the responses. -/
structure Delivered (log : List (Effect π)) (s : State π) : Prop where
  fifo : added log = freed log ++ inHand s ++ s.responsePduList
  once : ((sent log).map Prod.snd).Sublist (added log)
  inOrder : ∀ c conn, s.conns c = some conn → (sentOn c log).Sublist ((added log).filter fun resp => resp.connUuid = conn.uuid)
  uuids : ∀ c c' conn conn', s.conns c = some conn → s.conns c' = some conn' → conn.uuid = conn'.uuid → c = c'
  exclusive : ∀ t t', Inside s t → Inside s t' → t = t'

/-- What a step does with a response: it is sent on the open connection with its uuid, or closes that when it has no PDU, or is
discarded when there is none; and then it is freed. -/
def Answered (s : State π) (out : List (Effect π)) (resp : ResponsePdu π) : Prop :=
  (∃ c conn, s.conns c = some conn ∧ conn.uuid = resp.connUuid ∧ conn.isOpen = true ∧
    if resp.pdu.isSome then out = [.sent c resp, .freed resp] else out = [.closedBy c resp, .freed resp]) ∨
  (∀ c conn, s.conns c = some conn → conn.isOpen = true → conn.uuid ≠ resp.connUuid) ∧ out = [.discarded resp, .freed resp]

/-- Fewer than 2^32 connections come in. -/
def Few (s : State π) : Event π → Prop
  | .accept _ => s.nextConn + 1 < uint32Size
  | _ => True

namespace ResponsesAux

variable {s s' : State π} {log out : List (Effect π)} {e : Event π} {c : Nat} {conn : ProxyConn}

/-! ## The maps of connections -/

/-- The uuids count the connections; each map leads to the open connections. -/
structure Inv (s : State π) : Prop where
  alloctor : s.uuidAlloctor = s.nextConn
  few : s.nextConn < uint32Size
  uuid : ∀ c conn, s.conns c = some conn → c < s.nextConn ∧ conn.uuid = c + 1
  byUuid : ∀ u c, s.uuidConnMap u = some c ↔ ∃ conn, s.conns c = some conn ∧ conn.uuid = u ∧ conn.isOpen = true
  byHandle : ∀ h c, s.proxyConnMap h = some c ↔ ∃ conn, s.conns c = some conn ∧ conn.handle = h ∧ conn.isOpen = true
  socket : ∀ c conn, s.conns c = some conn → conn.isOpen = true → s.sockets conn.handle = true

/-- The invariant holds when the server starts. -/
theorem inv_init (π : Type) : Inv (State.init π) := by
  refine ⟨rfl, Nat.two_pow_pos 32, ?_, ?_, ?_, ?_⟩ <;> simp [State.init]

/-- The parts that a step in `SendResponsePduList` or `AddResponsePdu` does not touch. -/
theorem inv_congr (h : Inv s) (halloc : s'.uuidAlloctor = s.uuidAlloctor) (hconns : s'.conns = s.conns)
    (hnext : s'.nextConn = s.nextConn) (hsockets : s'.sockets = s.sockets) (hhandle : s'.proxyConnMap = s.proxyConnMap)
    (huuid : s'.uuidConnMap = s.uuidConnMap) : Inv s' := by
  obtain ⟨h1, h2, h3, h4, h5, h6⟩ := h
  constructor
  · rw [halloc, hnext, h1]
  · rw [hnext]
    exact h2
  · rw [hconns, hnext]
    exact h3
  · rw [hconns, huuid]
    exact h4
  · rw [hconns, hhandle]
    exact h5
  · rw [hconns, hsockets]
    exact h6

/-- The next connection's number is its count while there are few. -/
theorem nextUuid_eq (h : Inv s) (hfew : s.nextConn + 1 < uint32Size) : s.nextUuid = s.nextConn + 1 := by
  rw [State.nextUuid, h.alloctor, Nat.mod_eq_of_lt hfew]
  exact if_neg (Nat.succ_ne_zero _)

/-- A new connection keeps the invariant. -/
theorem inv_onConnect (h : Inv s) {handle : Nat} (hfree : s.sockets handle = false) (hfew : s.nextConn + 1 < uint32Size) :
    Inv (s.onConnect handle) := by
  have huuid := nextUuid_eq h hfew
  have hnew : ∀ conn, s.conns s.nextConn ≠ some conn := fun conn hc => lt_irrefl _ (h.uuid _ _ hc).1
  have hnoUuid : s.uuidConnMap s.nextUuid = none := by
    refine Option.eq_none_iff_forall_ne_some.2 fun c hc => ?_
    obtain ⟨conn, hconn, hu, -⟩ := (h.byUuid _ _).1 hc
    have := h.uuid c conn hconn
    omega
  have hnoHandle : s.proxyConnMap handle = none := by
    refine Option.eq_none_iff_forall_ne_some.2 fun c hc => ?_
    obtain ⟨conn, hconn, rfl, hopen⟩ := (h.byHandle _ _).1 hc
    rw [h.socket c conn hconn hopen] at hfree
    cases hfree
  refine ⟨huuid, hfew, fun c conn hc => ?_, fun u c => ?_, fun handle' c => ?_, fun c conn hc hopen => ?_⟩
  · simp only [State.onConnect] at hc ⊢
    split at hc
    next heq =>
      obtain rfl := Option.some.inj hc
      exact ⟨by omega, by rw [huuid, heq]⟩
    next =>
      obtain ⟨hlt, hu⟩ := h.uuid c conn hc
      exact ⟨by omega, hu⟩
  · simp only [State.onConnect]
    by_cases hc : c = s.nextConn
    · simp only [if_pos hc, Option.some.injEq, exists_eq_left']
      split
      next hu => simp [hu, hnoUuid, hc]
      next hu =>
        refine iff_of_false (fun hmap => ?_) fun hand => hu hand.1.symm
        obtain ⟨conn, hconn, -⟩ := (h.byUuid _ _).1 hmap
        rw [hc] at hconn
        exact hnew conn hconn
    · simp only [if_neg hc]
      rw [← h.byUuid]
      split
      next hu => simp [hu, hnoUuid, Ne.symm hc]
      next => rfl
  · simp only [State.onConnect]
    by_cases hc : c = s.nextConn
    · simp only [if_pos hc, Option.some.injEq, exists_eq_left']
      split
      next hh => simp [hh, hnoHandle, hc]
      next hh =>
        refine iff_of_false (fun hmap => ?_) fun hand => hh hand.1.symm
        obtain ⟨conn, hconn, -⟩ := (h.byHandle _ _).1 hmap
        rw [hc] at hconn
        exact hnew conn hconn
    · simp only [if_neg hc]
      rw [← h.byHandle]
      split
      next hh => simp [hh, hnoHandle, Ne.symm hc]
      next => rfl
  · simp only [State.onConnect] at hc ⊢
    split at hc
    next =>
      obtain rfl := Option.some.inj hc
      exact if_pos rfl
    next =>
      split
      · rfl
      · exact h.socket c conn hc hopen

/-- An open connection that is closed leaves both maps; no other open one has its uuid or its socket. -/
theorem inv_close (h : Inv s) (hc : s.conns c = some conn) (hopen : conn.isOpen = true) : Inv (s.close c conn) := by
  have huuid : s.uuidConnMap conn.uuid = some c := (h.byUuid _ _).2 ⟨conn, hc, rfl, hopen⟩
  have hhandle : s.proxyConnMap conn.handle = some c := (h.byHandle _ _).2 ⟨conn, hc, rfl, hopen⟩
  refine ⟨h.alloctor, h.few, fun c' conn' hc' => ?_, fun u c' => ?_, fun handle c' => ?_, fun c' conn' hc' hopen' => ?_⟩
  · simp only [State.close] at hc'
    split at hc'
    next heq =>
      obtain rfl := Option.some.inj hc'
      rw [heq]
      exact h.uuid c conn hc
    next => exact h.uuid c' conn' hc'
  · simp only [State.close]
    by_cases hc' : c' = c
    · refine iff_of_false (fun hmap => ?_) fun hand => ?_
      · split at hmap
        next => cases hmap
        next hu =>
          obtain ⟨conn', hconn', hu', -⟩ := (h.byUuid _ _).1 hmap
          rw [hc', hc] at hconn'
          obtain rfl := Option.some.inj hconn'
          exact hu hu'.symm
      · obtain ⟨conn', hconn', -, hopen'⟩ := hand
        rw [if_pos hc'] at hconn'
        obtain rfl := Option.some.inj hconn'
        cases hopen'
    · simp only [if_neg hc']
      rw [← h.byUuid]
      split
      next hu =>
        rw [hu, huuid]
        simp [Ne.symm hc']
      next => rfl
  · simp only [State.close]
    by_cases hc' : c' = c
    · refine iff_of_false (fun hmap => ?_) fun hand => ?_
      · split at hmap
        next => cases hmap
        next hh =>
          obtain ⟨conn', hconn', hh', -⟩ := (h.byHandle _ _).1 hmap
          rw [hc', hc] at hconn'
          obtain rfl := Option.some.inj hconn'
          exact hh hh'.symm
      · obtain ⟨conn', hconn', -, hopen'⟩ := hand
        rw [if_pos hc'] at hconn'
        obtain rfl := Option.some.inj hconn'
        cases hopen'
    · simp only [if_neg hc']
      rw [← h.byHandle]
      split
      next hh =>
        rw [hh, hhandle]
        simp [Ne.symm hc']
      next => rfl
  · simp only [State.close] at hc' ⊢
    split at hc'
    next =>
      obtain rfl := Option.some.inj hc'
      cases hopen'
    next hne =>
      split
      next heq =>
        have hother := (h.byHandle _ _).2 ⟨conn', hc', heq, hopen'⟩
        rw [hhandle] at hother
        exact absurd (Option.some.inj hother).symm hne
      next => exact h.socket c' conn' hc' hopen'

/-- What a map leads to is an open connection. -/
theorem get_eq_some {entry : Option Nat} (h : s.get entry = some (c, conn)) : entry = some c ∧ s.conns c = some conn := by
  cases entry with
  | none => cases h
  | some c' =>
    obtain ⟨conn', hconn', heq⟩ := Option.map_eq_some_iff.1 h
    obtain ⟨rfl, rfl⟩ := Prod.mk.inj heq
    exact ⟨rfl, hconn'⟩

/-- What the map of numbers finds is open. -/
theorem open_of_byUuid (h : Inv s) {u : Nat} (hget : s.get (s.uuidConnMap u) = some (c, conn)) :
    s.conns c = some conn ∧ conn.uuid = u ∧ conn.isOpen = true := by
  obtain ⟨hmap, hconn⟩ := get_eq_some hget
  obtain ⟨conn', hconn', hu, hopen⟩ := (h.byUuid _ _).1 hmap
  rw [hconn] at hconn'
  obtain rfl := Option.some.inj hconn'
  exact ⟨hconn, hu, hopen⟩

/-- And what the map of handles finds. -/
theorem open_of_byHandle (h : Inv s) {handle : Nat} (hget : s.get (s.proxyConnMap handle) = some (c, conn)) :
    s.conns c = some conn ∧ conn.isOpen = true := by
  obtain ⟨hmap, hconn⟩ := get_eq_some hget
  obtain ⟨conn', hconn', -, hopen⟩ := (h.byHandle _ _).1 hmap
  rw [hconn] at hconn'
  obtain rfl := Option.some.inj hconn'
  exact ⟨hconn, hopen⟩

/-- Where the map leads nowhere, no open connection has the uuid. -/
theorem none_of_byUuid (h : Inv s) {u : Nat} (hget : s.get (s.uuidConnMap u) = none) (hc : s.conns c = some conn)
    (hopen : conn.isOpen = true) : conn.uuid ≠ u := by
  rintro rfl
  rw [(h.byUuid _ _).2 ⟨conn, hc, rfl, hopen⟩, State.get, hc] at hget
  cases hget

/-- A response sent keeps the invariant. -/
theorem inv_sendResponse (h : Inv s) (resp : ResponsePdu π) : Inv (s.sendResponse resp).1 := by
  unfold State.sendResponse
  split
  next => exact h
  next c conn hget =>
    split
    · exact h
    · obtain ⟨hc, -, hopen⟩ := open_of_byUuid h hget
      exact inv_close h hc hopen

/-- Every step of a run with few connections keeps the maps. -/
theorem inv_step (h : Inv s) (hfew : Few s e) (hstep : s.step e = some (s', out)) : Inv s' := by
  cases e with
  | accept handle =>
    simp only [State.step] at hstep
    split at hstep
    next hfree =>
      cases hstep
      exact inv_onConnect h hfree hfew
    next => cases hstep
  | close handle =>
    simp only [State.step] at hstep
    split at hstep
    next =>
      split at hstep
      next =>
        cases hstep
        exact h
      next hget =>
        cases hstep
        obtain ⟨hc, hopen⟩ := open_of_byHandle h hget
        exact inv_close h hc hopen
    next => cases hstep
  | sendResponsePduList =>
    simp only [State.step] at hstep
    split at hstep
    · cases hstep
      exact inv_congr h rfl rfl rfl rfl rfl rfl
    · cases hstep
  | addResponsePdu i resp =>
    simp only [State.step] at hstep
    split at hstep
    · cases hstep
      exact inv_congr h rfl rfl rfl rfl rfl rfl
    · cases hstep
  | main =>
    simp only [State.step, State.mainStep] at hstep
    split at hstep
    next => cases hstep
    next =>
      split at hstep
      · cases hstep
        exact inv_congr h rfl rfl rfl rfl rfl rfl
      · cases hstep
    next =>
      split at hstep
      · cases hstep
        exact inv_congr h rfl rfl rfl rfl rfl rfl
      · cases hstep
        exact inv_congr h rfl rfl rfl rfl rfl rfl
    next =>
      cases hstep
      exact inv_congr h rfl rfl rfl rfl rfl rfl
    next =>
      cases hstep
      exact inv_congr h rfl rfl rfl rfl rfl rfl
    next resp _ =>
      cases hstep
      exact inv_congr (inv_sendResponse h resp) rfl rfl rfl rfl rfl rfl
  | worker i =>
    simp only [State.step, State.workerStep] at hstep
    split at hstep
    next => cases hstep
    next =>
      split at hstep
      · cases hstep
        exact inv_congr h rfl rfl rfl rfl rfl rfl
      · cases hstep
    next =>
      cases hstep
      exact inv_congr h rfl rfl rfl rfl rfl rfl
    next =>
      cases hstep
      exact inv_congr h rfl rfl rfl rfl rfl rfl

/-! ## The lock -/

/-- The lock is held by the thread that is between `lock` and `unlock`, if there is one. -/
def Locked (s : State π) : Prop := ∀ t, Inside s t ↔ s.listLock = some t

/-- Nobody is inside the lock at the start. -/
theorem locked_init (π : Type) : Locked (State.init π) := by
  intro t
  cases t <;> simp [Inside, State.init]

/-- Who is inside decides about the lock. -/
theorem locked_congr (h : Locked s) (hlock : s'.listLock = s.listLock) (hinside : ∀ t, Inside s' t ↔ Inside s t) : Locked s' := by
  intro t
  rw [hinside, hlock]
  exact h t

/-- A thread takes the lock, when nobody has it. -/
theorem locked_lock (h : Locked s) (hfree : s.listLock = none) {t : Holder} (hlock : s'.listLock = some t)
    (hinside : ∀ t', Inside s' t' ↔ t' = t ∨ Inside s t') : Locked s' := by
  intro t'
  rw [hinside, hlock, h t', hfree]
  simp [eq_comm]

/-- The thread that has the lock gives it back. -/
theorem locked_unlock (h : Locked s) {t : Holder} (hmine : Inside s t) (hlock : s'.listLock = none)
    (hinside : ∀ t', Inside s' t' ↔ t' ≠ t ∧ Inside s t') : Locked s' := by
  intro t'
  rw [hinside, hlock, h t', (h t).1 hmine]
  simp [eq_comm]

/-- Other threads are where they were, when one worker goes on. -/
theorem inside_of_others {i : Nat} (hmain : s'.main = s.main) (hworkers : ∀ j, j ≠ i → s'.workers j = s.workers j) {t : Holder}
    (ht : t ≠ .worker i) : Inside s' t ↔ Inside s t := by
  cases t with
  | main => simp only [Inside, hmain]
  | worker j => simp only [Inside, hworkers j fun heq => ht (congrArg Holder.worker heq)]

/-- A worker's step keeps one inside at most. -/
theorem locked_worker (h : Locked s) {i : Nat} (hstep : s.step (.worker i) = some (s', out)) : Locked s' := by
  simp only [State.step, State.workerStep] at hstep
  split at hstep
  next => cases hstep
  next resp hat =>
    split at hstep
    next hfree =>
      cases hstep
      refine locked_lock h hfree rfl fun t => ?_
      by_cases ht : t = .worker i
      · simp [ht, Inside, State.setWorker]
      · rw [or_iff_right ht]
        refine inside_of_others ?_ (fun j hj => ?_) ht
        · rfl
        · exact if_neg hj
    next => cases hstep
  next resp hat =>
    cases hstep
    refine locked_congr h rfl fun t => ?_
    by_cases ht : t = .worker i
    · simp [ht, Inside, State.setWorker, hat]
    · refine inside_of_others ?_ (fun j hj => ?_) ht
      · rfl
      · exact if_neg hj
  next hat =>
    cases hstep
    refine locked_unlock h (t := .worker i) (.inr hat) rfl fun t => ?_
    by_cases ht : t = .worker i
    · simp [ht, Inside, State.setWorker]
    · rw [and_iff_right ht]
      refine inside_of_others ?_ (fun j hj => ?_) ht
      · rfl
      · exact if_neg hj

/-- Sending a response leaves lock, workers and list alone. -/
theorem sendResponse_frame (s : State π) (resp : ResponsePdu π) : (s.sendResponse resp).1.listLock = s.listLock ∧
    (s.sendResponse resp).1.workers = s.workers ∧ (s.sendResponse resp).1.responsePduList = s.responsePduList := by
  unfold State.sendResponse
  split
  · exact ⟨rfl, rfl, rfl⟩
  · split <;> exact ⟨rfl, rfl, rfl⟩

/-- The main loop's step keeps one inside at most. -/
theorem locked_main (h : Locked s) (hstep : s.step .main = some (s', out)) : Locked s' := by
  simp only [State.step, State.mainStep] at hstep
  split at hstep
  next => cases hstep
  next hat =>
    split at hstep
    next hfree =>
      cases hstep
      refine locked_lock h hfree rfl fun t => ?_
      cases t <;> simp [Inside]
    next => cases hstep
  next hat =>
    split at hstep
    all_goals
      cases hstep
      refine locked_congr h rfl fun t => ?_
      cases t <;> simp [Inside, hat]
  next hat =>
    cases hstep
    refine locked_unlock h (t := .main) (.inr ⟨_, hat⟩) rfl fun t => ?_
    cases t <;> simp [Inside]
  next hat =>
    cases hstep
    refine locked_unlock h (t := .main) (.inr ⟨_, hat⟩) rfl fun t => ?_
    cases t <;> simp [Inside]
  next resp hat =>
    cases hstep
    obtain ⟨hlock, hworkers, -⟩ := sendResponse_frame s resp
    refine locked_congr h hlock fun t => ?_
    cases t with
    | main => simp [Inside, hat]
    | worker i => simp [Inside, hworkers]

/-- And so does every step. -/
theorem locked_step (h : Locked s) (hstep : s.step e = some (s', out)) : Locked s' := by
  cases e with
  | accept handle =>
    simp only [State.step] at hstep
    split at hstep
    · cases hstep
      exact h
    · cases hstep
  | close handle =>
    simp only [State.step] at hstep
    split at hstep
    · split at hstep
      · cases hstep
        exact h
      · cases hstep
        exact h
    · cases hstep
  | sendResponsePduList =>
    simp only [State.step] at hstep
    split at hstep
    next hat =>
      cases hstep
      refine locked_congr h rfl fun t => ?_
      cases t <;> simp [Inside, hat]
    next => cases hstep
  | addResponsePdu i resp =>
    simp only [State.step] at hstep
    split at hstep
    next hat =>
      cases hstep
      refine locked_congr h rfl fun t => ?_
      by_cases ht : t = .worker i
      · simp [ht, Inside, State.setWorker, hat]
      · refine inside_of_others ?_ (fun j hj => ?_) ht
        · rfl
        · exact if_neg hj
    next => cases hstep
  | main => exact locked_main h hstep
  | worker i => exact locked_worker h hstep

/-! ## The list -/

/-- What a step does to the responses that are added and not yet freed: it leaves them, adds one behind them, or is done with
the first of them. -/
theorem step_list (hstep : s.step e = some (s', out)) :
    (out = [] ∧ inHand s' ++ s'.responsePduList = inHand s ++ s.responsePduList) ∨
    (∃ resp, out = [.added resp] ∧ inHand s' ++ s'.responsePduList = inHand s ++ s.responsePduList ++ [resp]) ∨
    ∃ resp, s.main = .sending resp ∧ out = (s.sendResponse resp).2 ∧
      inHand s ++ s.responsePduList = resp :: (inHand s' ++ s'.responsePduList) := by
  cases e with
  | accept handle =>
    simp only [State.step] at hstep
    split at hstep
    · cases hstep
      exact .inl ⟨rfl, rfl⟩
    · cases hstep
  | close handle =>
    simp only [State.step] at hstep
    split at hstep
    · split at hstep
      · cases hstep
        exact .inl ⟨rfl, rfl⟩
      · cases hstep
        exact .inl ⟨rfl, rfl⟩
    · cases hstep
  | sendResponsePduList =>
    simp only [State.step] at hstep
    split at hstep
    next hat =>
      cases hstep
      exact .inl ⟨rfl, by simp only [inHand, hat]⟩
    next => cases hstep
  | addResponsePdu i resp =>
    simp only [State.step] at hstep
    split at hstep
    · cases hstep
      exact .inl ⟨rfl, rfl⟩
    · cases hstep
  | main =>
    simp only [State.step, State.mainStep] at hstep
    split at hstep
    next => cases hstep
    next hat =>
      split at hstep
      · cases hstep
        exact .inl ⟨rfl, by simp only [inHand, hat]⟩
      · cases hstep
    next hat =>
      split at hstep
      next hnil =>
        cases hstep
        exact .inl ⟨rfl, by simp only [inHand, hat]⟩
      next hcons =>
        cases hstep
        exact .inl ⟨rfl, by simp only [inHand, hat, hcons, List.nil_append, List.singleton_append]⟩
    next hat =>
      cases hstep
      exact .inl ⟨rfl, by simp only [inHand, hat]⟩
    next hat =>
      cases hstep
      exact .inl ⟨rfl, by simp only [inHand, hat]⟩
    next resp hat =>
      cases hstep
      refine .inr (.inr ⟨resp, hat, rfl, ?_⟩)
      simp only [inHand, hat, (sendResponse_frame s resp).2.2, List.nil_append, List.singleton_append]
  | worker i =>
    simp only [State.step, State.workerStep] at hstep
    split at hstep
    next => cases hstep
    next =>
      split at hstep
      · cases hstep
        exact .inl ⟨rfl, rfl⟩
      · cases hstep
    next resp _ =>
      cases hstep
      exact .inr (.inl ⟨resp, rfl, (List.append_assoc ..).symm⟩)
    next =>
      cases hstep
      exact .inl ⟨rfl, rfl⟩

/-- A response goes to the connection that asked, or nowhere. -/
theorem answered_sendResponse (h : Inv s) (resp : ResponsePdu π) : Answered s (s.sendResponse resp).2 resp := by
  unfold State.sendResponse
  split
  next hget => exact .inr ⟨fun c conn hc hopen => none_of_byUuid h hget hc hopen, rfl⟩
  next c conn hget =>
    obtain ⟨hc, huuid, hopen⟩ := open_of_byUuid h hget
    refine .inl ⟨c, conn, hc, huuid, hopen, ?_⟩
    cases hpdu : resp.pdu with
    | some pdu =>
      rw [Option.isSome_some, if_pos rfl]
    | none =>
      rw [Option.isSome_none, if_neg Bool.false_ne_true]

/-- What holds after every step of a run. -/
structure Kept (log : List (Effect π)) (s : State π) : Prop where
  inv : Inv s
  locked : Locked s
  fifo : added log = freed log ++ (inHand s ++ s.responsePduList)
  once : ((sent log).map Prod.snd).Sublist (freed log)
  mine : ∀ e ∈ sent log, e.2.connUuid = e.1 + 1

/-- Each step keeps the account of the responses. -/
theorem kept_step (h : Kept log s) (hfew : Few s e) (hstep : s.step e = some (s', out)) : Kept (log ++ out) s' := by
  have hinv := inv_step h.inv hfew hstep
  have hlocked := locked_step h.locked hstep
  rcases step_list hstep with ⟨rfl, hlist⟩ | ⟨resp, rfl, hlist⟩ | ⟨resp, -, rfl, hlist⟩
  · rw [List.append_nil]
    exact ⟨hinv, hlocked, by rw [hlist, h.fifo], h.once, h.mine⟩
  · refine ⟨hinv, hlocked, ?_, ?_, ?_⟩
    · have hadd : added (log ++ [.added resp]) = added log ++ [resp] := List.filterMap_append
      have hfree : freed (log ++ [.added resp]) = freed log := List.filterMap_append.trans (List.append_nil _)
      rw [hadd, hfree, hlist, h.fifo, List.append_assoc]
    · have hsent : sent (log ++ [.added resp]) = sent log := List.filterMap_append.trans (List.append_nil _)
      have hfree : freed (log ++ [.added resp]) = freed log := List.filterMap_append.trans (List.append_nil _)
      rw [hsent, hfree]
      exact h.once
    · have hsent : sent (log ++ [.added resp]) = sent log := List.filterMap_append.trans (List.append_nil _)
      rw [hsent]
      exact h.mine
  · -- what the turn puts out adds nothing, frees the response, and sends it at most once
    obtain ⟨hadd, hfree, hsent⟩ : added (s.sendResponse resp).2 = [] ∧ freed (s.sendResponse resp).2 = [resp] ∧
        (sent (s.sendResponse resp).2 = [] ∨ ∃ c, sent (s.sendResponse resp).2 = [(c, resp)] ∧ resp.connUuid = c + 1) := by
      rcases answered_sendResponse h.inv resp with ⟨c, conn, hc, huuid, -, hout⟩ | ⟨-, hout⟩
      · split at hout
        · rw [hout]
          exact ⟨rfl, rfl, .inr ⟨c, rfl, huuid.symm.trans (h.inv.uuid c conn hc).2⟩⟩
        · rw [hout]
          exact ⟨rfl, rfl, .inl rfl⟩
      · rw [hout]
        exact ⟨rfl, rfl, .inl rfl⟩
    have hadded : added (log ++ (s.sendResponse resp).2) = added log := by
      rw [added, List.filterMap_append]
      exact (congrArg (added log ++ ·) hadd).trans (List.append_nil _)
    have hfreed : freed (log ++ (s.sendResponse resp).2) = freed log ++ [resp] := by
      rw [freed, List.filterMap_append]
      exact congrArg (freed log ++ ·) hfree
    have happend : sent (log ++ (s.sendResponse resp).2) = sent log ++ sent (s.sendResponse resp).2 := List.filterMap_append
    refine ⟨hinv, hlocked, ?_, ?_, ?_⟩
    · rw [hadded, hfreed, h.fifo, hlist, List.append_assoc, List.singleton_append]
    · rw [hfreed, happend, List.map_append]
      rcases hsent with hnone | ⟨c, hone, -⟩
      · rw [hnone]
        exact h.once.append (List.nil_sublist _)
      · rw [hone]
        exact h.once.append (List.Sublist.refl _)
    · rw [happend]
      intro e' he'
      rcases List.mem_append.1 he' with hold | hnew
      · exact h.mine e' hold
      · rcases hsent with hnone | ⟨c, hone, huuid⟩
        · rw [hnone] at hnew
          exact absurd hnew List.not_mem_nil
        · rw [hone] at hnew
          obtain rfl := List.mem_singleton.1 hnew
          exact huuid

/-- And so does a run. -/
theorem kept_of_run (h : Machine.Run State.step Few (State.init π) log s) : Kept log s :=
  h.invariant (I := Kept) ⟨inv_init π, locked_init π, rfl, List.Sublist.refl _, fun _ he => absurd he List.not_mem_nil⟩
    fun h hok hstep => kept_step h hok hstep

/-- What was sent on a connection was added with its uuid. -/
theorem sublist_sentOn (h : Kept log s) (hc : s.conns c = some conn) :
    (sentOn c log).Sublist ((added log).filter fun resp => resp.connUuid = conn.uuid) := by
  have hall : ((sent log).map Prod.snd).Sublist (added log) := by
    rw [h.fifo]
    exact h.once.trans (List.sublist_append_left _ _)
  have hmine : (sentOn c log).filter (fun resp => resp.connUuid = conn.uuid) = sentOn c log := by
    refine List.filter_eq_self.2 fun resp hresp => decide_eq_true ?_
    obtain ⟨e, he, rfl⟩ := List.mem_map.1 hresp
    obtain ⟨hsent, hon⟩ := List.mem_filter.1 he
    rw [h.mine e hsent, of_decide_eq_true hon, (h.inv.uuid c conn hc).2]
  rw [← hmine]
  exact ((List.filter_sublist.map Prod.snd).trans hall).filter _

end ResponsesAux

open ResponsesAux

/-- In every run with fewer than 2^32 connections: the responses are freed in the order in which they were added; each is sent
at most once, on the open connection that has its uuid, or is discarded when there is none; and those that are sent on one
connection are sent in the order in which they were added. -/
theorem responses_go_back {log : List (Effect π)} {s : State π} (h : Machine.Run State.step Few (State.init π) log s) :
    Delivered log s ∧ ∀ e s' out, s.step e = some (s', out) → ∀ resp, .freed resp ∈ out → Answered s out resp := by
  have hkept := kept_of_run h
  refine ⟨⟨?_, ?_, fun c conn hc => sublist_sentOn hkept hc, fun c c' conn conn' hc hc' huuid => ?_, fun t t' ht ht' => ?_⟩, ?_⟩
  · rw [List.append_assoc]
    exact hkept.fifo
  · rw [hkept.fifo]
    exact hkept.once.trans (List.sublist_append_left _ _)
  · rw [(hkept.inv.uuid c conn hc).2, (hkept.inv.uuid c' conn' hc').2] at huuid
    exact Nat.succ.inj huuid
  · exact Option.some.inj (((hkept.locked t).1 ht).symm.trans ((hkept.locked t').1 ht'))
  · intro e s' out hstep resp hfreed
    rcases step_list hstep with ⟨rfl, -⟩ | ⟨resp', rfl, -⟩ | ⟨resp', -, rfl, -⟩
    · exact absurd hfreed List.not_mem_nil
    · cases List.mem_singleton.1 hfreed
    · have hanswered := answered_sendResponse hkept.inv resp'
      obtain rfl : resp = resp' := by
        rcases hanswered with ⟨c, conn, -, -, -, hout⟩ | ⟨-, hout⟩
        · split at hout <;> simpa [hout] using hfreed
        · simpa [hout] using hfreed
      exact hanswered

/-- A response is sent after a connection came in, and one for a connection that there never was is discarded. -/
theorem responses_go_back_two : ∃ log s, Machine.Run State.step Few (State.init Nat) log s ∧ sentOn 0 log = [⟨1, some 5⟩] ∧
    Delivered log s ∧ ∀ e s' out, s.step e = some (s', out) → ∀ resp, .freed resp ∈ out → Answered s out resp := by
  have hsteps : ∃ s log, Machine.steps State.step ((State.init Nat).onConnect 9)
      [.addResponsePdu 0 ⟨1, some 5⟩, .addResponsePdu 1 ⟨2, some 6⟩, .worker 0, .worker 0, .worker 0, .worker 1, .worker 1,
        .worker 1, .sendResponsePduList, .main, .main, .main, .main, .main, .main, .main, .main] = some (s, log) ∧
      sentOn 0 log = [⟨1, some 5⟩] := ⟨_, _, rfl, rfl⟩
  obtain ⟨s, log, hsteps, hsent⟩ := hsteps
  have hfirst : Machine.Run State.step Few (State.init Nat) ([] ++ []) ((State.init Nat).onConnect 9) :=
    .step (e := .accept 9) .start (Nat.one_lt_two_pow (n := 32) (by decide)) rfl
  have hrun : Machine.Run State.step Few (State.init Nat) ([] ++ [] ++ log) s := by
    refine hfirst.of_steps_mem (fun e he s => ?_) hsteps
    simp only [List.mem_cons, List.not_mem_nil, or_false] at he
    rcases he with rfl | rfl | rfl | rfl | rfl | rfl | rfl | rfl | rfl | rfl | rfl | rfl | rfl | rfl | rfl | rfl | rfl <;>
      trivial
  exact ⟨_, s, hrun, hsent, responses_go_back hrun⟩

end TeamTalk.DbProxy.Responses
