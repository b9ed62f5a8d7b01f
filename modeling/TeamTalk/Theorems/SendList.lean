import TeamTalk.MsgServer.SendList

/-!
# The list of messages that wait for an acknowledgement

The loop of `OnTimer` stops at the first message that is not missed yet. As every operation keeps the list in the order of the times, it
takes exactly the messages that are missed, unless the timer closes the connection instead.
-/

namespace TeamTalk.SendList

open Action Timers

/-! ## The property -/

/-- A list in the order of the times. -/
def Ordered (list : List MsgAck) : Prop := list.Pairwise fun a b => a.timestamp ≤ b.timestamp

/-- A message is missed: it has waited for the whole time. -/
def Missed (tick : Nat) (msg : MsgAck) : Prop := msg.timestamp + timeoutWaitingMsgDataAck ≤ tick

instance (tick : Nat) (msg : MsgAck) : Decidable (Missed tick msg) := inferInstanceAs (Decidable (_ ≤ _))

/-- One entry for a message is removed if there is one, and nothing else. -/
def RemovesOne (msgId fromId : Nat) (list list' : List MsgAck) : Prop :=
  (∃ before msg behind, list = before ++ msg :: behind ∧ msg.msgId = msgId ∧ msg.fromId = fromId ∧ list' = before ++ behind) ∨
    ((∀ msg ∈ list, ¬(msg.msgId = msgId ∧ msg.fromId = fromId)) ∧ list' = list)

/-- What an event does to the list, and the timer to the counter. -/
def Exact (s s' : State) (tick : Nat) : Event → Prop
  | .addToSendList msgId fromId => s'.conn.sendMsgList = s.conn.sendMsgList ++ [{ msgId, fromId, timestamp := tick }]
  | .delFromSendList msgId fromId => RemovesOne msgId fromId s.conn.sendMsgList s'.conn.sendMsgList
  | .onTimer =>
    s'.conn.sendMsgList = s.conn.sendMsgList.filter (fun msg => ¬Missed tick msg) ∧
      s'.counters.downMsgMissCnt = s.counters.downMsgMissCnt + UInt32.ofNat (s.conn.sendMsgList.countP (Missed tick ·))
  | _ => s'.conn.sendMsgList = s.conn.sendMsgList

/-- The same where the timer does not close the connection. Where it does, the list and the counters stay. -/
def ExactOrCloses (s s' : State) (tick : Nat) (event : Event) : Prop :=
  if event = .onTimer ∧ timesOut s.conn tick = true then
    s'.closed = true ∧ s'.conn.sendMsgList = s.conn.sendMsgList ∧ s'.counters = s.counters
  else Exact s s' tick event

namespace SendListAux

variable {s : State} {list : List MsgAck} {tick : Nat} {events : List (Nat × Event)} {event : Event}

/-! ## The loop -/

/-- A tick and a time-out fit a `uint64_t`. -/
theorem mod_timeout {t timeout : Nat} (ht : t < 2 ^ 63) (htimeout : timeout < 2 ^ 63) : (t + timeout) % uint64Size = t + timeout := by
  refine Nat.mod_eq_of_lt ?_
  simp only [uint64Size]
  omega

/-- In a list in order, the messages before the first that is not missed are those that are. -/
theorem sweep_eq (hlong : ∀ msg ∈ list, msg.timestamp < 2 ^ 63) (h : Ordered list) (missCnt : UInt32) :
    sweep tick list missCnt = (list.filter (fun msg => ¬Missed tick msg), missCnt + UInt32.ofNat (list.countP (Missed tick ·))) := by
  induction list generalizing missCnt with
  | nil => simp [sweep]
  | cons msg rest ih =>
    obtain ⟨hfirst, hrest⟩ := List.pairwise_cons.1 h
    have hmod : (msg.timestamp + timeoutWaitingMsgDataAck) % uint64Size = msg.timestamp + timeoutWaitingMsgDataAck :=
      mod_timeout (hlong msg List.mem_cons_self) (by decide)
    by_cases hmissed : Missed tick msg
    · have hge : tick ≥ msg.timestamp + timeoutWaitingMsgDataAck := hmissed
      have hnext := ih (fun m hm => hlong m (List.mem_cons_of_mem msg hm)) hrest (missCnt + 1)
      rw [sweep, hmod, if_pos hge, hnext, List.countP_cons_of_pos (by simpa using hmissed)]
      simp [hmissed, UInt32.ofNat_add, UInt32.add_assoc, UInt32.add_comm]
    · have hlt : ¬tick ≥ msg.timestamp + timeoutWaitingMsgDataAck := hmissed
      have hyoung : ∀ m ∈ rest, ¬Missed tick m := by
        intro m hm hle
        exact hmissed (Nat.le_trans (Nat.add_le_add_right (hfirst m hm) _) hle)
      have hall : ∀ m ∈ msg :: rest, ¬Missed tick m := List.forall_mem_cons.2 ⟨hmissed, hyoung⟩
      have hcount : (msg :: rest).countP (Missed tick ·) = 0 := by simpa [List.countP_eq_zero] using hall
      have hfilter : (msg :: rest).filter (fun m => ¬Missed tick m) = msg :: rest := by
        simpa [List.filter_eq_self] using hall
      rw [sweep, hmod, if_neg hlt, hcount, hfilter]
      simp

/-- The list that the loop leaves. -/
theorem sweep_fst (hlong : ∀ msg ∈ list, msg.timestamp < 2 ^ 63) (missCnt : UInt32) :
    (sweep tick list missCnt).1 = list.dropWhile fun msg => tick ≥ msg.timestamp + timeoutWaitingMsgDataAck := by
  induction list generalizing missCnt with
  | nil => rfl
  | cons msg rest ih =>
    have hrest := ih fun m hm => hlong m (List.mem_cons_of_mem msg hm)
    rw [sweep, mod_timeout (hlong msg List.mem_cons_self) (by decide)]
    by_cases hmissed : tick ≥ msg.timestamp + timeoutWaitingMsgDataAck
    · simp [hmissed, hrest]
    · simp [hmissed]

/-! ## One event -/

theorem removesOne_eraseP (msgId fromId : Nat) (list : List MsgAck) :
    RemovesOne msgId fromId list (list.eraseP fun msg => msg.msgId = msgId ∧ msg.fromId = fromId) := by
  by_cases h : ∃ msg ∈ list, msg.msgId = msgId ∧ msg.fromId = fromId
  · obtain ⟨msg, hmem, hmatch⟩ := h
    obtain ⟨found, before, behind, -, hfound, hlist, herase⟩ :=
      List.exists_of_eraseP (p := fun msg => msg.msgId = msgId ∧ msg.fromId = fromId) hmem (decide_eq_true hmatch)
    have heq := of_decide_eq_true hfound
    exact .inl ⟨before, found, behind, hlist, heq.1, heq.2, herase⟩
  · have hnone : ∀ msg ∈ list, ¬(msg.msgId = msgId ∧ msg.fromId = fromId) := fun msg hmem hmatch => h ⟨msg, hmem, hmatch⟩
    exact .inr ⟨hnone, List.eraseP_of_forall_not fun msg hmem => by simpa using hnone msg hmem⟩

/-- What is kept of a run: the list is in order, and each of its times is the tick of an event. -/
structure Inv (events : List (Nat × Event)) (s : State) : Prop where
  ordered : Ordered s.conn.sendMsgList
  ticks : ∀ msg ∈ s.conn.sendMsgList, msg.timestamp ∈ events.map Prod.fst

/-- A list that loses entries. -/
theorem Inv.of_sublist {s' : State} (h : Inv events s) (hsub : s'.conn.sendMsgList.Sublist s.conn.sendMsgList) (e : Nat × Event) :
    Inv (events ++ [e]) s' :=
  ⟨h.ordered.sublist hsub, fun msg hmem => by simpa using .inl (by simpa using h.ticks msg (hsub.subset hmem))⟩

theorem Inv.timestamp_lt (h : Inv events s) (hclock : Clocked events) : ∀ msg ∈ s.conn.sendMsgList, msg.timestamp < 2 ^ 63 := by
  intro msg hmem
  obtain ⟨e, he, heq⟩ := List.mem_map.1 (h.ticks msg hmem)
  exact heq ▸ hclock.long e he

theorem timesOut_msgCnt (conn : MsgConn) (tick : Nat) : timesOut { conn with msgCntPerSec := 0 } tick = timesOut conn tick := rfl

/-- What a connection that is not closed by the timer is like, without the modulus. -/
theorem timesOut_eq_false {conn : MsgConn} (hrecv : conn.lastRecvTick < 2 ^ 63) (hlogin : conn.loginTime < 2 ^ 63)
    (h : timesOut conn tick = false) :
    ¬tick > conn.lastRecvTick + (if checkClientTypeMobile conn.clientType then mobileClientTimeout else clientTimeout) ∧
      ¬((!conn.bOpen) = true ∧ tick > conn.loginTime + timeoutWaitLoginResponse) := by
  have htimeout : (if checkClientTypeMobile conn.clientType then mobileClientTimeout else clientTimeout) < 2 ^ 63 := by
    split <;> decide
  rw [timesOut, mod_timeout hrecv htimeout, mod_timeout hlogin (by decide)] at h
  simpa using h

/-- A timer that closes the connection. -/
theorem onTimer_closes (h : timesOut s.conn tick = true) :
    s.onTimer tick = { s with conn := { s.conn with msgCntPerSec := 0 }, closed := true } := by
  rw [State.onTimer, timesOut_msgCnt, if_pos h]

/-- A timer that looks at the list. -/
theorem onTimer_sweeps (hlong : ∀ msg ∈ s.conn.sendMsgList, msg.timestamp < 2 ^ 63) (hordered : Ordered s.conn.sendMsgList)
    (h : timesOut s.conn tick = false) : Exact s (s.onTimer tick) tick .onTimer := by
  rw [State.onTimer, timesOut_msgCnt, if_neg (by rw [h]; decide)]
  dsimp only [Exact]
  rw [sweep_eq hlong hordered]
  exact ⟨rfl, rfl⟩

theorem exactOrCloses_of_ne {s' : State} (hne : event ≠ .onTimer) (h : Exact s s' tick event) : ExactOrCloses s s' tick event := by
  rw [ExactOrCloses, if_neg fun hboth => hne hboth.1]
  exact h

/-- Every event does what it should. -/
theorem exact_step (hclock : Clocked events) (h : Inv events s) (hopen : s.closed = false) :
    ExactOrCloses s (s.step (tick, event)) tick event := by
  rw [State.step, if_neg (by rw [hopen]; decide)]
  cases event with
  | addToSendList msgId fromId => exact exactOrCloses_of_ne (by simp) rfl
  | delFromSendList msgId fromId => exact exactOrCloses_of_ne (by simp) (removesOne_eraseP msgId fromId _)
  | onTimer =>
    rw [ExactOrCloses]
    by_cases htimes : timesOut s.conn tick = true
    · rw [if_pos ⟨rfl, htimes⟩]
      dsimp only
      rw [onTimer_closes htimes]
      exact ⟨rfl, rfl, rfl⟩
    · rw [if_neg fun hboth => htimes hboth.2]
      exact onTimer_sweeps (h.timestamp_lt hclock) h.ordered (by simpa using htimes)
  | fields conn => exact exactOrCloses_of_ne (by simp) rfl
  | counters counters => exact exactOrCloses_of_ne (by simp) rfl
  | close => exact exactOrCloses_of_ne (by simp) rfl

theorem clocked_left {more : List (Nat × Event)} (h : Clocked (events ++ more)) : Clocked events := by
  have hsorted := h.sorted
  rw [List.map_append, List.pairwise_append] at hsorted
  exact ⟨hsorted.1, fun e he => h.long e (List.mem_append_left _ he)⟩

/-- And keeps the list in order. -/
theorem inv_step (hclock : Clocked (events ++ [(tick, event)])) (h : Inv events s) : Inv (events ++ [(tick, event)]) (s.step (tick, event)) := by
  have hlast : ∀ t ∈ events.map Prod.fst, t ≤ tick := by
    have hsorted := hclock.sorted
    rw [List.map_append, List.pairwise_append] at hsorted
    exact fun t ht => hsorted.2.2 t ht tick (by simp)
  by_cases hclosed : s.closed = true
  · rw [State.step, if_pos hclosed]
    exact h.of_sublist (List.Sublist.refl _) _
  have hexact : ExactOrCloses s (s.step (tick, event)) tick event := exact_step (clocked_left hclock) h (by simpa using hclosed)
  rw [ExactOrCloses] at hexact
  split at hexact
  · exact h.of_sublist (by rw [hexact.2.1]) _
  · cases event with
    | addToSendList msgId fromId =>
      refine ⟨?_, ?_⟩ <;> rw [show (s.step (tick, .addToSendList msgId fromId)).conn.sendMsgList = _ from hexact]
      · refine List.pairwise_append.2 ⟨h.ordered, List.pairwise_singleton _ _, ?_⟩
        intro a ha b hb
        rw [List.mem_singleton.1 hb]
        exact hlast _ (h.ticks a ha)
      · intro msg hmem
        rcases List.mem_append.1 hmem with hold | hnew
        · simpa using .inl (by simpa using h.ticks msg hold)
        · rw [List.mem_singleton.1 hnew]
          simp
    | delFromSendList msgId fromId =>
      rcases hexact with ⟨before, msg, behind, hlist, -, -, hlist'⟩ | ⟨-, hlist'⟩
      · refine h.of_sublist ?_ _
        rw [hlist', hlist]
        exact (List.sublist_cons_self msg behind).append_left before
      · exact h.of_sublist (by rw [hlist']) _
    | onTimer => exact h.of_sublist (by rw [hexact.1]; exact List.filter_sublist) _
    | fields conn => exact h.of_sublist (by rw [show _ = s.conn.sendMsgList from hexact]) _
    | counters counters => exact h.of_sublist (by rw [show _ = s.conn.sendMsgList from hexact]) _
    | close => exact h.of_sublist (by rw [show _ = s.conn.sendMsgList from hexact]) _

/-! ## A run -/

theorem run_append (s : State) (events : List (Nat × Event)) (e : Nat × Event) : s.run (events ++ [e]) = (s.run events).step e := by
  simp [State.run]

theorem inv_run (handle start clientType : Nat) (counters : Counters) (hclock : Clocked events) :
    Inv events ((State.new handle start clientType counters).run events) := by
  induction events using List.reverseRecOn with
  | nil => exact ⟨List.Pairwise.nil, fun msg hmem => by cases hmem⟩
  | append_singleton events e ih =>
    rw [run_append]
    exact inv_step hclock (ih (clocked_left hclock))

end SendListAux

open SendListAux

/-! ## In the server -/

/-- The timer in the model of the whole server leaves the same connection. -/
theorem run_onTimer {server : Server} {c : ConnId} {s : State} {tick : Nat} (hc : server.conns c = some s.conn) (hlive : s.conn.refCount ≠ 0)
    (hrecv : s.conn.lastRecvTick < 2 ^ 63) (hlogin : s.conn.loginTime < 2 ^ 63) (hlong : ∀ msg ∈ s.conn.sendMsgList, msg.timestamp < 2 ^ 63)
    (h : timesOut s.conn tick = false) : (onTimer c tick).run server = ⟨.ok (), server.setConn c (s.onTimer tick).conn, []⟩ := by
  obtain ⟨hquiet, hlogged⟩ := timesOut_eq_false hrecv hlogin h
  rw [onTimer, run_bind_nil (run_getConn hc hlive), run_bind_nil (run_setConn _ _ _)]
  dsimp only
  rw [if_neg hquiet, if_neg hlogged, run_setConn, State.onTimer, timesOut_msgCnt, if_neg (by rw [h]; decide)]
  dsimp only
  rw [sweep_fst hlong, Server.setConn, Server.setConn, Server.setConn, Function.update_idem]

/-- And so does an acknowledgement. -/
theorem run_delFromSendList {server : Server} {c : ConnId} {s : State} (hc : server.conns c = some s.conn) (hlive : s.conn.refCount ≠ 0)
    (msgId fromId : Nat) :
    (delFromSendList c msgId fromId).run server = ⟨.ok (), server.setConn c (s.delFromSendList msgId fromId).conn, []⟩ := by
  rw [delFromSendList, run_bind_nil (run_getConn hc hlive), run_setConn]
  rfl

/-! ## Every run -/

/-- In every run of a connection with a clock that does not go back, the list is in the order of the times, and each event does to it
exactly what it should, unless it is a timer that closes the connection. -/
theorem exact_run {handle start clientType tick : Nat} {counters : Counters} {events : List (Nat × Event)} {event : Event}
    (h : Clocked (events ++ [(tick, event)])) :
    Ordered ((State.new handle start clientType counters).run events).conn.sendMsgList ∧
      (((State.new handle start clientType counters).run events).closed = false →
        ExactOrCloses ((State.new handle start clientType counters).run events)
          ((State.new handle start clientType counters).run (events ++ [(tick, event)])) tick event) := by
  have hclock := clocked_left h
  have hinv := inv_run handle start clientType counters hclock
  refine ⟨hinv.ordered, fun hopen => ?_⟩
  rw [run_append]
  exact exact_step hclock hinv hopen

/-- Two messages are sent, and the timer looks at them when the first is missed. -/
theorem exact_run_two : Clocked [(1000, .addToSendList 7 1), (2000, .addToSendList 8 1), (16500, .onTimer)] ∧
    ExactOrCloses ((State.new 3 1000 1 ⟨0, 0⟩).run [(1000, .addToSendList 7 1), (2000, .addToSendList 8 1)])
      ((State.new 3 1000 1 ⟨0, 0⟩).run [(1000, .addToSendList 7 1), (2000, .addToSendList 8 1), (16500, .onTimer)]) 16500 .onTimer := by
  have hclock : Clocked [(1000, .addToSendList 7 1), (2000, .addToSendList 8 1), (16500, .onTimer)] := by
    refine ⟨by decide, ?_⟩
    simp
  have hlast : Clocked ([(1000, .addToSendList 7 1), (2000, .addToSendList 8 1)] ++ [(16500, .onTimer)]) := hclock
  exact ⟨hclock, (exact_run hlast).2 rfl⟩

/-- A timer that closes the connection leaves a missed message and does not count it. -/
theorem not_exact_run : ¬∀ handle start clientType tick counters events event, Clocked (events ++ [(tick, event)]) →
    ((State.new handle start clientType counters).run events).closed = false →
    Exact ((State.new handle start clientType counters).run events)
      ((State.new handle start clientType counters).run (events ++ [(tick, event)])) tick event := by
  intro h
  have hclock : Clocked ([(1000, .addToSendList 7 1)] ++ [(200000, .onTimer)]) := by
    refine ⟨by decide, ?_⟩
    simp
  have hexact := (h 3 1000 1 200000 ⟨0, 0⟩ _ _ hclock rfl).2
  exact absurd hexact (by decide)

end TeamTalk.SendList
