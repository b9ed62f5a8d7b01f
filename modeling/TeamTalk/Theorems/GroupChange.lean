import TeamTalk.Lib.Totals
import TeamTalk.MsgServer.GroupChange

/-!
# Who hears of a change

When every client of the users that a change of a group's members concerns is notified of it once. The users that were changed
and the present members are notified one list after the other, and an added member is on both.
-/

namespace TeamTalk

/-! ## The property -/

/-- A user that a change concerns. -/
def Concerns (msg : IMGroupChangeMemberRsp) (userId : Nat) : Prop := userId ∈ msg.chgUserIdList ∨ userId ∈ msg.curUserIdList

instance (msg : IMGroupChangeMemberRsp) (userId : Nat) : Decidable (Concerns msg userId) := inferInstanceAs (Decidable (_ ∨ _))

/-- The connections that are sent the notification: each open one of a user that the change concerns, but the one that asked,
once; and no other. -/
structure HeardOnce (s : Server) (msg : IMGroupChangeMemberRsp) (asked : Option ConnId) (notified : List ConnId) : Prop where
  once : ∀ d handle userId, s.OpenFor d handle userId → asked ≠ some d →
    notified.count d = if Concerns msg userId then 1 else 0
  only : ∀ d ∈ notified, asked ≠ some d ∧ ∃ handle userId, s.OpenFor d handle userId ∧ Concerns msg userId

/-- After a successful change, every msg_server has notified its connections once. -/
def ChangeHeard (C : Cluster) (msg : IMGroupChangeMemberRsp) : Prop :=
  ∀ handle sends, attachHandle (msg.attachData.getD []) = some handle → msg.resultCode = 0 →
    handleGroupChangeMemberResponse C.home.server msg = some sends →
    HeardOnce C.home.server msg (C.home.server.getMsgConnByHandle msg.userId handle) sends.notified ∧
      ∀ other ∈ C.others, HeardOnce other.1.server msg none (Cluster.relayed sends other)

/-! ## The condition -/

/-- How often a user stands on the two lists. -/
def mentions (msg : IMGroupChangeMemberRsp) (userId : Nat) : Nat := (msg.chgUserIdList ++ msg.curUserIdList).count userId

/-- The condition: no user with an open connection, other than the one that asked, stands on the lists twice; and a msg_server
that is not reached has no open connection of a user on them. -/
def ChangeMeets (C : Cluster) (msg : IMGroupChangeMemberRsp) : Prop :=
  ∀ handle, attachHandle (msg.attachData.getD []) = some handle → msg.resultCode = 0 →
    (∀ d handle' userId, C.home.server.OpenFor d handle' userId →
      C.home.server.getMsgConnByHandle msg.userId handle ≠ some d → mentions msg userId ≤ 1) ∧
    ∀ other ∈ C.others, ∀ d handle' userId, other.1.server.OpenFor d handle' userId →
      if C.home.server.getRouteServConn.isSome ∧ other.2 = true then mentions msg userId ≤ 1 else ¬Concerns msg userId

namespace GroupChangeAux

variable {idOf : String → Nat} {reading : Option ConnId} {s : Server} {d : ConnId} {handle userId : Nat}

/-! ## One user -/

/-- An open connection is open for one user, under one handle. -/
theorem openFor_unique {handle' userId' : Nat} (h : s.OpenFor d handle userId) (h' : s.OpenFor d handle' userId') :
    handle' = handle ∧ userId' = userId := by
  obtain ⟨conn, hconn, rfl, rfl, -⟩ := h
  obtain ⟨conn', hconn', rfl, rfl, -⟩ := h'
  rw [hconn] at hconn'
  cases hconn'
  exact ⟨rfl, rfl⟩

/-- A connection that a user has under one handle only comes once. -/
theorem count_conns {user : ImUser} (h : user.connMap[handle]? = some d)
    (honly : ∀ handle' : Nat, user.connMap[handle']? = some d → handle' = handle) : user.conns.count d = 1 := by
  have hmem : (handle, d) ∈ user.connMap.toList := Std.TreeMap.mem_toList_iff_getElem?_eq_some.2 h
  rw [ImUser.conns, List.count, List.countP_map, ← List.count_eq_one_of_mem (Totals.nodup_toList user.connMap) hmem, List.count]
  refine List.countP_congr fun e he => ?_
  obtain ⟨handle', c⟩ := e
  simp only [Function.comp_apply, beq_iff_eq, Prod.mk.injEq]
  constructor
  · rintro rfl
    exact ⟨honly handle' (Std.TreeMap.mem_toList_iff_getElem?_eq_some.1 he), rfl⟩
  · exact fun heq => heq.2

/-- What is sent to a user goes to his open connections. -/
theorem mem_sendPduToUser (hs : s.Registry idOf reading) {asked : Option ConnId} (h : d ∈ s.sendPduToUser userId asked) :
    some d ≠ asked ∧ ∃ handle, s.OpenFor d handle userId := by
  rw [Server.sendPduToUser] at h
  split at h
  next => cases h
  next r hr =>
    obtain ⟨-, user, hu, huid, -⟩ := hs.users.byId userId r hr
    rw [hu] at h
    obtain ⟨hmem, hasked⟩ := List.mem_filter.1 h
    obtain ⟨handle, hd⟩ := ImUser.mem_conns.1 hmem
    refine ⟨of_decide_eq_true hasked, handle, ?_⟩
    rw [← huid]
    exact hs.users.member r user handle d hu hd

/-- An open connection is sent what its user is sent, once, and nothing that others are sent. -/
theorem count_sendPduToUser (hs : s.Registry idOf reading) (h : s.OpenFor d handle userId) {asked : Option ConnId}
    (hasked : asked ≠ some d) (toUserId : Nat) :
    (s.sendPduToUser toUserId asked).count d = if toUserId = userId then 1 else 0 := by
  split
  next heq =>
    subst heq
    obtain ⟨r, user, hr, hu, hd⟩ := hs.users.joined d handle toUserId h
    have hone : user.conns.count d = 1 := count_conns hd fun handle' hd' =>
      (openFor_unique h (hs.users.member r user handle' d hu hd')).1
    rw [Server.sendPduToUser, hr]
    dsimp only
    rw [hu]
    dsimp only
    rw [ImUser.broadcastTo, List.count_filter (by simpa using Ne.symm hasked), hone]
  next hne =>
    refine List.count_eq_zero.2 fun hmem => hne ?_
    obtain ⟨-, handle', hopen⟩ := mem_sendPduToUser hs hmem
    exact (openFor_unique h hopen).2

/-! ## Two lists -/

/-- What one msg_server sends for both lists. -/
def fanOut (s : Server) (msg : IMGroupChangeMemberRsp) (asked : Option ConnId) : List ConnId :=
  (msg.chgUserIdList.flatMap fun toUserId => s.sendPduToUser toUserId asked) ++
    msg.curUserIdList.flatMap fun toUserId => s.sendPduToUser toUserId asked

/-- An open connection is sent the notification as often as its user stands on the lists. -/
theorem count_fanOut (hs : s.Registry idOf reading) (msg : IMGroupChangeMemberRsp) (h : s.OpenFor d handle userId)
    {asked : Option ConnId} (hasked : asked ≠ some d) : (fanOut s msg asked).count d = mentions msg userId := by
  rw [fanOut, mentions, ← List.flatMap_append]
  induction msg.chgUserIdList ++ msg.curUserIdList with
  | nil => rfl
  | cons toUserId toUserIds ih =>
    rw [List.flatMap_cons, List.count_append, count_sendPduToUser hs h hasked, ih, List.count_cons, Nat.add_comm]
    simp only [beq_iff_eq]

theorem mentions_eq_zero {msg : IMGroupChangeMemberRsp} : mentions msg userId = 0 ↔ ¬Concerns msg userId := by
  rw [mentions, List.count_eq_zero, List.mem_append, Concerns]

/-- One msg_server that sends for both lists notifies its connections once exactly when no user stands on them twice. -/
theorem heardOnce_fanOut_iff (hs : s.Registry idOf reading) (msg : IMGroupChangeMemberRsp) (asked : Option ConnId) :
    HeardOnce s msg asked (fanOut s msg asked) ↔
      ∀ d handle userId, s.OpenFor d handle userId → asked ≠ some d → mentions msg userId ≤ 1 := by
  constructor
  · intro h d handle userId hopen hasked
    have hcount := h.once d handle userId hopen hasked
    rw [count_fanOut hs msg hopen hasked] at hcount
    rw [hcount]
    split <;> decide
  · refine fun h => ⟨fun d handle userId hopen hasked => ?_, fun d hd => ?_⟩
    · have hle := h d handle userId hopen hasked
      rw [count_fanOut hs msg hopen hasked]
      split
      next hconcerns =>
        have hne : mentions msg userId ≠ 0 := fun hzero => mentions_eq_zero.1 hzero hconcerns
        omega
      next hnot => exact mentions_eq_zero.2 hnot
    · rw [fanOut, ← List.flatMap_append] at hd
      obtain ⟨userId, huser, hsent⟩ := List.mem_flatMap.1 hd
      obtain ⟨hasked, handle, hopen⟩ := mem_sendPduToUser hs hsent
      exact ⟨Ne.symm hasked, handle, userId, hopen, List.mem_append.1 huser⟩

/-- A msg_server that sends nothing is right exactly when it has nobody whom the change concerns. -/
theorem heardOnce_nil_iff (s : Server) (msg : IMGroupChangeMemberRsp) :
    HeardOnce s msg none [] ↔ ∀ d handle userId, s.OpenFor d handle userId → ¬Concerns msg userId := by
  constructor
  · intro h d handle userId hopen hconcerns
    have hcount := h.once d handle userId hopen (Option.some_ne_none d).symm
    rw [if_pos hconcerns] at hcount
    cases hcount
  · refine fun h => ⟨fun d handle userId hopen _ => ?_, fun d hd => absurd hd List.not_mem_nil⟩
    rw [if_neg (h d handle userId hopen)]
    rfl

/-- The response of a successful change is sent on to all msg_servers that are reached. -/
theorem response_eq {s : Server} {msg : IMGroupChangeMemberRsp} {handle : Nat}
    (hattach : attachHandle (msg.attachData.getD []) = some handle) (hok : msg.resultCode = 0) :
    handleGroupChangeMemberResponse s msg = some {
      response := (s.getMsgConnByHandle msg.userId handle).map fun c => (c, { msg with attachData := none })
      route := s.getRouteServConn.map fun i => (i, changeNotify msg)
      notified := fanOut s msg (s.getMsgConnByHandle msg.userId handle) } := by
  simp only [handleGroupChangeMemberResponse, hattach, hok, if_true]
  rfl

/-- What another msg_server sends then: for both lists when it is reached, and else nothing. -/
theorem relayed_eq (home : Server) (msg : IMGroupChangeMemberRsp) (response : Option (ConnId × IMGroupChangeMemberRsp))
    (notified : List ConnId) (other : MsgServer × Bool) :
    Cluster.relayed { response, route := home.getRouteServConn.map fun i => (i, changeNotify msg), notified } other =
      if home.getRouteServConn.isSome ∧ other.2 = true then fanOut other.1.server msg none else [] := by
  cases home.getRouteServConn with
  | none => simp [Cluster.relayed]
  | some i =>
    obtain ⟨other, reached⟩ := other
    cases reached with
    | false => rfl
    | true => rfl

/-! ## Somebody joins -/

/-- One server of each kind. -/
def allUp : Backends :=
  { dbServerList := [true], dbServerLoginCount := 0, loginServerList := [true], routeServerList := [true],
    masterRs := none, fileServerList := [] }

def atRest : Env := { now := 0, tick := 0, random := 0, serialize := fun _ => [] }

/-- Carol asks to log in. -/
def carolAsks : Pdu :=
  mkPdu sidLogin .loginReqUserlogin 1 (.imLoginReq
    { userName := "carol", password := "", onlineStatus := 1, clientType := 1, clientVersion := none })

/-- The DB proxy accepts her, as user 7. -/
def carolIsAccepted : IMValidateRsp :=
  { userName := "carol", resultCode := 0, resultString := none, userInfo := some { noUserInfo with userId := 7 },
    attachData := some (dbAttachData 1 5 0) }

def carolLogsIn : List Event :=
  [.accept 0 5 0 1, .readBegin 5 0 [carolAsks] false, .readStep atRest, .readEnd,
    .validateResponse atRest (mkPdu sidOther .otherValidateRsp 1 (.imValidateRsp carolIsAccepted))]

/-- User 1 has added her to a group where she was not, in which are the two. -/
def carolJoins : IMGroupChangeMemberRsp :=
  { userId := 1, changeType := 1, resultCode := 0, groupId := 3, curUserIdList := [1, 7], chgUserIdList := [7],
    attachData := some (dbAttachData 1 9 0) }

theorem carolLogsIn_opens : (Machine.steps Loop.step (Loop.init allUp) carolLogsIn).any fun (l, _) =>
    (l.server.conns 0).any fun conn => conn.userId = 7 ∧ conn.bOpen = true ∧ l.server.msgConnMap[conn.handle]? = some 0 ∧
      l.server.getMsgConnByHandle 1 9 = none := by
  decide +kernel

/-- Whatever the DB proxy answers in between, it answers as it should. -/
theorem carolLogsIn_answers (e : Event) (he : e ∈ carolLogsIn) : AnswersWith (fun _ => 7) e := by
  rintro env pdu msg rfl hbody hok
  simp only [carolLogsIn, List.mem_cons, reduceCtorEq, Event.validateResponse.injEq, false_or, List.not_mem_nil, or_false] at he
  obtain ⟨-, rfl⟩ := he
  cases hbody
  exact ⟨rfl, by decide⟩

end GroupChangeAux

open GroupChangeAux

/-- A change is heard once everywhere exactly when no user that hears of it stands on the lists twice, and all are reached. -/
theorem change_heard_iff (C : Cluster) (msg : IMGroupChangeMemberRsp) : ChangeHeard C msg ↔ ChangeMeets C msg := by
  constructor
  · intro h handle hattach hok
    obtain ⟨hhome, hothers⟩ := h handle _ hattach hok (response_eq hattach hok)
    refine ⟨(heardOnce_fanOut_iff C.home.registry msg _).1 hhome, fun other hother d handle' userId hopen => ?_⟩
    have hheard := hothers other hother
    rw [relayed_eq] at hheard
    split
    next hreached =>
      rw [if_pos hreached] at hheard
      exact (heardOnce_fanOut_iff other.1.registry msg none).1 hheard d handle' userId hopen (Option.some_ne_none d).symm
    next hcut =>
      rw [if_neg hcut] at hheard
      exact (heardOnce_nil_iff _ msg).1 hheard d handle' userId hopen
  · intro h handle sends hattach hok hsends
    rw [response_eq hattach hok] at hsends
    cases hsends
    obtain ⟨hhome, hothers⟩ := h handle hattach hok
    refine ⟨(heardOnce_fanOut_iff C.home.registry msg _).2 hhome, fun other hother => ?_⟩
    have hother := hothers other hother
    rw [relayed_eq]
    split
    next hreached =>
      refine (heardOnce_fanOut_iff other.1.registry msg none).2 fun d handle' userId hopen _ => ?_
      simpa only [if_pos hreached] using hother d handle' userId hopen
    next hcut =>
      refine (heardOnce_nil_iff _ msg).2 fun d handle' userId hopen => ?_
      simpa only [if_neg hcut] using hother d handle' userId hopen

/-- Who is added to a group stands on both lists: Carol, who is logged in, hears twice that she joins. -/
theorem not_change_heard : ¬∀ C msg, ChangeHeard C msg := by
  intro hall
  obtain ⟨⟨l, log⟩, hsteps, hopen⟩ := (Option.any_eq_true ..).1 carolLogsIn_opens
  obtain ⟨conn, hconn, hopen⟩ := (Option.any_eq_true ..).1 hopen
  obtain ⟨huser, hbOpen, hmap, hasked⟩ := of_decide_eq_true hopen
  have hrun : Machine.Run Loop.step (fun _ e => AnswersWith (fun _ => 7) e) (Loop.init allUp) ([] ++ log) l :=
    Machine.Run.of_steps_mem (fun e he _ => carolLogsIn_answers e he) .start hsteps
  let home := MsgServer.ofRun (fun _ _ h => h) hrun
  have hattach : attachHandle (carolJoins.attachData.getD []) = some 9 := by decide
  obtain ⟨hheard, -⟩ := hall ⟨home, []⟩ carolJoins 9 _ hattach rfl (response_eq hattach rfl)
  have hopen : home.server.OpenFor 0 conn.handle 7 := ⟨conn, hconn, rfl, huser, hbOpen, hmap⟩
  have hother : home.server.getMsgConnByHandle carolJoins.userId 9 ≠ some 0 := by
    intro h
    change l.server.getMsgConnByHandle 1 9 = some 0 at h
    rw [hasked] at h
    cases h
  have hone := (heardOnce_fanOut_iff home.registry carolJoins _).1 hheard 0 conn.handle 7 hopen hother
  exact absurd hone (by decide)

end TeamTalk
