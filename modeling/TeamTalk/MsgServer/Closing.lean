import TeamTalk.MsgServer.MsgConn

/-!
# What closing a connection does

`Close` erases the connection from the map of connections, takes it out of the user that is found by its id and of the one
found by its login name, deletes each of them that has no validated connection left, and releases one reference.
-/

namespace TeamTalk

open Action
open Std (TreeMap TreeSet)

/-- What is reported when a user goes online or offline. -/
def statusOut (b : Backends) (c : ConnId) (userAction userStatus userId clientType : Nat) : List Effect :=
  ((Server.openIndices b.loginServerList).map fun i => .send c (.login i) (mkPdu sidOther .otherUserCntUpdate 0
    (.imUserCntUpdate { userAction, userId }))) ++
  (Server.openIndices b.routeServerList).map fun i => .send c (.route i) (mkPdu sidOther .otherUserStatusUpdate 0
    (.imUserStatusUpdate { userStatus, userId, clientType }))

/-- A user loses waiting and validated connections, and nothing else of it changes. -/
structure ImUser.Within (user' user : ImUser) : Prop where
  userId_eq : user'.userId = user.userId
  loginName_eq : user'.loginName = user.loginName
  unvalidate_sub : ∀ d, d ∈ user'.unvalidateConnSet → d ∈ user.unvalidateConnSet
  connMap_sub : ∀ (handle : Nat) (d : ConnId), user'.connMap[handle]? = some d → user.connMap[handle]? = some d

namespace Server

/-- The user is removed when it has no validated connection. -/
def removeIfEmpty (s : Server) (r : UserRef) (user : ImUser) : Server :=
  if user.isMsgConnEmpty then
    { s.setUser r none with
      imUserMap := s.imUserMap.erase user.userId
      imUserMapByName := s.imUserMapByName.erase user.loginName }
  else s

/-- A user object is replaced, and removed when it has no validated connection. -/
def replaceUser (s : Server) (r : UserRef) (user : ImUser) : Server := (s.setUser r (some user)).removeIfEmpty r user

end Server

/-- Users lose connections, or are removed. Connections do not change. -/
structure Loses (s s' : Server) : Prop where
  conns_eq : s'.conns = s.conns
  nextUser_eq : s'.nextUser = s.nextUser
  msgConnMap_eq : s'.msgConnMap = s.msgConnMap
  backends_eq : s'.backends = s.backends
  users_within : ∀ r user', s'.users r = some user' → ∃ user, s.users r = some user ∧ user'.Within user
  names_sub : ∀ name r, s'.getImUserByLoginName name = some r → s.getImUserByLoginName name = some r

namespace ClosingAux

/-- A user is within itself. -/
theorem within_refl (user : ImUser) : user.Within user := ⟨rfl, rfl, fun _ h => h, fun _ _ h => h⟩

/-- And within what it is within is within. -/
theorem within_trans {a b c : ImUser} (h : a.Within b) (h' : b.Within c) : a.Within c :=
  ⟨h.1.trans h'.1, h.2.trans h'.2, fun d hd => h'.3 d (h.3 d hd), fun i d hd => h'.4 i d (h.4 i d hd)⟩

/-- A user that lost an unvalidated connection is within what it was. -/
theorem within_delUnValidateMsgConn (user : ImUser) (c : ConnId) : (user.delUnValidateMsgConn c).Within user :=
  ⟨rfl, rfl, fun _ hd => (TreeSet.mem_erase.1 hd).2, fun _ _ h => h⟩

/-- And so is one that lost a validated one. -/
theorem within_delMsgConn (user : ImUser) (handle : Nat) : (user.delMsgConn handle).Within user := by
  refine ⟨rfl, rfl, fun _ h => h, fun i d hd => ?_⟩
  rw [ImUser.delMsgConn, TreeMap.getElem?_erase] at hd
  split at hd
  · cases hd
  · exact hd

/-- A server loses nothing by itself. -/
theorem loses_refl (s : Server) : Loses s s :=
  ⟨rfl, rfl, rfl, rfl, fun _ user h => ⟨user, h, within_refl user⟩, fun _ _ h => h⟩

/-- What is lost twice over is lost. -/
theorem loses_trans {s s' s'' : Server} (h : Loses s s') (h' : Loses s' s'') : Loses s s'' := by
  refine ⟨h'.conns_eq.trans h.conns_eq, h'.nextUser_eq.trans h.nextUser_eq, h'.msgConnMap_eq.trans h.msgConnMap_eq,
    h'.backends_eq.trans h.backends_eq, ?_, fun name r hr => h.names_sub name r (h'.names_sub name r hr)⟩
  intro r user'' hu
  obtain ⟨user', hu', hw'⟩ := h'.users_within r user'' hu
  obtain ⟨user, hu, hw⟩ := h.users_within r user' hu'
  exact ⟨user, hu, within_trans hw' hw⟩

/-- A user put in its place with fewer connections. -/
theorem loses_setUser {s : Server} {r : UserRef} {user user' : ImUser} (hu : s.users r = some user)
    (hw : user'.Within user) : Loses s (s.setUser r (some user')) := by
  refine ⟨rfl, rfl, rfl, rfl, ?_, fun _ _ h => h⟩
  intro q user'' hq
  rw [Server.users_setUser] at hq
  split at hq
  · rename_i hqr
    rw [← Option.some.inj hq, hqr]
    exact ⟨user, hu, hw⟩
  · exact ⟨user'', hq, within_refl user''⟩

/-- A user removed for having none. -/
theorem loses_removeIfEmpty (s : Server) (r : UserRef) (user : ImUser) : Loses s (s.removeIfEmpty r user) := by
  rw [Server.removeIfEmpty]
  split
  · refine ⟨rfl, rfl, rfl, rfl, ?_, ?_⟩
    · intro q user' hq
      change (s.setUser r none).users q = some user' at hq
      rw [Server.users_setUser] at hq
      split at hq
      · cases hq
      · exact ⟨user', hq, within_refl user'⟩
    · intro name q hq
      change (s.imUserMapByName.erase user.loginName)[name]? = some q at hq
      rw [TreeMap.getElem?_erase] at hq
      split at hq
      · cases hq
      · exact hq
  · exact loses_refl s

/-- And the two together. -/
theorem loses_replaceUser {s : Server} {r : UserRef} {user user' : ImUser} (hu : s.users r = some user)
    (hw : user'.Within user) : Loses s (s.replaceUser r user') :=
  loses_trans (loses_setUser hu hw) (loses_removeIfEmpty _ r user')

/-- `RemoveImUser`, when the user's object says so. -/
theorem run_removeIfEmpty {s : Server} {r : UserRef} {user : ImUser} (hu : s.users r = some user) :
    (do if (← getUser r).isMsgConnEmpty then removeImUser r : Do Unit).run s = ⟨.ok (), s.removeIfEmpty r user, []⟩ := by
  rw [run_bind_ok (run_getUser hu), Server.removeIfEmpty]
  by_cases hempty : user.isMsgConnEmpty = true
  · rw [if_pos hempty, if_pos hempty, removeImUser, run_bind_ok (run_getUser hu)]
    rfl
  · rw [if_neg hempty, if_neg hempty]
    rfl

/-- Reporting a status, when the connection is open and its user is registered. -/
theorem run_sendUserStatusUpdate {s : Server} {c : ConnId} {conn : MsgConn} {r : UserRef} {user : ImUser}
    (hc : s.conns c = some conn) (hlive : conn.refCount ≠ 0) (hr : s.getImUserById conn.userId = some r)
    (hu : s.users r = some user) :
    (sendUserStatusUpdate c userStatusOffline).run s = ⟨.ok (), s, if conn.bOpen then
      statusOut s.backends c userCntDec userStatusOffline user.userId conn.clientType else []⟩ ∧
    (sendUserStatusUpdate c userStatusOnline).run s = ⟨.ok (), s, if conn.bOpen then
      statusOut s.backends c userCntInc userStatusOnline user.userId conn.clientType else []⟩ := by
  constructor
  all_goals
    rw [sendUserStatusUpdate, run_bind_ok (run_getConn hc hlive)]
    cases conn.bOpen with
    | false => rfl
    | true =>
      simp only [if_true, run_read_bind, hr, run_bind_ok (run_getUser hu), or_true, true_or,
        run_bind_ok (run_sendToAllLoginServer c _ s), run_sendToAllRouteServer, List.nil_append]
      rfl

/-- A dangling pointer to a user is not followed. -/
theorem run_getUser_none {s : Server} {r : UserRef} (hu : s.users r = none) :
    (getUser r).run s = ⟨.error .undefinedBehaviour, s, []⟩ := by
  rw [getUser, run_read_bind, hu, run_stop]

/-- What `Close` does to the user that is found by id. -/
theorem closeById_ok {s s' : Server} {c : ConnId} {conn : MsgConn} {out : List Effect} (hc : s.conns c = some conn)
    (hlive : conn.refCount ≠ 0) (h : (closeById c conn).run s = ⟨.ok (), s', out⟩) :
    (s.getImUserById conn.userId = none ∧ s' = s ∧ out = []) ∨
    ∃ r user, s.getImUserById conn.userId = some r ∧ s.users r = some user ∧
      s' = s.replaceUser r ((user.delMsgConn conn.handle).delUnValidateMsgConn c) ∧
      out = .delMsgConn c :: if conn.bOpen then
        statusOut s.backends c userCntDec userStatusOffline user.userId conn.clientType else [] := by
  rw [closeById, run_read_bind] at h
  cases hr : s.getImUserById conn.userId with
  | none =>
    rw [hr] at h
    obtain ⟨-, rfl, rfl⟩ := (Outcome.mk.injEq ..).mp h
    exact .inl ⟨rfl, rfl, rfl⟩
  | some r =>
    cases hu : s.users r with
    | none =>
      simp only [hr, run_bind_error (run_getUser_none hu)] at h
      cases h
    | some user =>
      simp only [hr, run_bind_ok (run_getUser hu), run_bind_ok (run_setUser _ _ _), run_emit_bind, List.nil_append] at h
      have hu' : (s.setUser r (some ((user.delMsgConn conn.handle).delUnValidateMsgConn c))).users r =
          some ((user.delMsgConn conn.handle).delUnValidateMsgConn c) := by
        rw [Server.users_setUser, if_pos rfl]
      have hstatus := (run_sendUserStatusUpdate (s := s.setUser r _) hc hlive hr hu').1
      rw [run_bind_ok hstatus, run_removeIfEmpty hu'] at h
      obtain ⟨-, rfl, rfl⟩ := (Outcome.mk.injEq ..).mp h
      exact .inr ⟨r, user, rfl, hu, rfl, by rw [List.append_nil]; rfl⟩

/-- What `Close` does to the user that is found by login name. -/
theorem closeByLoginName_ok {s s' : Server} {c : ConnId} {conn : MsgConn} {out : List Effect}
    (h : (closeByLoginName c conn).run s = ⟨.ok (), s', out⟩) :
    out = [] ∧ ((s.getImUserByLoginName conn.loginName = none ∧ s' = s) ∨
    ∃ r user, s.getImUserByLoginName conn.loginName = some r ∧ s.users r = some user ∧
      s' = s.replaceUser r (user.delUnValidateMsgConn c)) := by
  rw [closeByLoginName, run_read_bind] at h
  cases hr : s.getImUserByLoginName conn.loginName with
  | none =>
    rw [hr] at h
    obtain ⟨-, rfl, rfl⟩ := (Outcome.mk.injEq ..).mp h
    exact ⟨rfl, .inl ⟨rfl, rfl⟩⟩
  | some r =>
    cases hu : s.users r with
    | none =>
      simp only [hr, run_bind_error (run_getUser_none hu)] at h
      cases h
    | some user =>
      simp only [hr, run_bind_ok (run_getUser hu), run_bind_ok (run_setUser _ _ _), List.nil_append] at h
      have hu' : (s.setUser r (some (user.delUnValidateMsgConn c))).users r = some (user.delUnValidateMsgConn c) := by
        rw [Server.users_setUser, if_pos rfl]
      rw [run_removeIfEmpty hu'] at h
      obtain ⟨-, rfl, rfl⟩ := (Outcome.mk.injEq ..).mp h
      exact ⟨rfl, .inr ⟨r, user, rfl, hu, rfl⟩⟩

end ClosingAux

/-- The states of `Close`, in order: the connection is erased, the user found by id loses it, the user found by login name
loses it, and a reference is released. -/
structure Closes (s : Server) (c : ConnId) (conn : MsgConn) (out : List Effect) (s' : Server) (s1 s2 : Server)
    (reported notified : List Effect) : Prop where
  conn_eq : s.conns c = some conn
  live : conn.refCount ≠ 0
  byId : (closeById c conn).run { s with msgConnMap := s.msgConnMap.erase conn.handle } = ⟨.ok (), s1, reported⟩
  byLoginName : (closeByLoginName c conn).run s1 = ⟨.ok (), s2, []⟩
  notified_eq : notified = if (s2.getImUserById conn.userId).isNone ∧ s.getDbServConn then
    [.send c .db (offlineNotify conn.userId)] else []
  state_eq : s' = s2.setConn c { conn with refCount := conn.refCount - 1 }
  out_eq : out = .netlibClose c :: .eraseConn c :: (reported ++ (notified ++ [.releaseRef c]))

namespace ClosingAux

/-- Leaving by the user's id only loses. -/
theorem loses_closeById {s s' : Server} {c : ConnId} {conn : MsgConn} {out : List Effect} (hc : s.conns c = some conn)
    (hlive : conn.refCount ≠ 0) (h : (closeById c conn).run s = ⟨.ok (), s', out⟩) : Loses s s' := by
  rcases closeById_ok hc hlive h with ⟨-, rfl, -⟩ | ⟨r, user, -, hu, rfl, -⟩
  · exact loses_refl s'
  · exact loses_replaceUser hu (within_trans (within_delUnValidateMsgConn _ c) (within_delMsgConn user conn.handle))

/-- And so does leaving by the login name. -/
theorem loses_closeByLoginName {s s' : Server} {c : ConnId} {conn : MsgConn} {out : List Effect}
    (h : (closeByLoginName c conn).run s = ⟨.ok (), s', out⟩) : Loses s s' := by
  obtain ⟨-, ⟨-, rfl⟩ | ⟨r, user, -, hu, rfl⟩⟩ := closeByLoginName_ok h
  · exact loses_refl s'
  · exact loses_replaceUser hu (within_delUnValidateMsgConn user c)

/-- What `ReleaseRef` comes to on a live connection. -/
theorem run_releaseRef {s : Server} {c : ConnId} {conn : MsgConn} (hc : s.conns c = some conn) (hlive : conn.refCount ≠ 0) :
    (releaseRef c).run s = ⟨.ok (), s.setConn c { conn with refCount := conn.refCount - 1 }, []⟩ := by
  rw [releaseRef, run_bind_ok (run_getConn hc hlive)]
  rfl

/-- A `Close` that returns has closed. -/
theorem close_ok {s s' : Server} {c : ConnId} {out : List Effect} (h : (close c).run s = ⟨.ok (), s', out⟩) :
    ∃ conn s1 s2 reported notified, Closes s c conn out s' s1 s2 reported notified := by
  obtain ⟨conn, s0, out0, out1, h0, h1, rfl⟩ := run_bind_eq_ok h
  obtain ⟨rfl, hc, hlive, rfl⟩ := getConn_eq_ok h0
  obtain ⟨out2, h2, rfl⟩ := run_emit_bind_eq_ok h1
  rw [run_modify_bind] at h2
  obtain ⟨out3, h3, rfl⟩ := run_emit_bind_eq_ok h2
  obtain ⟨_, s1, reported, out4, hid, h4, rfl⟩ := run_bind_eq_ok h3
  obtain ⟨_, s2, out5, out6, hname, h5, rfl⟩ := run_bind_eq_ok h4
  obtain ⟨rfl, -⟩ := closeByLoginName_ok hname
  rw [run_read_bind] at h5
  have hl1 := loses_closeById (s := { s0 with msgConnMap := s0.msgConnMap.erase conn.handle }) hc hlive hid
  have hl := loses_trans hl1 (loses_closeByLoginName hname)
  have hc2 : s2.conns c = some conn := by rw [hl.conns_eq, hc]
  have hlast : ∀ {out}, (releaseRef c >>= fun _ => emit (.releaseRef c)).run s2 = ⟨.ok (), s', out⟩ →
      s' = s2.setConn c { conn with refCount := conn.refCount - 1 } ∧ out = [.releaseRef c] := by
    intro out hout
    rw [run_bind_ok (run_releaseRef hc2 hlive)] at hout
    obtain ⟨-, rfl, rfl⟩ := (Outcome.mk.injEq ..).mp hout
    exact ⟨rfl, rfl⟩
  have hdb : s2.getDbServConn = s0.getDbServConn := by
    rw [Server.getDbServConn, hl.backends_eq]
    rfl
  cases hnone : (s2.getImUserById conn.userId).isNone with
  | false =>
    rw [hnone] at h5
    obtain ⟨rfl, rfl⟩ := hlast h5
    refine ⟨conn, s1, s2, reported, [], hc, hlive, hid, hname, ?_, rfl, rfl⟩
    rw [hnone, if_neg (fun h => by cases h.1)]
  | true =>
    rw [hnone] at h5
    simp only [if_true] at h5
    rw [run_bind_ok (run_sendDb c _ s2)] at h5
    obtain ⟨hres, hstate, rfl⟩ := (Outcome.mk.injEq ..).mp h5
    obtain ⟨rfl, hout⟩ := hlast (by rw [← hres, ← hstate])
    refine ⟨conn, s1, s2, reported, if s0.getDbServConn then [.send c .db (offlineNotify conn.userId)] else [], hc, hlive,
      hid, hname, ?_, rfl, ?_⟩
    · rw [hnone]
      simp
    · rw [hout, hdb]
      rfl

/-! ## Login requests -/

end ClosingAux

/-- The user of a login name, made when there is none: the state then, and the pointer. -/
def Server.withUser (s : Server) (loginName : String) : Server × UserRef :=
  match s.getImUserByLoginName loginName with
  | some r => (s, r)
  | none =>
    ({ s.setUser s.nextUser (some (ImUser.new loginName)) with
        nextUser := s.nextUser + 1
        imUserMapByName := s.imUserMapByName.insert loginName s.nextUser }, s.nextUser)

/-- What a login request makes of its connection. -/
def MsgConn.logIn (conn : MsgConn) (msg : IMLoginReq) : MsgConn :=
  { conn with
    loginName := msg.userName
    clientVersion := msg.clientVersion.getD ""
    clientType := msg.clientType
    onlineStatus := if msg.onlineStatus < userStatusOnline ∨ msg.onlineStatus > userStatusLeave
      then userStatusOnline else msg.onlineStatus }

/-- The request to validate a login. -/
def validateReq (handle : Nat) (msg : IMLoginReq) (seqNum : Nat) : Pdu :=
  mkPdu sidOther .otherValidateReq seqNum (.imValidateReq
    { userName := msg.userName, password := msg.password, attachData := some (dbAttachData attachTypeHandle handle 0) })

namespace ClosingAux

section Login

variable {s s' : Server} {c : ConnId} {conn : MsgConn} {out : List Effect} {env : Env} {pdu : Pdu}

/-- What making a user comes to. -/
theorem run_newImUser (loginName : String) (s : Server) : (newImUser loginName).run s =
    ⟨.ok s.nextUser, { s.setUser s.nextUser (some (ImUser.new loginName)) with nextUser := s.nextUser + 1 }, []⟩ := rfl

/-- A second login request is ignored. -/
theorem run_login_ignored (hc : s.conns c = some conn) (hlive : conn.refCount ≠ 0) (hname : conn.loginName.length ≠ 0) :
    (handleLoginRequest env c pdu).run s = ⟨.ok (), s, []⟩ := by
  rw [handleLoginRequest, run_bind_nil (run_getConn hc hlive), if_pos hname, run_pure]

/-- A login request that is refused is answered, and the connection is closed. -/
theorem login_refused_ok (hc : s.conns c = some conn) (hlive : conn.refCount ≠ 0) (hname : ¬conn.loginName.length ≠ 0)
    {reason : Nat} (hrefuse : loginRefusal s = some reason)
    (h : (handleLoginRequest env c pdu).run s = ⟨.ok (), s', out⟩) :
    ∃ answer out', out = .send c (.client c) answer :: out' ∧ (close c).run s = ⟨.ok (), s', out'⟩ := by
  rw [handleLoginRequest, run_bind_nil (run_getConn hc hlive), if_neg hname, run_read_bind, hrefuse] at h
  obtain ⟨out', hclose, rfl⟩ := run_emit_bind_eq_ok h
  exact ⟨_, out', rfl, hclose⟩

/-- A login request that does not parse is ignored. -/
theorem run_login_unparsed (hc : s.conns c = some conn) (hlive : conn.refCount ≠ 0) (hname : ¬conn.loginName.length ≠ 0)
    (hrefuse : loginRefusal s = none) (hbody : ∀ msg, pdu.body ≠ .imLoginReq msg) :
    (handleLoginRequest env c pdu).run s = ⟨.ok (), s, []⟩ := by
  rw [handleLoginRequest, run_bind_nil (run_getConn hc hlive), if_neg hname, run_read_bind, hrefuse]
  dsimp only
  split
  · rename_i msg hmsg
    exact absurd hmsg (hbody msg)
  · rfl

/-- An accepted login request: the connection waits at its login name's user, and the DB proxy is asked. -/
theorem login_accepted_ok (hc : s.conns c = some conn) (hlive : conn.refCount ≠ 0) (hname : ¬conn.loginName.length ≠ 0)
    (hrefuse : loginRefusal s = none) {msg : IMLoginReq} (hbody : pdu.body = .imLoginReq msg)
    (h : (handleLoginRequest env c pdu).run s = ⟨.ok (), s', out⟩) :
    ∃ user, ((s.setConn c (conn.logIn msg)).withUser msg.userName).1.users
        ((s.setConn c (conn.logIn msg)).withUser msg.userName).2 = some user ∧
      s' = ((s.setConn c (conn.logIn msg)).withUser msg.userName).1.setUser
        ((s.setConn c (conn.logIn msg)).withUser msg.userName).2 (some (user.addUnValidateMsgConn c)) ∧
      out = [.send c .db (validateReq conn.handle msg pdu.seqNum)] := by
  rw [handleLoginRequest, run_bind_nil (run_getConn hc hlive), if_neg hname, run_read_bind, hrefuse] at h
  simp only [hbody] at h
  rw [run_bind_nil (run_setConn c _ s), run_read_bind] at h
  -- from here on the user is the one that was found or made
  have hwait : ∀ {s1 : Server} {r : UserRef} {out : List Effect},
      (getUser r >>= fun user => setUser r (user.addUnValidateMsgConn c) >>= fun _ =>
        emit (.send c .db (validateReq conn.handle msg pdu.seqNum))).run s1 = ⟨.ok (), s', out⟩ →
      ∃ user, s1.users r = some user ∧ s' = s1.setUser r (some (user.addUnValidateMsgConn c)) ∧
        out = [.send c .db (validateReq conn.handle msg pdu.seqNum)] := by
    intro s1 r out hrun
    cases hu : s1.users r with
    | none =>
      rw [run_bind_error (run_getUser_none hu)] at hrun
      cases hrun
    | some user =>
      rw [run_bind_nil (run_getUser hu), run_bind_nil (run_setUser _ _ _), run_emit] at hrun
      obtain ⟨-, rfl, rfl⟩ := (Outcome.mk.injEq ..).mp hrun
      exact ⟨user, rfl, rfl, rfl⟩
  rw [Server.withUser]
  cases hr : (s.setConn c (conn.logIn msg)).getImUserByLoginName msg.userName with
  | some r =>
    rw [MsgConn.logIn] at hr
    simp only [hr, run_pure_bind] at h
    exact hwait h
  | none =>
    rw [MsgConn.logIn] at hr
    simp only [hr] at h
    rw [run_bind_nil (run_newImUser _ _), addImUserByLoginName, run_modify_bind, run_pure_bind] at h
    exact hwait h

end Login

/-! ## Closing does not throw -/

/-- The report of a state throws nothing. -/
theorem neverThrows_sendUserStatusUpdate (c : ConnId) (userStatus : Nat) : NeverThrows (sendUserStatusUpdate c userStatus) := by
  refine StopsOnly.bind (neverThrows_getConn c) fun conn => ?_
  split
  · refine StopsOnly.read_bind fun s => ?_
    split
    · exact StopsOnly.pure ()
    · refine StopsOnly.bind (neverThrows_getUser _) fun user => ?_
      split
      · refine StopsOnly.bind (StopsOnly.read_bind fun s => StopsOnly.each (fun _ => StopsOnly.emit _) _) fun _ => ?_
        exact StopsOnly.read_bind fun s => StopsOnly.each (fun _ => StopsOnly.emit _) _
      · exact StopsOnly.pure ()
  · exact StopsOnly.pure ()

/-- Nor does removing a user. -/
theorem neverThrows_removeImUser (r : UserRef) : NeverThrows (removeImUser r) := by
  refine StopsOnly.bind (neverThrows_getUser r) fun user => StopsOnly.bind (StopsOnly.modify _) fun _ => ?_
  exact StopsOnly.bind (StopsOnly.modify _) fun _ => StopsOnly.modify _

/-- Even where the user has connections left. -/
theorem neverThrows_removeIfEmpty (r : UserRef) :
    NeverThrows (do if (← getUser r).isMsgConnEmpty then removeImUser r) := by
  refine StopsOnly.bind (neverThrows_getUser r) fun user => ?_
  split
  · exact neverThrows_removeImUser r
  · exact StopsOnly.pure ()

/-- A connection can always be closed. -/
theorem neverThrows_close (c : ConnId) : NeverThrows (close c) := by
  refine StopsOnly.bind (neverThrows_getConn c) fun conn => StopsOnly.bind (StopsOnly.emit _) fun _ => ?_
  refine StopsOnly.bind (StopsOnly.modify _) fun _ => StopsOnly.bind (StopsOnly.emit _) fun _ => ?_
  refine StopsOnly.bind ?_ fun _ => StopsOnly.bind ?_ fun _ => StopsOnly.read_bind fun s => ?_
  · refine StopsOnly.read_bind fun s => ?_
    split
    · exact StopsOnly.pure ()
    · refine StopsOnly.bind (neverThrows_getUser _) fun user => StopsOnly.bind (StopsOnly.modify _) fun _ => ?_
      refine StopsOnly.bind (StopsOnly.emit _) fun _ => StopsOnly.bind (neverThrows_sendUserStatusUpdate c _) fun _ => ?_
      exact neverThrows_removeIfEmpty _
  · refine StopsOnly.read_bind fun s => ?_
    split
    · exact StopsOnly.pure ()
    · refine StopsOnly.bind (neverThrows_getUser _) fun user => StopsOnly.bind (StopsOnly.modify _) fun _ => ?_
      exact neverThrows_removeIfEmpty _
  · have hrelease : NeverThrows (releaseRef c >>= fun _ => emit (.releaseRef c)) :=
      StopsOnly.bind (StopsOnly.bind (neverThrows_getConn c) fun _ => StopsOnly.modify _) fun _ => StopsOnly.emit _
    split
    · exact StopsOnly.bind (neverThrows_sendDb c _) fun _ => hrelease
    · exact hrelease

/-- A logout throws nothing. -/
theorem neverThrows_handleLoginOutRequest (c : ConnId) (pdu : Pdu) : NeverThrows (handleLoginOutRequest c pdu) := by
  refine StopsOnly.bind (neverThrows_getConn c) fun conn => StopsOnly.bind (neverThrows_sendDb c _) fun _ => ?_
  exact StopsOnly.bind (StopsOnly.emit _) fun _ => neverThrows_close c

/-- And neither does a login request, whatever its body. -/
theorem neverThrows_handleLoginRequest (env : Env) (c : ConnId) (pdu : Pdu) : NeverThrows (handleLoginRequest env c pdu) := by
  refine StopsOnly.bind (neverThrows_getConn c) fun conn => ?_
  split
  · exact StopsOnly.pure ()
  · refine StopsOnly.read_bind fun s => ?_
    split
    · exact StopsOnly.bind (StopsOnly.emit _) fun _ => neverThrows_close c
    · split
      · have hwait : ∀ r pdu, NeverThrows (getUser r >>= fun user => setUser r (user.addUnValidateMsgConn c) >>= fun _ =>
            emit (.send c .db pdu)) := fun r pdu =>
          StopsOnly.bind (neverThrows_getUser r) fun user => StopsOnly.bind (StopsOnly.modify _) fun _ => StopsOnly.emit _
        refine StopsOnly.bind (StopsOnly.modify _) fun _ => StopsOnly.read_bind fun s => ?_
        split
        · exact StopsOnly.bind (StopsOnly.pure _) fun r => hwait r _
        · refine StopsOnly.bind (StopsOnly.read_bind fun s => ?_) fun r => ?_
          · exact StopsOnly.bind (StopsOnly.modify _) fun _ => StopsOnly.pure _
          · exact StopsOnly.bind (StopsOnly.modify _) fun _ => StopsOnly.bind (StopsOnly.pure _) fun r => hwait r _
      · exact StopsOnly.pure ()

end ClosingAux

end TeamTalk
