import TeamTalk.MsgServer.State

/-!
# Users and their connections

`CImUser` and `CImUserManager`: validated connections by handle, waiting ones as a set, broadcasts, and kicking.
-/

namespace TeamTalk

open Action
open Std (TreeMap TreeSet)

/-- A new `CImUser`. -/
def ImUser.new (loginName : String) : ImUser :=
  { userId := 0, loginName, nickName := "", pcLoginStatus := userStatusOffline, bValidate := false, connMap := ∅,
    unvalidateConnSet := ∅ }

namespace ImUser

/-- `CImUser::IsMsgConnEmpty`. -/
def isMsgConnEmpty (user : ImUser) : Bool := user.connMap.isEmpty

/-- `CImUser::AddMsgConn`. -/
def addMsgConn (user : ImUser) (handle : Nat) (c : ConnId) : ImUser := { user with connMap := user.connMap.insert handle c }

/-- `CImUser::DelMsgConn`. -/
def delMsgConn (user : ImUser) (handle : Nat) : ImUser := { user with connMap := user.connMap.erase handle }

/-- `CImUser::AddUnValidateMsgConn`. -/
def addUnValidateMsgConn (user : ImUser) (c : ConnId) : ImUser :=
  { user with unvalidateConnSet := user.unvalidateConnSet.insert c }

/-- `CImUser::DelUnValidateMsgConn`. -/
def delUnValidateMsgConn (user : ImUser) (c : ConnId) : ImUser :=
  { user with unvalidateConnSet := user.unvalidateConnSet.erase c }

/-- `CImUser::ValidateMsgConn`. -/
def validateMsgConn (user : ImUser) (handle : Nat) (c : ConnId) : ImUser :=
  (user.addMsgConn handle c).delUnValidateMsgConn c

/-- The connections that a broadcast goes to, in the order of their handles. -/
def conns (user : ImUser) : List ConnId := user.connMap.toList.map Prod.snd

theorem mem_conns {user : ImUser} {d : ConnId} : d ∈ user.conns ↔ ∃ handle : Nat, user.connMap[handle]? = some d := by
  rw [conns, List.mem_map]
  constructor
  · rintro ⟨⟨handle, c⟩, hmem, rfl⟩
    exact ⟨handle, TreeMap.mem_toList_iff_getElem?_eq_some.1 hmem⟩
  · rintro ⟨handle, h⟩
    exact ⟨(handle, d), TreeMap.mem_toList_iff_getElem?_eq_some.2 h, rfl⟩

end ImUser

/-- The first connection of the list with this handle. -/
def findByHandle (handle : Nat) : List ConnId → Do (Option ConnId)
  | [] => return none
  | c :: cs => do
    if (← getConn c).handle = handle then return some c else findByHandle handle cs

/-- `CImUser::GetUnValidateMsgConn`. -/
def getUnValidateMsgConn (user : ImUser) (handle : Nat) : Do (Option ConnId) :=
  findByHandle handle user.unvalidateConnSet.toList

/-- `CImUser::BroadcastPdu`. -/
def broadcastPdu (self : ConnId) (user : ImUser) (pdu : Pdu) (fromConn : Option ConnId) : Do Unit :=
  each (fun d => if some d = fromConn then return () else sendClient self d pdu) user.conns

/-- A broadcast goes to all connections but the one it comes from. -/
theorem run_broadcastPdu (self : ConnId) (user : ImUser) (pdu : Pdu) (fromConn : Option ConnId) (s : Server) :
    (broadcastPdu self user pdu fromConn).run s =
      ⟨.ok (), s, (user.conns.filter fun d => ¬some d = fromConn).map fun d => .send self (.client d) pdu⟩ :=
  run_each_unless (fun d => some d = fromConn) (fun d => Effect.send self (.client d) pdu) user.conns s

/-- `CImUser::HandleKickUser`: the connection that the user has under the given one's handle is told, and marked. -/
def handleKickUser (user : ImUser) (c : ConnId) (reason : Nat) : Do Unit := do
  match user.connMap[(← getConn c).handle]? with
  | some d =>
    sendClient d d (mkPdu sidLogin .loginKickUser 0 (.imKickUser { userId := user.userId, kickReason := reason }))
    setConn d { ← getConn d with bKickOff := true }
    emit (.setKickOff d)
  | none => return ()

/-- The loop of `KickOutSameClientType`: the first other connection of the same kind of client is kicked. -/
def kickFirst (user : ImUser) (clientType reason : Nat) (fromConn : Option ConnId) : List ConnId → Do Unit
  | [] => return ()
  | d :: ds => do
    if ((← getConn d).clientType ^^^ clientType) >>> 4 = 0 ∧ some d ≠ fromConn then handleKickUser user d reason
    else kickFirst user clientType reason fromConn ds

/-- `CImUser::KickOutSameClientType`. -/
def kickOutSameClientType (user : ImUser) (clientType reason : Nat) (fromConn : Option ConnId) : Do Unit :=
  kickFirst user clientType reason fromConn user.conns

/-! ## `CImUserManager` -/

/-- `CImUserManager::AddImUserByLoginName`, for a name that is not there. -/
def addImUserByLoginName (loginName : String) (r : UserRef) : Do Unit :=
  modify fun s => { s with imUserMapByName := s.imUserMapByName.insert loginName r }

/-- `CImUserManager::RemoveImUserByLoginName`. -/
def removeImUserByLoginName (loginName : String) : Do Unit :=
  modify fun s => { s with imUserMapByName := s.imUserMapByName.erase loginName }

/-- `CImUserManager::AddImUserById`. -/
def addImUserById (userId : Nat) (r : UserRef) : Do Unit :=
  modify fun s => if (s.getImUserById userId).isNone then { s with imUserMap := s.imUserMap.insert userId r } else s

/-- `CImUserManager::RemoveImUserById`. -/
def removeImUserById (userId : Nat) : Do Unit :=
  modify fun s => { s with imUserMap := s.imUserMap.erase userId }

/-- `delete` on a user. -/
def deleteUser (r : UserRef) : Do Unit := modify fun s => s.setUser r none

/-- `CImUserManager::RemoveImUser`. -/
def removeImUser (r : UserRef) : Do Unit := do
  let user ← getUser r
  removeImUserById user.userId
  removeImUserByLoginName user.loginName
  deleteUser r

/-- `new CImUser`. -/
def newImUser (loginName : String) : Do UserRef := do
  let r := (← read).nextUser
  modify fun s => { s.setUser r (some (ImUser.new loginName)) with nextUser := r + 1 }
  return r

end TeamTalk
