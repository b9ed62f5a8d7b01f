import TeamTalk.MsgServer.Registry

/-!
# Changes of the members of a group

What msg_server sends when the DB proxy has answered a change of a group's members, and when the route server passes on that
another msg_server got such an answer. The state does not change.
-/

namespace TeamTalk

/-- `IM::Group::IMGroupChangeMemberNotify`. -/
structure IMGroupChangeMemberNotify where
  userId : Nat
  changeType : Nat
  groupId : Nat
  curUserIdList : List Nat
  chgUserIdList : List Nat
  deriving DecidableEq, Repr

/-- `CImUser::BroadcastPdu`: the connections that are sent the PDU. -/
def ImUser.broadcastTo (user : ImUser) (fromConn : Option ConnId) : List ConnId := user.conns.filter fun d => ¬some d = fromConn

/-- They are those that `broadcastPdu` sends to. -/
theorem run_broadcastPdu_eq (self : ConnId) (user : ImUser) (pdu : Pdu) (fromConn : Option ConnId) (s : Server) :
    ((broadcastPdu self user pdu fromConn).run s).out = (user.broadcastTo fromConn).map fun d => .send self (.client d) pdu := by
  rw [run_broadcastPdu]
  rfl

namespace Server

/-- `CImUserManager::GetMsgConnByHandle`. -/
def getMsgConnByHandle (s : Server) (userId handle : Nat) : Option ConnId :=
  match s.getImUserById userId with
  | none => none
  | some r =>
    match s.users r with
    | none => none
    | some user => user.connMap[handle]?

/-- `CGroupChat::_SendPduToUser`: the connections that are sent the PDU. -/
def sendPduToUser (s : Server) (userId : Nat) (reqConn : Option ConnId) : List ConnId :=
  match s.getImUserById userId with
  | none => []
  | some r =>
    match s.users r with
    | none => []
    | some user => user.broadcastTo reqConn

end Server

/-- What `HandleGroupChangeMemberResponse` sends: the response to the client that asked; the notification to the route server;
and the notification to clients, in this order. -/
structure ChangeSends where
  response : Option (ConnId × IMGroupChangeMemberRsp)
  route : Option (Nat × IMGroupChangeMemberNotify)
  notified : List ConnId
  deriving DecidableEq, Repr

/-- The notification of a response. -/
def changeNotify (msg : IMGroupChangeMemberRsp) : IMGroupChangeMemberNotify :=
  { userId := msg.userId, changeType := msg.changeType, groupId := msg.groupId, curUserIdList := msg.curUserIdList,
    chgUserIdList := msg.chgUserIdList }

/-- `CGroupChat::HandleGroupChangeMemberResponse`; `none` when the attached data are too short. -/
def handleGroupChangeMemberResponse (s : Server) (msg : IMGroupChangeMemberRsp) : Option ChangeSends :=
  match attachHandle (msg.attachData.getD []) with
  | none => none
  | some handle =>
    let fromConn := s.getMsgConnByHandle msg.userId handle
    let response := fromConn.map fun c => (c, { msg with attachData := none })
    if msg.resultCode = 0 then
      some {
        response
        route := s.getRouteServConn.map fun i => (i, changeNotify msg)
        notified := (msg.chgUserIdList.flatMap fun toUserId => s.sendPduToUser toUserId fromConn) ++
          msg.curUserIdList.flatMap fun toUserId => s.sendPduToUser toUserId fromConn }
    else some { response, route := none, notified := [] }

/-- `CGroupChat::HandleGroupChangeMemberBroadcast`: the connections that are sent the notification. -/
def handleGroupChangeMemberBroadcast (s : Server) (msg : IMGroupChangeMemberNotify) : List ConnId :=
  (msg.chgUserIdList.flatMap fun toUserId => s.sendPduToUser toUserId none) ++
    msg.curUserIdList.flatMap fun toUserId => s.sendPduToUser toUserId none

/-! ## Several msg_servers -/

/-- A msg_server in a state where its registry is in order, as in every run (`registry_of_run`). -/
structure MsgServer where
  server : Server
  idOf : String → Nat
  reading : Option ConnId
  registry : server.Registry idOf reading

/-- The state of a run. -/
def MsgServer.ofRun {idOf : String → Nat} {b : Backends} {ok : Loop → Event → Prop} (hok : ∀ l e, ok l e → AnswersWith idOf e)
    {log : List Effect} {l : Loop} (h : Machine.Run Loop.step ok (Loop.init b) log l) : MsgServer :=
  { server := l.server, idOf, reading := l.reading.map Reading.conn, registry := registry_of_run hok h }

/-- The msg_server that gets the response; and the others, with whether each is connected to the route server that is behind
the first one's `g_master_rs_conn`. -/
structure Cluster where
  home : MsgServer
  others : List (MsgServer × Bool)

/-- `_BroadcastMsg` of the route server, and what another msg_server then sends. -/
def Cluster.relayed (sends : ChangeSends) (other : MsgServer × Bool) : List ConnId :=
  match sends.route with
  | none => []
  | some (_, msg) => if other.2 then handleGroupChangeMemberBroadcast other.1.server msg else []

end TeamTalk
