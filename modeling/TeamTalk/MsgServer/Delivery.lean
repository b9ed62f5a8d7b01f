import TeamTalk.MsgServer.GroupChange

/-!
# The way of a message

A message goes from a client's msg_server to the DB proxy, and comes back with an id. That msg_server acknowledges it, hands it to the
route server, and sends it to the clients it has itself; the other msg_servers send it to theirs when the route server passes it on. For
a group, each of them first asks the DB proxy for the members, who may have changed from one request to the next, and are not told when
the DB proxy has no connection to look them up. PDUs arrive in any order, and meanwhile the msg_servers go on with everything else they
do.
-/

namespace TeamTalk.Delivery

/-! ## The handlers of msg_server -/

/-- `IMGroupInfoListReq` for one group: its attached data are a handle and a message. -/
structure GroupInfoReq where
  userId : Nat
  groupId : Nat
  handle : Nat
  msg : IMMsgData
  deriving DecidableEq, Repr

/-- What a handler sends: to a client, the route server or the DB proxy. -/
inductive Send where
  | ack (c : ConnId) (msg : IMMsgDataAck)
  | client (c : ConnId) (msg : IMMsgData)
  | route (msg : IMMsgData)
  | groupInfo (req : GroupInfoReq)
  | deviceToken (userId : Nat) (msg : IMMsgData)
  | shield (groupId : Nat) (userIds : List Nat) (msg : IMMsgData)
  deriving DecidableEq, Repr

/-- What `_HandleClientMsgData` sends to the DB proxy, if it gets there. -/
def clientMsgData (conn : MsgConn) (now : Nat) (msg : IMMsgData) : Option IMMsgData :=
  if msg.msgData.length = 0 ∨ conn.msgCntPerSec ≥ maxMsgCntPerSecond ∨
      msg.fromUserId = msg.toSessionId ∧ checkMsgTypeSingle msg.msgType then none
  else some { msg with fromUserId := conn.userId, createTime := now, attachData := conn.attach }

/-- A message without the attached data, as after `clear_attach_data`. -/
def plain (msg : IMMsgData) : IMMsgData := { msg with attachData := none }

/-- `IMMsgDataAck` of a message. -/
def ackOf (msg : IMMsgData) : IMMsgDataAck where
  userId := msg.fromUserId
  sessionId := msg.toSessionId
  msgId := msg.msgId
  sessionType := if checkMsgTypeGroup msg.msgType then sessionTypeGroup else sessionTypeSingle

/-- The acknowledgement, for the connection that the handle names. -/
def sendAck (s : Server) (msg : IMMsgData) (handle : Nat) : List Send :=
  (s.getMsgConnByHandle msg.fromUserId handle).toList.map fun c => .ack c (ackOf msg)

/-- `pRouteConn->SendPdu`. -/
def sendRoute (s : Server) (msg : IMMsgData) : List Send := s.getRouteServConn.toList.map fun _ => .route msg

/-- `GetImUserById`, and `BroadcastClientMsgData` or `BroadcastData`, whose loops are that of `BroadcastPdu`. -/
def broadcastUser (s : Server) (userId : Nat) (fromConn : Option ConnId) (msg : IMMsgData) : List Send :=
  (s.sendPduToUser userId fromConn).map fun c => .client c msg

/-- The request for the members of a group. -/
def requestGroupInfo (s : Server) (msg : IMMsgData) (handle : Nat) : List Send :=
  if s.getDbServConn then [.groupInfo { userId := msg.fromUserId, groupId := msg.toSessionId, handle, msg }] else []

/-- `CGroupChat::HandleGroupMessage`; `none` when the attached data are too short. -/
def handleGroupMessage (s : Server) (msg : IMMsgData) : Option (List Send) :=
  if msg.msgId = 0 then some []
  else (attachHandle (msg.attachData.getD [])).map fun handle =>
    sendAck s msg handle ++ sendRoute s msg ++ requestGroupInfo s msg handle

/-- `CDBServConn::_HandleMsgData`. -/
def handleMsgData (s : Server) (msg : IMMsgData) : Option (List Send) :=
  if checkMsgTypeGroup msg.msgType then handleGroupMessage s msg
  else if msg.msgId = 0 then some []
  else (attachHandle (msg.attachData.getD [])).map fun handle =>
    sendAck s msg handle ++ sendRoute s msg ++
      broadcastUser s msg.fromUserId (s.getMsgConnByHandle msg.fromUserId handle) (plain msg) ++
      broadcastUser s msg.toSessionId none (plain msg) ++ [.deviceToken msg.toSessionId (plain msg)]

/-- `CGroupChat::HandleGroupMessageBroadcast`. -/
def handleGroupMessageBroadcast (s : Server) (msg : IMMsgData) : List Send := requestGroupInfo s msg 0

/-- `CRouteServConn::_HandleMsgData`. -/
def handleRouteMsgData (s : Server) (msg : IMMsgData) : List Send :=
  if checkMsgTypeGroup msg.msgType then handleGroupMessageBroadcast s msg
  else broadcastUser s msg.fromUserId none msg ++ broadcastUser s msg.toSessionId none msg

/-- `CGroupChat::HandleGroupInfoResponse`, for a request with a message. -/
def handleGroupInfoResponse (s : Server) (req : GroupInfoReq) : List GroupInfo → List Send
  | [] => []
  | groupInfo :: _ =>
    if req.userId ∈ groupInfo.groupMemberList then
      (groupInfo.groupMemberList.flatMap fun memberUserId =>
        broadcastUser s memberUserId
          (if memberUserId = req.userId ∧ req.handle ≠ 0 then s.getMsgConnByHandle req.userId req.handle else none) req.msg) ++
        if s.getDbServConn then [.shield groupInfo.groupId groupInfo.groupMemberList req.msg] else []
    else []

/-! ## The network -/

/-- A msg_server, and whether the connection that it uses leads to this route server. -/
structure Peer extends MsgServer where
  linked : Bool

/-- A PDU on its way, from or to a msg_server. -/
inductive Packet where
  /-- To the DB proxy, and its answer. -/
  | msgDataReq (i : Nat) (msg : IMMsgData)
  | msgDataRsp (i : Nat) (msg : IMMsgData)
  /-- To the route server, and what it passes on. -/
  | route (i : Nat) (msg : IMMsgData)
  | broadcast (i : Nat) (msg : IMMsgData)
  /-- To the DB proxy, and its answer. -/
  | groupInfoReq (i : Nat) (req : GroupInfoReq)
  | groupInfoRsp (i : Nat) (req : GroupInfoReq) (groupInfoList : List GroupInfo)
  deriving DecidableEq, Repr

/-- The msg_servers, and the PDUs on their way. -/
structure Net where
  peers : List Peer
  packets : List Packet

/-- What can be seen: a client's message goes to the DB proxy, the DB proxy gives it an id, it tells a msg_server the members for a
message, a msg_server sends something. -/
inductive Output where
  | asked (i : Nat) (c : ConnId) (msg : IMMsgData)
  | accepted (i : Nat) (msg : IMMsgData)
  | members (i : Nat) (req : GroupInfoReq) (groupInfoList : List GroupInfo)
  | sent (i : Nat) (send : Send)
  deriving DecidableEq, Repr

/-- The PDU for another server. -/
def Send.packet (i : Nat) (linked : Bool) : Send → Option Packet
  | .route msg => if linked then some (.route i msg) else none
  | .groupInfo req => some (.groupInfoReq i req)
  | .ack _ _ | .client _ _ | .deviceToken _ _ | .shield _ _ _ => none

/-- A msg_server handles a PDU. -/
def Net.serve (n : Net) (i : Nat) (f : Server → Option (List Send)) : Option (List Packet × List Output) :=
  match n.peers[i]? with
  | none => none
  | some peer => (f peer.server).map fun sends => (sends.filterMap (Send.packet i peer.linked), sends.map (.sent i))

/-- The connections of `_BroadcastMsg` of the route server. -/
def Net.others (n : Net) (i : Nat) : List Nat :=
  (List.range n.peers.length).filter fun l => l ≠ i ∧ n.peers[l]?.any Peer.linked

/-- A PDU arrives. Requests are answered by the DB proxy when it has asked its storage. -/
def Net.process (n : Net) : Packet → Option (List Packet × List Output)
  | .msgDataReq _ _ | .groupInfoReq _ _ => none
  | .msgDataRsp i msg => n.serve i fun s => handleMsgData s msg
  | .route i msg => some ((n.others i).map fun l => .broadcast l msg, [])
  | .broadcast i msg => n.serve i fun s => some (handleRouteMsgData s msg)
  | .groupInfoRsp i req groupInfoList => n.serve i fun s => some (handleGroupInfoResponse s req groupInfoList)

/-- The DB proxy's answer to a message, if there is one. -/
def Net.answered (answer : Option IMMsgData) : Packet → Option (List Packet × List Output)
  | .msgDataReq i _ =>
    match answer with
    | none => some ([], [])
    | some msg => some ([.msgDataRsp i msg], if msg.msgId = 0 then [] else [.accepted i msg])
  | _ => none

/-- The DB proxy's answer to a request for members: what `getGroupInfo` finds. -/
def Net.listed (groupInfoList : List GroupInfo) : Packet → Option (List Packet × List Output)
  | .groupInfoReq i req => some ([.groupInfoRsp i req groupInfoList], [.members i req groupInfoList])
  | _ => none

/-- One of the PDUs is taken away, and others come. -/
def Net.take (n : Net) (k : Nat) (f : Packet → Option (List Packet × List Output)) : Option (Net × List Output) :=
  match n.packets[k]? with
  | none => none
  | some packet => (f packet).map fun (packets, out) => ({ n with packets := n.packets.eraseIdx k ++ packets }, out)

/-- What happens next. -/
inductive Event where
  /-- An open connection sends a message. -/
  | client (i : Nat) (c : ConnId) (now : Nat) (msg : IMMsgData)
  /-- A msg_server does something else. -/
  | change (i : Nat) (peer : Peer)
  /-- One of the PDUs arrives. -/
  | arrive (k : Nat)
  /-- The DB proxy answers a message. -/
  | answer (k : Nat) (answer : Option IMMsgData)
  /-- The DB proxy answers a request for members. -/
  | groupInfo (k : Nat) (groupInfoList : List GroupInfo)

/-- One step. Handles are 32-bit numbers. -/
def Net.step (n : Net) : Event → Option (Net × List Output)
  | .client i c now msg =>
    match n.peers[i]? with
    | none => none
    | some peer =>
      match peer.server.conns c with
      | none => none
      | some conn =>
        if conn.bOpen ∧ peer.server.msgConnMap[conn.handle]? = some c ∧ conn.handle < uint32Size then
          match clientMsgData conn now msg with
          | none => some (n, [])
          | some req =>
            if peer.server.getDbServConn then some ({ n with packets := n.packets ++ [.msgDataReq i req] }, [.asked i c req])
            else some (n, [])
        else none
  | .change i peer => if i < n.peers.length then some ({ n with peers := n.peers.set i peer }, []) else none
  | .arrive k => n.take k n.process
  | .answer k answer => n.take k (Net.answered answer)
  | .groupInfo k groupInfoList => n.take k (Net.listed groupInfoList)

end TeamTalk.Delivery
