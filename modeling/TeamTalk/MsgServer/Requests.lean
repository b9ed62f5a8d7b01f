import TeamTalk.MsgServer.MsgConn

/-!
# Requests of a client

The handlers of `CMsgConn` for requests of a logged-in client. Most of them fill in the user id and the handle of the
connection and pass the request on to the DB proxy; they differ in the message type, in what is attached, and in which
connections to the DB proxy they prefer.
-/

namespace TeamTalk

open Action

/-- `CDbAttachData(ATTACH_TYPE_HANDLE, m_handle, 0)`. -/
def MsgConn.attach (conn : MsgConn) : Option Bytes := some (dbAttachData attachTypeHandle conn.handle 0)

/-- `CPduAttachData(ATTACH_TYPE_HANDLE, m_handle, 0, NULL)`. -/
def MsgConn.pduAttach (conn : MsgConn) : Option Bytes := some (pduAttachData attachTypeHandle conn.handle [])

/-- Pass a request on to the DB proxy: the body is what `fill` makes of the client's, `none` when it does not parse. -/
def forwardToDb (available : Server → Bool) (fill : MsgConn → Msg → Option Msg) (c : ConnId) (pdu : Pdu) : Do Unit := do
  match fill (← getConn c) pdu.body with
  | some body => if available (← read) then emit (.send c .db (pdu.setPBMsg body))
  | none => return ()

/-- What passing a request on puts out. -/
theorem run_forwardToDb (available : Server → Bool) (fill : MsgConn → Msg → Option Msg) {c : ConnId} {conn : MsgConn}
    {s : Server} (hc : s.conns c = some conn) (hr : conn.refCount ≠ 0) (pdu : Pdu) :
    (forwardToDb available fill c pdu).run s =
      ⟨.ok (), s, if available s then (fill conn pdu.body).toList.map fun body => .send c .db (pdu.setPBMsg body) else []⟩ := by
  rw [forwardToDb, run_bind_ok (run_getConn hc hr)]
  cases fill conn pdu.body with
  | none => simp
  | some body =>
    simp only [run_read_bind]
    split <;> rfl

/-- `CMsgConn::_HandleHeartBeat`. -/
def handleHeartBeat (c : ConnId) (pdu : Pdu) : Do Unit := sendClient c c pdu

/-- The request that `_HandleClientRecentContactSessionRequest` passes on. -/
def fillRecentContactSession (conn : MsgConn) : Msg → Option Msg
  | .imRecentContactSessionReq msg =>
    some (.imRecentContactSessionReq { msg with userId := conn.userId, attachData := conn.attach })
  | _ => none

/-- `CMsgConn::_HandleClientRecentContactSessionRequest`. -/
def handleClientRecentContactSessionRequest : ConnId → Pdu → Do Unit :=
  forwardToDb Server.getDbServConnForLogin fillRecentContactSession

/-- `CMsgConn::_HandleClientMsgData`. The test whether the client sends to itself looks at the sender that the client
gives. -/
def handleClientMsgData (env : Env) (c : ConnId) (pdu : Pdu) : Do Unit := do
  match pdu.body with
  | .imMsgData msg =>
    let conn ← getConn c
    if msg.msgData.length = 0 then return ()
    else if conn.msgCntPerSec ≥ maxMsgCntPerSecond then return ()
    else if msg.fromUserId = msg.toSessionId ∧ checkMsgTypeSingle msg.msgType then return ()
    else
      setConn c { conn with msgCntPerSec := conn.msgCntPerSec + 1 }
      sendDb c (pdu.setPBMsg (.imMsgData
        { msg with fromUserId := conn.userId, createTime := env.now, attachData := conn.attach }))
  | _ => return ()

/-- `CMsgConn::DelFromSendList`: the first entry for this message. -/
def delFromSendList (c : ConnId) (msgId fromId : Nat) : Do Unit := do
  let conn ← getConn c
  setConn c { conn with sendMsgList := conn.sendMsgList.eraseP fun msg => msg.msgId = msgId ∧ msg.fromId = fromId }

/-- `CMsgConn::_HandleClientMsgDataAck`. -/
def handleClientMsgDataAck (c : ConnId) (pdu : Pdu) : Do Unit := do
  match pdu.body with
  | .imMsgDataAck msg => if msg.sessionType = sessionTypeSingle then delFromSendList c msg.msgId msg.sessionId
  | _ => return ()

/-- `CMsgConn::_HandleClientTimeRequest`. -/
def handleClientTimeRequest (env : Env) (c : ConnId) (pdu : Pdu) : Do Unit :=
  sendClient c c (mkPdu sidMsg .msgTimeResponse pdu.seqNum (.imClientTimeRsp { serverTime := env.now }))

/-- The request that `_HandleClientGetMsgListRequest` passes on. -/
def fillGetMsgList (conn : MsgConn) : Msg → Option Msg
  | .imGetMsgListReq msg => some (.imGetMsgListReq { msg with userId := conn.userId, attachData := conn.attach })
  | _ => none

/-- `CMsgConn::_HandleClientGetMsgListRequest`. -/
def handleClientGetMsgListRequest : ConnId → Pdu → Do Unit := forwardToDb Server.getDbServConnForLogin fillGetMsgList

/-- The request that `_HandleClientGetMsgByMsgIdRequest` passes on. -/
def fillGetMsgById (conn : MsgConn) : Msg → Option Msg
  | .imGetMsgByIdReq msg => some (.imGetMsgByIdReq { msg with userId := conn.userId, attachData := conn.attach })
  | _ => none

/-- `CMsgConn::_HandleClientGetMsgByMsgIdRequest`. -/
def handleClientGetMsgByMsgIdRequest : ConnId → Pdu → Do Unit := forwardToDb Server.getDbServConnForLogin fillGetMsgById

/-- The request that `_HandleClientUnreadMsgCntRequest` passes on. -/
def fillUnreadMsgCnt (conn : MsgConn) : Msg → Option Msg
  | .imUnreadMsgCntReq msg => some (.imUnreadMsgCntReq { msg with userId := conn.userId, attachData := conn.attach })
  | _ => none

/-- `CMsgConn::_HandleClientUnreadMsgCntRequest`. -/
def handleClientUnreadMsgCntRequest : ConnId → Pdu → Do Unit := forwardToDb Server.getDbServConnForLogin fillUnreadMsgCnt

/-- A notification to the other connections of the connection's user, and to the route server. -/
def notifyOthers (c : ConnId) (conn : MsgConn) (pdu : Pdu) : Do Unit := do
  match (← read).getImUserById conn.userId with
  | some r => broadcastPdu c (← getUser r) pdu (some c)
  | none => pure ()
  sendRoute c pdu

/-- `CMsgConn::_HandleClientMsgReadAck`. -/
def handleClientMsgReadAck (c : ConnId) (pdu : Pdu) : Do Unit := do
  match pdu.body with
  | .imMsgDataReadAck msg =>
    let conn ← getConn c
    sendDb c (pdu.setPBMsg (.imMsgDataReadAck { msg with userId := conn.userId }))
    notifyOthers c conn (mkPdu sidMsg .msgReadNotify 0 (.imMsgDataReadNotify
      { userId := conn.userId, sessionId := msg.sessionId, msgId := msg.msgId, sessionType := msg.sessionType }))
    if msg.sessionType = sessionTypeSingle then delFromSendList c msg.msgId msg.sessionId
  | _ => return ()

/-- The request that `_HandleClientGetLatestMsgIDReq` passes on. -/
def fillGetLatestMsgId (conn : MsgConn) : Msg → Option Msg
  | .imGetLatestMsgIdReq msg => some (.imGetLatestMsgIdReq { msg with userId := conn.userId, attachData := conn.attach })
  | _ => none

/-- `CMsgConn::_HandleClientGetLatestMsgIDReq`. -/
def handleClientGetLatestMsgIDReq : ConnId → Pdu → Do Unit := forwardToDb Server.getDbServConn fillGetLatestMsgId

/-- `CMsgConn::_HandleClientP2PCmdMsg`. The PDU goes out as it came in. -/
def handleClientP2PCmdMsg (c : ConnId) (pdu : Pdu) : Do Unit := do
  match pdu.body with
  | .imP2PCmdMsg msg =>
    let conn ← getConn c
    match (← read).getImUserById conn.userId with
    | some r => broadcastPdu c (← getUser r) pdu (some c)
    | none => pure ()
    match (← read).getImUserById msg.toUserId with
    | some r => broadcastPdu c (← getUser r) pdu none
    | none => pure ()
    sendRoute c pdu
  | _ => return ()

/-- The request that `_HandleClientUserInfoRequest` passes on. -/
def fillUsersInfo (conn : MsgConn) : Msg → Option Msg
  | .imUsersInfoReq msg => some (.imUsersInfoReq { msg with userId := conn.userId, attachData := conn.attach })
  | _ => none

/-- `CMsgConn::_HandleClientUserInfoRequest`. -/
def handleClientUserInfoRequest : ConnId → Pdu → Do Unit := forwardToDb Server.getDbServConnForLogin fillUsersInfo

/-- `CMsgConn::_HandleClientRemoveSessionRequest`. -/
def handleClientRemoveSessionRequest (c : ConnId) (pdu : Pdu) : Do Unit := do
  match pdu.body with
  | .imRemoveSessionReq msg =>
    let conn ← getConn c
    sendDb c (pdu.setPBMsg (.imRemoveSessionReq { msg with userId := conn.userId, attachData := conn.attach }))
    if msg.sessionType = sessionTypeSingle then
      notifyOthers c conn (mkPdu sidBuddyList .buddyListRemoveSessionNotify 0 (.imRemoveSessionNotify
        { userId := conn.userId, sessionType := msg.sessionType, sessionId := msg.sessionId }))
  | _ => return ()

/-- The request that `_HandleClientAllUserRequest` passes on. -/
def fillAllUser (conn : MsgConn) : Msg → Option Msg
  | .imAllUserReq msg => some (.imAllUserReq { msg with userId := conn.userId, attachData := conn.attach })
  | _ => none

/-- `CMsgConn::_HandleClientAllUserRequest`. -/
def handleClientAllUserRequest : ConnId → Pdu → Do Unit := forwardToDb Server.getDbServConn fillAllUser

/-- The request that `_HandleChangeAvatarRequest` passes on: what the client attached stays. -/
def fillChangeAvatar (conn : MsgConn) : Msg → Option Msg
  | .imChangeAvatarReq msg => some (.imChangeAvatarReq { msg with userId := conn.userId })
  | _ => none

/-- `CMsgConn::_HandleChangeAvatarRequest`. -/
def handleChangeAvatarRequest : ConnId → Pdu → Do Unit := forwardToDb Server.getDbServConn fillChangeAvatar

/-- `CMsgConn::_HandleClientUsersStatusRequest`: it goes to the route server. -/
def handleClientUsersStatusRequest (c : ConnId) (pdu : Pdu) : Do Unit := do
  match pdu.body with
  | .imUsersStatReq msg =>
    let conn ← getConn c
    sendRoute c (pdu.setPBMsg (.imUsersStatReq { msg with userId := conn.userId, attachData := conn.pduAttach }))
  | _ => return ()

/-- The request that `_HandleClientDepartmentRequest` passes on. -/
def fillDepartment (conn : MsgConn) : Msg → Option Msg
  | .imDepartmentReq msg => some (.imDepartmentReq { msg with userId := conn.userId, attachData := conn.attach })
  | _ => none

/-- `CMsgConn::_HandleClientDepartmentRequest`. -/
def handleClientDepartmentRequest : ConnId → Pdu → Do Unit := forwardToDb Server.getDbServConn fillDepartment

/-- `CMsgConn::_HandleClientDeviceToken`. The answer's user id is never set, and what the client attached stays. -/
def handleClientDeviceToken (c : ConnId) (pdu : Pdu) : Do Unit := do
  let conn ← getConn c
  if checkClientTypeMobile conn.clientType then
    match pdu.body with
    | .imDeviceTokenReq msg =>
      sendClient c c (mkPdu sidLogin .loginResDevicetoken pdu.seqNum (.imDeviceTokenRsp { userId := none, attachData := none }))
      sendDb c (pdu.setPBMsg (.imDeviceTokenReq { msg with userId := conn.userId, clientType := some conn.clientType }))
    | _ => return ()

/-- The request that `_HandleChangeSignInfoRequest` passes on. -/
def fillChangeSignInfo (conn : MsgConn) : Msg → Option Msg
  | .imChangeSignInfoReq msg => some (.imChangeSignInfoReq { msg with userId := conn.userId, attachData := conn.pduAttach })
  | _ => none

/-- `CMsgConn::_HandleChangeSignInfoRequest`. -/
def handleChangeSignInfoRequest : ConnId → Pdu → Do Unit := forwardToDb Server.getDbServConn fillChangeSignInfo

/-- The request that `_HandlePushShieldRequest` passes on. -/
def fillPushShield (conn : MsgConn) : Msg → Option Msg
  | .imPushShieldReq msg => some (.imPushShieldReq { msg with userId := conn.userId, attachData := conn.pduAttach })
  | _ => none

/-- `CMsgConn::_HandlePushShieldRequest`. -/
def handlePushShieldRequest : ConnId → Pdu → Do Unit := forwardToDb Server.getDbServConn fillPushShield

/-- The request that `_HandleQueryPushShieldRequest` passes on. -/
def fillQueryPushShield (conn : MsgConn) : Msg → Option Msg
  | .imQueryPushShieldReq msg => some (.imQueryPushShieldReq { msg with userId := conn.userId, attachData := conn.pduAttach })
  | _ => none

/-- `CMsgConn::_HandleQueryPushShieldRequest`. -/
def handleQueryPushShieldRequest : ConnId → Pdu → Do Unit := forwardToDb Server.getDbServConn fillQueryPushShield

/-- The request that `_HandleReqVisibleRange` passes on. -/
def fillReqVisibleRange (conn : MsgConn) : Msg → Option Msg
  | .relationListREQ msg => some (.relationListREQ { msg with userid := conn.userId })
  | _ => none

/-- `CMsgConn::_HandleReqVisibleRange`. -/
def handleReqVisibleRange : ConnId → Pdu → Do Unit := forwardToDb Server.getDbServConn fillReqVisibleRange

end TeamTalk
