import TeamTalk.MsgServer.ImUser

/-!
# Client connections

`CMsgConn`: closing, status updates, the timer, and the requests of a client, in the order of the source.
-/

namespace TeamTalk

open Action

/-- `TIMEOUT_WATI_LOGIN_RESPONSE`. -/
abbrev timeoutWaitLoginResponse : Nat := 15000

/-- `TIMEOUT_WAITING_MSG_DATA_ACK`. -/
abbrev timeoutWaitingMsgDataAck : Nat := 15000

/-- `MAX_MSG_CNT_PER_SECOND`. -/
abbrev maxMsgCntPerSecond : Nat := 20

/-- `CLIENT_TIMEOUT`. -/
abbrev clientTimeout : Nat := 120000

/-- `MOBILE_CLIENT_TIMEOUT`. -/
abbrev mobileClientTimeout : Nat := 60000 * 5

/-- `CMsgConn::SendUserStatusUpdate`: only going online or offline is reported. -/
def sendUserStatusUpdate (c : ConnId) (userStatus : Nat) : Do Unit := do
  let conn ← getConn c
  if conn.bOpen then
    match (← read).getImUserById conn.userId with
    | none => return ()
    | some r =>
      let user ← getUser r
      if userStatus = userStatusOnline ∨ userStatus = userStatusOffline then
        let action := if userStatus = userStatusOnline then userCntInc else userCntDec
        sendToAllLoginServer c (mkPdu sidOther .otherUserCntUpdate 0
          (.imUserCntUpdate { userAction := action, userId := user.userId }))
        sendToAllRouteServer c (mkPdu sidOther .otherUserStatusUpdate 0
          (.imUserStatusUpdate { userStatus, userId := user.userId, clientType := conn.clientType }))

/-- The notification that `Close` sends to the DB proxy when no connection of the user is left. -/
def offlineNotify (userId : Nat) : Pdu :=
  mkPdu sidOther .fileNotifyDbserver 0 (.infoNotify { offlineFileList := [
    { fromUserId := userId, taskId := toString userId, fileName := "0", fileSize := 0, fileMd5 := "0",
      status := uint32Size - 1 }] })

/-- `CMsgConn::Close`: the user that is found by id. -/
def closeById (c : ConnId) (conn : MsgConn) : Do Unit := do
  match (← read).getImUserById conn.userId with
  | none => return ()
  | some r =>
    setUser r (((← getUser r).delMsgConn conn.handle).delUnValidateMsgConn c)
    emit (.delMsgConn c)
    sendUserStatusUpdate c userStatusOffline
    if (← getUser r).isMsgConnEmpty then removeImUser r

/-- `CMsgConn::Close`: the user that is found by login name. -/
def closeByLoginName (c : ConnId) (conn : MsgConn) : Do Unit := do
  match (← read).getImUserByLoginName conn.loginName with
  | none => return ()
  | some r =>
    setUser r ((← getUser r).delUnValidateMsgConn c)
    if (← getUser r).isMsgConnEmpty then removeImUser r

/-- `CRefObject::ReleaseRef`. -/
def releaseRef (c : ConnId) : Do Unit := do
  let conn ← getConn c
  setConn c { conn with refCount := conn.refCount - 1 }

/-- `CMsgConn::Close`. -/
def close (c : ConnId) : Do Unit := do
  let conn ← getConn c
  emit (.netlibClose c)
  modify fun s => { s with msgConnMap := s.msgConnMap.erase conn.handle }
  emit (.eraseConn c)
  closeById c conn
  closeByLoginName c conn
  if ((← read).getImUserById conn.userId).isNone then sendDb c (offlineNotify conn.userId)
  releaseRef c
  emit (.releaseRef c)

/-- `CMsgConn::OnTimer`. -/
def onTimer (c : ConnId) (currTick : Nat) : Do Unit := do
  let conn ← getConn c
  setConn c { conn with msgCntPerSec := 0 }
  let timeout := if checkClientTypeMobile conn.clientType then mobileClientTimeout else clientTimeout
  if currTick > conn.lastRecvTick + timeout then close c
  else if !conn.bOpen ∧ currTick > conn.loginTime + timeoutWaitLoginResponse then close c
  else
    setConn c { conn with
      msgCntPerSec := 0
      sendMsgList := conn.sendMsgList.dropWhile fun msg => currTick ≥ msg.timestamp + timeoutWaitingMsgDataAck }

/-! ## Login -/

/-- Why a login request is refused at once, if it is: a kind of server is missing. -/
def loginRefusal (s : Server) : Option Nat :=
  if !s.getDbServConnForLogin then some refuseReasonNoDbServer
  else if !s.isLoginServerAvailable then some refuseReasonNoLoginServer
  else if !s.isRouteServerAvailable then some refuseReasonNoRouteServer
  else none

/-- `CMsgConn::_HandleLoginRequest`. -/
def handleLoginRequest (env : Env) (c : ConnId) (pdu : Pdu) : Do Unit := do
  let conn ← getConn c
  if conn.loginName.length ≠ 0 then return ()
  else
    match loginRefusal (← read) with
    | some result =>
      sendClient c c (mkPdu sidLogin .loginResUserlogin pdu.seqNum (.imLoginRes
        { serverTime := env.now, resultCode := result, resultString := some "服务端异常", onlineStatus := none,
          userInfo := none }))
      close c
    | none =>
      match pdu.body with
      | .imLoginReq msg =>
        let onlineStatus := if msg.onlineStatus < userStatusOnline ∨ msg.onlineStatus > userStatusLeave
          then userStatusOnline else msg.onlineStatus
        setConn c { conn with
          loginName := msg.userName, clientVersion := msg.clientVersion.getD "", clientType := msg.clientType, onlineStatus }
        let r ← match (← read).getImUserByLoginName msg.userName with
          | some r => pure r
          | none => do
            let r ← newImUser msg.userName
            addImUserByLoginName msg.userName r
            pure r
        setUser r ((← getUser r).addUnValidateMsgConn c)
        emit (.send c .db (mkPdu sidOther .otherValidateReq pdu.seqNum (.imValidateReq
          { userName := msg.userName, password := msg.password,
            attachData := some (dbAttachData attachTypeHandle conn.handle 0) })))
      | _ => return ()

/-- `CMsgConn::_HandleLoginOutRequest`. -/
def handleLoginOutRequest (c : ConnId) (pdu : Pdu) : Do Unit := do
  let conn ← getConn c
  sendDb c (mkPdu sidLogin .loginReqDevicetoken pdu.seqNum (.imDeviceTokenReq
    { userId := conn.userId, deviceToken := "", clientType := none, attachData := none }))
  sendClient c c (mkPdu sidLogin .loginResLoginout pdu.seqNum (.imLogoutRsp { resultCode := 0 }))
  close c

/-- `CMsgConn::_HandleKickPCClient`. -/
def handleKickPCClient (c : ConnId) (pdu : Pdu) : Do Unit := do
  match pdu.body with
  | .imKickPCClientReq _ =>
    let conn ← getConn c
    if checkClientTypeMobile conn.clientType then
      match (← read).getImUserById conn.userId with
      | some r => kickOutSameClientType (← getUser r) clientTypeMac kickReasonMobileKick (some c)
      | none => pure ()
      sendRoute c (mkPdu sidOther .otherServerKickUser 0 (.imServerKickUser
        { userId := conn.userId, clientType := clientTypeMac, reason := kickReasonMobileKick }))
      sendClient c c (mkPdu sidLogin .loginResKickpcclient pdu.seqNum (.imKickPCClientRsp
        { userId := conn.userId, resultCode := 0 }))
  | _ => return ()

end TeamTalk
