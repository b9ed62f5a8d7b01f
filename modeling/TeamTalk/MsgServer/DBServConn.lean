import TeamTalk.MsgServer.MsgConn

/-!
# The DB proxy's answer to a login

`CDBServConn::_HandleValidateResponse`: it opens the waiting connection, or answers it with the failure code and closes it.
-/

namespace TeamTalk

open Action

/-- What `CByteStream` throws when the attached data is too short. -/
def parsePacketFailed : PduException :=
  { serviceId := 0, commandId := 0, errorCode := 1, errorMsg := "parase packet failed!" }

/-- What protobuf gives for user data that is not in the message. -/
def noUserInfo : UserInfo :=
  { userId := 0, userGender := 0, userNickName := "", avatarUrl := "", departmentId := 0, email := "", userRealName := "",
    userTel := "", userDomain := "", status := 0, signInfo := none }

/-- The user that a validated connection goes to: the one registered under the id, or the one the connection waited at.
In the first case the connection leaves the latter, which is deleted when it has no connection. -/
def userForId (r : UserRef) (c : ConnId) (loginName : String) (userId : Nat) : Do UserRef := do
  match (← read).getImUserById userId with
  | some q =>
    setUser q ((← getUser q).addUnValidateMsgConn c)
    setUser r ((← getUser r).delUnValidateMsgConn c)
    if (← getUser r).isMsgConnEmpty then
      removeImUserByLoginName loginName
      deleteUser r
    return q
  | none => return r

/-- `_HandleValidateResponse`, when the DB proxy has accepted the login of connection `c`, which waits at user `r`. -/
def acceptLogin (env : Env) (r : UserRef) (c : ConnId) (msg : IMValidateRsp) (seqNum : Nat) : Do Unit := do
  let userInfo := msg.userInfo.getD noUserInfo
  let userId := userInfo.userId
  let q ← userForId r c msg.userName userId
  setUser q { ← getUser q with userId, nickName := userInfo.userNickName, bValidate := true }
  addImUserById userId q
  kickOutSameClientType (← getUser q) (← getConn c).clientType kickReasonDuplicateUser (some c)
  sendRoute c (mkPdu sidOther .otherServerKickUser 0 (.imServerKickUser
    { userId, clientType := (← getConn c).clientType, reason := 1 }))
  setConn c { ← getConn c with userId, bOpen := true }
  emit (.setOpen c)
  sendUserStatusUpdate c userStatusOnline
  setUser q ((← getUser q).validateMsgConn (← getConn c).handle c)
  sendClient c c (mkPdu sidLogin .loginResUserlogin seqNum (.imLoginRes
    { serverTime := env.now, resultCode := refuseReasonNone, resultString := some (msg.resultString.getD "")
      onlineStatus := some (← getConn c).onlineStatus
      userInfo := some { userInfo with signInfo := some (userInfo.signInfo.getD "") } }))

/-- `_HandleValidateResponse`, when the DB proxy has refused the login of connection `c`. -/
def refuseLogin (env : Env) (c : ConnId) (msg : IMValidateRsp) (seqNum : Nat) : Do Unit := do
  sendClient c c (mkPdu sidLogin .loginResUserlogin seqNum (.imLoginRes
    { serverTime := env.now, resultCode := refuseReasonDbValidateFailed, resultString := some (msg.resultString.getD "")
      onlineStatus := none, userInfo := none }))
  close c

/-- `CDBServConn::_HandleValidateResponse`. -/
def handleValidateResponse (env : Env) (pdu : Pdu) : Do Unit := do
  match pdu.body with
  | .imValidateRsp msg =>
    match attachHandle (msg.attachData.getD []) with
    | none => stop (.thrown parsePacketFailed)
    | some handle =>
      match (← read).getImUserByLoginName msg.userName with
      | none => return ()
      | some r =>
        match ← getUnValidateMsgConn (← getUser r) handle with
        | none => return ()
        | some c =>
          if (← getConn c).bOpen then return ()
          else if msg.resultCode = 0 then acceptLogin env r c msg pdu.seqNum
          else refuseLogin env c msg pdu.seqNum
  | _ => return ()

/-- `CRouteServConn::_HandleKickUser`. -/
def handleRouteKickUser (pdu : Pdu) : Do Unit := do
  match pdu.body with
  | .imServerKickUser msg =>
    match (← read).getImUserById msg.userId with
    | some r => kickOutSameClientType (← getUser r) msg.clientType msg.reason none
    | none => return ()
  | _ => return ()

end TeamTalk
