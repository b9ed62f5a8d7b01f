import TeamTalk.MsgServer.FileHandler
import TeamTalk.MsgServer.GroupChat

/-!
# The requests of a client, by command

`CMsgConn::HandlePdu`: the request authorization check, and the handler of each command.
-/

namespace TeamTalk

open Action

/-- What the request authorization check throws. -/
def userNotLogin (pdu : Pdu) : PduException :=
  { serviceId := pdu.serviceId, commandId := pdu.commandId.code, errorCode := 2,
    errorMsg := "HandlePdu error, user not login. " }

/-- The request authorization check: the request is refused when the connection is not open and was kicked off. -/
def authRefused (conn : MsgConn) (pdu : Pdu) : Bool :=
  pdu.commandId ≠ .loginReqUserlogin ∧ !conn.bOpen ∧ conn.bKickOff

/-- The handler of each command. -/
def dispatch (env : Env) (c : ConnId) (pdu : Pdu) : Do Unit :=
  match pdu.commandId with
  | .otherHeartbeat => handleHeartBeat c pdu
  | .loginReqUserlogin => handleLoginRequest env c pdu
  | .loginReqLoginout => handleLoginOutRequest c pdu
  | .loginReqDevicetoken => handleClientDeviceToken c pdu
  | .loginReqKickpcclient => handleKickPCClient c pdu
  | .loginReqPushShield => handlePushShieldRequest c pdu
  | .loginReqQueryPushShield => handleQueryPushShieldRequest c pdu
  | .loginReqVisibleRange => handleReqVisibleRange c pdu
  | .msgData => handleClientMsgData env c pdu
  | .msgDataAck => handleClientMsgDataAck c pdu
  | .msgTimeRequest => handleClientTimeRequest env c pdu
  | .msgListRequest => handleClientGetMsgListRequest c pdu
  | .msgGetByMsgIdReq => handleClientGetMsgByMsgIdRequest c pdu
  | .msgUnreadCntRequest => handleClientUnreadMsgCntRequest c pdu
  | .msgReadAck => handleClientMsgReadAck c pdu
  | .msgGetLatestMsgIdReq => handleClientGetLatestMsgIDReq c pdu
  | .switchP2pCmd => handleClientP2PCmdMsg c pdu
  | .buddyListRecentContactSessionRequest => handleClientRecentContactSessionRequest c pdu
  | .buddyListUserInfoRequest => handleClientUserInfoRequest c pdu
  | .buddyListRemoveSessionReq => handleClientRemoveSessionRequest c pdu
  | .buddyListAllUserRequest => handleClientAllUserRequest c pdu
  | .buddyListChangeAvatarRequest => handleChangeAvatarRequest c pdu
  | .buddyListChangeSignInfoRequest => handleChangeSignInfoRequest c pdu
  | .buddyListUsersStatusRequest => handleClientUsersStatusRequest c pdu
  | .buddyListDepartmentRequest => handleClientDepartmentRequest c pdu
  | .groupNormalListRequest => handleClientGroupNormalRequest c pdu
  | .groupInfoRequest => handleClientGroupInfoRequest c pdu
  | .groupCreateRequest => handleClientGroupCreateRequest c pdu
  | .groupChangeMemberRequest => handleClientGroupChangeMemberRequest c pdu
  | .groupShieldGroupRequest => handleClientGroupShieldGroupRequest c pdu
  | .fileRequest => handleClientFileRequest env c pdu
  | .fileHasOfflineReq => handleClientFileHasOfflineReq c pdu
  | .fileAddOfflineReq => handleClientFileAddOfflineReq env c pdu
  | .fileDelOfflineReq => handleClientFileDelOfflineReq env c pdu
  | .fileNotifyAck => handleNotifyAck c pdu
  | _ => return ()

/-- `CMsgConn::HandlePdu`. -/
def handlePdu (env : Env) (c : ConnId) (pdu : Pdu) : Do Unit := do
  emit (.handlePdu c pdu)
  if authRefused (← getConn c) pdu then stop (.thrown (userNotLogin pdu)) else dispatch env c pdu

/-- What `HandlePdu` does, when it is defined: the authorization check throws, or the command's handler runs. -/
theorem handlePdu_cases {env : Env} {c : ConnId} {pdu : Pdu} {s s' : Server} {result : Except Stop Unit} {out : List Effect}
    (h : (handlePdu env c pdu).run s = ⟨result, s', out⟩) (hres : result ≠ .error .undefinedBehaviour) :
    ∃ conn, s.conns c = some conn ∧ conn.refCount ≠ 0 ∧
      ((authRefused conn pdu = true ∧ result = .error (.thrown (userNotLogin pdu)) ∧ s' = s ∧ out = [.handlePdu c pdu]) ∨
        (authRefused conn pdu = false ∧ ∃ out', out = .handlePdu c pdu :: out' ∧
          (dispatch env c pdu).run s = ⟨result, s', out'⟩)) := by
  rw [handlePdu, run_emit_bind] at h
  obtain ⟨hresult, hstate, hout⟩ := (Outcome.mk.injEq ..).mp h
  have hstop : ∀ {a : Do MsgConn} {f : MsgConn → Do Unit}, a.run s = ⟨.error .undefinedBehaviour, s, []⟩ →
      ((a >>= f).run s).result = .error .undefinedBehaviour := fun ha => by rw [run_bind_error ha]
  cases hc : s.conns c with
  | none =>
    rw [hstop (by rw [getConn, run_read_bind, hc, run_stop])] at hresult
    exact absurd hresult.symm hres
  | some conn =>
    by_cases hlive : conn.refCount = 0
    · rw [hstop (by rw [getConn, run_read_bind]; simp only [hc, if_pos hlive, run_stop])] at hresult
      exact absurd hresult.symm hres
    · refine ⟨conn, rfl, hlive, ?_⟩
      rw [run_bind_nil (run_getConn hc hlive)] at hresult hstate hout
      cases hauth : authRefused conn pdu with
      | true =>
        rw [hauth] at hresult hstate hout
        exact .inl ⟨rfl, hresult.symm, hstate.symm, hout.symm⟩
      | false =>
        rw [hauth] at hresult hstate hout
        exact .inr ⟨rfl, _, hout.symm, by rw [← hresult, ← hstate]; rfl⟩

end TeamTalk
