import TeamTalk.MsgServer.HandlePdu

/-!
# Who a PDU says is acting

The fields of a client's request that name the acting user, a request without them, and the fields of a PDU that the server
sends which do. All but five handlers never look at the former.
-/

namespace TeamTalk

open Action

/-- The request without the fields that name the acting user, and without what the client attached. -/
def Msg.anonymise : Msg → Msg
  | .imDeviceTokenReq m => .imDeviceTokenReq { m with userId := 0, attachData := none }
  | .imKickPCClientReq m => .imKickPCClientReq { m with userId := 0 }
  | .imPushShieldReq m => .imPushShieldReq { m with userId := 0, attachData := none }
  | .imQueryPushShieldReq m => .imQueryPushShieldReq { m with userId := 0, attachData := none }
  | .relationListREQ m => .relationListREQ { m with userid := 0 }
  | .imRecentContactSessionReq m => .imRecentContactSessionReq { m with userId := 0, attachData := none }
  | .imUsersInfoReq m => .imUsersInfoReq { m with userId := 0, attachData := none }
  | .imRemoveSessionReq m => .imRemoveSessionReq { m with userId := 0, attachData := none }
  | .imAllUserReq m => .imAllUserReq { m with userId := 0, attachData := none }
  | .imUsersStatReq m => .imUsersStatReq { m with userId := 0, attachData := none }
  | .imChangeAvatarReq m => .imChangeAvatarReq { m with userId := 0, attachData := none }
  | .imDepartmentReq m => .imDepartmentReq { m with userId := 0, attachData := none }
  | .imChangeSignInfoReq m => .imChangeSignInfoReq { m with userId := 0, attachData := none }
  | .imMsgData m => .imMsgData { m with fromUserId := 0, attachData := none }
  | .imMsgDataAck m => .imMsgDataAck { m with userId := 0 }
  | .imMsgDataReadAck m => .imMsgDataReadAck { m with userId := 0 }
  | .imUnreadMsgCntReq m => .imUnreadMsgCntReq { m with userId := 0, attachData := none }
  | .imGetMsgListReq m => .imGetMsgListReq { m with userId := 0, attachData := none }
  | .imGetLatestMsgIdReq m => .imGetLatestMsgIdReq { m with userId := 0, attachData := none }
  | .imGetMsgByIdReq m => .imGetMsgByIdReq { m with userId := 0, attachData := none }
  | .imP2PCmdMsg m => .imP2PCmdMsg { m with fromUserId := 0 }
  | .imNormalGroupListReq m => .imNormalGroupListReq { m with userId := 0, attachData := none }
  | .imGroupInfoListReq m => .imGroupInfoListReq { m with userId := 0, attachData := none }
  | .imGroupCreateReq m => .imGroupCreateReq { m with userId := 0, attachData := none }
  | .imGroupChangeMemberReq m => .imGroupChangeMemberReq { m with userId := 0, attachData := none }
  | .imGroupShieldReq m => .imGroupShieldReq { m with userId := 0, attachData := none }
  | .imFileReq m => .imFileReq { m with fromUserId := 0 }
  | .imFileHasOfflineReq m => .imFileHasOfflineReq { m with userId := 0, attachData := none }
  | .imFileAddOfflineReq m => .imFileAddOfflineReq { m with fromUserId := 0 }
  | .imFileDelOfflineReq m => .imFileDelOfflineReq { m with toUserId := 0 }
  | m => m

/-- The same for a PDU: the header stays. -/
def Pdu.anonymise (pdu : Pdu) : Pdu := { pdu with body := pdu.body.anonymise }

/-- The users that a PDU sent on a request of the given command names as acting. An offline file's notification names the
receiver that has fetched it when the request deletes the file, and otherwise the sender; where it goes to the DB proxy
because of a client's own notification or deletion, it names no acting user, only the file's sender. -/
def actingUsers (request : Cid) : Msg → List Nat
  | .imKickUser m => [m.userId]
  | .imDeviceTokenReq m => [m.userId]
  | .imPushShieldReq m => [m.userId]
  | .imQueryPushShieldReq m => [m.userId]
  | .relationListREQ m => [m.userid]
  | .imRecentContactSessionReq m => [m.userId]
  | .imUsersInfoReq m => [m.userId]
  | .imRemoveSessionReq m => [m.userId]
  | .imRemoveSessionNotify m => [m.userId]
  | .imAllUserReq m => [m.userId]
  | .imUsersStatReq m => [m.userId]
  | .imChangeAvatarReq m => [m.userId]
  | .imDepartmentReq m => [m.userId]
  | .imChangeSignInfoReq m => [m.userId]
  | .imMsgData m => [m.fromUserId]
  | .imMsgDataReadAck m => [m.userId]
  | .imMsgDataReadNotify m => [m.userId]
  | .imUnreadMsgCntReq m => [m.userId]
  | .imGetMsgListReq m => [m.userId]
  | .imGetLatestMsgIdReq m => [m.userId]
  | .imGetMsgByIdReq m => [m.userId]
  | .imP2PCmdMsg m => [m.fromUserId]
  | .imNormalGroupListReq m => [m.userId]
  | .imGroupInfoListReq m => [m.userId]
  | .imGroupCreateReq m => [m.userId]
  | .imGroupChangeMemberReq m => [m.userId]
  | .imGroupShieldReq m => [m.userId]
  | .imFileHasOfflineReq m => [m.userId]
  | .imFileHasOfflineRsp m =>
    if request = .fileDelOfflineReq then [m.userId] else m.offlineFileList.map OfflineFileInfo.fromUserId
  | .imFileAddOfflineReq m => [m.fromUserId]
  | .imFileTransferReq m => [m.fromUserId]
  | .infoNotify m =>
    if request = .fileDelOfflineReq ∨ request = .fileNotifyAck then []
    else m.offlineFileList.map OfflineFileInfo.fromUserId
  | .imUserStatusUpdate m => [m.userId]
  | .imUserCntUpdate m => [m.userId]
  | .imServerKickUser m => [m.userId]
  | _ => []

/-! ## Handlers that do not look at who the client says it is -/

/-- The five commands whose handlers pass on, or compare with, what the client says about itself, and the heartbeat, which
is echoed. -/
def Cid.readsIdentity : Cid → Bool
  | .switchP2pCmd | .fileDelOfflineReq | .buddyListChangeAvatarRequest | .loginReqDevicetoken | .msgData => true
  | .otherHeartbeat => true
  | _ => false

theorem forwardToDb_anonymise {available : Server → Bool} {fill : MsgConn → Msg → Option Msg}
    (h : ∀ conn body, fill conn body.anonymise = fill conn body) (c : ConnId) (pdu : Pdu) :
    forwardToDb available fill c pdu.anonymise = forwardToDb available fill c pdu := by
  simp only [forwardToDb, Pdu.anonymise, h]
  rfl

theorem forwardOrAnswer_anonymise {fill : MsgConn → Msg → Option (Msg × Pdu)}
    (h : ∀ conn body, fill conn body.anonymise = fill conn body) (c : ConnId) (pdu : Pdu) :
    forwardOrAnswer fill c pdu.anonymise = forwardOrAnswer fill c pdu := by
  simp only [forwardOrAnswer, Pdu.anonymise, h]
  rfl

/-- Every other handler does the same with the request without these fields. -/
theorem dispatch_anonymise (env : Env) (c : ConnId) {pdu : Pdu} (h : pdu.commandId.readsIdentity = false) :
    dispatch env c pdu.anonymise = dispatch env c pdu := by
  obtain ⟨version, flag, serviceId, commandId, seqNum, reversed, body⟩ := pdu
  cases commandId <;> first
    | exact Bool.noConfusion (show true = false from h)
    | rfl
    | exact forwardToDb_anonymise (fun _ b => by cases b <;> rfl) c _
    | exact forwardOrAnswer_anonymise (fun _ b => by cases b <;> rfl) c _
    | (cases body <;> rfl)

end TeamTalk
