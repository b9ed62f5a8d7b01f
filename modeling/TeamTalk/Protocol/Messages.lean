import TeamTalk.Base.UtilPdu
import TeamTalk.Protocol.BaseDefine

/-!
# The messages

The message types of the protocol that the modelled code reads or writes, with all their fields. An optional field is an
`Option`; so is a required field that the code leaves unset in a message it sends.
-/

namespace TeamTalk

/-! ## Parts of messages -/

structure IpAddr where
  ip : String
  port : Nat
  deriving DecidableEq, Repr

structure UserInfo where
  userId : Nat
  userGender : Nat
  userNickName : String
  avatarUrl : String
  departmentId : Nat
  email : String
  userRealName : String
  userTel : String
  userDomain : String
  status : Nat
  signInfo : Option String
  deriving DecidableEq, Repr

structure GroupVersionInfo where
  groupId : Nat
  version : Nat
  deriving DecidableEq, Repr

structure GroupInfo where
  groupId : Nat
  version : Nat
  groupName : String
  groupAvatar : String
  groupCreatorId : Nat
  groupType : Nat
  shieldStatus : Nat
  groupMemberList : List Nat
  deriving DecidableEq, Repr

structure OfflineFileInfo where
  fromUserId : Nat
  taskId : String
  fileName : String
  fileSize : Nat
  fileMd5 : String
  status : Nat
  deriving DecidableEq, Repr

/-! ## Login -/

structure IMLoginReq where
  userName : String
  password : String
  onlineStatus : Nat
  clientType : Nat
  clientVersion : Option String
  deriving DecidableEq, Repr

structure IMLoginRes where
  serverTime : Nat
  resultCode : Nat
  resultString : Option String
  onlineStatus : Option Nat
  userInfo : Option UserInfo
  deriving DecidableEq, Repr

structure IMLogoutRsp where
  resultCode : Nat
  deriving DecidableEq, Repr

structure IMKickUser where
  userId : Nat
  kickReason : Nat
  deriving DecidableEq, Repr

structure IMDeviceTokenReq where
  userId : Nat
  deviceToken : String
  clientType : Option Nat
  attachData : Option Bytes
  deriving DecidableEq, Repr

structure IMDeviceTokenRsp where
  userId : Option Nat
  attachData : Option Bytes
  deriving DecidableEq, Repr

structure IMKickPCClientReq where
  userId : Nat
  deriving DecidableEq, Repr

structure IMKickPCClientRsp where
  userId : Nat
  resultCode : Nat
  deriving DecidableEq, Repr

structure IMPushShieldReq where
  userId : Nat
  shieldStatus : Nat
  attachData : Option Bytes
  deriving DecidableEq, Repr

structure IMQueryPushShieldReq where
  userId : Nat
  attachData : Option Bytes
  deriving DecidableEq, Repr

structure RelationListREQ where
  userid : Nat
  useridOfDepart : Nat
  latestUpdateTime : Nat
  deriving DecidableEq, Repr

/-! ## Buddy list -/

structure IMRecentContactSessionReq where
  userId : Nat
  latestUpdateTime : Nat
  attachData : Option Bytes
  deriving DecidableEq, Repr

structure IMUsersInfoReq where
  userId : Nat
  userIdList : List Nat
  attachData : Option Bytes
  deriving DecidableEq, Repr

structure IMRemoveSessionReq where
  userId : Nat
  sessionType : Nat
  sessionId : Nat
  attachData : Option Bytes
  deriving DecidableEq, Repr

structure IMRemoveSessionNotify where
  userId : Nat
  sessionType : Nat
  sessionId : Nat
  deriving DecidableEq, Repr

structure IMAllUserReq where
  userId : Nat
  latestUpdateTime : Nat
  attachData : Option Bytes
  deriving DecidableEq, Repr

structure IMUsersStatReq where
  userId : Nat
  userIdList : List Nat
  attachData : Option Bytes
  deriving DecidableEq, Repr

structure IMChangeAvatarReq where
  userId : Nat
  avatarUrl : String
  attachData : Option Bytes
  deriving DecidableEq, Repr

structure IMDepartmentReq where
  userId : Nat
  latestUpdateTime : Nat
  attachData : Option Bytes
  deriving DecidableEq, Repr

structure IMChangeSignInfoReq where
  userId : Nat
  signInfo : String
  attachData : Option Bytes
  deriving DecidableEq, Repr

/-! ## Messages between users -/

structure IMMsgData where
  fromUserId : Nat
  toSessionId : Nat
  msgId : Nat
  createTime : Nat
  msgType : Nat
  msgData : Bytes
  attachData : Option Bytes
  deriving DecidableEq, Repr

structure IMMsgDataAck where
  userId : Nat
  sessionId : Nat
  msgId : Nat
  sessionType : Nat
  deriving DecidableEq, Repr

structure IMMsgDataReadAck where
  userId : Nat
  sessionId : Nat
  msgId : Nat
  sessionType : Nat
  deriving DecidableEq, Repr

structure IMMsgDataReadNotify where
  userId : Nat
  sessionId : Nat
  msgId : Nat
  sessionType : Nat
  deriving DecidableEq, Repr

structure IMClientTimeRsp where
  serverTime : Nat
  deriving DecidableEq, Repr

structure IMUnreadMsgCntReq where
  userId : Nat
  attachData : Option Bytes
  deriving DecidableEq, Repr

structure IMGetMsgListReq where
  userId : Nat
  sessionType : Nat
  sessionId : Nat
  msgIdBegin : Nat
  msgCnt : Nat
  attachData : Option Bytes
  deriving DecidableEq, Repr

structure IMGetLatestMsgIdReq where
  userId : Nat
  sessionType : Nat
  sessionId : Nat
  attachData : Option Bytes
  deriving DecidableEq, Repr

structure IMGetMsgByIdReq where
  userId : Nat
  sessionType : Nat
  sessionId : Nat
  msgIdList : List Nat
  attachData : Option Bytes
  deriving DecidableEq, Repr

structure IMP2PCmdMsg where
  fromUserId : Nat
  toUserId : Nat
  cmdMsgData : String
  deriving DecidableEq, Repr

/-! ## Groups -/

structure IMNormalGroupListReq where
  userId : Nat
  attachData : Option Bytes
  deriving DecidableEq, Repr

structure IMNormalGroupListRsp where
  userId : Option Nat
  groupVersionList : List GroupVersionInfo
  attachData : Option Bytes
  deriving DecidableEq, Repr

structure IMGroupInfoListReq where
  userId : Nat
  groupVersionList : List GroupVersionInfo
  attachData : Option Bytes
  deriving DecidableEq, Repr

structure IMGroupInfoListRsp where
  userId : Nat
  groupInfoList : List GroupInfo
  attachData : Option Bytes
  deriving DecidableEq, Repr

structure IMGroupCreateReq where
  userId : Nat
  groupType : Nat
  groupName : String
  groupAvatar : String
  memberIdList : List Nat
  attachData : Option Bytes
  deriving DecidableEq, Repr

structure IMGroupCreateRsp where
  userId : Nat
  resultCode : Nat
  groupId : Option Nat
  groupName : String
  userIdList : List Nat
  attachData : Option Bytes
  deriving DecidableEq, Repr

structure IMGroupChangeMemberReq where
  userId : Nat
  changeType : Nat
  groupId : Nat
  memberIdList : List Nat
  attachData : Option Bytes
  deriving DecidableEq, Repr

structure IMGroupChangeMemberRsp where
  userId : Nat
  changeType : Nat
  resultCode : Nat
  groupId : Nat
  curUserIdList : List Nat
  chgUserIdList : List Nat
  attachData : Option Bytes
  deriving DecidableEq, Repr

structure IMGroupShieldReq where
  userId : Nat
  groupId : Nat
  shieldStatus : Nat
  attachData : Option Bytes
  deriving DecidableEq, Repr

structure IMGroupShieldRsp where
  userId : Nat
  groupId : Option Nat
  resultCode : Nat
  attachData : Option Bytes
  deriving DecidableEq, Repr

/-! ## Files -/

structure IMFileReq where
  fromUserId : Nat
  toUserId : Nat
  fileName : String
  fileSize : Nat
  transMode : Nat
  fileMd5 : String
  deriving DecidableEq, Repr

structure IMFileRsp where
  resultCode : Nat
  fromUserId : Nat
  toUserId : Nat
  fileName : String
  taskId : String
  ipAddrList : List IpAddr
  transMode : Nat
  deriving DecidableEq, Repr

structure IMFileHasOfflineReq where
  userId : Nat
  attachData : Option Bytes
  deriving DecidableEq, Repr

structure IMFileHasOfflineRsp where
  userId : Nat
  offlineFileList : List OfflineFileInfo
  ipAddrList : List IpAddr
  attachData : Option Bytes
  deriving DecidableEq, Repr

structure IMFileAddOfflineReq where
  fromUserId : Nat
  toUserId : Nat
  taskId : String
  fileName : String
  fileSize : Nat
  fileMd5 : String
  status : Nat
  deriving DecidableEq, Repr

structure IMFileDelOfflineReq where
  fromUserId : Nat
  toUserId : Nat
  taskId : String
  fileName : String
  fileSize : Nat
  deriving DecidableEq, Repr

structure InfoNotify where
  offlineFileList : List OfflineFileInfo
  deriving DecidableEq, Repr

structure IMFileTransferReq where
  fromUserId : Nat
  toUserId : Nat
  fileName : String
  fileSize : Nat
  transMode : Nat
  fileMd5 : String
  attachData : Option Bytes
  deriving DecidableEq, Repr

/-! ## Between servers -/

structure IMValidateReq where
  userName : String
  password : String
  attachData : Option Bytes
  deriving DecidableEq, Repr

structure IMValidateRsp where
  userName : String
  resultCode : Nat
  resultString : Option String
  userInfo : Option UserInfo
  attachData : Option Bytes
  deriving DecidableEq, Repr

structure IMUserStatusUpdate where
  userStatus : Nat
  userId : Nat
  clientType : Nat
  deriving DecidableEq, Repr

structure IMUserCntUpdate where
  userAction : Nat
  userId : Nat
  deriving DecidableEq, Repr

structure IMServerKickUser where
  userId : Nat
  clientType : Nat
  reason : Nat
  deriving DecidableEq, Repr

/-! ## A message of any type -/

/-- The body of a PDU, as the handler of its command reads it. `unparsed` is a body that is no message of the command's
type: `ParseFromArray` fails on it. -/
inductive Msg where
  | unparsed (body : Bytes)
  | imLoginReq (m : IMLoginReq)
  | imLoginRes (m : IMLoginRes)
  | imLogoutRsp (m : IMLogoutRsp)
  | imKickUser (m : IMKickUser)
  | imDeviceTokenReq (m : IMDeviceTokenReq)
  | imDeviceTokenRsp (m : IMDeviceTokenRsp)
  | imKickPCClientReq (m : IMKickPCClientReq)
  | imKickPCClientRsp (m : IMKickPCClientRsp)
  | imPushShieldReq (m : IMPushShieldReq)
  | imQueryPushShieldReq (m : IMQueryPushShieldReq)
  | relationListREQ (m : RelationListREQ)
  | imRecentContactSessionReq (m : IMRecentContactSessionReq)
  | imUsersInfoReq (m : IMUsersInfoReq)
  | imRemoveSessionReq (m : IMRemoveSessionReq)
  | imRemoveSessionNotify (m : IMRemoveSessionNotify)
  | imAllUserReq (m : IMAllUserReq)
  | imUsersStatReq (m : IMUsersStatReq)
  | imChangeAvatarReq (m : IMChangeAvatarReq)
  | imDepartmentReq (m : IMDepartmentReq)
  | imChangeSignInfoReq (m : IMChangeSignInfoReq)
  | imMsgData (m : IMMsgData)
  | imMsgDataAck (m : IMMsgDataAck)
  | imMsgDataReadAck (m : IMMsgDataReadAck)
  | imMsgDataReadNotify (m : IMMsgDataReadNotify)
  | imClientTimeRsp (m : IMClientTimeRsp)
  | imUnreadMsgCntReq (m : IMUnreadMsgCntReq)
  | imGetMsgListReq (m : IMGetMsgListReq)
  | imGetLatestMsgIdReq (m : IMGetLatestMsgIdReq)
  | imGetMsgByIdReq (m : IMGetMsgByIdReq)
  | imP2PCmdMsg (m : IMP2PCmdMsg)
  | imNormalGroupListReq (m : IMNormalGroupListReq)
  | imNormalGroupListRsp (m : IMNormalGroupListRsp)
  | imGroupInfoListReq (m : IMGroupInfoListReq)
  | imGroupInfoListRsp (m : IMGroupInfoListRsp)
  | imGroupCreateReq (m : IMGroupCreateReq)
  | imGroupCreateRsp (m : IMGroupCreateRsp)
  | imGroupChangeMemberReq (m : IMGroupChangeMemberReq)
  | imGroupChangeMemberRsp (m : IMGroupChangeMemberRsp)
  | imGroupShieldReq (m : IMGroupShieldReq)
  | imGroupShieldRsp (m : IMGroupShieldRsp)
  | imFileReq (m : IMFileReq)
  | imFileRsp (m : IMFileRsp)
  | imFileHasOfflineReq (m : IMFileHasOfflineReq)
  | imFileHasOfflineRsp (m : IMFileHasOfflineRsp)
  | imFileAddOfflineReq (m : IMFileAddOfflineReq)
  | imFileDelOfflineReq (m : IMFileDelOfflineReq)
  | infoNotify (m : InfoNotify)
  | imFileTransferReq (m : IMFileTransferReq)
  | imValidateReq (m : IMValidateReq)
  | imValidateRsp (m : IMValidateRsp)
  | imUserStatusUpdate (m : IMUserStatusUpdate)
  | imUserCntUpdate (m : IMUserCntUpdate)
  | imServerKickUser (m : IMServerKickUser)
  deriving DecidableEq, Repr

/-! ## PDUs -/

/-- A PDU by its contents: the header's fields without the length, which `WriteHeader` computes, and the body. -/
structure Pdu where
  version : Nat
  flag : Nat
  serviceId : Nat
  commandId : Cid
  seqNum : Nat
  reversed : Nat
  body : Msg
  deriving DecidableEq, Repr

/-- A new `CImPdu` with the given message, service id, command id and sequence number. -/
def mkPdu (serviceId : Nat) (commandId : Cid) (seqNum : Nat) (body : Msg) : Pdu :=
  { version := 1, flag := 0, serviceId, commandId, seqNum, reversed := 0, body }

/-- `CImPdu::SetPBMsg` on a PDU that was received: the header stays. -/
def Pdu.setPBMsg (pdu : Pdu) (body : Msg) : Pdu := { pdu with body }

/-! ## Attached data -/

abbrev attachTypeHandle : Nat := 1
abbrev attachTypeHandleAndPduForFile : Nat := 5

/-- `CDbAttachData`: the bytes that carry the handle through the DB proxy and back. -/
def dbAttachData (type handle serviceType : Nat) : Bytes :=
  ByteStream.writeUint32 type ++ ByteStream.writeUint32 handle ++ ByteStream.writeUint32 serviceType

/-- `CPduAttachData`: the same, and a nested PDU body with its length. -/
def pduAttachData (type handle : Nat) (pdu : Bytes) : Bytes :=
  dbAttachData type handle 0 ++ ByteStream.writeUint32 pdu.length ++ pdu

/-- `CDbAttachData::GetHandle` of received bytes: `none` when they are too short and reading them throws. -/
def attachHandle (attach : Bytes) : Option Nat :=
  if 12 ≤ attach.length then (ByteStream.readUint32 (attach.drop 4) 0).toOption else none

/-- The handle comes back as it was attached. -/
theorem attachHandle_dbAttachData (type serviceType : Nat) {handle : Nat} (h : handle < uint32Size) :
    attachHandle (dbAttachData type handle serviceType) = some handle := by
  have hdrop : (dbAttachData type handle serviceType).drop 4 =
      ByteStream.writeUint32 handle ++ ByteStream.writeUint32 serviceType := rfl
  rw [attachHandle, if_pos (show 12 ≤ (dbAttachData type handle serviceType).length by exact Nat.le_refl 12), hdrop,
    ByteStream.readUint32_writeUint32 h]
  rfl

end TeamTalk
