import Mathlib

/-!
# The protocol's constants

Command ids, result codes, and the type numbers that the servers compare with.
-/

namespace TeamTalk

/-! ## Command ids -/

/-- The command ids of `IM.BaseDefine`; `other` is a number that names no command. -/
inductive Cid where
  | loginReqMsgserver | loginResMsgserver | loginReqUserlogin | loginResUserlogin | loginReqLoginout
  | loginResLoginout | loginKickUser | loginReqDevicetoken | loginResDevicetoken | loginReqKickpcclient
  | loginResKickpcclient | loginReqPushShield | loginResPushShield | loginReqQueryPushShield
  | loginResQueryPushShield | loginReqVisibleRange
  | buddyListRecentContactSessionRequest | buddyListRecentContactSessionResponse | buddyListStatusNotify
  | buddyListUserInfoRequest | buddyListUserInfoResponse | buddyListRemoveSessionReq | buddyListRemoveSessionRes
  | buddyListAllUserRequest | buddyListAllUserResponse | buddyListUsersStatusRequest | buddyListUsersStatusResponse
  | buddyListChangeAvatarRequest | buddyListChangeAvatarResponse | buddyListPcLoginStatusNotify
  | buddyListRemoveSessionNotify | buddyListDepartmentRequest | buddyListDepartmentResponse
  | buddyListAvatarChangedNotify | buddyListChangeSignInfoRequest | buddyListChangeSignInfoResponse
  | buddyListSignInfoChangedNotify
  | msgData | msgDataAck | msgReadAck | msgReadNotify | msgTimeRequest | msgTimeResponse | msgUnreadCntRequest
  | msgUnreadCntResponse | msgListRequest | msgListResponse | msgGetLatestMsgIdReq | msgGetLatestMsgIdRsp
  | msgGetByMsgIdReq | msgGetByMsgIdRes
  | groupNormalListRequest | groupNormalListResponse | groupInfoRequest | groupInfoResponse | groupCreateRequest
  | groupCreateResponse | groupChangeMemberRequest | groupChangeMemberResponse | groupShieldGroupRequest
  | groupShieldGroupResponse | groupChangeMemberNotify
  | fileLoginReq | fileLoginRes | fileState | filePullDataReq | filePullDataRsp | fileRequest | fileResponse
  | fileNotify | fileHasOfflineReq | fileHasOfflineRes | fileAddOfflineReq | fileDelOfflineReq | fileNotifyAck
  | fileNotifyDbserver
  | switchP2pCmd
  | otherHeartbeat | otherStopRecvPacket | otherValidateReq | otherValidateRsp | otherGetDeviceTokenReq
  | otherGetDeviceTokenRsp | otherRoleSet | otherOnlineUserInfo | otherMsgServInfo | otherUserStatusUpdate
  | otherUserCntUpdate | otherServerKickUser | otherLoginStatusNotify | otherPushToUserReq | otherPushToUserRsp
  | otherGetShieldReq | otherGetShieldRsp | otherFileTransferReq | otherFileTransferRsp | otherFileServerIpReq
  | otherFileServerIpRsp | otherFileDownloadNotify
  | other (code : Nat)
  deriving DecidableEq, Repr

/-- The number on the wire. -/
def Cid.code : Cid → Nat
  | .loginReqMsgserver => 0x0101
  | .loginResMsgserver => 0x0102
  | .loginReqUserlogin => 0x0103
  | .loginResUserlogin => 0x0104
  | .loginReqLoginout => 0x0105
  | .loginResLoginout => 0x0106
  | .loginKickUser => 0x0107
  | .loginReqDevicetoken => 0x0108
  | .loginResDevicetoken => 0x0109
  | .loginReqKickpcclient => 0x010a
  | .loginResKickpcclient => 0x010b
  | .loginReqPushShield => 0x010c
  | .loginResPushShield => 0x010d
  | .loginReqQueryPushShield => 0x010e
  | .loginResQueryPushShield => 0x010f
  | .loginReqVisibleRange => 0x0110
  | .buddyListRecentContactSessionRequest => 0x0201
  | .buddyListRecentContactSessionResponse => 0x0202
  | .buddyListStatusNotify => 0x0203
  | .buddyListUserInfoRequest => 0x0204
  | .buddyListUserInfoResponse => 0x0205
  | .buddyListRemoveSessionReq => 0x0206
  | .buddyListRemoveSessionRes => 0x0207
  | .buddyListAllUserRequest => 0x0208
  | .buddyListAllUserResponse => 0x0209
  | .buddyListUsersStatusRequest => 0x020a
  | .buddyListUsersStatusResponse => 0x020b
  | .buddyListChangeAvatarRequest => 0x020c
  | .buddyListChangeAvatarResponse => 0x020d
  | .buddyListPcLoginStatusNotify => 0x020e
  | .buddyListRemoveSessionNotify => 0x020f
  | .buddyListDepartmentRequest => 0x0210
  | .buddyListDepartmentResponse => 0x0211
  | .buddyListAvatarChangedNotify => 0x0212
  | .buddyListChangeSignInfoRequest => 0x0213
  | .buddyListChangeSignInfoResponse => 0x0214
  | .buddyListSignInfoChangedNotify => 0x0215
  | .msgData => 0x0301
  | .msgDataAck => 0x0302
  | .msgReadAck => 0x0303
  | .msgReadNotify => 0x0304
  | .msgTimeRequest => 0x0305
  | .msgTimeResponse => 0x0306
  | .msgUnreadCntRequest => 0x0307
  | .msgUnreadCntResponse => 0x0308
  | .msgListRequest => 0x0309
  | .msgListResponse => 0x030a
  | .msgGetLatestMsgIdReq => 0x030b
  | .msgGetLatestMsgIdRsp => 0x030c
  | .msgGetByMsgIdReq => 0x030d
  | .msgGetByMsgIdRes => 0x030e
  | .groupNormalListRequest => 0x0401
  | .groupNormalListResponse => 0x0402
  | .groupInfoRequest => 0x0403
  | .groupInfoResponse => 0x0404
  | .groupCreateRequest => 0x0405
  | .groupCreateResponse => 0x0406
  | .groupChangeMemberRequest => 0x0407
  | .groupChangeMemberResponse => 0x0408
  | .groupShieldGroupRequest => 0x0409
  | .groupShieldGroupResponse => 0x040a
  | .groupChangeMemberNotify => 0x040b
  | .fileLoginReq => 0x0501
  | .fileLoginRes => 0x0502
  | .fileState => 0x0503
  | .filePullDataReq => 0x0504
  | .filePullDataRsp => 0x0505
  | .fileRequest => 0x0506
  | .fileResponse => 0x0507
  | .fileNotify => 0x0508
  | .fileHasOfflineReq => 0x0509
  | .fileHasOfflineRes => 0x050a
  | .fileAddOfflineReq => 0x050b
  | .fileDelOfflineReq => 0x050c
  | .fileNotifyAck => 0x050d
  | .fileNotifyDbserver => 0x050e
  | .switchP2pCmd => 0x0601
  | .otherHeartbeat => 0x0701
  | .otherStopRecvPacket => 0x0702
  | .otherValidateReq => 0x0703
  | .otherValidateRsp => 0x0704
  | .otherGetDeviceTokenReq => 0x0705
  | .otherGetDeviceTokenRsp => 0x0706
  | .otherRoleSet => 0x0707
  | .otherOnlineUserInfo => 0x0708
  | .otherMsgServInfo => 0x0709
  | .otherUserStatusUpdate => 0x070a
  | .otherUserCntUpdate => 0x070b
  | .otherServerKickUser => 0x070d
  | .otherLoginStatusNotify => 0x070e
  | .otherPushToUserReq => 0x070f
  | .otherPushToUserRsp => 0x0710
  | .otherGetShieldReq => 0x0711
  | .otherGetShieldRsp => 0x0712
  | .otherFileTransferReq => 0x0731
  | .otherFileTransferRsp => 0x0732
  | .otherFileServerIpReq => 0x0733
  | .otherFileServerIpRsp => 0x0734
  | .otherFileDownloadNotify => 0x0735
  | .other code => code

/-- The command a number names. -/
def Cid.ofCode : Nat → Cid
  | 0x0101 => .loginReqMsgserver
  | 0x0102 => .loginResMsgserver
  | 0x0103 => .loginReqUserlogin
  | 0x0104 => .loginResUserlogin
  | 0x0105 => .loginReqLoginout
  | 0x0106 => .loginResLoginout
  | 0x0107 => .loginKickUser
  | 0x0108 => .loginReqDevicetoken
  | 0x0109 => .loginResDevicetoken
  | 0x010a => .loginReqKickpcclient
  | 0x010b => .loginResKickpcclient
  | 0x010c => .loginReqPushShield
  | 0x010d => .loginResPushShield
  | 0x010e => .loginReqQueryPushShield
  | 0x010f => .loginResQueryPushShield
  | 0x0110 => .loginReqVisibleRange
  | 0x0201 => .buddyListRecentContactSessionRequest
  | 0x0202 => .buddyListRecentContactSessionResponse
  | 0x0203 => .buddyListStatusNotify
  | 0x0204 => .buddyListUserInfoRequest
  | 0x0205 => .buddyListUserInfoResponse
  | 0x0206 => .buddyListRemoveSessionReq
  | 0x0207 => .buddyListRemoveSessionRes
  | 0x0208 => .buddyListAllUserRequest
  | 0x0209 => .buddyListAllUserResponse
  | 0x020a => .buddyListUsersStatusRequest
  | 0x020b => .buddyListUsersStatusResponse
  | 0x020c => .buddyListChangeAvatarRequest
  | 0x020d => .buddyListChangeAvatarResponse
  | 0x020e => .buddyListPcLoginStatusNotify
  | 0x020f => .buddyListRemoveSessionNotify
  | 0x0210 => .buddyListDepartmentRequest
  | 0x0211 => .buddyListDepartmentResponse
  | 0x0212 => .buddyListAvatarChangedNotify
  | 0x0213 => .buddyListChangeSignInfoRequest
  | 0x0214 => .buddyListChangeSignInfoResponse
  | 0x0215 => .buddyListSignInfoChangedNotify
  | 0x0301 => .msgData
  | 0x0302 => .msgDataAck
  | 0x0303 => .msgReadAck
  | 0x0304 => .msgReadNotify
  | 0x0305 => .msgTimeRequest
  | 0x0306 => .msgTimeResponse
  | 0x0307 => .msgUnreadCntRequest
  | 0x0308 => .msgUnreadCntResponse
  | 0x0309 => .msgListRequest
  | 0x030a => .msgListResponse
  | 0x030b => .msgGetLatestMsgIdReq
  | 0x030c => .msgGetLatestMsgIdRsp
  | 0x030d => .msgGetByMsgIdReq
  | 0x030e => .msgGetByMsgIdRes
  | 0x0401 => .groupNormalListRequest
  | 0x0402 => .groupNormalListResponse
  | 0x0403 => .groupInfoRequest
  | 0x0404 => .groupInfoResponse
  | 0x0405 => .groupCreateRequest
  | 0x0406 => .groupCreateResponse
  | 0x0407 => .groupChangeMemberRequest
  | 0x0408 => .groupChangeMemberResponse
  | 0x0409 => .groupShieldGroupRequest
  | 0x040a => .groupShieldGroupResponse
  | 0x040b => .groupChangeMemberNotify
  | 0x0501 => .fileLoginReq
  | 0x0502 => .fileLoginRes
  | 0x0503 => .fileState
  | 0x0504 => .filePullDataReq
  | 0x0505 => .filePullDataRsp
  | 0x0506 => .fileRequest
  | 0x0507 => .fileResponse
  | 0x0508 => .fileNotify
  | 0x0509 => .fileHasOfflineReq
  | 0x050a => .fileHasOfflineRes
  | 0x050b => .fileAddOfflineReq
  | 0x050c => .fileDelOfflineReq
  | 0x050d => .fileNotifyAck
  | 0x050e => .fileNotifyDbserver
  | 0x0601 => .switchP2pCmd
  | 0x0701 => .otherHeartbeat
  | 0x0702 => .otherStopRecvPacket
  | 0x0703 => .otherValidateReq
  | 0x0704 => .otherValidateRsp
  | 0x0705 => .otherGetDeviceTokenReq
  | 0x0706 => .otherGetDeviceTokenRsp
  | 0x0707 => .otherRoleSet
  | 0x0708 => .otherOnlineUserInfo
  | 0x0709 => .otherMsgServInfo
  | 0x070a => .otherUserStatusUpdate
  | 0x070b => .otherUserCntUpdate
  | 0x070d => .otherServerKickUser
  | 0x070e => .otherLoginStatusNotify
  | 0x070f => .otherPushToUserReq
  | 0x0710 => .otherPushToUserRsp
  | 0x0711 => .otherGetShieldReq
  | 0x0712 => .otherGetShieldRsp
  | 0x0731 => .otherFileTransferReq
  | 0x0732 => .otherFileTransferRsp
  | 0x0733 => .otherFileServerIpReq
  | 0x0734 => .otherFileServerIpRsp
  | 0x0735 => .otherFileDownloadNotify
  | code => .other code

/-! ## Numbers

The enumerations of the protocol, and of `public_define.h`, as the numbers that the code stores in `uint32_t` fields and
compares: most of these fields can hold any number. -/

/-- `ServiceID`. -/
abbrev sidLogin : Nat := 0x0001
abbrev sidBuddyList : Nat := 0x0002
abbrev sidMsg : Nat := 0x0003
abbrev sidGroup : Nat := 0x0004
abbrev sidFile : Nat := 0x0005
abbrev sidSwitchService : Nat := 0x0006
abbrev sidOther : Nat := 0x0007

/-- `ResultType`. -/
abbrev refuseReasonNone : Nat := 0
abbrev refuseReasonNoMsgServer : Nat := 1
abbrev refuseReasonMsgServerFull : Nat := 2
abbrev refuseReasonNoDbServer : Nat := 3
abbrev refuseReasonNoLoginServer : Nat := 4
abbrev refuseReasonNoRouteServer : Nat := 5
abbrev refuseReasonDbValidateFailed : Nat := 6

/-- `KickReasonType`. -/
abbrev kickReasonDuplicateUser : Nat := 1
abbrev kickReasonMobileKick : Nat := 2

/-- `UserStatType`. -/
abbrev userStatusOnline : Nat := 1
abbrev userStatusOffline : Nat := 2
abbrev userStatusLeave : Nat := 3

/-- `SessionType`. -/
abbrev sessionTypeSingle : Nat := 1
abbrev sessionTypeGroup : Nat := 2

/-- `MsgType`. -/
abbrev msgTypeSingleText : Nat := 0x01
abbrev msgTypeSingleAudio : Nat := 0x02
abbrev msgTypeGroupText : Nat := 0x11
abbrev msgTypeGroupAudio : Nat := 0x12

/-- `ClientType`. -/
abbrev clientTypeMac : Nat := 0x02

/-- `GroupType`. -/
abbrev groupTypeNormal : Nat := 0x01

/-- `GroupModifyType`. -/
abbrev groupModifyTypeAdd : Nat := 0x01
abbrev groupModifyTypeDel : Nat := 0x02

/-- `TransferFileType`. -/
abbrev fileTypeOffline : Nat := 0x02

/-- `FileStatus`. -/
abbrev fileNeedDisplay : Nat := 0x00

/-- `USER_CNT_INC` and `USER_CNT_DEC`. -/
abbrev userCntInc : Nat := 1
abbrev userCntDec : Nat := 2

/-- `CHECK_CLIENT_TYPE_PC`: the bit `0x10` is not set. -/
def checkClientTypePc (type : Nat) : Bool := type / 0x10 % 2 = 0

/-- `CHECK_CLIENT_TYPE_MOBILE`: the bit `0x10` is set. -/
def checkClientTypeMobile (type : Nat) : Bool := type / 0x10 % 2 = 1

/-- `CHECK_MSG_TYPE_SINGLE`. -/
def checkMsgTypeSingle (type : Nat) : Bool := type = msgTypeSingleText ∨ type = msgTypeSingleAudio

/-- `CHECK_MSG_TYPE_GROUP`. -/
def checkMsgTypeGroup (type : Nat) : Bool := type = msgTypeGroupText ∨ type = msgTypeGroupAudio

end TeamTalk
