import TeamTalk.Base.ImConn
import TeamTalk.Protocol.BaseDefine

/-!
# The connections of the DB proxy

`CProxyConn::OnRead` turns each PDU for which a handler is registered into a task for the worker threads.
-/

namespace TeamTalk

open SimpleBuffer ImPdu

/-- The functions of `DB_PROXY` that handle a PDU. -/
inductive PduHandler where
  | doLogin | doPushShield | doQueryPushShield | doQueryVisibleRange | getRecentSession | deleteRecentSession
  | getUserInfo | getChangedUser | getChgedDepart | changeUserSignInfo | sendMessage | getMessage | getUnreadMsgCounter
  | clearUnreadMsgCounter | getMessageById | getLatestMsgId | setDevicesToken | getDevicesToken | setGroupPush
  | getGroupPush | getNormalGroupList | getGroupInfo | createGroup | modifyMember | hasOfflineFile | addOfflineFile
  | delOfflineFile | changeFileStatus | notifyClientAck
  deriving DecidableEq, Repr

/-- `CHandlerMap::GetHandler`, over the table that `CHandlerMap::Init` fills. -/
def getHandler : Cid → Option PduHandler
  | .otherValidateReq => some .doLogin
  | .loginReqPushShield => some .doPushShield
  | .loginReqQueryPushShield => some .doQueryPushShield
  | .loginReqVisibleRange => some .doQueryVisibleRange
  | .buddyListRecentContactSessionRequest => some .getRecentSession
  | .buddyListRemoveSessionReq => some .deleteRecentSession
  | .buddyListUserInfoRequest => some .getUserInfo
  | .buddyListAllUserRequest => some .getChangedUser
  | .buddyListDepartmentRequest => some .getChgedDepart
  | .buddyListChangeSignInfoRequest => some .changeUserSignInfo
  | .msgData => some .sendMessage
  | .msgListRequest => some .getMessage
  | .msgUnreadCntRequest => some .getUnreadMsgCounter
  | .msgReadAck => some .clearUnreadMsgCounter
  | .msgGetByMsgIdReq => some .getMessageById
  | .msgGetLatestMsgIdReq => some .getLatestMsgId
  | .loginReqDevicetoken => some .setDevicesToken
  | .otherGetDeviceTokenReq => some .getDevicesToken
  | .groupShieldGroupRequest => some .setGroupPush
  | .otherGetShieldReq => some .getGroupPush
  | .groupNormalListRequest => some .getNormalGroupList
  | .groupInfoRequest => some .getGroupInfo
  | .groupCreateRequest => some .createGroup
  | .groupChangeMemberRequest => some .modifyMember
  | .fileHasOfflineReq => some .hasOfflineFile
  | .fileAddOfflineReq => some .addOfflineFile
  | .fileDelOfflineReq => some .delOfflineFile
  | .fileNotifyDbserver => some .changeFileStatus
  | .fileNotifyAck => some .notifyClientAck
  | _ => none

/-- `CProxyTask`: what a worker thread runs. -/
structure ProxyTask where
  connUuid : Nat
  pduHandler : PduHandler
  pdu : ImPdu
  deriving DecidableEq, Repr

/-- What the reads of one connection have led to: the PDUs that `HandlePduBuf` was given, and the tasks added for them. -/
structure ProxyReads where
  passed : List Bytes
  tasks : List ProxyTask
  deriving DecidableEq, Repr

/-- The task for a PDU: none for a heartbeat, or when no handler is registered. -/
def taskOf (uuid : Nat) (pdu : ImPdu) : Option ProxyTask :=
  if Cid.ofCode pdu.getCommandId = .otherHeartbeat then none
  else (getHandler (Cid.ofCode pdu.getCommandId)).map fun handler => ⟨uuid, handler, pdu⟩

/-- `CProxyConn::HandlePduBuf`. A null pointer from `ReadPdu` is followed. -/
def handlePduBuf (uuid : Nat) (pduBuf : Bytes) (pduLen : Nat) (s : ProxyReads) : Exec ProxyReads := do
  match ← readPdu pduBuf pduLen with
  | none => throw .undefinedBehaviour
  | some pdu => return { passed := s.passed ++ [pduBuf.take pduLen], tasks := s.tasks ++ (taskOf uuid pdu).toList }

/-- One turn of `CProxyConn::OnRead`. -/
def proxyTurn (uuid : Nat) (buf : Bytes) (len : Nat) (s : ProxyReads) : Exec (Turn ProxyReads) :=
  let turn : Exec (Turn ProxyReads) := do
    match ← isPduAvailable buf len with
    | none => return .stop
    | some pduLen => return .next (← handlePduBuf uuid buf pduLen s) pduLen
  match turn with
  | .error (.pduException e) => return .thrown s e
  | .error fault => throw fault
  | .ok t => return t

/-- What a PDU adds to the reads of a connection. -/
def ProxyReads.add (uuid : Nat) (s : ProxyReads) (f : Bytes) : ProxyReads :=
  { passed := s.passed ++ [f], tasks := s.tasks ++ (taskOf uuid (ofBytes f)).toList }

/-- The front PDU's own bytes have it at the front. -/
theorem frontLength_take {buf : Bytes} {len n : Nat} (h16 : pduHeaderLen ≤ n) (hf : frontLength (buf.take len) = some n) :
    frontLength (buf.take n) = some n := by
  obtain ⟨_, h0, hle, hlf⟩ := frontLength_eq_some.1 hf
  rw [List.length_take] at hle
  have htt : buf.take n = (buf.take len).take n := by
    rw [List.take_take, Nat.min_eq_left (by omega)]
  have hl : (buf.take n).length = n := by
    rw [List.length_take]
    omega
  refine frontLength_eq_some.2 ⟨by rw [hl]; exact h16, h0, Nat.le_of_eq hl.symm, ?_⟩
  have happ := lengthField_append (show 4 ≤ (buf.take n).length by rw [hl]; exact Nat.le_trans (by decide) h16)
    ((buf.take len).drop n)
  rw [htt, List.take_append_drop] at happ
  rw [htt]
  exact hlf.trans happ

/-- The turn of `CProxyConn::OnRead`. -/
theorem proxyTurn_meets (uuid : Nat) : TurnMeets (proxyTurn uuid) (ProxyReads.add uuid) where
  stop s hlen hz hf := by
    simp only [proxyTurn, isPduAvailable_eq hlen hz, hf, bind, Except.bind, pure, Except.pure]
  next {buf len n} s hlen h16 hf := by
    obtain ⟨_, h0, hle, hlf⟩ := frontLength_eq_some.1 hf
    have hz : ¬ZeroLength (buf.take len) := fun hz => by
      have := hz.2
      omega
    have hn : n ≤ buf.length := by
      rw [List.length_take] at hle
      omega
    simp only [proxyTurn, isPduAvailable_eq hlen hz, hf, bind, Except.bind, pure, Except.pure, handlePduBuf,
      readPdu_some hn h16 (frontLength_take h16 hf)]
    by_cases hfit : ExtendFits 0 n
    · simp only [if_pos hfit]
      rfl
    · simp only [if_neg hfit]
      rfl

end TeamTalk
