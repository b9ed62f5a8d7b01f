import TeamTalk.DbProxy.Actions
import TeamTalk.Lib.Potential
import TeamTalk.MsgServer.Delivery
import TeamTalk.Theorems.GroupChange
import TeamTalk.Theorems.Infos

/-!
# Messages arrive

A connection that stays open is sent every message that is meant for it, once, wherever the message comes from and in whatever order
the servers get their PDUs; it is not sent its own messages, but an acknowledgement of each. Who is meant in a group is what the DB proxy
answers to each msg_server, which asks once for each message. No message goes round for ever.
-/

namespace TeamTalk.Delivery

open Action Potential GroupChangeAux

/-! ## What is owed to a connection -/

/-- Whether a msg_server where a user has a connection takes it for the one that a message came from, when it has a handle for that. -/
def cameFrom (h u : Nat) (handle : Option Nat) (msg : IMMsgData) : Bool := msg.fromUserId == u && handle == some h

/-- Whether the connection is to be sent a message between two users, one of whom is its own. -/
def owed (h u : Nat) (key : IMMsgData) (handle : Option Nat) (msg : IMMsgData) : Bool :=
  !checkMsgTypeGroup msg.msgType && plain msg == key && (msg.fromUserId == u || msg.toSessionId == u) && !cameFrom h u handle msg

/-- Whether the connection is to be sent a message to a group with these members: its user is one of them, as the sender is. The handle 0
stands for no connection. -/
def owedMember (h u : Nat) (key : IMMsgData) (req : GroupInfoReq) (groupInfoList : List GroupInfo) : Bool :=
  plain req.msg == key && (groupInfoList.head?.any fun groupInfo =>
    groupInfo.groupMemberList.contains req.userId && groupInfo.groupMemberList.contains u) &&
      !(req.userId == u && req.handle == h && h != 0)

/-- The message is sent to a connection of a msg_server. -/
def Output.delivers (j : Nat) (c : ConnId) (key : IMMsgData) : Output → Bool
  | .sent i (.client d msg) => i == j && d == c && plain msg == key
  | _ => false

/-- A message is accepted, or its msg_server is told the members, and so it is to be sent to the connection. The handle of a message counts
on the msg_server that it came to. -/
def Output.owes (j h u : Nat) (key : IMMsgData) : Output → Bool
  | .accepted i msg => owed h u key (if i = j then attachHandle (msg.attachData.getD []) else none) msg
  | .members i req groupInfoList => i == j && owedMember h u key req groupInfoList
  | _ => false

/-- A msg_server is told the members for a message. -/
def Output.lists (j : Nat) (key : IMMsgData) : Output → Bool
  | .members i req _ => i == j && plain req.msg == key
  | _ => false

/-- A message to a group is accepted. -/
def Output.toGroup (key : IMMsgData) : Output → Bool
  | .accepted _ msg => checkMsgTypeGroup msg.msgType && plain msg == key
  | _ => false

/-- An acknowledgement is sent to a connection of a msg_server. -/
def Output.acks (j : Nat) (c : ConnId) (ack : IMMsgDataAck) : Output → Bool
  | .sent i (.ack d msg) => i == j && d == c && msg == ack
  | _ => false

/-- A message that came from the connection is accepted, with this acknowledgement. -/
def Output.owesAck (j h u : Nat) (ack : IMMsgDataAck) : Output → Bool
  | .accepted i msg => i == j && msg.fromUserId == u && attachHandle (msg.attachData.getD []) == some h && ackOf msg == ack
  | _ => false

/-! ## The condition -/

/-- All connections of a msg_server to other servers are up. -/
def Peer.Up (peer : Peer) : Prop := peer.linked = true ∧ peer.server.getDbServConn = true ∧ peer.server.getRouteServConn.isSome = true

/-- No group of an answer lists anybody twice. -/
def NobodyTwice (groupInfoList : List GroupInfo) : Prop := ∀ groupInfo ∈ groupInfoList, groupInfo.groupMemberList.Nodup

/-- The connection stays, the other servers stay connected, and the DB proxy answers messages as `sendMessage` does, and requests for
members with lists that may be of any time, or missing, and have nobody twice. -/
def Steady (j : Nat) (c : ConnId) (h u : Nat) (n : Net) : Event → Prop
  | .client _ _ _ _ => True
  | .change i peer => peer.Up ∧ (i = j → peer.server.OpenFor c h u)
  | .arrive _ => True
  | .answer k answer =>
    ∀ i msg, n.packets[k]? = some (.msgDataReq i msg) → ∃ tr, Prog.Exec (DbProxy.Actions.sendMessage msg) tr (some answer)
  | .groupInfo _ groupInfoList => NobodyTwice groupInfoList

/-- What the DB proxy answers meets the condition, whatever its threads do with the groups meanwhile. -/
theorem nobodyTwice_of_run {ok : DbProxy.Groups.InfoThreads → Prog.Sched DbProxy.Groups.InfoJob → Prop} {log : List Empty}
    {s : DbProxy.Groups.InfoThreads}
    (hrun : Machine.Run DbProxy.Groups.infoStep ok (Prog.Threads.init DbProxy.Groups.Store.init) log s) {e : Nat × Prog.Entry DbProxy.Groups.calls}
    (he : e ∈ s.history) {connUuid : Nat} {rsp : IMGroupInfoListRsp}
    (hanswer : e.2.1 = DbProxy.Groups.Op.addResponsePdu connUuid (.imGroupInfoListRsp rsp)) : NobodyTwice rsp.groupInfoList :=
  fun info hinfo => DbProxy.Groups.InfosAux.nodup_of_run hrun (.inr ⟨e, he, connUuid, rsp, hanswer, info, hinfo, rfl, rfl, rfl⟩)

namespace DeliveryAux

variable {idOf : String → Nat} {reading : Option ConnId} {s : Server} {i j h u : Nat} {c : ConnId} {key msg : IMMsgData}
variable {ack : IMMsgDataAck} {handle : Option Nat}

/-! ## One msg_server -/

/-- The open connection is found by its user and its handle, and by nothing else. -/
theorem getMsgConnByHandle_beq (hs : s.Registry idOf reading) (hopen : s.OpenFor c h u) (userId handle : Nat) :
    (s.getMsgConnByHandle userId handle == some c) = (userId == u && handle == h) := by
  have hiff : s.getMsgConnByHandle userId handle = some c ↔ userId = u ∧ handle = h := by
    rw [Server.getMsgConnByHandle]
    constructor
    · intro hfound
      split at hfound
      · cases hfound
      · rename_i r hr
        obtain ⟨-, user, hu, huid, -⟩ := hs.users.byId userId r hr
        rw [hu] at hfound
        obtain ⟨rfl, rfl⟩ := openFor_unique hopen (hs.users.member r user handle c hu hfound)
        exact ⟨huid.symm, rfl⟩
    · rintro ⟨rfl, rfl⟩
      obtain ⟨r, user, hr, hu, hc⟩ := hs.users.joined c handle userId hopen
      rw [hr]
      dsimp only
      rw [hu]
      exact hc
  rw [Bool.eq_iff_iff]
  simpa using hiff

/-- A message that is sent to the connection. -/
def isFor (c : ConnId) (key : IMMsgData) : Send → Bool
  | .client d msg => d == c && plain msg == key
  | _ => false

/-- An acknowledgement that is sent to the connection. -/
def isAck (c : ConnId) (ack : IMMsgDataAck) : Send → Bool
  | .ack d msg => d == c && msg == ack
  | _ => false

/-- It is sent what is broadcast to its user, once, unless it is the one that asked. -/
theorem countP_broadcastUser (hs : s.Registry idOf reading) (hopen : s.OpenFor c h u) (userId : Nat) (asked : Option ConnId) :
    (broadcastUser s userId asked msg).countP (isFor c key) = (plain msg == key && userId == u && !(asked == some c)).toNat := by
  have hcount : (broadcastUser s userId asked msg).countP (isFor c key) =
      (s.sendPduToUser userId asked).countP fun d => d == c && plain msg == key := by
    rw [broadcastUser, List.countP_map]
    rfl
  rw [hcount]
  cases hkey : plain msg == key with
  | false => simp
  | true =>
    simp only [Bool.and_true, Bool.true_and]
    change (s.sendPduToUser userId asked).count c = _
    by_cases hasked : asked = some c
    · subst hasked
      rw [beq_self_eq_true, Bool.not_true, Bool.and_false, Bool.toNat_false]
      exact List.count_eq_zero.2 fun hmem => (mem_sendPduToUser hs hmem).1 rfl
    · rw [count_sendPduToUser hs hopen hasked, beq_false_of_ne hasked]
      by_cases huser : userId = u
      · simp [huser]
      · rw [if_neg huser, beq_false_of_ne huser]
        rfl

/-- An acknowledgement is no message. -/
@[simp] theorem countP_sendAck_isFor (handle : Nat) : (sendAck s msg handle).countP (isFor c key) = 0 := by
  simp [sendAck, List.countP_map, isFor, Function.comp_def]

/-- Nor is what goes to the route server. -/
@[simp] theorem countP_sendRoute_isFor : (sendRoute s msg).countP (isFor c key) = 0 := by
  simp [sendRoute, isFor]

/-- Nor is a request for members. -/
@[simp] theorem countP_requestGroupInfo_isFor (handle : Nat) : (requestGroupInfo s msg handle).countP (isFor c key) = 0 := by
  unfold requestGroupInfo
  split <;> rfl

/-- An acknowledgement goes to no other server. -/
@[simp] theorem packets_sendAck (handle : Nat) : (sendAck s msg handle).filterMap (Send.packet i true) = [] := by
  simp [sendAck, List.filterMap_map, Send.packet, Function.comp_def]

/-- Nor does what is sent to clients. -/
@[simp] theorem packets_broadcastUser (userId : Nat) (asked : Option ConnId) :
    (broadcastUser s userId asked msg).filterMap (Send.packet i true) = [] := by
  simp [broadcastUser, List.filterMap_map, Send.packet, Function.comp_def]

/-- The request for device tokens is not followed any further. -/
theorem packets_deviceToken (userId : Nat) : [Send.deviceToken userId msg].filterMap (Send.packet i true) = [] := rfl

/-- A message for the route server is on its way. -/
theorem packets_sendRoute (hup : s.getRouteServConn.isSome = true) : (sendRoute s msg).filterMap (Send.packet i true) = [.route i msg] := by
  obtain ⟨r, hr⟩ := Option.isSome_iff_exists.1 hup
  rw [sendRoute, hr]
  rfl

/-- So is a request for the members of its group, in the name of the sender. -/
theorem packets_requestGroupInfo (hup : s.getDbServConn = true) (handle : Nat) :
    (requestGroupInfo s msg handle).filterMap (Send.packet i true) =
      [.groupInfoReq i { userId := msg.fromUserId, groupId := msg.toSessionId, handle, msg }] := by
  rw [requestGroupInfo, if_pos hup]
  rfl

/-! ## What is still to come -/

/-- A message between two users goes from one to the other. -/
def Proper (msg : IMMsgData) : Prop := checkMsgTypeGroup msg.msgType = false → msg.fromUserId ≠ msg.toSessionId

/-- A request for the members of a message's group. -/
def Asks (req : GroupInfoReq) : Prop :=
  checkMsgTypeGroup req.msg.msgType = true ∧ req.userId = req.msg.fromUserId ∧ req.groupId = req.msg.toSessionId

/-- What is known of a PDU on its way. -/
def Good : Packet → Prop
  | .msgDataReq _ msg => (attachHandle (msg.attachData.getD [])).isSome = true
  | .msgDataRsp _ msg => (attachHandle (msg.attachData.getD [])).isSome = true ∧ (msg.msgId ≠ 0 → Proper msg)
  | .route _ msg | .broadcast _ msg => Proper msg
  | .groupInfoReq _ req => Asks req
  | .groupInfoRsp _ req groupInfoList => Asks req ∧ NobodyTwice groupInfoList

/-- How often the connection is still to be sent a message because of a PDU on its way. -/
def toCome (j h u : Nat) (key : IMMsgData) : Packet → Nat
  | .msgDataReq _ _ | .groupInfoReq _ _ => 0
  | .msgDataRsp i msg => if msg.msgId = 0 then 0 else (Output.owes j h u key (.accepted i msg)).toNat
  | .route i msg => if i = j then 0 else (owed h u key none msg).toNat
  | .broadcast i msg => if i = j then (owed h u key none msg).toNat else 0
  | .groupInfoRsp i req groupInfoList => (Output.owes j h u key (.members i req groupInfoList)).toNat

/-- How often its msg_server is still to be told the members for a message. -/
def listsToCome (j : Nat) (key : IMMsgData) : Packet → Nat
  | .msgDataRsp i msg => if msg.msgId = 0 then 0 else (Output.toGroup key (.accepted i msg)).toNat
  | .route i msg => if i = j then 0 else (Output.toGroup key (.accepted i msg)).toNat
  | .broadcast i msg => if i = j then (Output.toGroup key (.accepted i msg)).toNat else 0
  | .groupInfoReq i req => if i = j then (plain req.msg == key).toNat else 0
  | _ => 0

/-- How often it is still to be sent an acknowledgement. -/
def acksToCome (j h u : Nat) (ack : IMMsgDataAck) : Packet → Nat
  | .msgDataRsp i msg => if msg.msgId = 0 then 0 else (Output.owesAck j h u ack (.accepted i msg)).toNat
  | _ => 0

/-- What a PDU leads to, when it arrives, makes up for what was to come of it. -/
structure Balance (j : Nat) (c : ConnId) (h u : Nat) (packet : Packet) (packets : List Packet) (out : List Output) :
    Prop where
  delivered : ∀ key, out.countP (Output.delivers j c key) + total (toCome j h u key) packets =
    toCome j h u key packet + out.countP (Output.owes j h u key)
  listed : ∀ key, out.countP (Output.lists j key) + total (listsToCome j key) packets =
    listsToCome j key packet + out.countP (Output.toGroup key)
  acked : ∀ ack, out.countP (Output.acks j c ack) + total (acksToCome j h u ack) packets =
    acksToCome j h u ack packet + out.countP (Output.owesAck j h u ack)
  good : ∀ q ∈ packets, Good q

/-- Attached data are taken off once. -/
theorem plain_plain (msg : IMMsgData) : plain (plain msg) = plain msg := rfl

/-- The two broadcasts of a message between two users. -/
theorem countP_two (hs : s.Registry idOf reading) (hopen : s.OpenFor c h u) {handle : Nat} (hgroup : checkMsgTypeGroup msg.msgType = false)
    (hproper : Proper msg) {msg' : IMMsgData} (hplain : plain msg' = plain msg) :
    (broadcastUser s msg.fromUserId (s.getMsgConnByHandle msg.fromUserId handle) msg').countP (isFor c key) +
        (broadcastUser s msg.toSessionId none msg').countP (isFor c key) = (owed h u key (some handle) msg).toNat := by
  rw [countP_broadcastUser hs hopen, countP_broadcastUser hs hopen, getMsgConnByHandle_beq hs hopen, hplain, owed, cameFrom, hgroup]
  have hne := hproper hgroup
  by_cases hfrom : msg.fromUserId = u
  · have hto : (msg.toSessionId == u) = false := beq_false_of_ne fun hto => hne (hfrom.trans hto.symm)
    simp [hfrom, hto]
  · simp [beq_false_of_ne hfrom]

/-- The same, on a msg_server that the message did not come to. -/
theorem countP_two_none (hs : s.Registry idOf reading) (hopen : s.OpenFor c h u) (hgroup : checkMsgTypeGroup msg.msgType = false)
    (hproper : Proper msg) :
    (broadcastUser s msg.fromUserId none msg).countP (isFor c key) + (broadcastUser s msg.toSessionId none msg).countP (isFor c key) =
      (owed h u key none msg).toNat := by
  rw [countP_broadcastUser hs hopen, countP_broadcastUser hs hopen, owed, cameFrom, hgroup]
  have hne := hproper hgroup
  by_cases hfrom : msg.fromUserId = u
  · have hto : (msg.toSessionId == u) = false := beq_false_of_ne fun hto => hne (hfrom.trans hto.symm)
    simp [hfrom, hto]
  · simp [beq_false_of_ne hfrom]

/-- Every member is sent the message, but for the connection that it came from. -/
theorem countP_handleGroupInfoResponse (hs : s.Registry idOf reading) (hopen : s.OpenFor c h u) {req : GroupInfoReq}
    {groupInfoList : List GroupInfo} (hnodup : NobodyTwice groupInfoList) :
    (handleGroupInfoResponse s req groupInfoList).countP (isFor c key) = (owedMember h u key req groupInfoList).toNat := by
  rw [owedMember]
  cases groupInfoList with
  | nil => simp [handleGroupInfoResponse]
  | cons groupInfo rest =>
    have hshield : (if s.getDbServConn then [Send.shield groupInfo.groupId groupInfo.groupMemberList req.msg] else []).countP
        (isFor c key) = 0 := by
      split <;> rfl
    rw [handleGroupInfoResponse]
    by_cases hin : req.userId ∈ groupInfo.groupMemberList
    · have hsum := total_of_only (a := u) (fun memberUserId => (broadcastUser s memberUserId
          (if memberUserId = req.userId ∧ req.handle ≠ 0 then s.getMsgConnByHandle req.userId req.handle else none) req.msg).countP
            (isFor c key)) (hnodup groupInfo List.mem_cons_self) fun b hb => by
          rw [countP_broadcastUser hs hopen, beq_false_of_ne hb]
          simp
      rw [if_pos hin, List.countP_append, hshield, Nat.add_zero, List.countP_flatMap]
      change total _ _ = _
      simp only [Function.comp_def]
      rw [hsum, countP_broadcastUser hs hopen]
      by_cases hu : u ∈ groupInfo.groupMemberList
      · rw [if_pos hu]
        by_cases hself : u = req.userId
        · subst hself
          by_cases hzero : req.handle = 0
          · rw [if_neg (by simp [hzero]), hzero]
            by_cases hh : h = 0
            · simp [hh, hu]
            · simp [hu, beq_false_of_ne (Ne.symm hh)]
          · rw [if_pos ⟨rfl, hzero⟩, getMsgConnByHandle_beq hs hopen]
            by_cases hh : req.handle = h
            · have hne : (h != 0) = true := bne_iff_ne.2 (hh ▸ hzero)
              simp [hh, hne]
            · simp [beq_false_of_ne hh, hu]
        · rw [if_neg fun hboth => hself hboth.1]
          simp [hin, hu, beq_false_of_ne (Ne.symm hself)]
      · rw [if_neg hu]
        simp [hu]
    · rw [if_neg hin]
      simp [hin]

/-- A message to members goes to no other server. -/
theorem packets_handleGroupInfoResponse {req : GroupInfoReq} {infos : List GroupInfo} :
    (handleGroupInfoResponse s req infos).filterMap (Send.packet i true) = [] := by
  cases infos with
  | nil => rfl
  | cons groupInfo rest =>
    rw [handleGroupInfoResponse]
    split
    · rw [List.filterMap_append, List.filterMap_flatMap]
      simp only [packets_broadcastUser]
      split <;> simp [Send.packet]
    · rfl

/-! ## Acknowledgements -/

/-- The connection is sent the acknowledgement of a message that came from it. -/
theorem countP_sendAck_isAck (hs : s.Registry idOf reading) (hopen : s.OpenFor c h u) (handle : Nat) :
    (sendAck s msg handle).countP (isAck c ack) = (msg.fromUserId == u && handle == h && ackOf msg == ack).toNat := by
  rw [← getMsgConnByHandle_beq hs hopen, sendAck]
  cases s.getMsgConnByHandle msg.fromUserId handle with
  | none => rfl
  | some d =>
    rw [Option.toList_some, List.map_singleton, List.countP_singleton, isAck, Option.some_beq_some]
    cases d == c && ackOf msg == ack <;> rfl

/-- A message for the route server is no acknowledgement. -/
@[simp] theorem countP_sendRoute_isAck : (sendRoute s msg).countP (isAck c ack) = 0 := by
  simp [sendRoute, isAck]

/-- Nor is a request for members. -/
@[simp] theorem countP_requestGroupInfo_isAck (handle : Nat) : (requestGroupInfo s msg handle).countP (isAck c ack) = 0 := by
  unfold requestGroupInfo
  split <;> rfl

/-- Nor is a message to clients. -/
@[simp] theorem countP_broadcastUser_isAck (userId : Nat) (asked : Option ConnId) :
    (broadcastUser s userId asked msg).countP (isAck c ack) = 0 := by
  simp [broadcastUser, List.countP_map, isAck, Function.comp_def]

/-- Members are sent no acknowledgement. -/
theorem countP_handleGroupInfoResponse_isAck {req : GroupInfoReq} {infos : List GroupInfo} :
    (handleGroupInfoResponse s req infos).countP (isAck c ack) = 0 := by
  cases infos with
  | nil => rfl
  | cons groupInfo rest =>
    rw [handleGroupInfoResponse]
    split
    · rw [List.countP_append, List.countP_flatMap]
      simp only [Function.comp_def, countP_broadcastUser_isAck]
      split <;> simp [isAck]
    · rfl

/-! ## What a msg_server sends -/

/-- Only what its own msg_server sends can come to the connection. -/
theorem countP_delivers_sent (sends : List Send) :
    (sends.map (Output.sent i)).countP (Output.delivers j c key) = if i = j then sends.countP (isFor c key) else 0 := by
  rw [List.countP_map]
  split
  · rename_i hij
    refine List.countP_congr fun send _ => ?_
    cases send <;> simp [Output.delivers, isFor, hij]
  · rename_i hij
    refine List.countP_eq_zero.2 fun send _ => ?_
    cases send <;> simp [Output.delivers, hij]

/-- The same of acknowledgements. -/
theorem countP_acks_sent (sends : List Send) :
    (sends.map (Output.sent i)).countP (Output.acks j c ack) = if i = j then sends.countP (isAck c ack) else 0 := by
  rw [List.countP_map]
  split
  · rename_i hij
    refine List.countP_congr fun send _ => ?_
    cases send <;> simp [Output.acks, isAck, hij]
  · rename_i hij
    refine List.countP_eq_zero.2 fun send _ => ?_
    cases send <;> simp [Output.acks, hij]

/-- Nothing is accepted, and no members are told, when a msg_server sends. -/
theorem countP_sent_zero {p : Output → Bool} (hp : ∀ send, p (.sent i send) = false) (sends : List Send) :
    (sends.map (Output.sent i)).countP p = 0 := by
  rw [List.countP_map]
  exact List.countP_eq_zero.2 fun send _ => by simp [hp send]

/-- What a msg_server sends must make up for what was to come of the PDU that it handles. -/
theorem balance_sent {packet : Packet} {sends : List Send}
    (hdelivered : ∀ key, (if i = j then sends.countP (isFor c key) else 0) +
      total (toCome j h u key) (sends.filterMap (Send.packet i true)) = toCome j h u key packet)
    (hlisted : ∀ key, total (listsToCome j key) (sends.filterMap (Send.packet i true)) = listsToCome j key packet)
    (hacked : ∀ ack, (if i = j then sends.countP (isAck c ack) else 0) +
      total (acksToCome j h u ack) (sends.filterMap (Send.packet i true)) = acksToCome j h u ack packet)
    (hgood : ∀ q ∈ sends.filterMap (Send.packet i true), Good q) :
    Balance j c h u packet (sends.filterMap (Send.packet i true)) (sends.map (Output.sent i)) := by
  refine ⟨fun key => ?_, fun key => ?_, fun ack => ?_, hgood⟩
  · rw [countP_delivers_sent, hdelivered, countP_sent_zero fun _ => rfl, Nat.add_zero]
  · rw [countP_sent_zero fun _ => rfl, hlisted, countP_sent_zero fun _ => rfl, Nat.zero_add, Nat.add_zero]
  · rw [countP_acks_sent, hacked, countP_sent_zero fun _ => rfl, Nat.add_zero]

/-- The DB proxy has answered a message. -/
theorem balance_msgDataRsp {sends : List Send} (hs : s.Registry idOf reading) (hopen : i = j → s.OpenFor c h u)
    (hdb : s.getDbServConn = true) (hroute : s.getRouteServConn.isSome = true) (hgood : Good (.msgDataRsp i msg))
    (hsends : handleMsgData s msg = some sends) :
    Balance j c h u (.msgDataRsp i msg) (sends.filterMap (Send.packet i true)) (sends.map (Output.sent i)) := by
  obtain ⟨hattached, hproper⟩ := hgood
  obtain ⟨handle, hattach⟩ := Option.isSome_iff_exists.1 hattached
  unfold handleMsgData handleGroupMessage at hsends
  rw [hattach] at hsends
  by_cases hid : msg.msgId = 0
  · -- the DB proxy failed, and nothing is sent
    simp only [if_pos hid, ite_self, Option.some.injEq] at hsends
    subst hsends
    refine balance_sent (fun key => ?_) (fun key => ?_) (fun ack => ?_) fun _ hq => absurd hq List.not_mem_nil
    · simp [toCome, hid]
    · simp [listsToCome, hid]
    · simp [acksToCome, hid]
  · have htoCome : ∀ key, toCome j h u key (.msgDataRsp i msg) = (owed h u key (if i = j then some handle else none) msg).toNat := by
      intro key
      rw [toCome, if_neg hid, Output.owes, hattach]
    have hacksToCome : ∀ ack, acksToCome j h u ack (.msgDataRsp i msg) =
        if i = j then (msg.fromUserId == u && handle == h && ackOf msg == ack).toNat else 0 := by
      intro ack
      rw [acksToCome, if_neg hid, Output.owesAck, hattach, Option.some_beq_some]
      by_cases hij : i = j
      · simp [hij]
      · simp [hij, beq_false_of_ne hij]
    simp only [if_neg hid, Option.map_some] at hsends
    split at hsends
    · rename_i hgroup
      obtain rfl := Option.some.inj hsends
      refine balance_sent (fun key => ?_) (fun key => ?_) (fun ack => ?_) ?_ <;>
        simp only [List.filterMap_append, packets_sendAck, packets_sendRoute hroute, packets_requestGroupInfo hdb, List.nil_append]
      · -- nobody is to be sent the message before the members are known
        have hnot : ∀ handle, owed h u key handle msg = false := fun handle => by simp [owed, hgroup]
        rw [htoCome]
        by_cases hij : i = j <;> simp [toCome, hij, total, hnot]
      · by_cases hij : i = j <;> simp [listsToCome, hid, hij, total, Output.toGroup, hgroup]
      · rw [hacksToCome]
        by_cases hij : i = j
        · simp [acksToCome, hij, total, countP_sendAck_isAck hs (hopen hij)]
        · simp [acksToCome, hij, total]
      · intro q hq
        rcases List.mem_append.1 hq with hq | hq
        · rw [List.mem_singleton.1 hq]
          exact hproper hid
        · rw [List.mem_singleton.1 hq]
          exact ⟨hgroup, rfl, rfl⟩
    · rename_i hgroup
      have hsingle : checkMsgTypeGroup msg.msgType = false := Bool.eq_false_iff.2 hgroup
      obtain rfl := Option.some.inj hsends
      refine balance_sent (fun key => ?_) (fun key => ?_) (fun ack => ?_) ?_ <;>
        simp only [List.filterMap_append, packets_sendAck, packets_sendRoute hroute, packets_broadcastUser, packets_deviceToken,
          List.nil_append, List.append_nil]
      · rw [htoCome]
        by_cases hij : i = j
        · have htwo : _ = (owed h u key (some handle) msg).toNat := countP_two hs (hopen hij) hsingle (hproper hid) (plain_plain msg)
          simp [toCome, hij, total, isFor, ← htwo]
        · simp [toCome, hij, total]
      · simp [listsToCome, Output.toGroup, hsingle]
      · rw [hacksToCome]
        by_cases hij : i = j
        · simp [acksToCome, hij, total, countP_sendAck_isAck hs (hopen hij), isAck]
        · simp [acksToCome, hij, total]
      · intro q hq
        rw [List.mem_singleton.1 hq]
        exact hproper hid

/-- A message that the route server passes on. -/
theorem balance_broadcast (hs : s.Registry idOf reading) (hopen : i = j → s.OpenFor c h u) (hdb : s.getDbServConn = true)
    (hgood : Good (.broadcast i msg)) :
    Balance j c h u (.broadcast i msg) ((handleRouteMsgData s msg).filterMap (Send.packet i true))
      ((handleRouteMsgData s msg).map (Output.sent i)) := by
  unfold handleRouteMsgData handleGroupMessageBroadcast
  split
  · rename_i hgroup
    refine balance_sent (fun key => ?_) (fun key => ?_) (fun ack => ?_) ?_ <;> rw [packets_requestGroupInfo hdb]
    · have hnot : owed h u key none msg = false := by simp [owed, hgroup]
      by_cases hij : i = j <;> simp [toCome, hij, hnot]
    · by_cases hij : i = j <;> simp [listsToCome, hij, Output.toGroup, hgroup]
    · simp [acksToCome, total]
    · intro q hq
      rw [List.mem_singleton.1 hq]
      exact ⟨hgroup, rfl, rfl⟩
  · rename_i hgroup
    have hsingle : checkMsgTypeGroup msg.msgType = false := Bool.eq_false_iff.2 hgroup
    refine balance_sent (fun key => ?_) (fun key => ?_) (fun ack => ?_) ?_ <;>
      simp only [List.filterMap_append, packets_broadcastUser, List.nil_append]
    · by_cases hij : i = j
      · have htwo : _ = (owed h u key none msg).toNat := countP_two_none hs (hopen hij) hsingle hgood
        simp [toCome, hij, ← htwo]
      · simp [toCome, hij]
    · simp [listsToCome, Output.toGroup, hsingle]
    · simp [acksToCome]
    · exact fun _ hq => absurd hq List.not_mem_nil

/-- The members of a group, and a message to them. -/
theorem balance_groupInfoRsp {req : GroupInfoReq} {infos : List GroupInfo} (hs : s.Registry idOf reading)
    (hopen : i = j → s.OpenFor c h u) (hgood : Good (.groupInfoRsp i req infos)) :
    Balance j c h u (.groupInfoRsp i req infos) ((handleGroupInfoResponse s req infos).filterMap (Send.packet i true))
      ((handleGroupInfoResponse s req infos).map (Output.sent i)) := by
  obtain ⟨-, hnodup⟩ := hgood
  refine balance_sent (fun key => ?_) (fun key => ?_) (fun ack => ?_) ?_ <;> rw [packets_handleGroupInfoResponse]
  · by_cases hij : i = j
    · simp [toCome, hij, Output.owes, countP_handleGroupInfoResponse hs (hopen hij) hnodup]
    · simp [toCome, hij, Output.owes, beq_false_of_ne hij]
  · simp [listsToCome]
  · simp [acksToCome, countP_handleGroupInfoResponse_isAck]
  · exact fun _ hq => absurd hq List.not_mem_nil

/-! ## The DB proxy -/

/-- A monitor that allows everything. -/
def idle : Prog.Monitor DbProxy.calls := { State := Unit, next := fun s _ _ => s, allows := fun _ _ => True }

/-- Every handler is allowed everything. -/
theorem safe_idle {α : Type} (p : DbProxy.Handler α) : Prog.Safe idle () p fun _ _ => True := by
  induction p with
  | done a => trivial
  | call o k ih => exact ⟨trivial, ih⟩

/-- The answer is the message with an id; a user who sends to himself gets none. -/
def Answers (msg : IMMsgData) (answer : Option IMMsgData) : Prop :=
  ∀ a, answer = some a → (∃ msgId, a = { msg with msgId }) ∧ (a.msgId ≠ 0 → Proper a)

/-- The answer of a handler is the message with the id that it gives. -/
theorem answers_map {msgId : Option Nat} (hproper : ∀ n, msgId = some n → n ≠ 0 → Proper { msg with msgId := n }) :
    Answers msg (msgId.map fun msgId => { msg with msgId }) := by
  intro a ha
  obtain ⟨n, hn, rfl⟩ := Option.map_eq_some_iff.1 ha
  exact ⟨⟨n, rfl⟩, hproper n hn⟩

/-- A message to a user gets an id only when he is not the sender. -/
theorem safe_sendToUser {now : Nat} {send : Nat → Nat → DbProxy.Handler Bool} :
    Prog.Safe idle () (DbProxy.Actions.sendToUser msg now send) fun msgId _ =>
      ∀ n, msgId = some n → n ≠ 0 → msg.fromUserId ≠ msg.toSessionId := by
  by_cases hself : msg.fromUserId = msg.toSessionId
  · rw [DbProxy.Actions.sendToUser, if_neg (not_not.2 hself)]
    intro n hn hne
    exact absurd (Option.some.inj hn).symm hne
  · exact (safe_idle _).mono fun _ _ _ _ _ _ => hself

/-- `DB_PROXY::sendMessage` answers as it should, whatever its storage answers. -/
theorem safe_sendMessage (msg : IMMsgData) : Prog.Safe idle () (DbProxy.Actions.sendMessage msg) fun answer _ => Answers msg answer := by
  have hgroup : checkMsgTypeGroup msg.msgType = true → ∀ p : DbProxy.Handler (Option Nat),
      Prog.Safe idle () ((fun msgId => msgId.map fun msgId => { msg with msgId }) <$> p) fun answer _ => Answers msg answer := by
    intro hgroup p
    refine (safe_idle p).bind fun msgId _ _ => answers_map fun n _ _ hsingle => ?_
    rw [show checkMsgTypeGroup _ = true from hgroup] at hsingle
    cases hsingle
  have hsingle : ∀ p : DbProxy.Handler (Option Nat), Prog.Safe idle () p (fun msgId _ =>
      ∀ n, msgId = some n → n ≠ 0 → msg.fromUserId ≠ msg.toSessionId) →
      Prog.Safe idle () ((fun msgId => msgId.map fun msgId => { msg with msgId }) <$> p) fun answer _ => Answers msg answer := by
    intro p hp
    exact hp.bind fun msgId _ hne => answers_map fun n hn hzero _ => hne n hn hzero
  rw [DbProxy.Actions.sendMessage]
  refine (safe_idle DbProxy.time).bind fun now _ _ => ?_
  dsimp only
  split
  · split
    · rename_i htype
      exact hgroup (by simp [checkMsgTypeGroup, htype]) _
    · split
      · rename_i htype
        exact hgroup (by simp [checkMsgTypeGroup, htype]) _
      · split
        · exact hsingle _ safe_sendToUser
        · exact hsingle _ safe_sendToUser
  · intro a ha
    cases ha

/-- So does every run of it. -/
theorem answers_of_exec {answer : Option IMMsgData} {tr : List (Prog.Entry DbProxy.calls)}
    (h : Prog.Exec (DbProxy.Actions.sendMessage msg) tr (some answer)) : Answers msg answer := by
  rcases (safe_sendMessage msg).exec h with ⟨a, ha, hpost⟩ | ⟨hnone, -⟩
  · cases ha
    exact hpost
  · cases hnone

/-! ## The network -/

/-- The other servers are connected to all msg_servers, and the connection is open on its own. -/
structure Connected (j : Nat) (c : ConnId) (h u : Nat) (n : Net) : Prop where
  up : ∀ peer ∈ n.peers, peer.Up
  stays : ∃ peer, n.peers[j]? = some peer ∧ peer.server.OpenFor c h u

variable {n : Net} {packet : Packet} {packets : List Packet} {out : List Output}

/-- A msg_server that is up handles a PDU, and all that it sends to other servers is on its way. -/
theorem serve_eq_some {f : Server → Option (List Send)} (hup : ∀ peer ∈ n.peers, peer.Up) (h : n.serve i f = some (packets, out)) :
    ∃ peer sends, n.peers[i]? = some peer ∧ peer.Up ∧ f peer.server = some sends ∧ packets = sends.filterMap (Send.packet i true) ∧
      out = sends.map (Output.sent i) := by
  unfold Net.serve at h
  split at h
  · cases h
  · rename_i peer hpeer
    obtain ⟨sends, hsends, heq⟩ := Option.map_eq_some_iff.1 h
    obtain ⟨rfl, rfl⟩ := Prod.mk.inj heq
    have hpeerUp := hup peer (List.mem_of_getElem? hpeer)
    exact ⟨peer, sends, hpeer, hpeerUp, hsends, by rw [hpeerUp.1], rfl⟩

/-- The route server passes a message on to every other msg_server, once: what only the broadcast to one of them stands for stands there
once, unless the message came from it. -/
theorem total_others (hn : Connected j c h u n) {f : Packet → Nat} (hf : ∀ l, l ≠ j → f (.broadcast l msg) = 0) :
    total f ((n.others i).map fun l => .broadcast l msg) = if i = j then 0 else f (.broadcast j msg) := by
  obtain ⟨peer, hpeer, -⟩ := hn.stays
  obtain ⟨hlinked, -⟩ := hn.up peer (List.mem_of_getElem? hpeer)
  have hj : j < n.peers.length := (List.getElem?_eq_some_iff.1 hpeer).1
  have hany : n.peers[j]?.any Peer.linked = true := by
    rw [hpeer]
    exact hlinked
  have hmem : j ∈ n.others i ↔ i ≠ j := by
    rw [Net.others, List.mem_filter, List.mem_range, decide_eq_true_iff]
    exact ⟨fun hl => hl.2.1.symm, fun hne => ⟨hj, hne.symm, hany⟩⟩
  have hone := total_of_only (l := n.others i) (a := j) (fun l => f (.broadcast l msg)) (List.nodup_range.filter _) hf
  have hmap : total f ((n.others i).map fun l => .broadcast l msg) = total (fun l => f (.broadcast l msg)) (n.others i) := by
    rw [total, total, List.map_map]
    rfl
  rw [hmap, hone]
  by_cases hij : i = j
  · rw [if_neg (by simpa [hmem] using hij), if_pos hij]
  · rw [if_pos (hmem.2 hij), if_neg hij]

/-- Whichever PDU arrives, what it leads to makes up for what was to come of it. -/
theorem balance_process (hn : Connected j c h u n) (hgood : Good packet) (hp : n.process packet = some (packets, out)) :
    Balance j c h u packet packets out := by
  obtain ⟨hup, peerj, hpeerj, hopen⟩ := hn
  have hopenAt : ∀ {i peer}, n.peers[i]? = some peer → i = j → peer.server.OpenFor c h u := by
    rintro i peer hpeer rfl
    obtain rfl := Option.some.inj (hpeerj.symm.trans hpeer)
    exact hopen
  cases packet with
  | msgDataReq i msg => cases hp
  | msgDataRsp i msg =>
    rw [Net.process] at hp
    obtain ⟨peer, sends, hpeer, hpeerUp, hsends, rfl, rfl⟩ := serve_eq_some hup hp
    exact balance_msgDataRsp peer.registry (hopenAt hpeer) hpeerUp.2.1 hpeerUp.2.2 hgood hsends
  | route i msg =>
    obtain ⟨rfl, rfl⟩ := Prod.mk.inj (Option.some.inj hp)
    refine ⟨fun key => ?_, fun key => ?_, fun ack => ?_, ?_⟩
    · rw [total_others ⟨hup, peerj, hpeerj, hopen⟩ fun l hl => by rw [toCome, if_neg hl], toCome, toCome, if_pos rfl]
      simp
    · rw [total_others ⟨hup, peerj, hpeerj, hopen⟩ fun l hl => by rw [listsToCome, if_neg hl], listsToCome, listsToCome, if_pos rfl]
      simp [Output.toGroup]
    · simp [total, acksToCome, Function.comp_def]
    · intro q hq
      obtain ⟨l, -, rfl⟩ := List.mem_map.1 hq
      exact hgood
  | broadcast i msg =>
    rw [Net.process] at hp
    obtain ⟨peer, sends, hpeer, hpeerUp, hsends, rfl, rfl⟩ := serve_eq_some hup hp
    obtain rfl := Option.some.inj hsends
    exact balance_broadcast peer.registry (hopenAt hpeer) hpeerUp.2.1 hgood
  | groupInfoReq i req => cases hp
  | groupInfoRsp i req groupInfoList =>
    rw [Net.process] at hp
    obtain ⟨peer, sends, hpeer, hpeerUp, hsends, rfl, rfl⟩ := serve_eq_some hup hp
    obtain rfl := Option.some.inj hsends
    exact balance_groupInfoRsp peer.registry (hopenAt hpeer) hgood

/-- An answer of the DB proxy says what is to come. -/
theorem balance_answered {answer : Option IMMsgData} (hgood : Good packet)
    (hanswer : ∀ i msg, packet = .msgDataReq i msg → Answers msg answer)
    (hp : Net.answered answer packet = some (packets, out)) : Balance j c h u packet packets out := by
  cases packet with
  | msgDataReq i msg =>
    unfold Net.answered at hp
    cases answer with
    | none =>
      obtain ⟨rfl, rfl⟩ := Prod.mk.inj (Option.some.inj hp)
      exact ⟨fun _ => rfl, fun _ => rfl, fun _ => rfl, fun _ hq => absurd hq List.not_mem_nil⟩
    | some a =>
      obtain ⟨rfl, rfl⟩ := Prod.mk.inj (Option.some.inj hp)
      obtain ⟨⟨msgId, rfl⟩, hproper⟩ := hanswer i msg rfl a rfl
      refine ⟨fun key => ?_, fun key => ?_, fun ack => ?_, ?_⟩
      · by_cases hid : msgId = 0
        · simp [toCome, hid]
        · cases howes : Output.owes j h u key (.accepted i { msg with msgId }) <;> simp [toCome, hid, howes, Output.delivers]
      · by_cases hid : msgId = 0
        · simp [listsToCome, hid]
        · cases hgroup : Output.toGroup key (.accepted i { msg with msgId }) <;> simp [listsToCome, hid, hgroup, Output.lists]
      · by_cases hid : msgId = 0
        · simp [acksToCome, hid]
        · cases howes : Output.owesAck j h u ack (.accepted i { msg with msgId }) <;> simp [acksToCome, hid, howes, Output.acks]
      · intro q hq
        rw [List.mem_singleton.1 hq]
        exact ⟨hgood, hproper⟩
  | msgDataRsp i msg => cases hp
  | route i msg => cases hp
  | broadcast i msg => cases hp
  | groupInfoReq i req => cases hp
  | groupInfoRsp i req groupInfoList => cases hp

/-- An answer with the members of a group says who is to be sent the message. -/
theorem balance_listed {groupInfoList : List GroupInfo} (hgood : Good packet) (hnodup : NobodyTwice groupInfoList)
    (hp : Net.listed groupInfoList packet = some (packets, out)) : Balance j c h u packet packets out := by
  cases packet with
  | groupInfoReq i req =>
    obtain ⟨rfl, rfl⟩ := Prod.mk.inj (Option.some.inj hp)
    refine ⟨fun key => ?_, fun key => ?_, fun ack => ?_, fun q hq => ?_⟩
    · cases howes : Output.owes j h u key (.members i req groupInfoList) <;> simp [toCome, howes, Output.delivers]
    · by_cases hij : i = j
      · cases hkey : plain req.msg == key <;> simp [listsToCome, hij, Output.lists, Output.toGroup, hkey]
      · simp [listsToCome, hij, Output.lists, Output.toGroup]
    · simp [acksToCome, Output.acks, Output.owesAck]
    · rw [List.mem_singleton.1 hq]
      exact ⟨hgood, hnodup⟩
  | msgDataReq i msg => cases hp
  | msgDataRsp i msg => cases hp
  | route i msg => cases hp
  | broadcast i msg => cases hp
  | groupInfoRsp i req groupInfoList => cases hp

/-! ## Runs -/

/-- What the connection has been sent, and what is still to come, is what it is owed. -/
structure Sound (j : Nat) (c : ConnId) (h u : Nat) (log : List Output) (n : Net) : Prop where
  connected : Connected j c h u n
  good : ∀ packet ∈ n.packets, Good packet
  delivered : ∀ key, log.countP (Output.delivers j c key) + total (toCome j h u key) n.packets = log.countP (Output.owes j h u key)
  listed : ∀ key, log.countP (Output.lists j key) + total (listsToCome j key) n.packets = log.countP (Output.toGroup key)
  acked : ∀ ack, log.countP (Output.acks j c ack) + total (acksToCome j h u ack) n.packets = log.countP (Output.owesAck j h u ack)
  known : ∀ i msg, .msgDataReq i msg ∈ n.packets → ∃ d, .asked i d msg ∈ log
  accepted : ∀ i msg, .accepted i msg ∈ log → ∃ d req, .asked i d req ∈ log ∧ msg = { req with msgId := msg.msgId }
  asked : ∀ d msg, .asked j d msg ∈ log → msg.fromUserId = u → attachHandle (msg.attachData.getD []) = some h → d = c

variable {log : List Output} {n' : Net}

/-- A PDU is taken away, and others come. -/
theorem take_eq_some {k : Nat} {f : Packet → Option (List Packet × List Output)} (hs : n.take k f = some (n', out)) :
    ∃ packet packets, n.packets[k]? = some packet ∧ f packet = some (packets, out) ∧
      n' = { n with packets := n.packets.eraseIdx k ++ packets } := by
  unfold Net.take at hs
  split at hs
  · cases hs
  · rename_i packet hpacket
    obtain ⟨⟨packets, out'⟩, hf, heq⟩ := Option.map_eq_some_iff.1 hs
    obtain ⟨rfl, rfl⟩ := Prod.mk.inj heq
    exact ⟨packet, packets, hpacket, hf, rfl⟩

/-- Nothing happens but that a PDU is taken. -/
theorem Sound.take {k : Nat} {f : Packet → Option (List Packet × List Output)} (hsound : Sound j c h u log n)
    (hbalance : ∀ {packet packets out}, n.packets[k]? = some packet → f packet = some (packets, out) →
      Balance j c h u packet packets out)
    (hreq : ∀ {packet packets out}, n.packets[k]? = some packet → f packet = some (packets, out) →
      (∀ i msg, .msgDataReq i msg ∉ packets) ∧ (∀ i d msg, .asked i d msg ∉ out) ∧
        ∀ i msg, .accepted i msg ∈ out → ∃ req, packet = .msgDataReq i req ∧ msg = { req with msgId := msg.msgId })
    (hs : n.take k f = some (n', out)) : Sound j c h u (log ++ out) n' := by
  obtain ⟨packet, packets, hpacket, hf, rfl⟩ := take_eq_some hs
  have hbal := hbalance hpacket hf
  obtain ⟨hnone, hasked, haccepted⟩ := hreq hpacket hf
  refine ⟨⟨hsound.connected.up, hsound.connected.stays⟩, fun q hq => ?_, fun key => ?_, fun key => ?_, fun ack => ?_,
    fun i msg hmem => ?_, fun i msg hmem => ?_, fun d msg hmem => ?_⟩
  · rcases List.mem_append.1 hq with hq | hq
    · exact hsound.good q (List.mem_of_mem_eraseIdx hq)
    · exact hbal.good q hq
  · have herase := total_eraseIdx (toCome j h u key) hpacket
    have hbefore := hsound.delivered key
    have hstep := hbal.delivered key
    rw [List.countP_append, List.countP_append, total_append]
    omega
  · have herase := total_eraseIdx (listsToCome j key) hpacket
    have hbefore := hsound.listed key
    have hstep := hbal.listed key
    rw [List.countP_append, List.countP_append, total_append]
    omega
  · have herase := total_eraseIdx (acksToCome j h u ack) hpacket
    have hbefore := hsound.acked ack
    have hstep := hbal.acked ack
    rw [List.countP_append, List.countP_append, total_append]
    omega
  · rcases List.mem_append.1 hmem with hmem | hmem
    · obtain ⟨d, hd⟩ := hsound.known i msg (List.mem_of_mem_eraseIdx hmem)
      exact ⟨d, List.mem_append_left _ hd⟩
    · exact absurd hmem (hnone i msg)
  · rcases List.mem_append.1 hmem with hmem | hmem
    · obtain ⟨d, req, hd, hmsg⟩ := hsound.accepted i msg hmem
      exact ⟨d, req, List.mem_append_left _ hd, hmsg⟩
    · obtain ⟨req, rfl, hmsg⟩ := haccepted i msg hmem
      obtain ⟨d, hd⟩ := hsound.known i req (List.mem_of_getElem? hpacket)
      exact ⟨d, req, List.mem_append_left _ hd, hmsg⟩
  · rcases List.mem_append.1 hmem with hmem | hmem
    · exact hsound.asked d msg hmem
    · exact absurd hmem (hasked j d msg)

/-- Outputs that are about no accepted message, and none that is sent. -/
theorem countP_asked {d : ConnId} (p : Output → Bool) (hp : p (.asked i d msg) = false) :
    ([.asked i d msg] : List Output).countP p = 0 := by
  rw [List.countP_singleton, hp]
  rfl

/-- The message that goes to the DB proxy names the user and the handle of the connection. -/
theorem clientMsgData_eq_some {conn : MsgConn} {now : Nat} {req : IMMsgData} (h : clientMsgData conn now msg = some req)
    (hhandle : conn.handle < uint32Size) :
    req.fromUserId = conn.userId ∧ attachHandle (req.attachData.getD []) = some conn.handle := by
  unfold clientMsgData at h
  split at h
  · cases h
  · obtain rfl := Option.some.inj h
    exact ⟨rfl, attachHandle_dbAttachData attachTypeHandle 0 hhandle⟩

/-- What a client's message changes. -/
theorem client_eq_some {c : ConnId} {now : Nat} (hs : n.step (.client i c now msg) = some (n', out)) :
    (n' = n ∧ out = []) ∨ ∃ peer conn req, n.peers[i]? = some peer ∧ peer.server.msgConnMap[conn.handle]? = some c ∧
      conn.handle < uint32Size ∧ clientMsgData conn now msg = some req ∧
      n' = { n with packets := n.packets ++ [.msgDataReq i req] } ∧ out = [.asked i c req] := by
  simp only [Net.step] at hs
  split at hs
  · cases hs
  · rename_i peer hpeer
    split at hs
    · cases hs
    · rename_i conn hconn
      split at hs
      · rename_i hguard
        split at hs
        · obtain ⟨rfl, rfl⟩ := Prod.mk.inj (Option.some.inj hs)
          exact .inl ⟨rfl, rfl⟩
        · rename_i req hreq
          split at hs
          · obtain ⟨rfl, rfl⟩ := Prod.mk.inj (Option.some.inj hs)
            exact .inr ⟨peer, conn, req, hpeer, hguard.2.1, hguard.2.2, hreq, rfl, rfl⟩
          · obtain ⟨rfl, rfl⟩ := Prod.mk.inj (Option.some.inj hs)
            exact .inl ⟨rfl, rfl⟩
      · cases hs

/-- An open connection sends a message: it is its own if it says so. -/
theorem Sound.client {d : ConnId} {conn : MsgConn} {peer : Peer} {now : Nat} {req : IMMsgData} (hsound : Sound j c h u log n)
    (hpeer : n.peers[i]? = some peer) (hmap : peer.server.msgConnMap[conn.handle]? = some d) (hhandle : conn.handle < uint32Size)
    (hreq : clientMsgData conn now msg = some req) :
    Sound j c h u (log ++ [.asked i d req]) { n with packets := n.packets ++ [.msgDataReq i req] } := by
  have hfields := clientMsgData_eq_some hreq hhandle
  refine ⟨⟨hsound.connected.up, hsound.connected.stays⟩, fun q hq => ?_, fun key => ?_, fun key => ?_, fun ack => ?_,
    fun l m hmem => ?_, fun l m hmem => ?_, fun e m hmem hfrom hown => ?_⟩
  · rcases List.mem_append.1 hq with hq | hq
    · exact hsound.good q hq
    · rw [List.mem_singleton.1 hq]
      exact Option.isSome_iff_exists.2 ⟨_, hfields.2⟩
  · rw [List.countP_append, List.countP_append, countP_asked _ rfl, countP_asked _ rfl, total_append, total_singleton]
    exact hsound.delivered key
  · rw [List.countP_append, List.countP_append, countP_asked _ rfl, countP_asked _ rfl, total_append, total_singleton]
    exact hsound.listed key
  · rw [List.countP_append, List.countP_append, countP_asked _ rfl, countP_asked _ rfl, total_append, total_singleton]
    exact hsound.acked ack
  · rcases List.mem_append.1 hmem with hmem | hmem
    · obtain ⟨e, he⟩ := hsound.known l m hmem
      exact ⟨e, List.mem_append_left _ he⟩
    · obtain ⟨rfl, rfl⟩ := Packet.msgDataReq.inj (List.mem_singleton.1 hmem)
      exact ⟨d, List.mem_append_right _ List.mem_cons_self⟩
  · rcases List.mem_append.1 hmem with hmem | hmem
    · obtain ⟨e, r, he, hm⟩ := hsound.accepted l m hmem
      exact ⟨e, r, List.mem_append_left _ he, hm⟩
    · cases List.mem_singleton.1 hmem
  · rcases List.mem_append.1 hmem with hmem | hmem
    · exact hsound.asked e m hmem hfrom hown
    · obtain ⟨rfl, rfl, rfl⟩ := Output.asked.inj (List.mem_singleton.1 hmem)
      -- both connections are in the map under one handle
      obtain ⟨peer', hpeer', -, -, -, -, -, hmap'⟩ := hsound.connected.stays
      obtain rfl := Option.some.inj (hpeer.symm.trans hpeer')
      obtain rfl := Option.some.inj (hfields.2.symm.trans hown)
      exact Option.some.inj (hmap.symm.trans hmap')

/-- A msg_server does something else, and keeps the connection. -/
theorem Sound.change {peer : Peer} (hsound : Sound j c h u log n) (hup : peer.Up) (hopen : i = j → peer.server.OpenFor c h u) :
    Sound j c h u log { n with peers := n.peers.set i peer } := by
  refine ⟨⟨fun p hp => ?_, ?_⟩, hsound.good, hsound.delivered, hsound.listed, hsound.acked, hsound.known, hsound.accepted, hsound.asked⟩
  · rcases List.mem_or_eq_of_mem_set hp with hp | rfl
    · exact hsound.connected.up p hp
    · exact hup
  · obtain ⟨peerj, hpeerj, hopenj⟩ := hsound.connected.stays
    by_cases hij : i = j
    · subst hij
      exact ⟨peer, getElem?_set_self_of_some hpeerj peer, hopen rfl⟩
    · exact ⟨peerj, (getElem?_set_of_ne (Ne.symm hij) peer).trans hpeerj, hopenj⟩

/-- No PDU that arrives leads to a message of a client, or to an accepted one. -/
theorem process_eq_some (hp : n.process packet = some (packets, out)) :
    (∀ i msg, .msgDataReq i msg ∉ packets) ∧ (∀ i d msg, .asked i d msg ∉ out) ∧ ∀ i msg, .accepted i msg ∉ out := by
  have hserve : ∀ {i f}, n.serve i f = some (packets, out) →
      (∀ i msg, .msgDataReq i msg ∉ packets) ∧ (∀ i d msg, .asked i d msg ∉ out) ∧ ∀ i msg, .accepted i msg ∉ out := by
    intro i f hserve
    unfold Net.serve at hserve
    split at hserve
    · cases hserve
    · rename_i peer hpeer
      obtain ⟨sends, -, heq⟩ := Option.map_eq_some_iff.1 hserve
      obtain ⟨rfl, rfl⟩ := Prod.mk.inj heq
      refine ⟨fun l msg hmem => ?_, fun l d msg hmem => ?_, fun l msg hmem => ?_⟩
      · obtain ⟨send, -, hsend⟩ := List.mem_filterMap.1 hmem
        cases send <;> simp [Send.packet] at hsend
      · obtain ⟨send, -, hsend⟩ := List.mem_map.1 hmem
        cases hsend
      · obtain ⟨send, -, hsend⟩ := List.mem_map.1 hmem
        cases hsend
  cases packet with
  | msgDataReq i msg => cases hp
  | msgDataRsp i msg =>
    rw [Net.process] at hp
    exact hserve hp
  | route i msg =>
    obtain ⟨rfl, rfl⟩ := Prod.mk.inj (Option.some.inj hp)
    simp
  | broadcast i msg =>
    rw [Net.process] at hp
    exact hserve hp
  | groupInfoReq i req => cases hp
  | groupInfoRsp i req groupInfoList =>
    rw [Net.process] at hp
    exact hserve hp

/-- Nor does an answer, but for the message that it answers. -/
theorem answered_eq_some {answer : Option IMMsgData} (hanswer : ∀ i msg, packet = .msgDataReq i msg → Answers msg answer)
    (hp : Net.answered answer packet = some (packets, out)) :
    (∀ i msg, .msgDataReq i msg ∉ packets) ∧ (∀ i d msg, .asked i d msg ∉ out) ∧
      ∀ i msg, .accepted i msg ∈ out → ∃ req, packet = .msgDataReq i req ∧ msg = { req with msgId := msg.msgId } := by
  unfold Net.answered at hp
  split at hp
  · rename_i i req
    split at hp
    · obtain ⟨rfl, rfl⟩ := Prod.mk.inj (Option.some.inj hp)
      simp
    · rename_i msg
      obtain ⟨rfl, rfl⟩ := Prod.mk.inj (Option.some.inj hp)
      obtain ⟨⟨msgId, rfl⟩, -⟩ := hanswer i req rfl _ rfl
      refine ⟨by simp, fun l d m hmem => ?_, fun l m hmem => ?_⟩
      · split at hmem
        · cases hmem
        · cases List.mem_singleton.1 hmem
      · split at hmem
        · cases hmem
        · obtain ⟨rfl, rfl⟩ := Output.accepted.inj (List.mem_singleton.1 hmem)
          exact ⟨req, rfl, rfl⟩
  · cases hp

/-- Nor does an answer with members. -/
theorem listed_eq_some {groupInfoList : List GroupInfo} (hp : Net.listed groupInfoList packet = some (packets, out)) :
    (∀ i msg, .msgDataReq i msg ∉ packets) ∧ (∀ i d msg, .asked i d msg ∉ out) ∧ ∀ i msg, .accepted i msg ∉ out := by
  unfold Net.listed at hp
  split at hp
  · obtain ⟨rfl, rfl⟩ := Prod.mk.inj (Option.some.inj hp)
    simp
  · cases hp

/-- Every step keeps the accounts. -/
theorem Sound.step {e : Event} (hsound : Sound j c h u log n) (hok : Steady j c h u n e) (hs : n.step e = some (n', out)) :
    Sound j c h u (log ++ out) n' := by
  have hsame : Sound j c h u (log ++ []) n := by
    rw [List.append_nil]
    exact hsound
  cases e with
  | client i d now msg =>
    rcases client_eq_some hs with ⟨rfl, rfl⟩ | ⟨peer, conn, req, hpeer, hmap, hhandle, hreq, rfl, rfl⟩
    · exact hsame
    · exact hsound.client hpeer hmap hhandle hreq
  | change i peer =>
    simp only [Net.step] at hs
    split at hs
    · obtain ⟨rfl, rfl⟩ := Prod.mk.inj (Option.some.inj hs)
      rw [List.append_nil]
      exact hsound.change hok.1 hok.2
    · cases hs
  | arrive k =>
    refine hsound.take (fun hpacket hp => ?_) (fun _ hp => ?_) hs
    · exact balance_process hsound.connected (hsound.good _ (List.mem_of_getElem? hpacket)) hp
    · obtain ⟨hreq, hasked, haccepted⟩ := process_eq_some hp
      exact ⟨hreq, hasked, fun i msg hmem => absurd hmem (haccepted i msg)⟩
  | answer k answer =>
    have hanswers : ∀ {packet}, n.packets[k]? = some packet → ∀ i msg, packet = .msgDataReq i msg → Answers msg answer := by
      rintro packet hpacket i msg rfl
      obtain ⟨tr, hexec⟩ := hok i msg hpacket
      exact answers_of_exec hexec
    refine hsound.take (fun hpacket hp => ?_) (fun hpacket hp => answered_eq_some (hanswers hpacket) hp) hs
    exact balance_answered (hsound.good _ (List.mem_of_getElem? hpacket)) (hanswers hpacket) hp
  | groupInfo k groupInfoList =>
    refine hsound.take (fun hpacket hp => ?_) (fun _ hp => ?_) hs
    · exact balance_listed (hsound.good _ (List.mem_of_getElem? hpacket)) hok hp
    · obtain ⟨hreq, hasked, haccepted⟩ := listed_eq_some hp
      exact ⟨hreq, hasked, fun i msg hmem => absurd hmem (haccepted i msg)⟩

end DeliveryAux

open DeliveryAux

/-- What `_HandleClientMsgData` sends to the DB proxy. -/
theorem run_handleClientMsgData {s : Server} {c : ConnId} {conn : MsgConn} (hc : s.conns c = some conn) (hr : conn.refCount ≠ 0) (env : Env)
    {pdu : Pdu} {msg : IMMsgData} (hbody : pdu.body = .imMsgData msg) :
    ((handleClientMsgData env c pdu).run s).out =
      if s.getDbServConn then
        (clientMsgData conn env.now msg).toList.map fun req => .send c .db (pdu.setPBMsg (.imMsgData req))
      else [] := by
  simp only [handleClientMsgData, hbody, run_bind_ok (run_getConn hc hr), List.nil_append]
  by_cases hlen : msg.msgData.length = 0
  · have hreq : clientMsgData conn env.now msg = none := if_pos (.inl hlen)
    rw [if_pos hlen, hreq]
    exact (ite_self _).symm
  · rw [if_neg hlen]
    by_cases hcnt : conn.msgCntPerSec ≥ maxMsgCntPerSecond
    · have hreq : clientMsgData conn env.now msg = none := if_pos (.inr (.inl hcnt))
      rw [if_pos hcnt, hreq]
      exact (ite_self _).symm
    · rw [if_neg hcnt]
      by_cases hself : msg.fromUserId = msg.toSessionId ∧ checkMsgTypeSingle msg.msgType = true
      · have hreq : clientMsgData conn env.now msg = none := if_pos (.inr (.inr hself))
        rw [if_pos hself, hreq]
        exact (ite_self _).symm
      · have hreq : clientMsgData conn env.now msg =
            some { msg with fromUserId := conn.userId, createTime := env.now, attachData := conn.attach } := by
          rw [clientMsgData, if_neg]
          simp only [not_or]
          exact ⟨hlen, hcnt, hself⟩
        rw [if_neg hself, hreq, run_bind_ok (run_setConn _ _ _), run_sendDb]
        rfl

/-- In every run during which a connection stays open, it is never sent more than it is owed: each accepted message between two users that
its user sends or receives, but not its own; each message to a group for which its msg_server is told members with its user and the
sender among them, but not its own; and one acknowledgement for each of its own. Its msg_server is told the members for no group message
more than once. When no PDU is on its way, it has been sent exactly that, and its msg_server has been told the members for every message
to a group that was accepted, once, wherever the messages came from. An accepted message was sent by a client, and one that comes from
the user of the connection and has its handle, by the connection itself. -/
theorem messages_delivered {j h u : Nat} {c : ConnId} {start n : Net} {log : List Output} (hidle : start.packets = [])
    (hup : ∀ peer ∈ start.peers, peer.Up) (hopen : ∃ peer, start.peers[j]? = some peer ∧ peer.server.OpenFor c h u)
    (hrun : Machine.Run Net.step (Steady j c h u) start log n) :
    (∀ key, log.countP (Output.delivers j c key) ≤ log.countP (Output.owes j h u key)) ∧
      (∀ key, log.countP (Output.lists j key) ≤ log.countP (Output.toGroup key)) ∧
      (∀ ack, log.countP (Output.acks j c ack) ≤ log.countP (Output.owesAck j h u ack)) ∧
      (n.packets = [] → (∀ key, log.countP (Output.delivers j c key) = log.countP (Output.owes j h u key)) ∧
        (∀ key, log.countP (Output.lists j key) = log.countP (Output.toGroup key)) ∧
        ∀ ack, log.countP (Output.acks j c ack) = log.countP (Output.owesAck j h u ack)) ∧
      ∀ i msg, .accepted i msg ∈ log → ∃ d req, .asked i d req ∈ log ∧ msg = { req with msgId := msg.msgId } ∧
        (i = j → msg.fromUserId = u → attachHandle (msg.attachData.getD []) = some h → d = c) := by
  have hstart : Sound j c h u [] start := by
    refine ⟨⟨hup, hopen⟩, ?_, fun key => ?_, fun key => ?_, fun ack => ?_, ?_, ?_, ?_⟩
    · rw [hidle]
      exact fun _ hq => absurd hq List.not_mem_nil
    · rw [hidle]
      rfl
    · rw [hidle]
      rfl
    · rw [hidle]
      rfl
    · rw [hidle]
      exact fun _ _ hq => absurd hq List.not_mem_nil
    · exact fun _ _ hq => absurd hq List.not_mem_nil
    · exact fun _ _ hq => absurd hq List.not_mem_nil
  have hsound : Sound j c h u log n := hrun.invariant hstart fun hsound hok hs => hsound.step hok hs
  refine ⟨fun key => ?_, fun key => ?_, fun ack => ?_, fun hnone => ⟨fun key => ?_, fun key => ?_, fun ack => ?_⟩, fun i msg hmem => ?_⟩
  · exact Nat.le.intro (hsound.delivered key)
  · exact Nat.le.intro (hsound.listed key)
  · exact Nat.le.intro (hsound.acked ack)
  · have hall := hsound.delivered key
    rw [hnone, total_nil, Nat.add_zero] at hall
    exact hall
  · have hall := hsound.listed key
    rw [hnone, total_nil, Nat.add_zero] at hall
    exact hall
  · have hall := hsound.acked ack
    rw [hnone, total_nil, Nat.add_zero] at hall
    exact hall
  · obtain ⟨d, req, hasked, hmsg⟩ := hsound.accepted i msg hmem
    refine ⟨d, req, hasked, hmsg, ?_⟩
    rintro rfl hfrom hown
    rw [hmsg] at hfrom hown
    exact hsound.asked d req hasked hfrom hown

/-! ## A message to a group -/

/-- One server of each kind, and one of the route servers in use. -/
def networkUp : Backends := { allUp with masterRs := some 0 }

/-- The login is possible with them. -/
theorem carolLogsIn_runs : (Machine.steps Loop.step (Loop.init networkUp) carolLogsIn).isSome = true := by
  decide +kernel

/-- A result that is there, with its parts. -/
theorem eq_some_get {α : Type} {o : Option (α × List Effect)} (h : o.isSome = true) : o = some ((o.get h).1, (o.get h).2) := by
  cases o with
  | none => cases h
  | some a => rfl

/-- Carol is logged in. -/
@[irreducible] def carolsLoop : Loop × List Effect := (Machine.steps Loop.step (Loop.init networkUp) carolLogsIn).get carolLogsIn_runs

/-- The steps of her login, with where they lead to. -/
theorem steps_carolsLoop : Machine.steps Loop.step (Loop.init networkUp) carolLogsIn = some (carolsLoop.1, carolsLoop.2) := by
  rw [carolsLoop]
  exact eq_some_get carolLogsIn_runs

/-- They are a run, for the DB proxy answers as it should. -/
theorem run_carolsLoop :
    Machine.Run Loop.step (fun _ e => AnswersWith (fun _ => 7) e) (Loop.init networkUp) ([] ++ carolsLoop.2) carolsLoop.1 :=
  Machine.Run.of_steps_mem (fun e he _ => carolLogsIn_answers e he) .start steps_carolsLoop

/-- A msg_server where she is. -/
def carolsPeer : Peer := { MsgServer.ofRun (fun _ _ h => h) run_carolsLoop with linked := true }

/-- The msg_server is connected to all others, and her connection is open. -/
theorem carolsPeer_up : carolsPeer.Up ∧ (carolsPeer.server.conns 0).any fun conn =>
    conn.handle = 5 ∧ conn.userId = 7 ∧ conn.bOpen = true ∧ conn.msgCntPerSec = 0 ∧ carolsPeer.server.msgConnMap[5]? = some 0 := by
  refine ⟨⟨rfl, ?_, ?_⟩, ?_⟩ <;> decide +kernel

/-- She is logged in on two msg_servers. -/
def carolTwice : Net := ⟨[carolsPeer, carolsPeer], []⟩

/-- She says something to the group. -/
def carolSays : IMMsgData := ⟨7, 3, 0, 0, msgTypeGroupText, [104, 105], none⟩

/-- As it goes to the DB proxy. -/
def carolsReq : IMMsgData := { carolSays with attachData := some (dbAttachData attachTypeHandle 5 0) }

/-- The DB proxy stores it as message 1. -/
def storing : List (Prog.Entry DbProxy.calls) :=
  [⟨.time, 0⟩, ⟨.getConn .groupMember .other, some 0⟩, ⟨.cache ⟨.groupMember, 0⟩ .other (.isExists (.groupMember 3)), true⟩,
    ⟨.relConn ⟨.groupMember, 0⟩, ()⟩, ⟨.getConn .groupMember .other, some 0⟩,
    ⟨.cache ⟨.groupMember, 0⟩ .other (.hget (.groupMember 3) 7), "1"⟩, ⟨.relConn ⟨.groupMember, 0⟩, ()⟩,
    ⟨.getConn .slave .other, some 0⟩, ⟨.executeQuery ⟨.slave, 0⟩ .other (.sessionId 7 3 sessionTypeGroup false), some [4]⟩,
    ⟨.relConn ⟨.slave, 0⟩, ()⟩, ⟨.getConn .unread .other, some 0⟩, ⟨.cache ⟨.unread, 0⟩ .other (.incrBy (.groupMsgId 3) 1), (1 : Int)⟩,
    ⟨.relConn ⟨.unread, 0⟩, ()⟩, ⟨.getConn .groupMember .other, some 0⟩,
    ⟨.cache ⟨.groupMember, 0⟩ .other (.hget (.groupMember 3) 7), "1"⟩, ⟨.relConn ⟨.groupMember, 0⟩, ()⟩,
    ⟨.getConn .master .sendGroupMessage, some 0⟩,
    ⟨.executeUpdate ⟨.master, 0⟩ (.insertGroupMessage 3 7 1 [104, 105] msgTypeGroupText 0), some 9⟩, ⟨.getConn .master .other, none⟩,
    ⟨.getConn .unread .other, none⟩, ⟨.getConn .unread .other, none⟩, ⟨.relConn ⟨.master, 0⟩, ()⟩, ⟨.getConn .master .other, none⟩]

/-- These calls and answers are one of `sendMessage`. -/
theorem exec_storing : Prog.Exec (DbProxy.Actions.sendMessage carolsReq) storing (some (some { carolsReq with msgId := 1 })) :=
  Prog.Exec.of_result rfl rfl

/-- The message with its id. -/
def carolsMsg : IMMsgData := { carolsReq with msgId := 1 }

/-- The message is on its way to the DB proxy. -/
theorem step_client : carolTwice.step (.client 0 0 0 carolSays) =
    some ({ carolTwice with packets := [.msgDataReq 0 carolsReq] }, [.asked 0 0 carolsReq]) := by
  obtain ⟨⟨-, hdb, -⟩, hconn⟩ := carolsPeer_up
  obtain ⟨conn, hconn, hopen⟩ := (Option.any_eq_true ..).1 hconn
  obtain ⟨hhandle, huser, hbOpen, hcnt, hmap⟩ := of_decide_eq_true hopen
  have hreq : clientMsgData conn 0 carolSays = some carolsReq := by
    rw [clientMsgData, if_neg (by rw [hcnt]; decide), MsgConn.attach, huser, hhandle]
    rfl
  have hpeer : carolTwice.peers[0]? = some carolsPeer := rfl
  have hguard : conn.bOpen = true ∧ carolsPeer.server.msgConnMap[conn.handle]? = some 0 ∧ conn.handle < uint32Size := by
    rw [hhandle]
    exact ⟨hbOpen, hmap, by decide⟩
  simp only [Net.step, hpeer, hconn, if_pos hguard, hreq, if_pos hdb]
  rfl

/-- The members of group 3. -/
def twoInGroup : List GroupInfo := [⟨3, 1, "", "", 1, 1, 0, [1, 7]⟩]

/-- The rest of the way: the DB proxy has no connection when the first msg_server asks for the members, and one when the other does. -/
def restOfWay : List Event :=
  [.arrive 0, .arrive 0, .groupInfo 0 [], .arrive 0, .arrive 0, .groupInfo 0 twoInGroup, .arrive 0]

/-- Every event on the way meets the condition, in any state. -/
theorem steady_restOfWay (n : Net) : ∀ e ∈ restOfWay, Steady 1 0 5 7 n e := by
  intro e he
  simp only [restOfWay, List.mem_cons, List.not_mem_nil, or_false] at he
  rcases he with rfl | rfl | rfl | rfl | rfl | rfl | rfl
  · trivial
  · trivial
  · exact fun _ hinfo => absurd hinfo List.not_mem_nil
  · trivial
  · trivial
  · intro groupInfo hinfo
    rw [List.mem_singleton.1 hinfo]
    decide
  · trivial

/-- In the end nothing is on its way, and her other connection has the message. -/
theorem steps_restOfWay : (Machine.steps Net.step { carolTwice with packets := [.msgDataRsp 0 carolsMsg] } restOfWay).any
    fun (n, log) => n.packets = [] ∧ log.countP (Output.delivers 1 0 (plain carolsMsg)) = 1 := by
  decide +kernel

/-- It comes to her other connection, once, and its msg_server is told the members once. -/
theorem messages_delivered_carol : ∃ n log, Machine.Run Net.step (Steady 1 0 5 7) carolTwice log n ∧ n.packets = [] ∧
    log.countP (Output.delivers 1 0 (plain carolsMsg)) = 1 ∧ log.countP (Output.owes 1 5 7 (plain carolsMsg)) = 1 ∧
    log.countP (Output.lists 1 (plain carolsMsg)) = log.countP (Output.toGroup (plain carolsMsg)) := by
  obtain ⟨hup, hconn⟩ := carolsPeer_up
  obtain ⟨conn, hconn, hopen⟩ := (Option.any_eq_true ..).1 hconn
  obtain ⟨hhandle, huser, hbOpen, -, hmap⟩ := of_decide_eq_true hopen
  obtain ⟨⟨n, log⟩, hsteps, hall⟩ := (Option.any_eq_true ..).1 steps_restOfWay
  obtain ⟨hnone, hone⟩ := of_decide_eq_true hall
  have hasked : Machine.Run Net.step (Steady 1 0 5 7) carolTwice ([] ++ [.asked 0 0 carolsReq])
      { carolTwice with packets := [.msgDataReq 0 carolsReq] } :=
    .step (e := .client 0 0 0 carolSays) .start trivial step_client
  have haccepted : Machine.Run Net.step (Steady 1 0 5 7) carolTwice ([] ++ [.asked 0 0 carolsReq] ++ [.accepted 0 carolsMsg])
      { carolTwice with packets := [.msgDataRsp 0 carolsMsg] } := by
    refine .step (e := .answer 0 (some carolsMsg)) hasked ?_ rfl
    intro i msg hmsg
    obtain ⟨rfl, rfl⟩ := Packet.msgDataReq.inj (Option.some.inj hmsg)
    exact ⟨storing, exec_storing⟩
  have hrun := Machine.Run.of_steps_mem (fun e he n => steady_restOfWay n e he) haccepted hsteps
  obtain ⟨-, -, -, hsettled, -⟩ := messages_delivered rfl (fun peer hpeer => by
    rcases List.mem_cons.1 hpeer with rfl | hpeer
    · exact hup
    · rw [List.mem_singleton.1 hpeer]
      exact hup) ⟨carolsPeer, rfl, conn, hconn, hhandle, huser, hbOpen, hmap⟩ hrun
  have hdelivered : _ = 1 := ((hsettled hnone).1 (plain carolsMsg)).symm.trans (by simpa [Output.delivers] using hone)
  exact ⟨n, _, hrun, hnone, (hsettled hnone).1 _ |>.trans hdelivered, hdelivered, (hsettled hnone).2.1 _⟩

/-! ## Messages settle -/

/-- A PDU is taken. -/
def Event.takes : Event → Bool
  | .arrive _ | .answer _ _ | .groupInfo _ _ => true
  | .client _ _ _ _ | .change _ _ => false

/-- A client's message goes to the DB proxy. -/
def Output.isAsked : Output → Bool
  | .asked _ _ _ => true
  | .accepted _ _ | .members _ _ _ | .sent _ _ => false

/-- The DB proxy answers as `sendMessage` does; everything else may happen. -/
def Regular (n : Net) : Event → Prop
  | .answer k answer =>
    ∀ i msg, n.packets[k]? = some (.msgDataReq i msg) → ∃ tr, Prog.Exec (DbProxy.Actions.sendMessage msg) tr (some answer)
  | _ => True

/-- The PDU can be taken: it can arrive, or the DB proxy can answer it, whatever the answer is. -/
def Net.Ready (n : Net) (k : Nat) : Packet → Prop
  | .msgDataReq _ _ => ∀ answer, (n.step (.answer k answer)).isSome = true
  | .groupInfoReq _ _ => ∀ groupInfoList, (n.step (.groupInfo k groupInfoList)).isSome = true
  | _ => (n.step (.arrive k)).isSome = true

namespace SettleAux

variable {s : Server} {n n' : Net} {i k servers : Nat} {msg : IMMsgData} {packet : Packet} {packets : List Packet} {out : List Output}

/-- How many PDUs come of a PDU, with itself, among so many msg_servers. -/
def rank (servers : Nat) : Packet → Nat
  | .msgDataReq _ _ => 3 * servers + 2
  | .msgDataRsp _ _ => 3 * servers + 1
  | .route _ _ => 3 * servers - 2
  | .broadcast _ _ => 3
  | .groupInfoReq _ _ => 2
  | .groupInfoRsp _ _ _ => 1

/-- How many PDUs come of what is sent. -/
def cost (servers : Nat) : Send → Nat
  | .route _ => 3 * servers - 2
  | .groupInfo _ => 2
  | .ack _ _ | .client _ _ | .deviceToken _ _ | .shield _ _ _ => 0

/-- The msg_server that a PDU comes from or goes to. -/
def peerOf : Packet → Nat
  | .msgDataReq i _ | .msgDataRsp i _ | .route i _ | .broadcast i _ | .groupInfoReq i _ | .groupInfoRsp i _ _ => i

/-- A message that the DB proxy answers, or has answered, has a handle attached. -/
def HasHandle : Packet → Prop
  | .msgDataReq _ msg | .msgDataRsp _ msg => (attachHandle (msg.attachData.getD [])).isSome = true
  | _ => True

/-! ### What handlers send -/

/-- What is sent to another server stands for as many PDUs as it costs. -/
theorem packet_eq_some (servers : Nat) {linked : Bool} {send : Send} (h : send.packet i linked = some packet) :
    peerOf packet = i ∧ HasHandle packet ∧ rank servers packet = cost servers send := by
  cases send with
  | route msg =>
    rw [Send.packet] at h
    split at h
    · obtain rfl := Option.some.inj h
      exact ⟨rfl, trivial, rfl⟩
    · cases h
  | groupInfo req =>
    obtain rfl := Option.some.inj h
    exact ⟨rfl, trivial, rfl⟩
  | ack c msg => cases h
  | client c msg => cases h
  | deviceToken userId msg => cases h
  | shield groupId userIds msg => cases h

/-- The PDUs that come of what is sent are paid for. -/
theorem total_packets_le (linked : Bool) (sends : List Send) :
    total (rank servers) (sends.filterMap (Send.packet i linked)) ≤ total (cost servers) sends := by
  induction sends with
  | nil => exact Nat.le_refl 0
  | cons send sends ih =>
    rw [List.filterMap_cons, total_cons]
    cases hpacket : send.packet i linked with
    | none => exact Nat.le_add_left_of_le ih
    | some packet =>
      simp only [total_cons]
      have hrank := (packet_eq_some servers hpacket).2.2
      omega

/-- An acknowledgement costs nothing. -/
theorem cost_sendAck (handle : Nat) : total (cost servers) (sendAck s msg handle) = 0 := by
  refine total_eq_zero _ fun send hsend => ?_
  obtain ⟨c, -, rfl⟩ := List.mem_map.1 hsend
  rfl

/-- Nor does what is sent to clients. -/
theorem cost_broadcastUser (userId : Nat) (fromConn : Option ConnId) :
    total (cost servers) (broadcastUser s userId fromConn msg) = 0 := by
  refine total_eq_zero _ fun send hsend => ?_
  obtain ⟨c, -, rfl⟩ := List.mem_map.1 hsend
  rfl

/-- A message for the route server comes to all other msg_servers, where three PDUs come of it. -/
theorem cost_sendRoute : total (cost servers) (sendRoute s msg) ≤ 3 * servers - 2 := by
  rw [sendRoute]
  cases s.getRouteServConn with
  | none => exact Nat.zero_le _
  | some l => simp [cost]

/-- A request for members is answered, if there is a DB proxy. -/
theorem cost_requestGroupInfo (handle : Nat) : total (cost servers) (requestGroupInfo s msg handle) ≤ 2 := by
  rw [requestGroupInfo]
  split <;> simp [cost]

/-- What comes of an answer to a message, at most. -/
theorem cost_handleMsgData (servers : Nat) {sends : List Send} (h : handleMsgData s msg = some sends) :
    total (cost servers) sends ≤ 3 * servers - 2 + 2 := by
  have hroute : total (cost servers) (sendRoute s msg) ≤ 3 * servers - 2 := cost_sendRoute
  unfold handleMsgData handleGroupMessage at h
  split at h
  · split at h
    · obtain rfl := Option.some.inj h
      exact Nat.zero_le _
    · obtain ⟨handle, -, rfl⟩ := Option.map_eq_some_iff.1 h
      have hask : total (cost servers) (requestGroupInfo s msg handle) ≤ 2 := cost_requestGroupInfo handle
      rw [total_append, total_append, cost_sendAck]
      omega
  · split at h
    · obtain rfl := Option.some.inj h
      exact Nat.zero_le _
    · obtain ⟨handle, -, rfl⟩ := Option.map_eq_some_iff.1 h
      simp only [total_append, total_singleton, cost_sendAck, cost_broadcastUser, cost]
      omega

/-- What comes of a message from the route server, at most. -/
theorem cost_handleRouteMsgData : total (cost servers) (handleRouteMsgData s msg) ≤ 2 := by
  rw [handleRouteMsgData]
  split
  · exact cost_requestGroupInfo 0
  · simp only [total_append, cost_broadcastUser]
    omega

/-- Nothing comes of an answer with members. -/
theorem cost_handleGroupInfoResponse (req : GroupInfoReq) (infos : List GroupInfo) :
    total (cost servers) (handleGroupInfoResponse s req infos) = 0 := by
  cases infos with
  | nil => rfl
  | cons groupInfo rest =>
    rw [handleGroupInfoResponse]
    split
    · rw [total_append]
      have hclients : total (cost servers) (groupInfo.groupMemberList.flatMap fun memberUserId => broadcastUser s memberUserId
          (if memberUserId = req.userId ∧ req.handle ≠ 0 then s.getMsgConnByHandle req.userId req.handle else none) req.msg) = 0 := by
        refine total_eq_zero _ fun send hsend => ?_
        obtain ⟨memberUserId, -, hsend⟩ := List.mem_flatMap.1 hsend
        obtain ⟨c, -, rfl⟩ := List.mem_map.1 hsend
        rfl
      rw [hclients]
      split <;> simp [cost]
    · rfl

/-- An answer with a handle can be handled. -/
theorem handleMsgData_isSome (h : (attachHandle (msg.attachData.getD [])).isSome = true) : (handleMsgData s msg).isSome = true := by
  unfold handleMsgData handleGroupMessage
  split <;> split <;> simp [h]

/-! ### One PDU -/

/-- What comes of a PDU that is taken: fewer PDUs than it stood for, of msg_servers that there are, and no message of a client. -/
structure Settles (n : Net) (packet : Packet) (packets : List Packet) (out : List Output) : Prop where
  lower : total (rank n.peers.length) packets < rank n.peers.length packet
  inRange : ∀ q ∈ packets, peerOf q < n.peers.length
  quiet : out.countP Output.isAsked = 0

/-- A handler that sends less than its PDU stands for. -/
theorem settles_serve {f : Server → Option (List Send)}
    (hcost : ∀ {s sends}, f s = some sends → total (cost n.peers.length) sends < rank n.peers.length packet)
    (hserve : n.serve i f = some (packets, out)) : Settles n packet packets out ∧ ∀ q ∈ packets, HasHandle q := by
  unfold Net.serve at hserve
  split at hserve
  · cases hserve
  · rename_i peer hpeer
    obtain ⟨sends, hsends, heq⟩ := Option.map_eq_some_iff.1 hserve
    obtain ⟨rfl, rfl⟩ := Prod.mk.inj heq
    obtain ⟨hi, -⟩ := List.getElem?_eq_some_iff.1 hpeer
    refine ⟨⟨(total_packets_le peer.linked sends).trans_lt (hcost hsends), fun q hq => ?_, ?_⟩, fun q hq => ?_⟩
    · obtain ⟨send, -, hsend⟩ := List.mem_filterMap.1 hq
      rw [(packet_eq_some 0 hsend).1]
      exact hi
    · rw [List.countP_eq_zero]
      intro o ho
      obtain ⟨send, -, rfl⟩ := List.mem_map.1 ho
      exact Bool.false_ne_true
    · obtain ⟨send, -, hsend⟩ := List.mem_filterMap.1 hq
      exact (packet_eq_some 0 hsend).2.1

/-- The route server does not send a message back. -/
theorem length_others_lt (hi : i < n.peers.length) : (n.others i).length < n.peers.length := by
  have hless : (n.others i).length < (List.range n.peers.length).length :=
    List.length_filter_lt_length_iff_exists.2 ⟨i, List.mem_range.2 hi, by simp⟩
  rwa [List.length_range] at hless

/-- Every PDU that arrives stands for more than what comes of it. -/
theorem settles_process (hi : peerOf packet < n.peers.length) (hp : n.process packet = some (packets, out)) :
    Settles n packet packets out ∧ ∀ q ∈ packets, HasHandle q := by
  cases packet with
  | msgDataReq i msg => cases hp
  | msgDataRsp i msg =>
    rw [Net.process] at hp
    refine settles_serve (fun h => ?_) hp
    have hle := cost_handleMsgData n.peers.length h
    have hpos : 0 < n.peers.length := Nat.zero_lt_of_lt hi
    simp only [rank]
    omega
  | route i msg =>
    obtain ⟨rfl, rfl⟩ := Prod.mk.inj (Option.some.inj hp)
    have hlt := length_others_lt (i := i) hi
    have htotal : total (rank n.peers.length) ((n.others i).map fun l => Packet.broadcast l msg) = 3 * (n.others i).length := by
      simp [total, Function.comp_def, rank, Nat.mul_comm]
    refine ⟨⟨?_, fun q hq => ?_, rfl⟩, fun q hq => ?_⟩
    · rw [htotal]
      simp only [rank]
      omega
    · obtain ⟨l, hl, rfl⟩ := List.mem_map.1 hq
      exact List.mem_range.1 (List.mem_of_mem_filter hl)
    · obtain ⟨l, -, rfl⟩ := List.mem_map.1 hq
      trivial
  | broadcast i msg =>
    rw [Net.process] at hp
    refine settles_serve (fun h => ?_) hp
    obtain rfl := Option.some.inj h
    exact Nat.lt_succ_of_le cost_handleRouteMsgData
  | groupInfoReq i req => cases hp
  | groupInfoRsp i req infos =>
    rw [Net.process] at hp
    refine settles_serve (fun h => ?_) hp
    obtain rfl := Option.some.inj h
    rw [cost_handleGroupInfoResponse]
    exact Nat.zero_lt_one

/-- So does a message that the DB proxy answers. -/
theorem settles_answered {answer : Option IMMsgData} (hi : peerOf packet < n.peers.length)
    (hp : Net.answered answer packet = some (packets, out)) : Settles n packet packets out := by
  unfold Net.answered at hp
  split at hp
  · rename_i i msg
    split at hp
    · obtain ⟨rfl, rfl⟩ := Prod.mk.inj (Option.some.inj hp)
      exact ⟨Nat.zero_lt_succ _, fun _ hq => absurd hq List.not_mem_nil, rfl⟩
    · rename_i answered
      obtain ⟨rfl, rfl⟩ := Prod.mk.inj (Option.some.inj hp)
      refine ⟨by simp [rank], fun q hq => ?_, ?_⟩
      · rw [List.mem_singleton.1 hq]
        exact hi
      · split <;> rfl
  · cases hp

/-- And a request for members. -/
theorem settles_listed {groupInfoList : List GroupInfo} (hi : peerOf packet < n.peers.length)
    (hp : Net.listed groupInfoList packet = some (packets, out)) : Settles n packet packets out ∧ ∀ q ∈ packets, HasHandle q := by
  unfold Net.listed at hp
  split at hp
  · obtain ⟨rfl, rfl⟩ := Prod.mk.inj (Option.some.inj hp)
    refine ⟨⟨by simp [rank], fun q hq => ?_, rfl⟩, fun q hq => ?_⟩
    · rw [List.mem_singleton.1 hq]
      exact hi
    · rw [List.mem_singleton.1 hq]
      trivial
  · cases hp

/-- The DB proxy's answer has the handle of the message. -/
theorem hasHandle_answered {answer : Option IMMsgData} (hhandle : HasHandle packet)
    (hanswer : ∀ i msg, packet = .msgDataReq i msg → Answers msg answer) (hp : Net.answered answer packet = some (packets, out)) :
    ∀ q ∈ packets, HasHandle q := by
  unfold Net.answered at hp
  split at hp
  · rename_i i msg
    split at hp
    · obtain ⟨rfl, rfl⟩ := Prod.mk.inj (Option.some.inj hp)
      exact fun q hq => absurd hq List.not_mem_nil
    · rename_i answered
      obtain ⟨rfl, rfl⟩ := Prod.mk.inj (Option.some.inj hp)
      obtain ⟨⟨msgId, rfl⟩, -⟩ := hanswer i msg rfl _ rfl
      intro q hq
      rw [List.mem_singleton.1 hq]
      exact hhandle
  · cases hp

/-! ### The network -/

/-- Every PDU is one of a msg_server that there is. -/
structure InRange (servers : Nat) (n : Net) : Prop where
  peers : n.peers.length = servers
  packets : ∀ packet ∈ n.packets, peerOf packet < servers

/-- A step in which a PDU is taken. -/
theorem InRange.take {f : Packet → Option (List Packet × List Output)} (hn : InRange servers n)
    (hf : ∀ {packet packets out}, peerOf packet < n.peers.length → f packet = some (packets, out) → Settles n packet packets out)
    (hs : n.take k f = some (n', out)) :
    InRange servers n' ∧
      1 + total (rank servers) n'.packets ≤ total (rank servers) n.packets + (3 * servers + 2) * out.countP Output.isAsked := by
  obtain ⟨packet, packets, hpacket, hfp, rfl⟩ := take_eq_some hs
  obtain ⟨hpeers, hpackets⟩ := hn
  subst hpeers
  obtain ⟨hlower, hrange, hquiet⟩ := hf (hpackets packet (List.mem_of_getElem? hpacket)) hfp
  refine ⟨⟨rfl, fun q hq => ?_⟩, ?_⟩
  · rcases List.mem_append.1 hq with hq | hq
    · exact hpackets q (List.mem_of_mem_eraseIdx hq)
    · exact hrange q hq
  · have herase := total_eraseIdx (rank n.peers.length) hpacket
    rw [total_append, hquiet]
    omega

/-- A step pays for a PDU that it takes, and a client's message adds what it leads to. -/
theorem InRange.step {e : Event} (hn : InRange servers n) (hs : n.step e = some (n', out)) :
    InRange servers n' ∧
      e.takes.toNat + total (rank servers) n'.packets ≤ total (rank servers) n.packets + (3 * servers + 2) * out.countP Output.isAsked := by
  cases e with
  | client i c now msg =>
    rcases client_eq_some hs with ⟨rfl, rfl⟩ | ⟨peer, conn, req, hpeer, -, -, -, rfl, rfl⟩
    · exact ⟨hn, by simp [Event.takes]⟩
    · obtain ⟨hi, -⟩ := List.getElem?_eq_some_iff.1 hpeer
      refine ⟨⟨hn.peers, fun q hq => ?_⟩, ?_⟩
      · rcases List.mem_append.1 hq with hq | hq
        · exact hn.packets q hq
        · rw [List.mem_singleton.1 hq]
          exact hn.peers ▸ hi
      · rw [total_append, total_singleton]
        simp [Event.takes, Output.isAsked, rank]
  | change i peer =>
    simp only [Net.step] at hs
    split at hs
    · obtain ⟨rfl, rfl⟩ := Prod.mk.inj (Option.some.inj hs)
      exact ⟨⟨(List.length_set ..).trans hn.peers, hn.packets⟩, by simp [Event.takes]⟩
    · cases hs
  | arrive k => exact hn.take (fun hi hp => (settles_process hi hp).1) hs
  | answer k answer => exact hn.take settles_answered hs
  | groupInfo k groupInfoList => exact hn.take (fun hi hp => (settles_listed hi hp).1) hs

/-- What the DB proxy answers as it does keeps the handles. -/
theorem hasHandle_step {e : Event} (hn : InRange servers n) (hhandles : ∀ packet ∈ n.packets, HasHandle packet) (hok : Regular n e)
    (hs : n.step e = some (n', out)) : ∀ packet ∈ n'.packets, HasHandle packet := by
  cases e with
  | client i c now msg =>
    rcases client_eq_some hs with ⟨rfl, -⟩ | ⟨peer, conn, req, -, -, hhandle, hreq, rfl, -⟩
    · exact hhandles
    · intro q hq
      rcases List.mem_append.1 hq with hq | hq
      · exact hhandles q hq
      · rw [List.mem_singleton.1 hq]
        exact Option.isSome_iff_exists.2 ⟨_, (clientMsgData_eq_some hreq hhandle).2⟩
  | change i peer =>
    simp only [Net.step] at hs
    split at hs
    · obtain ⟨rfl, rfl⟩ := Prod.mk.inj (Option.some.inj hs)
      exact hhandles
    · cases hs
  | arrive k =>
    obtain ⟨packet, packets, hpacket, hp, rfl⟩ := take_eq_some hs
    intro q hq
    rcases List.mem_append.1 hq with hq | hq
    · exact hhandles q (List.mem_of_mem_eraseIdx hq)
    · exact (settles_process (hn.peers ▸ hn.packets packet (List.mem_of_getElem? hpacket)) hp).2 q hq
  | answer k answer =>
    obtain ⟨packet, packets, hpacket, hp, rfl⟩ := take_eq_some hs
    intro q hq
    rcases List.mem_append.1 hq with hq | hq
    · exact hhandles q (List.mem_of_mem_eraseIdx hq)
    · refine hasHandle_answered (hhandles packet (List.mem_of_getElem? hpacket)) ?_ hp q hq
      rintro i msg rfl
      obtain ⟨tr, hexec⟩ := hok i msg hpacket
      exact answers_of_exec hexec
  | groupInfo k groupInfoList =>
    obtain ⟨packet, packets, hpacket, hp, rfl⟩ := take_eq_some hs
    intro q hq
    rcases List.mem_append.1 hq with hq | hq
    · exact hhandles q (List.mem_of_mem_eraseIdx hq)
    · exact (settles_listed (hn.peers ▸ hn.packets packet (List.mem_of_getElem? hpacket)) hp).2 q hq

/-- Every PDU under way can be taken. -/
theorem InRange.ready (hn : InRange servers n) (hhandles : ∀ packet ∈ n.packets, HasHandle packet) (hk : n.packets[k]? = some packet) :
    n.Ready k packet := by
  have hmem := List.mem_of_getElem? hk
  have hpeer : ∃ peer, n.peers[peerOf packet]? = some peer :=
    ⟨_, List.getElem?_eq_getElem (hn.peers ▸ hn.packets packet hmem)⟩
  obtain ⟨peer, hpeer⟩ := hpeer
  cases packet with
  | msgDataReq i msg =>
    intro answer
    cases answer <;> simp [Net.step, Net.take, hk, Net.answered]
  | msgDataRsp i msg =>
    have hsome := handleMsgData_isSome (s := peer.server) (hhandles _ hmem)
    simp only [peerOf] at hpeer
    simp [Net.Ready, Net.step, Net.take, hk, Net.process, Net.serve, hpeer, hsome]
  | route i msg => simp [Net.Ready, Net.step, Net.take, hk, Net.process]
  | broadcast i msg =>
    simp only [peerOf] at hpeer
    simp [Net.Ready, Net.step, Net.take, hk, Net.process, Net.serve, hpeer]
  | groupInfoReq i req =>
    intro groupInfoList
    simp [Net.step, Net.take, hk, Net.listed]
  | groupInfoRsp i req infos =>
    simp only [peerOf] at hpeer
    simp [Net.Ready, Net.step, Net.take, hk, Net.process, Net.serve, hpeer]

end SettleAux

open SettleAux

/-- Whatever the msg_servers do and whichever servers are connected: a PDU that is on its way can always be taken next; and from then on no
more PDUs are taken, in any order, than `3 * servers + 2` for each message that a client has sent. -/
theorem messages_settle {start n : Net} {log : List Output} (hidle : start.packets = []) (hrun : Machine.Run Net.step Regular start log n) :
    (∀ k packet, n.packets[k]? = some packet → n.Ready k packet) ∧
      ∀ es n' out, Machine.steps Net.step n es = some (n', out) →
        es.countP Event.takes ≤ (3 * start.peers.length + 2) * (log ++ out).countP Output.isAsked := by
  have hinv : InRange start.peers.length n ∧ (∀ packet ∈ n.packets, HasHandle packet) ∧
      total (rank start.peers.length) n.packets ≤ (3 * start.peers.length + 2) * log.countP Output.isAsked := by
    refine hrun.invariant (I := fun log n => InRange start.peers.length n ∧ (∀ packet ∈ n.packets, HasHandle packet) ∧
      total (rank start.peers.length) n.packets ≤ (3 * start.peers.length + 2) * log.countP Output.isAsked) ?_ ?_
    · rw [hidle]
      exact ⟨⟨rfl, by simp [hidle]⟩, by simp, by simp⟩
    · rintro log n e n' out ⟨hn, hhandles, hle⟩ hok hs
      obtain ⟨hn', hpays⟩ := hn.step hs
      refine ⟨hn', hasHandle_step hn hhandles hok hs, ?_⟩
      rw [List.countP_append, Nat.mul_add]
      omega
  obtain ⟨hn, hhandles, hle⟩ := hinv
  refine ⟨fun k packet hk => hn.ready hhandles hk, fun es n' out hsteps => ?_⟩
  have hpaid : es.countP Event.takes + total (rank start.peers.length) n'.packets ≤
      total (rank start.peers.length) n.packets + (3 * start.peers.length + 2) * out.countP Output.isAsked := by
    refine Machine.countP_add_le (I := InRange start.peers.length) (fun n => total (rank start.peers.length) n.packets) ?_ ?_ hn hsteps
    · exact fun hn hs => (hn.step hs).1
    · exact fun hn hs => (hn.step hs).2
  rw [List.countP_append, Nat.mul_add]
  omega

/-- With two msg_servers, a message to a group takes the eight. -/
theorem messages_settle_carol : ∃ n, n.packets.length = 1 ∧
    (∃ n' out, Machine.steps Net.step n (.answer 0 (some carolsMsg) :: restOfWay) = some (n', out) ∧ n'.packets = []) ∧
    ∀ es n' out, Machine.steps Net.step n es = some (n', out) → es.countP Event.takes ≤ 8 * (1 + out.countP Output.isAsked) := by
  have hasked : Machine.Run Net.step Regular carolTwice ([] ++ [.asked 0 0 carolsReq])
      { carolTwice with packets := [.msgDataReq 0 carolsReq] } :=
    .step (e := .client 0 0 0 carolSays) .start trivial step_client
  obtain ⟨⟨n, log⟩, hsteps, hall⟩ := (Option.any_eq_true ..).1 steps_restOfWay
  refine ⟨{ carolTwice with packets := [.msgDataReq 0 carolsReq] }, rfl,
    ⟨n, [.accepted 0 carolsMsg] ++ log, ?_, (of_decide_eq_true hall).1⟩, fun es n' out hes => ?_⟩
  · rw [Machine.steps]
    simp only [show Net.step { carolTwice with packets := [.msgDataReq 0 carolsReq] } (.answer 0 (some carolsMsg)) =
      some ({ carolTwice with packets := [.msgDataRsp 0 carolsMsg] }, [.accepted 0 carolsMsg]) from rfl, hsteps]
  · have hle := (messages_settle rfl hasked).2 es n' out hes
    rw [List.countP_append] at hle
    exact hle

end TeamTalk.Delivery
