import TeamTalk.DbProxy.Actions

/-!
# Reading messages

The handlers of the DB proxy that read messages, with the functions of the models that they call, on the tables of messages and
relations and the members in the cache. No storage call fails.
-/

namespace TeamTalk.DbProxy.Content

/-- A row of `IMMessage_0` to `IMMessage_7`, or of the tables of group messages, where `relateId` is the group. -/
structure Message where
  id : Nat
  relateId : Nat
  msgId : Nat
  fromId : Nat
  created : Nat
  type : Nat
  status : Nat
  content : String
  deriving DecidableEq, Repr

/-- A row of `IMRelationShip`. -/
structure Relation where
  id : Nat
  smallId : Nat
  bigId : Nat
  status : Nat
  deriving DecidableEq, Repr

/-- The tables, by the end of their names; the hash `group_member_` of each group, from a user to his join time; and what
`readAudioContent` makes of the id of an audio message. -/
structure Store where
  relations : List Relation
  messages : Nat → List Message
  groupMessages : Nat → List Message
  groupMember : Nat → Nat → Option Nat
  audio : String → String

/-- `IM::BaseDefine::MsgInfo`. -/
structure MsgInfo where
  msgId : Nat
  fromSessionId : Nat
  createTime : Nat
  msgType : Nat
  msgData : String
  deriving DecidableEq, Repr

/-! ## Queries -/

/-- `order by created desc, id desc`. -/
def Message.Before (a b : Message) : Prop := b.created < a.created ∨ b.created = a.created ∧ b.id ≤ a.id

instance (a b : Message) : Decidable (a.Before b) := inferInstanceAs (Decidable (_ ∨ _))

def orderBy (rows : List Message) : List Message := rows.mergeSort fun a b => a.Before b

/-- The rows of a result whose type is valid. -/
def msgInfos (rows : List Message) : List MsgInfo :=
  rows.filterMap fun row =>
    if Actions.msgTypeIsValid row.type then
      some { msgId := row.msgId, fromSessionId := row.fromId, createTime := row.created, msgType := row.type,
             msgData := row.content }
    else none

/-- `CAudioModel::readAudios`. -/
def readAudios (s : Store) (lsMsg : List MsgInfo) : List MsgInfo :=
  lsMsg.map fun msg =>
    if msg.msgType = msgTypeGroupAudio ∨ msg.msgType = msgTypeSingleAudio then { msg with msgData := s.audio msg.msgData } else msg

/-- `CRelationModel::getRelationId`, without adding one. -/
def getRelationId (s : Store) (userAId userBId : Nat) : Nat :=
  if userAId = 0 ∨ userBId = 0 then 0
  else
    let bigId := if userAId > userBId then userAId else userBId
    let smallId := if userAId > userBId then userBId else userAId
    lastRow (some ((s.relations.filter fun row => row.smallId = smallId ∧ row.bigId = bigId ∧ row.status = 0).map Relation.id))

/-- `CGroupModel::isInGroup`. -/
def isInGroup (s : Store) (userId groupId : Nat) : Bool := (s.groupMember groupId userId).isSome

/-- `CGroupModel::getUserJoinTime`. -/
def getUserJoinTime (s : Store) (groupId userId : Nat) : Nat := (s.groupMember groupId userId).getD 0

/-- The messages of two users. -/
def singleRows (s : Store) (relateId : Nat) : List Message :=
  (s.messages (relateId % 8)).filter fun row => row.relateId = relateId

/-- The messages of a group. -/
def groupRows (s : Store) (groupId : Nat) : List Message :=
  (s.groupMessages (groupId % 8)).filter fun row => row.relateId = groupId

/-- Some visible rows, the newest first. -/
def select (s : Store) (rows : List Message) (cond : Message → Bool) (limit : Nat) : List MsgInfo :=
  readAudios s (msgInfos ((orderBy (rows.filter fun row => row.status = 0 ∧ cond row)).take limit))

/-! ## `CMessageModel` -/

/-- `CMessageModel::getMessage`. -/
def getMessage (s : Store) (userId peerId msgId msgCnt : Nat) : List MsgInfo :=
  let relateId := getRelationId s userId peerId
  if relateId ≠ 0 then
    if msgId = 0 then select s (singleRows s relateId) (fun _ => true) msgCnt
    else select s (singleRows s relateId) (fun row => row.msgId ≤ msgId) msgCnt
  else []

/-- `CMessageModel::getMsgByMsgId`. -/
def getMsgByMsgId (s : Store) (userId peerId : Nat) (lsMsgId : List Nat) : List MsgInfo :=
  if lsMsgId = [] then []
  else
    let relateId := getRelationId s userId peerId
    if relateId = 0 then [] else select s (singleRows s relateId) (fun row => row.msgId ∈ lsMsgId) 100

/-- The newest visible row, from which both `getLastMsg` fill their variables. -/
def lastRowOf (rows : List Message) : Option Message := (orderBy (rows.filter fun row => row.status = 0)).head?

/-- `CMessageModel::getLastMsg`; `none` when the variables stay as they are. -/
def getLastMsg (s : Store) (fromId toId : Nat) : Option Message :=
  let relateId := getRelationId s fromId toId
  if relateId ≠ 0 then lastRowOf (singleRows s relateId) else none

/-! ## `CGroupMessageModel` -/

/-- `CGroupMessageModel::getMessage`. -/
def getGroupMessage (s : Store) (userId groupId msgId msgCnt : Nat) : List MsgInfo :=
  let updated := getUserJoinTime s groupId userId
  if msgId = 0 then select s (groupRows s groupId) (fun row => updated ≤ row.created) msgCnt
  else select s (groupRows s groupId) (fun row => row.msgId ≤ msgId ∧ updated ≤ row.created) msgCnt

/-- `CGroupMessageModel::getMsgByMsgId`. -/
def getGroupMsgByMsgId (s : Store) (userId groupId : Nat) (lsMsgId : List Nat) : List MsgInfo :=
  if lsMsgId ≠ [] then
    if isInGroup s userId groupId then
      let updated := getUserJoinTime s groupId userId
      select s (groupRows s groupId) (fun row => row.msgId ∈ lsMsgId ∧ updated ≤ row.created) 100
    else []
  else []

/-- `CGroupMessageModel::getLastMsg`; `none` when the variables stay as they are. -/
def getGroupLastMsg (s : Store) (groupId : Nat) : Option Message := lastRowOf (groupRows s groupId)

/-! ## The handlers -/

/-- A request to read messages. -/
inductive ReadReq where
  | getMessage (userId sessionId msgIdBegin msgCnt sessionType : Nat) (attachData : Bytes)
  | getMessageById (userId sessionType sessionId : Nat) (msgIdList : List Nat) (attachData : Bytes)
  | getLatestMsgId (userId sessionType sessionId : Nat) (attachData : Bytes)
  deriving DecidableEq, Repr

/-- A response. -/
inductive ReadRsp where
  | msgList (userId sessionId msgIdBegin sessionType : Nat) (msgList : List MsgInfo) (attachData : Bytes)
  | msgById (userId sessionId sessionType : Nat) (msgList : List MsgInfo) (attachData : Bytes)
  | latestMsgId (userId sessionType sessionId latestMsgId : Nat) (attachData : Bytes)
  deriving DecidableEq, Repr

/-- The user of a request. -/
def ReadReq.userId : ReadReq → Nat
  | getMessage userId .. | getMessageById userId .. | getLatestMsgId userId .. => userId

/-- `DB_PROXY::getMessage`: the messages. -/
def getMessageList (s : Store) (userId sessionId msgIdBegin msgCnt sessionType : Nat) : List MsgInfo :=
  if sessionType = sessionTypeSingle then getMessage s userId sessionId msgIdBegin msgCnt
  else if sessionType = sessionTypeGroup then
    if isInGroup s userId sessionId then getGroupMessage s userId sessionId msgIdBegin msgCnt else []
  else []

/-- `DB_PROXY::getMessageById`: the messages. -/
def getMessageByIdList (s : Store) (userId sessionType sessionId : Nat) (lsMsgId : List Nat) : List MsgInfo :=
  if sessionType = sessionTypeSingle then getMsgByMsgId s userId sessionId lsMsgId
  else getGroupMsgByMsgId s userId sessionId lsMsgId

/-- `DB_PROXY::getLatestMsgId`: the id. -/
def getLatestId (s : Store) (userId sessionType sessionId : Nat) : Nat :=
  if sessionType = sessionTypeSingle then ((getLastMsg s userId sessionId).map Message.msgId).getD 0
  else ((getGroupLastMsg s sessionId).map Message.msgId).getD 0

/-- `getMessage`, `getMessageById` and `getLatestMsgId`: an invalid session type is not answered. -/
def read (s : Store) : ReadReq → Option ReadRsp
  | .getMessage userId sessionId msgIdBegin msgCnt sessionType attachData =>
    if Actions.sessionTypeIsValid sessionType then
      some (.msgList userId sessionId msgIdBegin sessionType
        (getMessageList s userId sessionId msgIdBegin msgCnt sessionType) attachData)
    else none
  | .getMessageById userId sessionType sessionId msgIdList attachData =>
    if Actions.sessionTypeIsValid sessionType then
      some (.msgById userId sessionId sessionType (getMessageByIdList s userId sessionType sessionId msgIdList) attachData)
    else none
  | .getLatestMsgId userId sessionType sessionId attachData =>
    if Actions.sessionTypeIsValid sessionType then
      some (.latestMsgId userId sessionType sessionId (getLatestId s userId sessionType sessionId) attachData)
    else none

end TeamTalk.DbProxy.Content
