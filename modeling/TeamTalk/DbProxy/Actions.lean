import TeamTalk.DbProxy.Models

/-!
# The handlers of the DB proxy

What a worker thread runs for each request, and the thread of `CSyncCenter`. A request stands here with the data that decides which
calls are made; the answer is left out, but for `sendMessage`.
-/

namespace TeamTalk.DbProxy.Actions

open Prog

/-- `MsgType_IsValid`. -/
def msgTypeIsValid (type : Nat) : Bool :=
  type = msgTypeSingleText ∨ type = msgTypeSingleAudio ∨ type = msgTypeGroupText ∨ type = msgTypeGroupAudio

/-- `SessionType_IsValid`. -/
def sessionTypeIsValid (type : Nat) : Bool := type = sessionTypeSingle ∨ type = sessionTypeGroup

/-! ## Sending -/

/-- The session of a user with a peer, added when there is none. -/
def sessionFor (userId peerId type : Nat) : Handler Nat := do
  let sessionId ← SessionModel.getSessionId userId peerId type false
  if sessionId = 0 then SessionModel.addSession userId peerId type else return sessionId

/-- The branches of `sendMessage` for groups; `none` when there is no answer. -/
def sendToGroup (msg : IMMsgData) (now : Nat) (send : Nat → Handler Bool) : Handler (Option Nat) := do
  let isValid ← GroupModel.isValidateGroupId msg.toSessionId
  let isIn ← (if isValid then GroupModel.isInGroup msg.fromUserId msg.toSessionId else return false)
  if isIn then
    let sessionId ← sessionFor msg.fromUserId msg.toSessionId sessionTypeGroup
    if sessionId ≠ 0 then
      let msgId ← GroupMessageModel.getMsgId msg.toSessionId
      when (msgId ≠ 0) do
        let _ ← send msgId
        let _ ← SessionModel.updateSession sessionId now
      return some msgId
    else return some 0
  else return none

/-- The branches of `sendMessage` for two users: a session that is added for the peer takes the sender's place. -/
def sendToUser (msg : IMMsgData) (now : Nat) (send : Nat → Nat → Handler Bool) : Handler (Option Nat) := do
  if msg.fromUserId ≠ msg.toSessionId then
    let sessionId ← sessionFor msg.fromUserId msg.toSessionId sessionTypeSingle
    let peerSessionId ← SessionModel.getSessionId msg.toSessionId msg.fromUserId sessionTypeSingle false
    let sessionId ← (if peerSessionId = 0 then SessionModel.addSession msg.toSessionId msg.fromUserId sessionTypeSingle
      else return sessionId)
    let relateId ← RelationModel.getRelationId msg.fromUserId msg.toSessionId true
    if sessionId ≠ 0 ∧ relateId ≠ 0 then
      let msgId ← MessageModel.getMsgId relateId
      when (msgId ≠ 0) do
        let _ ← send relateId msgId
        let _ ← SessionModel.updateSession sessionId now
        let _ ← SessionModel.updateSession peerSessionId now
      return some msgId
    else return some 0
  else return some 0

/-- `sendMessage`: the answer, if there is one. -/
def sendMessage (msg : IMMsgData) : Handler (Option IMMsgData) := do
  let now ← time
  let answer (msgId : Option Nat) : Option IMMsgData := msgId.map fun msgId => { msg with msgId }
  if msgTypeIsValid msg.msgType ∧ msg.msgData ≠ [] then
    if msg.msgType = msgTypeGroupText then
      answer <$> sendToGroup msg now fun msgId =>
        GroupMessageModel.sendMessage msg.fromUserId msg.toSessionId msg.msgType msg.createTime msgId msg.msgData
    else if msg.msgType = msgTypeGroupAudio then
      answer <$> sendToGroup msg now fun msgId =>
        GroupMessageModel.sendAudioMessage msg.fromUserId msg.toSessionId msg.msgType msg.createTime msgId msg.msgData
    else if msg.msgType = msgTypeSingleText then
      answer <$> sendToUser msg now fun relateId msgId =>
        MessageModel.sendMessage relateId msg.fromUserId msg.toSessionId msg.msgType msg.createTime msgId msg.msgData
    else
      answer <$> sendToUser msg now fun relateId msgId =>
        MessageModel.sendAudioMessage relateId msg.fromUserId msg.toSessionId msg.msgType msg.createTime msgId msg.msgData
  else return none

/-! ## The other requests -/

/-- What a worker thread is asked for, by `PduHandler`; `unparsed` is a body that does not parse. -/
inductive Request where
  | doLogin (limited : Bool)
  | doPushShield
  | doQueryPushShield
  | doQueryVisibleRange
  | getRecentSession (userId : Nat)
  | deleteRecentSession (userId peerId sessionType : Nat)
  | getUserInfo (ids : Nat)
  | getChangedUser (lastTimeIsOlder : Bool)
  | getChgedDepart
  | changeUserSignInfo (signInfo : Bytes)
  | sendMessage (msg : IMMsgData)
  | getMessage (userId peerId sessionType : Nat)
  | getUnreadMsgCounter (userId : Nat)
  | clearUnreadMsgCounter (sessionType : Nat)
  | getMessageById (userId peerId sessionType msgIds : Nat)
  | getLatestMsgId (userId peerId sessionType : Nat)
  | setDevicesToken (hasOld : Bool)
  | getDevicesToken (ids : Nat)
  | setGroupPush (userId groupId : Nat)
  | getGroupPush (groupId users : Nat)
  | getNormalGroupList
  | getGroupInfo (groupIds : List Nat)
  | createGroup (typeIsValid : Bool) (groupName : Bytes) (members : Nat)
  | modifyMember (typeIsValid : Bool) (userId groupId type users : Nat)
  | hasOfflineFile
  | addOfflineFile
  | delOfflineFile
  | changeFileStatus (files : Nat)
  | notifyClientAck (files : Nat)
  | unparsed

/-- `hasOfflineFile`: the states of the files are changed on a connection that is not compared with `NULL`. -/
def hasOfflineFile : Handler Unit := do
  let _ ← FileModel.getOfflineFile
  let _ ← FileModel.getHasSentFile
  match ← getConn .slave .hasOfflineFile with
  | none => nullCall
  | some conn =>
    let _ ← executeUpdate conn .other
    let _ ← executeUpdate conn .other
    relConn conn

/-- `getDevicesToken`: the tokens are read, and for each of them whether and how often to push. -/
def getDevicesToken (ids : Nat) : Handler Unit := do
  let tokens ← withConn .token .other 0 fun conn => do
    let _ ← command conn .other
    count ids decides
  times tokens do
    when (← decides) do
      let _ ← UserModel.getPushShield
    if ← decides then
      MessageModel.getUnReadCntAll
      GroupMessageModel.getUnReadCntAll

/-- `setDevicesToken`: the old token is looked up and released, and the new one is stored both ways. -/
def setDevicesToken (hasOld : Bool) : Handler Unit :=
  withConn .token .other () fun conn => do
    let _ ← command conn .other
    when hasOld do
      let reply ← command conn .other
      if reply ≠ 0 then
        let _ ← command conn .other
    let _ ← command conn .other
    let _ ← command conn .other

/-- `getGroupInfo`: the groups that have members are looked up. -/
def getGroupInfo : List Nat → Nat → Handler Unit
  | [], valid => GroupModel.getGroupInfo valid
  | groupId :: groupIds, valid => do
    let isValid ← GroupModel.isValidateGroupId groupId
    getGroupInfo groupIds (if isValid then valid + 1 else valid)

/-- The handler of each request. -/
def handle : Request → Handler Unit
  | .doLogin limited => do
    if !limited then
      let _ ← select .slave
  | .doPushShield => do
    let _ ← UserModel.updatePushShield
  | .doQueryPushShield => do
    let _ ← UserModel.getPushShield
  | .doQueryVisibleRange => do
    let _ ← UserModel.getRelatonList
  | .getRecentSession userId => SessionModel.getRecentSession userId
  | .deleteRecentSession userId peerId sessionType => do
    if sessionTypeIsValid sessionType then
      let sessionId ← SessionModel.getSessionId userId peerId sessionType false
      if sessionId ≠ 0 then
        if ← SessionModel.removeSession sessionId then UserModel.clearUserCounter sessionType
  | .getUserInfo ids => do
    let _ ← UserModel.getUsers ids
  | .getChangedUser lastTimeIsOlder => do
    if lastTimeIsOlder then
      let ids ← UserModel.getChangedId
      let _ ← UserModel.getUsers ids
  | .getChgedDepart => do
    let deptIds ← DepartModel.getChgedDeptId
    let _ ← DepartModel.getDepts deptIds
  | .changeUserSignInfo signInfo => do
    let _ ← UserModel.updateUserSignInfo signInfo
  | .sendMessage msg => do
    let _ ← sendMessage msg
  | .getMessage userId peerId sessionType => do
    if sessionType = sessionTypeSingle then MessageModel.getMessage userId peerId
    else if sessionType = sessionTypeGroup then
      if ← GroupModel.isInGroup userId peerId then GroupMessageModel.getMessage
  | .getUnreadMsgCounter userId => do
    MessageModel.getUnreadMsgCount userId
    GroupMessageModel.getUnreadMsgCount
  | .clearUnreadMsgCounter sessionType => UserModel.clearUserCounter sessionType
  | .getMessageById userId peerId sessionType msgIds => do
    if sessionType = sessionTypeSingle then MessageModel.getMsgByMsgId userId peerId msgIds
    else if sessionType = sessionTypeGroup then GroupMessageModel.getMsgByMsgId userId peerId msgIds
  | .getLatestMsgId userId peerId sessionType => do
    if sessionType = sessionTypeSingle then MessageModel.getLastMsg userId peerId
    else if sessionType = sessionTypeGroup then GroupMessageModel.getLastMsg
  | .setDevicesToken hasOld => setDevicesToken hasOld
  | .getDevicesToken ids => getDevicesToken ids
  | .setGroupPush userId groupId => do
    if ← GroupModel.isValidateGroupId groupId then
      let _ ← GroupModel.setPush userId groupId
  | .getGroupPush groupId users => do
    if ← GroupModel.isValidateGroupId groupId then GroupModel.getPush users
  | .getNormalGroupList => do
    let _ ← GroupModel.getUserGroup
  | .getGroupInfo groupIds => getGroupInfo groupIds 0
  | .createGroup typeIsValid groupName members => do
    if typeIsValid then
      let _ ← GroupModel.createGroup groupName members
  | .modifyMember typeIsValid userId groupId type users => do
    if typeIsValid then
      if ← GroupModel.isValidateGroupId groupId then
        let _ ← GroupModel.modifyGroupMember userId groupId type users
  | .hasOfflineFile => hasOfflineFile
  | .addOfflineFile => do
    let _ ← FileModel.addOfflineFile
  | .delOfflineFile => do
    let _ ← FileModel.delOfflineFile
  | .changeFileStatus files =>
    times files do
      let _ ← FileModel.changeFileStatus
  | .notifyClientAck files =>
    times files do
      let _ ← FileModel.clientAckChangeStatus
  | .unparsed => return ()

/-! ## The thread of CSyncCenter -/

/-- The sessions of the members of a group that has been written to. -/
def syncGroup (groupId : Nat) : Handler Unit := do
  let users ← GroupModel.getGroupUser
  times users do
    let userId ← pick
    let update ← pick
    let sessionId ← SessionModel.getSessionId userId groupId sessionTypeGroup true
    if sessionId ≠ 0 then
      let _ ← SessionModel.updateSession sessionId update
    else
      let _ ← SessionModel.addSession userId groupId sessionTypeGroup

/-- One turn of the loop of `doSyncGroupChat`: the second connection is not compared with `NULL`. -/
def doSyncGroupChat : Handler Unit := do
  let changed ← withConn .slave .other 0 fun conn => do
    let rows ← executeQuery conn .other
    count (rowCount rows) decides
  SyncCenter.updateLastUpdateGroup
  times changed do
    let groupId ← pick
    syncGroup groupId
  match ← getConn .slave .doSyncGroupChat with
  | none => nullCall
  | some conn =>
    let _ ← executeQuery conn .other
    SyncCenter.updateTotalUpdate
    relConn conn

/-- What a thread runs: the handler of a request, or a turn of the synchronisation. -/
inductive Job where
  | request (r : Request)
  | sync

/-- The program of a job. -/
def Job.program : Job → Handler Unit
  | .request r => handle r
  | .sync => doSyncGroupChat

end TeamTalk.DbProxy.Actions
