import TeamTalk.Base.ImPduBase
import TeamTalk.DbProxy.Calls
import TeamTalk.DbProxy.DeviceToken
import TeamTalk.Protocol.BaseDefine

/-!
# The models of the DB proxy

The functions through which the handlers reach the database and redis, class by class. A list that is read or passed on stands
for its length, except where messages, sessions and relations are stored.
-/

namespace TeamTalk.DbProxy

open Prog

/-- The id in the last row, or `INVALID_VALUE`. -/
def lastRow (rows : Option (List Nat)) : Nat := (rows.getD []).getLast?.getD 0

/-- `GetInsertId`. -/
def insertId (id : Nat) : Nat := id % uint32Size

/-- A `long` that becomes a `uint32_t`. -/
def toUint32 (i : Int) : Nat := (i % uint32Size).toNat

/-- A `uint32_t` that becomes an `int`. -/
def toInt32 (n : Nat) : Int := if n < uint32Size / 2 then n else n - uint32Size

/-- The bytes of a text of digits. -/
def textBytes (s : Text) : Bytes := s.map fun c => c.toNat.toUInt8

namespace SyncCenter

/-- `updateTotalUpdate`. -/
def updateTotalUpdate : Handler Unit :=
  withConn .unread .other () fun conn => do
    let _ ← command conn .other

/-- `updateLastUpdateGroup`. -/
def updateLastUpdateGroup : Handler Unit :=
  withConn .unread .other () fun conn => do
    let _ ← command conn .other

end SyncCenter

/-! ## Sessions -/

namespace SessionModel

/-- `getSessionId`. -/
def getSessionId (userId peerId type : Nat) (isAll : Bool) : Handler Nat :=
  withConn .slave .other 0 fun conn => do
    let rows ← executeQuery conn (.sessionId userId peerId type isAll)
    return lastRow rows

/-- `updateSession`. -/
def updateSession (sessionId updateTime : Nat) : Handler Bool := change .master (.updateSession sessionId updateTime)

/-- `removeSession`. -/
def removeSession (_sessionId : Nat) : Handler Bool := change .master .other

/-- `addSession`. -/
def addSession (userId peerId type : Nat) : Handler Nat := do
  let sessionId ← getSessionId userId peerId type true
  let timeNow ← time
  withConn .master .other sessionId fun conn => do
    if sessionId ≠ 0 then
      let result ← executeUpdate conn (.reviveSession sessionId timeNow)
      return if result.isSome then sessionId else 0
    else
      let result ← executeUpdate conn (.insertSession userId peerId type timeNow)
      return (result.map insertId).getD sessionId

end SessionModel

/-! ## Groups -/

namespace GroupModel

/-- `isInGroup`. -/
def isInGroup (userId groupId : Nat) : Handler Bool :=
  withConn .groupMember .other false fun conn => do
    let value ← command conn (.hget (.groupMember groupId) userId)
    return value ≠ ""

/-- `isValidateGroupId`. -/
def isValidateGroupId (groupId : Nat) : Handler Bool :=
  withConn .groupMember .other false fun conn => command conn (.isExists (.groupMember groupId))

/-- `getUserJoinTime`. -/
def getUserJoinTime : Handler Unit :=
  withConn .groupMember .other () fun conn => do
    let _ ← command conn .other

/-- `updateGroupChat`. -/
def updateGroupChat : Handler Unit :=
  withConn .master .other () fun conn => do
    let _ ← executeUpdate conn .other

/-- `getGroupUser`: how many users there are. -/
def getGroupUser : Handler Nat :=
  withConn .groupMember .other 0 fun conn => do
    let entries ← command conn .hgetAll
    return entries.getD 0

/-- `getUserGroupIds`. -/
def getUserGroupIds : Handler Nat := select .slave

/-- `getGroupVersion`. -/
def getGroupVersion (groupIds : Nat) : Handler Nat := if groupIds ≠ 0 then select .slave else return 0

/-- `getUserGroup`. -/
def getUserGroup : Handler Nat := do
  let groupIds ← getUserGroupIds
  if groupIds ≠ 0 then getGroupVersion groupIds else return 0

/-- `fillGroupMember`. -/
def fillGroupMember (groups : Nat) : Handler Unit :=
  times groups do
    let _ ← getGroupUser

/-- `getGroupInfo`. -/
def getGroupInfo (groupIds : Nat) : Handler Unit := do
  if groupIds ≠ 0 then
    let groups ← withConn .slave .other none fun conn => do
      let rows ← executeQuery conn .other
      let newer ← count (rowCount rows) decides
      return some newer
    match groups with
    | some groups => if groups ≠ 0 then fillGroupMember groups
    | none => pure ()

/-- `hasModifyPermission`. -/
def hasModifyPermission (userId : Nat) : Handler Bool :=
  if userId = 0 then return true
  else
    withConn .slave .other false fun conn => do
      let rows ← executeQuery conn .other
      let permits ← count (rowCount rows) decides
      return permits ≠ 0

/-- `insertNewGroup`. -/
def insertNewGroup : Handler (Option Nat) :=
  withConn .master .other none fun conn => do
    let result ← executeUpdate conn .other
    return result.map insertId

/-- `clearGroupMember`. -/
def clearGroupMember : Handler Unit := do
  let _ ← change .master .other
  withConn .groupMember .other () fun conn => do
    let entries ← command conn .hgetAll
    times (entries.getD 0) do
      let _ ← command conn .other

/-- `insertNewMember`: users for whom the statement cannot be prepared are left out of the cache. -/
def insertNewMember (groupId users : Nat) : Handler Bool := do
  if groupId ≠ 0 ∧ 0 < users then
    let hasUser ← withConn .slave .other none fun conn => do
      let rows ← executeQuery conn .other
      return some (rowCount rows)
    match hasUser with
    | none => return false
    | some hasUser =>
      withConn .master .other false fun conn =>
        withConn .groupMember .other false fun cacheConn => do
          when (hasUser ≠ 0) do
            let _ ← executeUpdate conn .other
          times users do
            if ← decides then
              let _ ← executeUpdate conn .other
          when (← decides) do
            let _ ← executeUpdate conn .other
          let kept ← count users decides
          times kept do
            let _ ← command cacheConn .other
          return true
  else return false

/-- `removeRepeatUser`: the connection is given back once for each user. What is left is how many users are new. -/
def removeRepeatUser (users : Nat) : Handler Nat := do
  match ← getConn .groupMember (.removeRepeatUser users) with
  | some conn =>
    count users do
      let isNew ← command conn .other
      relConn conn
      return isNew ≠ 0
  | none => return users

/-- `addMember`: the result, and how many users are new. -/
def addMember (groupId users : Nat) : Handler (Bool × Nat) := do
  let users ← removeRepeatUser users
  let ret ← insertNewMember groupId users
  let _ ← getGroupUser
  return (ret, users)

/-- `removeMember`. -/
def removeMember (users : Nat) : Handler Bool := do
  if users = 0 then return true
  else
    let ret ← withConn .master .other false fun conn =>
      withConn .groupMember .other false fun cacheConn => do
        let _ ← executeUpdate conn .other
        times users do
          let _ ← command cacheConn .other
        return true
    when ret do
      let _ ← getGroupUser
    return ret

/-- `removeSession`. -/
def removeSession (groupId users : Nat) : Handler Unit :=
  times users do
    let userId ← pick
    let sessionId ← SessionModel.getSessionId userId groupId sessionTypeGroup false
    let _ ← SessionModel.removeSession sessionId

/-- `incGroupVersion`. -/
def incGroupVersion : Handler Bool := change .master .other

/-- `setPush`. -/
def setPush (userId groupId : Nat) : Handler Bool := do
  if ← isInGroup userId groupId then
    withConn .groupSet .other false fun conn => do
      let ret ← command conn .other
      return ret ≠ 0
  else return false

/-- `getPush`. -/
def getPush (users : Nat) : Handler Unit := do
  if users ≠ 0 then
    withConn .groupSet .other () fun conn => do
      let _ ← command conn .other

end GroupModel

/-! ## Messages -/

namespace AudioModel

/-- `readAudios`. -/
def readAudios (msgs : Nat) : Handler Unit := do
  if msgs ≠ 0 then
    withConn .slave .other () fun conn =>
      times msgs do
        if ← decides then
          let _ ← executeQuery conn .other

/-- `saveAudioInfo`: the id of the audio, or -1. -/
def saveAudioInfo (fromId toId createTime : Nat) (audioData : Bytes) : Handler Int := do
  -- there are more than four bytes
  let costTime := (ByteStream.readUint32 audioData 0).toOption.getD 0
  let realData := audioData.drop 4
  let path ← uploadByteFile realData
  if path ≠ "" then
    withConn .master .other (-1) fun conn => do
      let result ← executeUpdate conn (.insertAudio fromId toId path realData.length costTime createTime)
      return (result.map fun id => toInt32 (insertId id)).getD (-1)
  else return -1

end AudioModel

namespace MessageModel

/-- `resetMsgId`. -/
def resetMsgId (relateId : Nat) : Handler Bool :=
  withConn .unread .other false fun conn => do
    let reply ← command conn (.set (.msgId relateId) "0")
    return reply = "0"

/-- `getMsgId`. -/
def getMsgId (relateId : Nat) : Handler Nat :=
  withConn .unread .other 0 fun conn => do
    let reply ← command conn (.incrBy (.msgId relateId) 1)
    return toUint32 reply

/-- `incMsgCount`. -/
def incMsgCount : Handler Unit :=
  withConn .unread .other () fun conn => do
    let _ ← command conn .other

/-- `sendMessage`. -/
def sendMessage (relateId fromId toId msgType createTime msgId : Nat) (content : Bytes) : Handler Bool := do
  if fromId = 0 ∨ toId = 0 then return false
  else
    let ret ← change .master (.insertMessage relateId fromId toId msgId content msgType createTime)
    when ret incMsgCount
    return ret

/-- `sendAudioMessage`. -/
def sendAudioMessage (relateId fromId toId msgType createTime msgId : Nat) (content : Bytes) : Handler Bool := do
  if content.length ≤ 4 then return false
  else
    let audioId ← AudioModel.saveAudioInfo fromId toId createTime content
    if audioId ≠ -1 then
      sendMessage relateId fromId toId msgType createTime msgId (textBytes (int2string (toUint32 audioId)))
    else return false

end MessageModel

namespace RelationModel

/-- `addRelation`: a relation that was removed is revived. -/
def addRelation (smallId bigId : Nat) : Handler Nat :=
  withConn .master .other 0 fun conn => do
    let timeNow ← time
    match ← executeQuery conn (.relationId smallId bigId true) with
    | some (relationId :: _) =>
      let result ← executeUpdate conn (.reviveRelation relationId timeNow)
      return if result.isSome then relationId else 0
    | _ =>
      let result ← executeUpdate conn (.insertRelation smallId bigId timeNow)
      let relationId := (result.map insertId).getD 0
      when (relationId ≠ 0) do
        let _ ← MessageModel.resetMsgId relationId
      return relationId

/-- `getRelationId`. -/
def getRelationId (userAId userBId : Nat) (add : Bool) : Handler Nat := do
  if userAId = 0 ∨ userBId = 0 then return 0
  else
    let bigId := max userAId userBId
    let smallId := min userAId userBId
    let found ← withConn .slave .other none fun conn => do
      let rows ← executeQuery conn (.relationId smallId bigId false)
      return some (lastRow rows)
    match found with
    | none => return 0
    | some relationId => if relationId = 0 ∧ add then addRelation smallId bigId else return relationId

end RelationModel

namespace MessageModel

/-- `getMessage`. -/
def getMessage (userId peerId : Nat) : Handler Unit := do
  let relateId ← RelationModel.getRelationId userId peerId false
  if relateId ≠ 0 then
    let msgs ← select .slave
    AudioModel.readAudios msgs

/-- `getLastMsg`. -/
def getLastMsg (fromId toId : Nat) : Handler Unit := do
  let relateId ← RelationModel.getRelationId fromId toId false
  if relateId ≠ 0 then
    let _ ← select .slave

/-- `getUnreadMsgCount`. -/
def getUnreadMsgCount (userId : Nat) : Handler Unit := do
  let unread ← withConn .unread .other none fun conn => command conn .hgetAll
  times (unread.getD 0) do
    let sessionId ← pick
    getLastMsg sessionId userId

/-- `getUnReadCntAll`. -/
def getUnReadCntAll : Handler Unit :=
  withConn .unread .other () fun conn => do
    let _ ← command conn .hgetAll

/-- `getMsgByMsgId`. -/
def getMsgByMsgId (userId peerId msgIds : Nat) : Handler Unit := do
  if msgIds ≠ 0 then
    let relateId ← RelationModel.getRelationId userId peerId false
    if relateId ≠ 0 then
      let msgs ← select .slave
      AudioModel.readAudios msgs

end MessageModel

namespace GroupMessageModel

/-- `resetMsgId`. -/
def resetMsgId (groupId : Nat) : Handler Bool :=
  withConn .unread .other false fun conn => do
    let reply ← command conn (.set (.groupMsgId groupId) "0")
    return reply = "0"

/-- `getMsgId`. -/
def getMsgId (groupId : Nat) : Handler Nat :=
  withConn .unread .other 0 fun conn => do
    let reply ← command conn (.incrBy (.groupMsgId groupId) 1)
    return toUint32 reply

/-- `incMessageCount`. -/
def incMessageCount : Handler Unit :=
  withConn .unread .other () fun conn => do
    let _ ← command conn .other
    let groupCount ← command conn .hgetAll
    if groupCount.isSome then
      let _ ← command conn .other

/-- `clearMessageCount`: the connection is given back before it is used for the last time. -/
def clearMessageCount : Handler Unit := do
  match ← getConn .unread .other with
  | some conn =>
    let groupCount ← request (.cache conn .clearMessageCount .hgetAll)
    relConn conn
    if groupCount.isSome then
      let _ ← request (.cache conn .clearMessageCount .other)
  | none => pure ()

/-- `sendMessage`: the result is `false`, whatever happens. -/
def sendMessage (fromId groupId msgType createTime msgId : Nat) (content : Bytes) : Handler Bool := do
  when (← GroupModel.isInGroup fromId groupId) do
    withConn .master .sendGroupMessage () fun conn => do
      let result ← executeUpdate conn (.insertGroupMessage groupId fromId msgId content msgType createTime)
      if result.isSome then
        GroupModel.updateGroupChat
        incMessageCount
        clearMessageCount
  return false

/-- `sendAudioMessage`. -/
def sendAudioMessage (fromId groupId msgType createTime msgId : Nat) (content : Bytes) : Handler Bool := do
  if content.length ≤ 4 then return false
  else if ← GroupModel.isInGroup fromId groupId then
    let audioId ← AudioModel.saveAudioInfo fromId groupId createTime content
    if audioId ≠ -1 then
      sendMessage fromId groupId msgType createTime msgId (textBytes (int2string (toUint32 audioId)))
    else return false
  else return false

/-- `getLastMsg`. -/
def getLastMsg : Handler Unit := do
  let _ ← select .slave

/-- `getMessage`. -/
def getMessage : Handler Unit := do
  let msgs ← withConn .slave .other 0 fun conn => do
    GroupModel.getUserJoinTime
    let rows ← executeQuery conn .other
    count (rowCount rows) decides
  AudioModel.readAudios msgs

/-- `getUnreadMsgCount`: the last message of a group is asked for while the connection to redis is held. -/
def getUnreadMsgCount : Handler Unit := do
  let groupIds ← GroupModel.getUserGroupIds
  withConn .unread .other () fun conn =>
    times groupIds do
      let groupCnt ← command conn .other
      if groupCnt ≠ 0 then
        let _ ← command conn .other
        if ← decides then getLastMsg

/-- `getUnReadCntAll`. -/
def getUnReadCntAll : Handler Unit := do
  let groupIds ← GroupModel.getUserGroupIds
  withConn .unread .other () fun conn =>
    times groupIds do
      let groupCnt ← command conn .other
      if groupCnt ≠ 0 then
        let _ ← command conn .other

/-- `getMsgByMsgId`. -/
def getMsgByMsgId (userId groupId msgIds : Nat) : Handler Unit := do
  if msgIds ≠ 0 then
    if ← GroupModel.isInGroup userId groupId then getMessage

end GroupMessageModel

/-! ## Recent sessions -/

namespace SessionModel

/-- `Judgment`: the result set is used before it is compared with `NULL`. -/
def Judgment : Handler Bool :=
  withConn .slave .other true fun conn => do
    match ← request (.executeQuery conn .judgment .other) with
    | none => nullCall
    | some rows =>
      let removed ← decides
      return !(rows ≠ [] && removed)

/-- `fillSessionMsg`. -/
def fillSessionMsg (userId contacts : Nat) : Handler Unit :=
  times contacts do
    if ← decides then
      let sessionId ← pick
      MessageModel.getLastMsg sessionId userId
    else GroupMessageModel.getLastMsg

/-- `getRecentSession`: each row is judged while the connection is held. -/
def getRecentSession (userId : Nat) : Handler Unit := do
  let contacts ← withConn .slave .getRecentSession 0 fun conn => do
    let rows ← executeQuery conn .other
    count (rowCount rows) Judgment
  if contacts ≠ 0 then fillSessionMsg userId contacts

end SessionModel

/-! ## Users, departments and files -/

namespace UserModel

/-- `getChangedId`. -/
def getChangedId : Handler Nat := select .slave

/-- `getUsers`. -/
def getUsers (ids : Nat) : Handler Nat := if ids = 0 then return 0 else select .slave

/-- `updateUserSignInfo`. -/
def updateUserSignInfo (signInfo : Bytes) : Handler Bool := do
  if 128 < signInfo.length then return false
  else
    withConn .master .other false fun conn => do
      let result ← executeUpdate conn .other
      when result.isSome SyncCenter.updateTotalUpdate
      return result.isSome

/-- `updatePushShield`. -/
def updatePushShield : Handler Bool := change .master .other

/-- `getPushShield`. -/
def getPushShield : Handler Bool := do
  let rows ← select .slave
  return rows ≠ 0

/-- `getRelatonList`. -/
def getRelatonList : Handler Nat := select .slave

/-- `clearUserCounter`. -/
def clearUserCounter (sessionType : Nat) : Handler Unit := do
  if sessionType = sessionTypeSingle ∨ sessionType = sessionTypeGroup then
    withConn .unread .other () fun conn => do
      if sessionType = sessionTypeSingle then
        let _ ← command conn .other
      else
        let groupCount ← command conn .hgetAll
        if groupCount.isSome then
          let _ ← command conn .other

end UserModel

namespace DepartModel

/-- `getChgedDeptId`. -/
def getChgedDeptId : Handler Nat := select .slave

/-- `getDepts`. -/
def getDepts (deptIds : Nat) : Handler Nat := if deptIds = 0 then return 0 else select .slave

end DepartModel

namespace FileModel

/-- `getOfflineFile`. -/
def getOfflineFile : Handler Nat := select .slave

/-- `getHasSentFile`. -/
def getHasSentFile : Handler Nat := select .slave

/-- `addOfflineFile`. -/
def addOfflineFile : Handler Bool := change .master .other

/-- `delOfflineFile`. -/
def delOfflineFile : Handler Bool := change .master .other

/-- `ClientAckChangeStatus`. -/
def clientAckChangeStatus : Handler Bool := change .master .other

/-- `ChangeFileStatus`. -/
def changeFileStatus : Handler Bool := change .master .other

end FileModel

namespace GroupModel

/-- `createGroup`: the id of the group, or `INVALID_VALUE`. -/
def createGroup (groupName : Bytes) (members : Nat) : Handler Nat := do
  if groupName = [] ∨ members = 0 then return 0
  else
    match ← insertNewGroup with
    | none => return 0
    | some groupId =>
      let _ ← GroupMessageModel.resetMsgId groupId
      clearGroupMember
      let _ ← insertNewMember groupId members
      return groupId

/-- `modifyGroupMember`. -/
def modifyGroupMember (userId groupId type users : Nat) : Handler Bool := do
  if ← hasModifyPermission userId then
    let (ret, users) ← (
      if type = groupModifyTypeAdd then addMember groupId users
      else if type = groupModifyTypeDel then do
        let ret ← removeMember users
        removeSession groupId users
        return (ret, users)
      else return (false, users))
    when ret do
      let _ ← incGroupVersion
      times users (UserModel.clearUserCounter sessionTypeGroup)
    return ret
  else return false

end GroupModel

end TeamTalk.DbProxy
