import TeamTalk.DbProxy.Actions

/-!
# Unread counts

What a user has not read, as `CGroupMessageModel` and `CMessageModel` count it from the counters in redis. A counter is what
`atoi` makes of it. No storage call fails.
-/

namespace TeamTalk.DbProxy.Unread

/-- The last visible message of a conversation; the content of an audio message is that of `strAudioEnc`. -/
structure LastMsg where
  msgId : Nat
  msgType : Nat
  msgData : String
  fromId : Nat
  deriving DecidableEq, Repr

/-- The counters of groups and of users in groups, where there are any, and the messages. -/
structure Store where
  groupCnt : Nat → Option UInt32
  userCnt : Nat → Nat → Option UInt32
  groupLast : Nat → Option LastMsg
  singleLast : Nat → Nat → Option LastMsg

/-- `IM::BaseDefine::UnreadInfo`. -/
structure UnreadInfo where
  sessionId : Nat
  sessionType : Nat
  unreadCnt : UInt32
  latestMsgId : Nat
  latestMsgData : String
  latestMsgType : Nat
  latestMsgFromUserId : Nat
  deriving DecidableEq, Repr

/-- A group in the list of a user, and what the memory of the variables for its last message holds. -/
structure Visit where
  groupId : Nat
  memory : LastMsg
  deriving DecidableEq, Repr

/-- `getLastMsg` of either model: without a message the variables stay as they are. -/
def getLastMsg (last : Option LastMsg) (memory : LastMsg) : LastMsg := last.getD memory

/-! ## `CGroupMessageModel` -/

/-- The variables of the loops. -/
structure Loop where
  nCount : UInt32
  nTotalCnt : UInt32
  lsUnreadCount : List UnreadInfo

/-- How far the group is ahead of the user, when it is not behind. -/
def nextCount (nCount nGroupCnt nUserCnt : UInt32) : UInt32 := if nUserCnt ≤ nGroupCnt then nGroupCnt - nUserCnt else nCount

/-- One round of `getUnreadMsgCount`. -/
def unreadRound (s : Store) (userId : Nat) (l : Loop) (v : Visit) : Loop :=
  match s.groupCnt v.groupId with
  | none => l
  | some nGroupCnt =>
    let nUserCnt := (s.userCnt userId v.groupId).getD 0
    let nCount := nextCount l.nCount nGroupCnt nUserCnt
    if 0 < nCount then
      let last := getLastMsg (s.groupLast v.groupId) { v.memory with msgData := "" }
      { nCount
        nTotalCnt := l.nTotalCnt + nCount
        lsUnreadCount :=
          if Actions.msgTypeIsValid last.msgType then
            l.lsUnreadCount ++ [{
              sessionId := v.groupId
              sessionType := sessionTypeGroup
              unreadCnt := nCount
              latestMsgId := last.msgId
              latestMsgData := last.msgData
              latestMsgType := last.msgType
              latestMsgFromUserId := last.fromId }]
          else l.lsUnreadCount }
    else { l with nCount }

/-- `CGroupMessageModel::getUnreadMsgCount`: the total, and the list that is added to. -/
def getUnreadMsgCount (s : Store) (userId : Nat) (lsGroupId : List Visit) (nTotalCnt : UInt32) : UInt32 × List UnreadInfo :=
  let l := lsGroupId.foldl (unreadRound s userId) { nCount := 0, nTotalCnt, lsUnreadCount := [] }
  (l.nTotalCnt, l.lsUnreadCount)

/-- One round of `getUnReadCntAll`. -/
def cntAllRound (s : Store) (userId : Nat) (l : UInt32 × UInt32) (groupId : Nat) : UInt32 × UInt32 :=
  match s.groupCnt groupId with
  | none => l
  | some nGroupCnt =>
    let nUserCnt := (s.userCnt userId groupId).getD 0
    let nCount := nextCount l.1 nGroupCnt nUserCnt
    if 0 < nCount then (nCount, l.2 + nCount) else (nCount, l.2)

/-- `CGroupMessageModel::getUnReadCntAll`: the total. -/
def getUnReadCntAll (s : Store) (userId : Nat) (lsGroupId : List Nat) (nTotalCnt : UInt32) : UInt32 :=
  (lsGroupId.foldl (cntAllRound s userId) (0, nTotalCnt)).2

/-! ## `CMessageModel` -/

/-- An entry of the hash of a user, in the order of the map: the peer, the count, and what the memory of the type holds. -/
structure PeerCount where
  peerId : Nat
  count : UInt32
  memory : Nat
  deriving DecidableEq, Repr

/-- One round of `CMessageModel::getUnreadMsgCount`. -/
def singleRound (s : Store) (userId : Nat) (l : UInt32 × List UnreadInfo) (entry : PeerCount) : UInt32 × List UnreadInfo :=
  let last := getLastMsg (s.singleLast entry.peerId userId) { msgId := 0, msgType := entry.memory, msgData := "", fromId := 0 }
  if Actions.msgTypeIsValid last.msgType then
    (l.1 + entry.count, l.2 ++ [{
      sessionId := entry.peerId
      sessionType := sessionTypeSingle
      unreadCnt := entry.count
      latestMsgId := last.msgId
      latestMsgData := last.msgData
      latestMsgType := last.msgType
      latestMsgFromUserId := entry.peerId }])
  else l

/-- `CMessageModel::getUnreadMsgCount`: the total, and the list that is added to. -/
def getSingleUnreadMsgCount (s : Store) (userId : Nat) (mapUnread : List PeerCount) (nTotalCnt : UInt32) :
    UInt32 × List UnreadInfo :=
  mapUnread.foldl (singleRound s userId) (nTotalCnt, [])

end TeamTalk.DbProxy.Unread
