import TeamTalk.Lib.Threads
import TeamTalk.Protocol.Messages

/-!
# Groups

What `CGroupModel` does with the tables `IMGroup` and `IMGroupMember` and with redis, where the members of a group are kept a second
time. No statement and no command fails, and master and slave are one database. Times are left out: any time that redis keeps for a
member is a text that is not empty. What `CGroupModel` does with sessions and counters is left out, too.

The ids of a member are inserted by a prepared statement, which binds them as signed numbers; every other statement has them in its
text, and redis in its keys and fields, as unsigned ones.
-/

namespace TeamTalk.DbProxy.Groups

open Prog

/-- `set<uint32_t>`: in order, without repetitions. -/
structure UserSet where
  users : List Nat
  sorted : users.Pairwise (· < ·)

namespace UserSet

/-- Insert the elements of a list. -/
def ofList (users : List Nat) : UserSet where
  users := users.dedup.insertionSort (· ≤ ·)
  sorted := by
    have hnodup := (List.perm_insertionSort (· ≤ ·) users.dedup).nodup_iff.2 users.nodup_dedup
    refine List.Pairwise.imp₂ (fun a b hle hne => ?_) (List.pairwise_insertionSort (· ≤ ·) users.dedup) hnodup
    omega

/-- Erase the other elements. -/
def filter (s : UserSet) (p : Nat → Bool) : UserSet := { users := s.users.filter p, sorted := s.sorted.filter p }

theorem nodup (s : UserSet) : s.users.Nodup := s.sorted.imp Nat.ne_of_lt

@[simp] theorem mem_ofList {users : List Nat} {u : Nat} : u ∈ (ofList users).users ↔ u ∈ users := by
  rw [ofList, (List.perm_insertionSort _ _).mem_iff, List.mem_dedup]

end UserSet

/-- A row of `IMGroup`. What a prepared statement inserts is here as it is read back. -/
structure GroupRow where
  id : Nat
  name : String
  avatar : String
  creator : Nat
  type : Nat
  userCnt : Nat
  version : Nat
  status : Nat
  deriving DecidableEq, Repr

/-- `CPrepareStatement::SetParam`, of a `uint32_t`: it is bound as a `MYSQL_TYPE_LONG`, which is signed. -/
def setParam (value : Nat) : Int := if value < 2 ^ 31 then value else -((2 ^ 32 - value : Nat) : Int)

/-- `CResultSet::GetInt`, into a `uint32_t`. -/
def getInt (column : Int) : Nat := if 0 ≤ column then column.toNat else (column + 2 ^ 32).toNat

theorem setParam_of_lt {value : Nat} (h : value < 2 ^ 31) : setParam value = value := if_pos h

/-- No other positive id is bound to the number that an id is. -/
theorem eq_of_setParam_eq {value id : Nat} (hid : 0 < id) (h : setParam value = id) : value = id := by
  unfold setParam at h
  split at h <;> omega

@[simp] theorem getInt_natCast (value : Nat) : getInt value = value := by
  simp [getInt]

/-- What is bound and read back is what was given. -/
theorem getInt_setParam {value : Nat} (h : value < 2 ^ 32) : getInt (setParam value) = value := by
  unfold getInt setParam
  split <;> split <;> omega

/-- A row of `IMGroupMember`. A column keeps the number that is bound to it. -/
structure MemberRow where
  groupId : Int
  userId : Int
  status : Nat
  deriving DecidableEq, Repr

/-- The tables, with the next group id; and redis: the fields of `group_member_<id>`, and the settings in `group_set_<id>`. -/
structure Store where
  groups : List GroupRow
  nextGroupId : Nat
  members : List MemberRow
  groupMember : Nat → List Nat
  groupSet : Nat → Nat → Option Nat

/-- Statements and commands, and the answer to a client. -/
inductive Op where
  | insertGroup (name avatar : String) (creator type userCnt status version : Nat)
  | selectCreator (groupId : Nat)
  | updateStatus (groupId status : Nat)
  | incVersion (groupId : Nat)
  | addUserCnt (groupId n : Nat)
  | selectGroups (ids : List Nat)
  | selectPermission (groupId : Nat)
  | selectMembers (groupId : Nat)
  | selectHasUser (groupId : Nat) (users : List Nat)
  | updateMemberStatus (groupId : Nat) (users : List Nat) (status : Nat)
  | insertMember (groupId userId status : Nat)
  | deleteMembers (groupId : Nat)
  | hset (groupId userId : Nat)
  | hdel (groupId userId : Nat)
  | hget (groupId userId : Nat)
  | hgetAll (groupId : Nat)
  | isExists (groupId : Nat)
  | hsetPush (groupId userId status : Nat)
  | addResponsePdu (connUuid : Nat) (msg : Msg)

/-- What is answered. A statement that changes something answers whether it has changed a row. -/
def Op.Reply : Op → Type
  | .insertGroup .. => Nat
  | .selectCreator _ | .selectMembers _ | .selectHasUser .. | .hgetAll _ => List Nat
  | .selectGroups _ => List GroupRow
  | .selectPermission _ => List (Nat × Nat)
  | .updateStatus .. | .incVersion _ | .updateMemberStatus .. | .deleteMembers _ | .hget .. | .isExists _ => Bool
  | .addUserCnt .. | .insertMember .. | .hset .. | .hdel .. | .hsetPush .. | .addResponsePdu .. => Unit

/-- The calls to the database, to redis, and to the network. -/
def calls : Signature := { Op := Op, Reply := Op.Reply }

namespace Store

/-- There are no groups; ids begin with 1. -/
def init : Store :=
  { groups := [], nextGroupId := 1, members := [], groupMember := fun _ => [], groupSet := fun _ _ => none }

/-- Change the rows of a group. -/
def mapGroup (s : Store) (groupId : Nat) (f : GroupRow → GroupRow) : Store :=
  { s with groups := s.groups.map fun r => if r.id = groupId then f r else r }

/-- Change the members that redis has. -/
def setMembers (s : Store) (groupId : Nat) (users : List Nat) : Store :=
  { s with groupMember := fun g => if g = groupId then users else s.groupMember g }

/-- The rows of some users of a group. -/
def isRowOf (groupId : Nat) (users : List Nat) (r : MemberRow) : Bool := r.groupId = groupId ∧ ∃ u ∈ users, r.userId = (u : Int)

/-- What the database and redis do. -/
def serve (s : Store) : (o : Op) → Store × o.Reply
  | .insertGroup name avatar creator type userCnt status version =>
    ({ s with groups := s.groups ++ [{ id := s.nextGroupId, name, avatar, creator, type, userCnt, version, status }]
              nextGroupId := s.nextGroupId + 1 }, s.nextGroupId)
  | .selectCreator g => (s, (s.groups.filter (·.id = g)).map (·.creator))
  | .updateStatus g status => (s.mapGroup g ({ · with status }), s.groups.any fun r => r.id = g ∧ r.status ≠ status)
  | .incVersion g => (s.mapGroup g fun r => { r with version := r.version + 1 }, s.groups.any (·.id = g))
  | .addUserCnt g n => (s.mapGroup g fun r => { r with userCnt := r.userCnt + n }, ())
  | .selectGroups ids => (s, s.groups.filter (·.id ∈ ids))
  | .selectPermission g => (s, (s.groups.filter (·.id = g)).map fun r => (r.creator, r.type))
  | .selectMembers g => (s, (s.members.filter (·.groupId = (g : Int))).map (getInt ·.userId))
  | .selectHasUser g users => (s, (s.members.filter (isRowOf g users)).map (getInt ·.userId))
  | .updateMemberStatus g users status =>
    ({ s with members := s.members.map fun r => if isRowOf g users r then { r with status } else r },
      s.members.any fun r => isRowOf g users r ∧ r.status ≠ status)
  | .insertMember g u status => ({ s with members := s.members ++ [{ groupId := setParam g, userId := setParam u, status }] }, ())
  | .deleteMembers g => ({ s with members := s.members.filter (·.groupId ≠ (g : Int)) }, s.members.any (·.groupId = (g : Int)))
  | .hset g u => (s.setMembers g (if u ∈ s.groupMember g then s.groupMember g else s.groupMember g ++ [u]), ())
  | .hdel g u => (s.setMembers g ((s.groupMember g).filter (· ≠ u)), ())
  | .hget g u => (s, decide (u ∈ s.groupMember g))
  | .hgetAll g => (s, s.groupMember g)
  | .isExists g => (s, decide (s.groupMember g ≠ []))
  | .hsetPush g u status => ({ s with groupSet := fun g' u' => if g' = g ∧ u' = u then some status else s.groupSet g' u' }, ())
  | .addResponsePdu _ _ => (s, ())

end Store

/-! ## Statements and commands -/

/-- `insert into IMGroup`: the id that is given. -/
def insertGroup (name avatar : String) (creator type userCnt status version : Nat) : Prog calls Nat :=
  ask (C := calls) (.insertGroup name avatar creator type userCnt status version)

/-- `select creator from IMGroup`. -/
def selectCreator (groupId : Nat) : Prog calls (List Nat) := ask (C := calls) (.selectCreator groupId)

/-- `update IMGroup set status`. -/
def updateStatus (groupId status : Nat) : Prog calls Bool := ask (C := calls) (.updateStatus groupId status)

/-- `update IMGroup set version=version+1`. -/
def incVersion (groupId : Nat) : Prog calls Bool := ask (C := calls) (.incVersion groupId)

/-- `update IMGroup set userCnt=userCnt+n`. -/
def addUserCnt (groupId n : Nat) : Prog calls Unit := ask (C := calls) (.addUserCnt groupId n)

/-- `select * from IMGroup`. -/
def selectGroups (ids : List Nat) : Prog calls (List GroupRow) := ask (C := calls) (.selectGroups ids)

/-- `select creator, type from IMGroup`. -/
def selectPermission (groupId : Nat) : Prog calls (List (Nat × Nat)) := ask (C := calls) (.selectPermission groupId)

/-- `select userId from IMGroupMember`. -/
def selectMembers (groupId : Nat) : Prog calls (List Nat) := ask (C := calls) (.selectMembers groupId)

/-- `select userId from IMGroupMember`, of some users. -/
def selectHasUser (groupId : Nat) (users : List Nat) : Prog calls (List Nat) :=
  ask (C := calls) (.selectHasUser groupId users)

/-- `update IMGroupMember set status`. -/
def updateMemberStatus (groupId : Nat) (users : List Nat) (status : Nat) : Prog calls Bool :=
  ask (C := calls) (.updateMemberStatus groupId users status)

/-- `insert into IMGroupMember`. -/
def insertMember (groupId userId status : Nat) : Prog calls Unit :=
  ask (C := calls) (.insertMember groupId userId status)

/-- `delete from IMGroupMember`. -/
def deleteMembers (groupId : Nat) : Prog calls Bool := ask (C := calls) (.deleteMembers groupId)

/-- `HSET group_member_<id>`. -/
def hset (groupId userId : Nat) : Prog calls Unit := ask (C := calls) (.hset groupId userId)

/-- `HDEL group_member_<id>`. -/
def hdel (groupId userId : Nat) : Prog calls Unit := ask (C := calls) (.hdel groupId userId)

/-- `HGET group_member_<id>`: is there a time? -/
def hget (groupId userId : Nat) : Prog calls Bool := ask (C := calls) (.hget groupId userId)

/-- `HGETALL group_member_<id>`: the users. -/
def hgetAll (groupId : Nat) : Prog calls (List Nat) := ask (C := calls) (.hgetAll groupId)

/-- `EXISTS group_member_<id>`. -/
def isExists (groupId : Nat) : Prog calls Bool := ask (C := calls) (.isExists groupId)

/-- `HSET group_set_<id>`. -/
def hsetPush (groupId userId status : Nat) : Prog calls Unit := ask (C := calls) (.hsetPush groupId userId status)

/-- `CProxyConn::AddResponsePdu`. -/
def addResponsePdu (connUuid : Nat) (msg : Msg) : Prog calls Unit := ask (C := calls) (.addResponsePdu connUuid msg)

/-! ## CGroupModel -/

/-- `GROUP_TYPE_TMP`. -/
def groupTypeTmp : Nat := 0x02

/-- `GroupType_IsValid`. -/
def groupTypeIsValid (type : Nat) : Bool := type = groupTypeNormal ∨ type = groupTypeTmp

/-- `GroupModifyType_IsValid`. -/
def groupModifyTypeIsValid (type : Nat) : Bool := type = groupModifyTypeAdd ∨ type = groupModifyTypeDel

/-- `CGroupModel::insertNewGroup`: a new group has status 0 and version 1. -/
def insertNewGroup (userId : Nat) (groupName groupAvatar : String) (groupType memberCnt : Nat) : Prog calls Nat :=
  insertGroup groupName groupAvatar userId groupType memberCnt 0 1

/-- `CGroupModel::insertNewMember`: who has a row gets status 0 back, the others get a row, and redis gets all. -/
def insertNewMember (groupId : Nat) (setUsers : UserSet) : Prog calls Bool := do
  if groupId ≠ 0 ∧ setUsers.users ≠ [] then
    let setHasUser := UserSet.ofList (← selectHasUser groupId setUsers.users)
    when (setHasUser.users ≠ []) do
      let _ ← updateMemberStatus groupId setHasUser.users 0
    let newUsers := setUsers.users.filter fun u => u ∉ setHasUser.users
    each (fun u => insertMember groupId u 0) newUsers
    when (newUsers.length ≠ 0) (addUserCnt groupId newUsers.length)
    each (hset groupId) setUsers.users
    return true
  else return false

/-- `CGroupModel::getGroupUser`. -/
def getGroupUser (groupId : Nat) : Prog calls (List Nat) := hgetAll groupId

/-- `CGroupModel::clearGroupMember`. -/
def clearGroupMember (groupId : Nat) : Prog calls Unit := do
  let _ ← deleteMembers groupId
  let mapRet ← hgetAll groupId
  each (hdel groupId) mapRet

/-- `CGroupModel::createGroup`: the new id, or 0. -/
def createGroup (userId : Nat) (groupName groupAvatar : String) (groupType : Nat) (setMember : UserSet) : Prog calls Nat := do
  if groupName = "" ∨ setMember.users = [] then return 0
  else
    let groupId ← insertNewGroup userId groupName groupAvatar groupType setMember.users.length
    clearGroupMember groupId
    let _ ← insertNewMember groupId setMember
    return groupId

/-- `CGroupModel::removeRepeatUser`: the users that redis does not have. -/
def removeRepeatUser (groupId : Nat) (setUser : List Nat) : Prog calls (List Nat) :=
  Prog.filter (fun u => do return !(← hget groupId u)) setUser

/-- `CGroupModel::addMember`: whether somebody was added, who, and the members. -/
def addMember (groupId : Nat) (setUser : UserSet) : Prog calls (Bool × UserSet × List Nat) := do
  let rest ← removeRepeatUser groupId setUser.users
  let setUser := setUser.filter (· ∈ rest)
  let ret ← insertNewMember groupId setUser
  let curUserId ← getGroupUser groupId
  return (ret, setUser, curUserId)

/-- `CGroupModel::removeMember`: true, and the members, unless nobody is to be removed. -/
def removeMember (groupId : Nat) (setUser : UserSet) : Prog calls (Bool × UserSet × List Nat) := do
  if setUser.users = [] then return (true, setUser, [])
  else
    let _ ← updateMemberStatus groupId setUser.users 1
    each (hdel groupId) setUser.users
    let curUserId ← getGroupUser groupId
    return (true, setUser, curUserId)

/-- `CGroupModel::removeGroup`. `nCreator` is not initialised: without a row it has any value. -/
def removeGroup (nCreator userId groupId : Nat) : Prog calls (Bool × List Nat) := do
  let creators ← selectCreator groupId
  let nCreator := creators.getLastD nCreator
  let ret : Bool ← (if nCreator = 0 ∨ nCreator = userId then updateStatus groupId 0 else return false)
  if ret then
    let setGroupUsers := UserSet.ofList (← selectMembers groupId)
    let (ret, _, curUserId) ← removeMember groupId setGroupUsers
    return (ret, curUserId)
  else return (false, [])

/-- `CGroupModel::isInGroup`. -/
def isInGroup (userId groupId : Nat) : Prog calls Bool := hget groupId userId

/-- `CGroupModel::isValidateGroupId`: the group has members. -/
def isValidateGroupId (groupId : Nat) : Prog calls Bool := isExists groupId

/-- What a row says of the permission: anyone may add to a temporary group, and the creator may do everything. -/
def permits (userId type : Nat) : Nat × Nat → Bool
  | (creator, groupType) =>
    groupTypeIsValid groupType && (groupType == groupTypeTmp && type == groupModifyTypeAdd || creator == userId)

/-- `CGroupModel::hasModifyPermission`. -/
def hasModifyPermission (userId groupId type : Nat) : Prog calls Bool := do
  if userId = 0 then return true
  else return (← selectPermission groupId).any (permits userId type)

/-- `CGroupModel::incGroupVersion`. -/
def incGroupVersion (groupId : Nat) : Prog calls Bool := incVersion groupId

/-- `CGroupModel::modifyGroupMember`. -/
def modifyGroupMember (userId groupId type : Nat) (setUserId : UserSet) : Prog calls (Bool × UserSet × List Nat) := do
  if ← hasModifyPermission userId groupId type then
    let (ret, setUserId, curUserId) ← (
      if type = groupModifyTypeAdd then addMember groupId setUserId
      else if type = groupModifyTypeDel then removeMember groupId setUserId
      else return (false, setUserId, []))
    when ret do
      let _ ← incGroupVersion groupId
    return (ret, setUserId, curUserId)
  else return (false, setUserId, [])

/-- `CGroupModel::setPush`; there is one setting. -/
def setPush (userId groupId status : Nat) : Prog calls Bool := do
  if ← isInGroup userId groupId then
    hsetPush groupId userId status
    return true
  else return false

/-- The info of a group whose version is newer, without the members. -/
def newerInfo (versions : List GroupVersionInfo) (r : GroupRow) : Option GroupInfo :=
  match versions.find? (·.groupId = r.id) with
  | some v =>
    if v.version < r.version ∧ groupTypeIsValid r.type then
      some { groupId := r.id, version := r.version, groupName := r.name, groupAvatar := r.avatar, groupCreatorId := r.creator,
             groupType := r.type, shieldStatus := 0, groupMemberList := [] }
    else none
  | none => none

/-- `CGroupModel::fillGroupMember`. -/
def fillGroupMember : List GroupInfo → Prog calls (List GroupInfo)
  | [] => pure []
  | info :: infos => do
    let users ← getGroupUser info.groupId
    let rest ← fillGroupMember infos
    return { info with groupMemberList := users } :: rest

/-- `CGroupModel::getGroupInfo`, of a map from group ids to the versions that the client has. -/
def getGroupInfo (mapGroupId : List GroupVersionInfo) : Prog calls (List GroupInfo) := do
  if mapGroupId = [] then return []
  else
    let rows ← selectGroups (mapGroupId.map (·.groupId))
    fillGroupMember (rows.filterMap (newerInfo mapGroupId))

/-! ## The handlers -/

namespace Action

/-- `DB_PROXY::createGroup`. -/
def createGroup (connUuid : Nat) (msg : IMGroupCreateReq) : Prog calls Unit :=
  when (groupTypeIsValid msg.groupType) do
    let setMember := UserSet.ofList msg.memberIdList
    let groupId ← Groups.createGroup msg.userId msg.groupName msg.groupAvatar msg.groupType setMember
    addResponsePdu connUuid (.imGroupCreateRsp
      { userId := msg.userId, resultCode := if groupId ≠ 0 then 0 else 1, groupId := if groupId ≠ 0 then some groupId else none
        groupName := msg.groupName, userIdList := setMember.users, attachData := some (msg.attachData.getD []) })

/-- The versions that a client has of groups that have members; the last one counts. -/
def collectVersions (mapGroupId : List GroupVersionInfo) : List GroupVersionInfo → Prog calls (List GroupVersionInfo)
  | [] => pure mapGroupId
  | v :: vs => do
    if ← isValidateGroupId v.groupId then collectVersions (v :: mapGroupId.filter (·.groupId ≠ v.groupId)) vs
    else collectVersions mapGroupId vs

/-- What `DB_PROXY::getGroupInfo` finds. -/
def groupInfos (msg : IMGroupInfoListReq) : Prog calls (List GroupInfo) := do
  let mapGroupId ← collectVersions [] msg.groupVersionList
  Groups.getGroupInfo mapGroupId

/-- `DB_PROXY::getGroupInfo`. -/
def getGroupInfo (connUuid : Nat) (msg : IMGroupInfoListReq) : Prog calls Unit := do
  let groupInfoList ← groupInfos msg
  addResponsePdu connUuid (.imGroupInfoListRsp
    { userId := msg.userId, groupInfoList, attachData := some (msg.attachData.getD []) })

/-- `DB_PROXY::modifyMember`. -/
def modifyMember (connUuid : Nat) (msg : IMGroupChangeMemberReq) : Prog calls Unit := do
  when (groupModifyTypeIsValid msg.changeType) do
    if ← isValidateGroupId msg.groupId then
      let (ret, setUserId, curUserId) ←
        modifyGroupMember msg.userId msg.groupId msg.changeType (UserSet.ofList msg.memberIdList)
      addResponsePdu connUuid (.imGroupChangeMemberRsp
        { userId := msg.userId, changeType := msg.changeType, resultCode := if ret then 0 else 1, groupId := msg.groupId
          curUserIdList := if ret then curUserId else [], chgUserIdList := if ret then setUserId.users else []
          attachData := some (msg.attachData.getD []) })

/-- `DB_PROXY::setGroupPush`. -/
def setGroupPush (connUuid : Nat) (msg : IMGroupShieldReq) : Prog calls Unit := do
  if ← isValidateGroupId msg.groupId then
    let ret ← setPush msg.userId msg.groupId msg.shieldStatus
    addResponsePdu connUuid (.imGroupShieldRsp
      { userId := msg.userId, groupId := some msg.groupId, resultCode := if ret then 0 else 1
        attachData := some (msg.attachData.getD []) })

/-- What `DB_PROXY::sendMessage` does here: only a member may send; the message goes to other tables. -/
def mayWrite (fromUserId toSessionId : Nat) : Prog calls Bool := do
  if ← isValidateGroupId toSessionId then isInGroup fromUserId toSessionId else return false

end Action

end TeamTalk.DbProxy.Groups
