import TeamTalk.DbProxy.Tidy

/-!
# Every handler gives back what it holds

Function by function, for the classes of `Models` and the handlers. `removeRepeatUser`, with what calls it, is the only one that
can end with a connection.
-/

namespace TeamTalk.DbProxy

open Prog

variable {gets : Gets} {cs : List Conn}

/-- Every call of `GetDBConn` and `GetCacheConn`. -/
def AnyGet : Gets := fun _ _ => True

/-- A function that is called with no connection in hand. -/
abbrev Tidy {α : Type} (p : Handler α) : Prop := Keeps AnyGet [] p

/-- Another pool can be asked for beside a connection. -/
theorem beside_other {pool pool' : Pool} {site : Site} (h : gets pool' .other) (hne : pool' ≠ pool) :
    Beside gets pool site pool' .other := ⟨h, Or.inl hne⟩

/-- Some calls ask for the same pool beside a connection. -/
theorem beside_outer {pool : Pool} {site : Site} (h : gets pool .other) (houter : site.outer = true) :
    Beside gets pool site pool .other := ⟨h, Or.inr ⟨houter, rfl⟩⟩

/-- One command of redis. -/
theorem keeps_withCommand {α : Type} {pool : Pool} {dflt : α} {cmd : Command} {f : cmd.Reply → α} (hgets : gets pool .other) :
    Keeps gets cs (withConn pool .other dflt fun conn => do
      let r ← command conn cmd
      return f r) :=
  keeps_withConn hgets rfl fun _ => keeps_command.bind fun _ => keeps_pure

/-! ## Sessions -/

/-- `CSessionModel::getSessionId`: one query. -/
theorem tidy_getSessionId {userId peerId type : Nat} {isAll : Bool} : Tidy (SessionModel.getSessionId userId peerId type isAll) :=
  keeps_withConn trivial rfl fun _ => keeps_query.bind fun _ => keeps_pure

/-- `CSessionModel::updateSession`: one statement that changes a row. -/
theorem tidy_updateSession {sessionId updateTime : Nat} : Tidy (SessionModel.updateSession sessionId updateTime) :=
  keeps_change trivial

/-- `CSessionModel::removeSession`: one statement that changes a row. -/
theorem tidy_removeSession {sessionId : Nat} : Tidy (SessionModel.removeSession sessionId) := keeps_change trivial

/-- `CSessionModel::addSession`: a lookup, and then an update or an insert. -/
theorem tidy_addSession {userId peerId type : Nat} : Tidy (SessionModel.addSession userId peerId type) := by
  refine tidy_getSessionId.bind fun sessionId => keeps_time.bind fun now => ?_
  refine keeps_withConn trivial rfl fun conn => ?_
  split
  · exact (keeps_update List.mem_cons_self).bind fun _ => keeps_pure
  · exact (keeps_update List.mem_cons_self).bind fun _ => keeps_pure

/-! ## Groups -/

/-- `CSyncCenter::updateTotalUpdate`: one command. -/
theorem keeps_updateTotalUpdate (h : gets .unread .other) : Keeps gets cs SyncCenter.updateTotalUpdate :=
  keeps_withCommand h

/-- `CSyncCenter::updateLastUpdateGroup`: one command. -/
theorem tidy_updateLastUpdateGroup : Tidy SyncCenter.updateLastUpdateGroup := keeps_withCommand trivial

/-- `CGroupModel::isInGroup`: one command. -/
theorem tidy_isInGroup {userId groupId : Nat} : Tidy (GroupModel.isInGroup userId groupId) := keeps_withCommand trivial

/-- `CGroupModel::isValidateGroupId`: one command. -/
theorem tidy_isValidateGroupId {groupId : Nat} : Tidy (GroupModel.isValidateGroupId groupId) :=
  keeps_withConn trivial rfl fun _ => keeps_command

/-- `CGroupModel::getUserJoinTime`, which is also called while a connection of another pool is held. -/
theorem keeps_getUserJoinTime (h : gets .groupMember .other) : Keeps gets cs GroupModel.getUserJoinTime :=
  keeps_withCommand h

/-- `CGroupModel::updateGroupChat`, which is also called while a connection of the same pool is held. -/
theorem keeps_updateGroupChat (h : gets .master .other) : Keeps gets cs GroupModel.updateGroupChat :=
  keeps_withConn h rfl fun _ => (keeps_update List.mem_cons_self).bind fun _ => keeps_pure

/-- `CGroupModel::getGroupUser`: one command. -/
theorem tidy_getGroupUser : Tidy GroupModel.getGroupUser := keeps_withCommand trivial

/-- `CGroupModel::getGroupVersion`: one query, if there are groups. -/
theorem tidy_getGroupVersion {groupIds : Nat} : Tidy (GroupModel.getGroupVersion groupIds) := by
  unfold GroupModel.getGroupVersion
  split
  · exact keeps_select trivial
  · exact keeps_pure

/-- `CGroupModel::getUserGroup`: the groups are selected first, and their versions after. -/
theorem tidy_getUserGroup : Tidy GroupModel.getUserGroup := by
  refine Keeps.bind (keeps_select trivial) fun groupIds => ?_
  split
  · exact tidy_getGroupVersion
  · exact keeps_pure

/-- `CGroupModel::fillGroupMember`: the members of one group after the other. -/
theorem tidy_fillGroupMember {groups : Nat} : Tidy (GroupModel.fillGroupMember groups) :=
  keeps_times (tidy_getGroupUser.bind fun _ => keeps_pure) groups

/-- `CGroupModel::getGroupInfo`: the connection of the query is given back before members are read. -/
theorem tidy_getGroupInfo {groupIds : Nat} : Tidy (GroupModel.getGroupInfo groupIds) := by
  unfold GroupModel.getGroupInfo
  split
  · refine Keeps.bind (keeps_withConn trivial rfl fun _ => keeps_query.bind fun rows => ?_) fun groups => ?_
    · exact (keeps_count keeps_decides _).bind fun _ => keeps_pure
    · cases groups with
      | none => exact keeps_pure
      | some groups =>
        dsimp only
        split
        · exact tidy_fillGroupMember
        · exact keeps_pure
  · exact keeps_pure

/-- `CGroupModel::hasModifyPermission`: one query, unless the user is 0. -/
theorem tidy_hasModifyPermission {userId : Nat} : Tidy (GroupModel.hasModifyPermission userId) := by
  unfold GroupModel.hasModifyPermission
  split
  · exact keeps_pure
  · refine keeps_withConn trivial rfl fun _ => keeps_query.bind fun rows => ?_
    exact (keeps_count keeps_decides _).bind fun _ => keeps_pure

/-- `CGroupModel::insertNewGroup`: one insert. -/
theorem tidy_insertNewGroup : Tidy GroupModel.insertNewGroup :=
  keeps_withConn trivial rfl fun _ => (keeps_update List.mem_cons_self).bind fun _ => keeps_pure

/-- `CGroupModel::clearGroupMember`: the table first, then redis. -/
theorem tidy_clearGroupMember : Tidy GroupModel.clearGroupMember := by
  refine Keeps.bind (keeps_change trivial) fun _ => ?_
  refine keeps_withConn trivial rfl fun _ => keeps_command.bind fun _ => ?_
  exact keeps_times (keeps_command.bind fun _ => keeps_pure) _

/-- `CGroupModel::insertNewMember` holds a connection of the database while it writes to redis, and gives back both. -/
theorem tidy_insertNewMember {groupId users : Nat} : Tidy (GroupModel.insertNewMember groupId users) := by
  unfold GroupModel.insertNewMember
  split
  · refine Keeps.bind (keeps_withConn trivial rfl fun _ => keeps_query.bind fun _ => keeps_pure) fun hasUser => ?_
    cases hasUser with
    | none => exact keeps_pure
    | some hasUser =>
      refine keeps_withConn trivial rfl fun conn => ?_
      refine keeps_withConn (beside_other trivial (by decide)) rfl fun cacheConn => ?_
      -- the statements are made on the connection that was obtained first
      have hupdate : ∀ {u}, Keeps (Beside (Beside AnyGet .master .other) .groupMember .other) [cacheConn, conn]
          (executeUpdate conn u) := keeps_update (List.mem_cons_of_mem _ List.mem_cons_self)
      refine Keeps.bind (keeps_when (hupdate.bind fun _ => keeps_pure)) fun _ => ?_
      refine Keeps.bind (keeps_times (keeps_decides.bind fun _ => ?_) users) fun _ => ?_
      · split
        · exact hupdate.bind fun _ => keeps_pure
        · exact keeps_pure
      · refine keeps_decides.bind fun _ => (keeps_when (hupdate.bind fun _ => keeps_pure)).bind fun _ => ?_
        refine (keeps_count keeps_decides users).bind fun kept => ?_
        exact (keeps_times (keeps_command.bind fun _ => keeps_pure) kept).bind fun _ => keeps_pure
  · exact keeps_pure

/-- `CGroupModel::removeMember` holds two connections, and gives back both before it reads who is left. -/
theorem tidy_removeMember {users : Nat} : Tidy (GroupModel.removeMember users) := by
  unfold GroupModel.removeMember
  split
  · exact keeps_pure
  · refine Keeps.bind ?_ fun ret => (keeps_when (tidy_getGroupUser.bind fun _ => keeps_pure)).bind fun _ => keeps_pure
    refine keeps_withConn trivial rfl fun conn => ?_
    refine keeps_withConn (beside_other trivial (by decide)) rfl fun cacheConn => ?_
    refine (keeps_update (List.mem_cons_of_mem _ List.mem_cons_self)).bind fun _ => ?_
    exact (keeps_times (keeps_command.bind fun _ => keeps_pure) users).bind fun _ => keeps_pure

/-- `CGroupModel::removeSession`: a lookup and an update for each user. -/
theorem tidy_groupRemoveSession {groupId users : Nat} : Tidy (GroupModel.removeSession groupId users) :=
  keeps_times (keeps_pick.bind fun _ => tidy_getSessionId.bind fun _ => tidy_removeSession.bind fun _ => keeps_pure) users

/-- `CGroupModel::setPush`: one command for a member, after the one that asks whether he is one. -/
theorem tidy_setPush {userId groupId : Nat} : Tidy (GroupModel.setPush userId groupId) := by
  refine tidy_isInGroup.bind fun isIn => ?_
  split
  · exact keeps_withCommand trivial
  · exact keeps_pure

/-- `CGroupModel::getPush`: one command, if there are users. -/
theorem tidy_getPush {users : Nat} : Tidy (GroupModel.getPush users) := by
  unfold GroupModel.getPush
  split
  · exact keeps_withCommand trivial
  · exact keeps_pure

/-! ## Messages -/

/-- `CAudioModel::readAudios`: all queries on one connection. -/
theorem tidy_readAudios {msgs : Nat} : Tidy (AudioModel.readAudios msgs) := by
  unfold AudioModel.readAudios
  split
  · refine keeps_withConn trivial rfl fun conn => keeps_times (keeps_decides.bind fun _ => ?_) msgs
    split
    · exact keeps_query.bind fun _ => keeps_pure
    · exact keeps_pure
  · exact keeps_pure

/-- `CAudioModel::saveAudioInfo`: the upload is done before a connection is taken. -/
theorem tidy_saveAudioInfo {fromId toId createTime : Nat} {audioData : Bytes} :
    Tidy (AudioModel.saveAudioInfo fromId toId createTime audioData) := by
  refine keeps_upload.bind fun path => ?_
  split
  · exact keeps_withConn trivial rfl fun _ => (keeps_update List.mem_cons_self).bind fun _ => keeps_pure
  · exact keeps_pure

/-- `CMessageModel::resetMsgId`, which `addRelation` calls with a connection of the database. -/
theorem keeps_resetMsgId {relateId : Nat} (h : gets .unread .other) : Keeps gets cs (MessageModel.resetMsgId relateId) :=
  keeps_withCommand h

/-- `CMessageModel::getMsgId`: one command. -/
theorem tidy_getMsgId {relateId : Nat} : Tidy (MessageModel.getMsgId relateId) := keeps_withCommand trivial

/-- `CMessageModel::incMsgCount`: one command. -/
theorem tidy_incMsgCount : Tidy MessageModel.incMsgCount := keeps_withCommand trivial

/-- `CMessageModel::sendMessage`: an insert, and then a count. -/
theorem tidy_sendSingle {relateId fromId toId msgType createTime msgId : Nat} {content : Bytes} :
    Tidy (MessageModel.sendMessage relateId fromId toId msgType createTime msgId content) := by
  unfold MessageModel.sendMessage
  split
  · exact keeps_pure
  · exact Keeps.bind (keeps_change trivial) fun _ => (keeps_when tidy_incMsgCount).bind fun _ => keeps_pure

/-- `CMessageModel::sendAudioMessage`: the audio is saved before the message. -/
theorem tidy_sendSingleAudio {relateId fromId toId msgType createTime msgId : Nat} {content : Bytes} :
    Tidy (MessageModel.sendAudioMessage relateId fromId toId msgType createTime msgId content) := by
  unfold MessageModel.sendAudioMessage
  split
  · exact keeps_pure
  · refine tidy_saveAudioInfo.bind fun audioId => ?_
    split
    · exact tidy_sendSingle
    · exact keeps_pure

/-- `CRelationModel::addRelation` resets the message id while it holds its connection. -/
theorem tidy_addRelation {smallId bigId : Nat} : Tidy (RelationModel.addRelation smallId bigId) := by
  refine keeps_withConn trivial rfl fun conn => keeps_time.bind fun now => keeps_query.bind fun rows => ?_
  split
  · exact (keeps_update List.mem_cons_self).bind fun _ => keeps_pure
  · refine (keeps_update List.mem_cons_self).bind fun result => Keeps.bind (keeps_when ?_) fun _ => keeps_pure
    exact (keeps_resetMsgId (beside_other trivial (by decide))).bind fun _ => keeps_pure

/-- `CRelationModel::getRelationId`: the connection of the query is given back before a relation is added. -/
theorem tidy_getRelationId {userAId userBId : Nat} {add : Bool} : Tidy (RelationModel.getRelationId userAId userBId add) := by
  unfold RelationModel.getRelationId
  split
  · exact keeps_pure
  · refine Keeps.bind (keeps_withConn trivial rfl fun _ => keeps_query.bind fun _ => keeps_pure) fun found => ?_
    cases found with
    | none => exact keeps_pure
    | some relationId =>
      dsimp only
      split
      · exact tidy_addRelation
      · exact keeps_pure

/-- `CMessageModel::getMessage`: the relation, the messages, and their audios, each on a connection of its own. -/
theorem tidy_getMessage {userId peerId : Nat} : Tidy (MessageModel.getMessage userId peerId) := by
  refine tidy_getRelationId.bind fun relateId => ?_
  split
  · exact Keeps.bind (keeps_select trivial) fun _ => tidy_readAudios
  · exact keeps_pure

/-- `CMessageModel::getLastMsg`: the relation, and then one query. -/
theorem tidy_getLastMsg {fromId toId : Nat} : Tidy (MessageModel.getLastMsg fromId toId) := by
  refine tidy_getRelationId.bind fun relateId => ?_
  split
  · exact Keeps.bind (keeps_select trivial) fun _ => keeps_pure
  · exact keeps_pure

/-- `CMessageModel::getUnreadMsgCount`: the counts first, and then the last message of each. -/
theorem tidy_getUnreadMsgCount {userId : Nat} : Tidy (MessageModel.getUnreadMsgCount userId) := by
  refine Keeps.bind (keeps_withConn trivial rfl fun _ => keeps_command) fun unread => ?_
  exact keeps_times (keeps_pick.bind fun _ => tidy_getLastMsg) _

/-- `CMessageModel::getUnReadCntAll`: one command. -/
theorem tidy_getUnReadCntAll : Tidy MessageModel.getUnReadCntAll := keeps_withCommand trivial

/-- `CMessageModel::getMsgByMsgId`: as `getMessage`, if there are ids. -/
theorem tidy_getMsgByMsgId {userId peerId msgIds : Nat} : Tidy (MessageModel.getMsgByMsgId userId peerId msgIds) := by
  unfold MessageModel.getMsgByMsgId
  split
  · refine tidy_getRelationId.bind fun relateId => ?_
    split
    · exact Keeps.bind (keeps_select trivial) fun _ => tidy_readAudios
    · exact keeps_pure
  · exact keeps_pure

/-! ## Messages of groups -/

/-- `CGroupMessageModel::resetMsgId`: one command. -/
theorem tidy_groupResetMsgId {groupId : Nat} : Tidy (GroupMessageModel.resetMsgId groupId) := keeps_withCommand trivial

/-- `CGroupMessageModel::getMsgId`: one command. -/
theorem tidy_groupGetMsgId {groupId : Nat} : Tidy (GroupMessageModel.getMsgId groupId) := keeps_withCommand trivial

/-- `CGroupMessageModel::incMessageCount`: up to three commands on one connection. -/
theorem keeps_incMessageCount (h : gets .unread .other) : Keeps gets cs GroupMessageModel.incMessageCount := by
  refine keeps_withConn h rfl fun _ => keeps_command.bind fun _ => keeps_command.bind fun groupCount => ?_
  split
  · exact keeps_command.bind fun _ => keeps_pure
  · exact keeps_pure

/-- The connection that is used again is not held any more. -/
theorem keeps_clearMessageCount (h : gets .unread .other) : Keeps gets cs GroupMessageModel.clearMessageCount := by
  intro s hs
  refine Safe.bind (safe_getConn (hs.gets .unread .other h)
    (Q := fun c s' => c.elim (Back s s') fun c =>
      s'.held = ⟨c, .other⟩ :: s.held ∧ s'.leak = s.leak ∧ s'.null = s.null) ?_ ?_) ?_
  · exact ⟨rfl, Bool.or_false _, Bool.or_false _⟩
  · exact fun id => ⟨rfl, Bool.or_false _, Bool.or_false _⟩
  · intro c s1 h1
    cases c with
    | none => exact safe_pure h1
    | some c =>
      obtain ⟨hheld, hleak, hnull⟩ := h1
      have hmem : c ∈ s1.held.map Held.conn := by
        rw [hheld]
        exact List.mem_cons_self
      refine Safe.bind (Q := fun r (s2 : Watch) => s2.held = s1.held ∧ s2.leak = s1.leak ∧ s2.null = s1.null ∧
        (r.isSome = true → s2.reuse = true)) (safe_ask ?_ fun r => ?_) ?_
      · refine Or.inr fun c' hc' => ?_
        obtain rfl := Option.some.inj hc'
        exact hmem
      · refine ⟨rfl, Bool.or_false _, Bool.or_false _, ?_⟩
        intro hr
        obtain ⟨n, rfl⟩ := Option.isSome_iff_exists.mp hr
        exact Bool.or_true _
      · intro r s2 h2
        refine Safe.bind (Q := fun _ (s3 : Watch) => Back s s3 ∧ s3.reuse = s2.reuse) (safe_ask ?_ fun _ => ?_) ?_
        · refine Or.inr fun c' hc' => ?_
          obtain rfl := Option.some.inj hc'
          rw [h2.1]
          exact hmem
        · refine ⟨⟨?_, ?_, ?_⟩, Bool.or_false _⟩
          · change s2.held.eraseP _ = _
            rw [h2.1, hheld]
            exact List.eraseP_cons_of_pos (decide_eq_true rfl)
          · exact (Bool.or_false _).trans (h2.2.1.trans hleak)
          · exact (Bool.or_false _).trans (h2.2.2.1.trans hnull)
        · intro _ s3 h3
          split
          · rename_i hr
            refine Safe.bind (Q := fun _ s4 => Back s s4) (safe_ask ?_ fun _ => ?_) fun _ _ h4 => safe_pure h4
            · exact Or.inl (h3.2.trans (h2.2.2.2 hr))
            · exact Back.trans h3.1 ⟨rfl, Bool.or_false _, Bool.or_false _⟩
          · exact safe_pure h3.1

/-- `CGroupMessageModel::sendMessage` calls three functions that take connections while it holds its own. -/
theorem tidy_sendGroup {fromId groupId msgType createTime msgId : Nat} {content : Bytes} :
    Tidy (GroupMessageModel.sendMessage fromId groupId msgType createTime msgId content) := by
  refine tidy_isInGroup.bind fun isIn => Keeps.bind (keeps_when ?_) fun _ => keeps_pure
  refine keeps_withConn trivial rfl fun conn => (keeps_update List.mem_cons_self).bind fun result => ?_
  split
  · refine (keeps_updateGroupChat (beside_outer trivial rfl)).bind fun _ => ?_
    refine (keeps_incMessageCount (beside_other trivial (by decide))).bind fun _ => ?_
    exact keeps_clearMessageCount (beside_other trivial (by decide))
  · exact keeps_pure

/-- `CGroupMessageModel::sendAudioMessage`: the audio is saved before the message. -/
theorem tidy_sendGroupAudio {fromId groupId msgType createTime msgId : Nat} {content : Bytes} :
    Tidy (GroupMessageModel.sendAudioMessage fromId groupId msgType createTime msgId content) := by
  unfold GroupMessageModel.sendAudioMessage
  split
  · exact keeps_pure
  · refine tidy_isInGroup.bind fun isIn => ?_
    split
    · refine tidy_saveAudioInfo.bind fun audioId => ?_
      split
      · exact tidy_sendGroup
      · exact keeps_pure
    · exact keeps_pure

/-- `CGroupMessageModel::getLastMsg`: one query. -/
theorem keeps_groupGetLastMsg (h : gets .slave .other) : Keeps gets cs GroupMessageModel.getLastMsg :=
  Keeps.bind (keeps_select h) fun _ => keeps_pure

/-- `CGroupMessageModel::getMessage` asks for the time of joining while it holds its connection. -/
theorem tidy_groupGetMessage : Tidy GroupMessageModel.getMessage := by
  refine Keeps.bind (keeps_withConn trivial rfl fun conn => ?_) fun _ => tidy_readAudios
  refine (keeps_getUserJoinTime (beside_other trivial (by decide))).bind fun _ => keeps_query.bind fun rows => ?_
  exact keeps_count keeps_decides _

/-- `CGroupMessageModel::getUnreadMsgCount` asks for last messages while it holds its connection. -/
theorem tidy_groupGetUnreadMsgCount : Tidy GroupMessageModel.getUnreadMsgCount := by
  refine Keeps.bind (keeps_select trivial) fun groupIds => ?_
  refine keeps_withConn trivial rfl fun conn => keeps_times (keeps_command.bind fun groupCnt => ?_) groupIds
  split
  · refine keeps_command.bind fun _ => keeps_decides.bind fun _ => ?_
    split
    · exact keeps_groupGetLastMsg (beside_other trivial (by decide))
    · exact keeps_pure
  · exact keeps_pure

/-- `CGroupMessageModel::getUnReadCntAll`: two commands for each group, on one connection. -/
theorem tidy_groupGetUnReadCntAll : Tidy GroupMessageModel.getUnReadCntAll := by
  refine Keeps.bind (keeps_select trivial) fun groupIds => ?_
  refine keeps_withConn trivial rfl fun conn => keeps_times (keeps_command.bind fun groupCnt => ?_) groupIds
  split
  · exact keeps_command.bind fun _ => keeps_pure
  · exact keeps_pure

/-- `CGroupMessageModel::getMsgByMsgId`: as `getMessage`, for a member. -/
theorem tidy_groupGetMsgByMsgId {userId groupId msgIds : Nat} : Tidy (GroupMessageModel.getMsgByMsgId userId groupId msgIds) := by
  unfold GroupMessageModel.getMsgByMsgId
  split
  · refine tidy_isInGroup.bind fun isIn => ?_
    split
    · exact tidy_groupGetMessage
    · exact keeps_pure
  · exact keeps_pure

/-! ## Recent sessions -/

/-- After a result set that is `NULL` there is only the call on it. -/
theorem keeps_Judgment (h : gets .slave .other) : Keeps gets cs SessionModel.Judgment := by
  refine keeps_withConn h rfl fun conn s hs => ?_
  refine Safe.bind (Q := fun rows (s' : Watch) => rows.elim (s'.null = true) fun _ => Back s s') (safe_ask ?_ fun rows => ?_) fun rows s' h' => ?_
  · refine Or.inr fun c' hc' => ?_
    obtain rfl := Option.some.inj hc'
    exact hs.held _ List.mem_cons_self
  · cases rows with
    | none => exact Bool.or_true _
    | some rows => exact ⟨rfl, Bool.or_false _, Bool.or_false _⟩
  · cases rows with
    | none => exact ⟨h', fun r : Empty => by cases r⟩
    | some rows =>
      refine ((keeps_decides.bind fun _ => keeps_pure : Keeps (Beside gets .slave .other) (conn :: cs) _) s'
        (Ready.back hs h')).mono fun _ _ hback => Back.trans h' hback

/-- `CSessionModel::fillSessionMsg`: the last message of each contact. -/
theorem tidy_fillSessionMsg {userId contacts : Nat} : Tidy (SessionModel.fillSessionMsg userId contacts) := by
  refine keeps_times (keeps_decides.bind fun _ => ?_) contacts
  split
  · exact keeps_pick.bind fun _ => tidy_getLastMsg
  · exact keeps_groupGetLastMsg trivial

/-- `CSessionModel::getRecentSession` calls `Judgment` for each row while it holds its connection. -/
theorem tidy_getRecentSession {userId : Nat} : Tidy (SessionModel.getRecentSession userId) := by
  refine Keeps.bind (keeps_withConn trivial rfl fun conn => keeps_query.bind fun rows => ?_) fun contacts => ?_
  · exact keeps_count (keeps_Judgment (beside_outer trivial rfl)) _
  · split
    · exact tidy_fillSessionMsg
    · exact keeps_pure

/-! ## Users, departments and files -/

/-- `CUserModel::getUsers`: one query, if there are ids. -/
theorem tidy_getUsers {ids : Nat} : Tidy (UserModel.getUsers ids) := by
  unfold UserModel.getUsers
  split
  · exact keeps_pure
  · exact keeps_select trivial

/-- `CUserModel::updateUserSignInfo` tells redis while it holds its connection. -/
theorem tidy_updateUserSignInfo {signInfo : Bytes} : Tidy (UserModel.updateUserSignInfo signInfo) := by
  unfold UserModel.updateUserSignInfo
  split
  · exact keeps_pure
  · refine keeps_withConn trivial rfl fun conn => (keeps_update List.mem_cons_self).bind fun result => ?_
    exact (keeps_when (keeps_updateTotalUpdate (beside_other trivial (by decide)))).bind fun _ => keeps_pure

/-- `CUserModel::clearUserCounter`: up to two commands on one connection. -/
theorem tidy_clearUserCounter {sessionType : Nat} : Tidy (UserModel.clearUserCounter sessionType) := by
  unfold UserModel.clearUserCounter
  split
  · refine keeps_withConn trivial rfl fun conn => ?_
    split
    · exact keeps_command.bind fun _ => keeps_pure
    · refine keeps_command.bind fun groupCount => ?_
      split
      · exact keeps_command.bind fun _ => keeps_pure
      · exact keeps_pure
  · exact keeps_pure

/-- `CDepartModel::getDepts`: one query, if there are ids. -/
theorem tidy_getDepts {deptIds : Nat} : Tidy (DepartModel.getDepts deptIds) := by
  unfold DepartModel.getDepts
  split
  · exact keeps_pure
  · exact keeps_select trivial

/-- `CGroupModel::createGroup`: one function after the other. -/
theorem tidy_createGroup {groupName : Bytes} {members : Nat} : Tidy (GroupModel.createGroup groupName members) := by
  unfold GroupModel.createGroup
  split
  · exact keeps_pure
  · refine tidy_insertNewGroup.bind fun groupId => ?_
    cases groupId with
    | none => exact keeps_pure
    | some groupId =>
      refine tidy_groupResetMsgId.bind fun _ => tidy_clearGroupMember.bind fun _ => ?_
      exact tidy_insertNewMember.bind fun _ => keeps_pure

/-! ## Sending -/

open Actions

/-- The session of a user with a peer is looked up, and added when it is missing. -/
theorem tidy_sessionFor {userId peerId type : Nat} : Tidy (sessionFor userId peerId type) := by
  refine tidy_getSessionId.bind fun sessionId => ?_
  split
  · exact tidy_addSession
  · exact keeps_pure

/-- A message to a group is sent by whatever is tidy itself. -/
theorem tidy_sendToGroup {msg : IMMsgData} {now : Nat} {send : Nat → Handler Bool} (hsend : ∀ msgId, Tidy (send msgId)) :
    Tidy (sendToGroup msg now send) := by
  refine tidy_isValidateGroupId.bind fun isValid => Keeps.bind ?_ fun isIn => ?_
  · split
    · exact tidy_isInGroup
    · exact keeps_pure
  split
  · refine tidy_sessionFor.bind fun sessionId => ?_
    split
    · refine tidy_groupGetMsgId.bind fun msgId => Keeps.bind (keeps_when ?_) fun _ => keeps_pure
      exact (hsend msgId).bind fun _ => tidy_updateSession.bind fun _ => keeps_pure
    · exact keeps_pure
  · exact keeps_pure

/-- So is a message to a user. -/
theorem tidy_sendToUser {msg : IMMsgData} {now : Nat} {send : Nat → Nat → Handler Bool}
    (hsend : ∀ relateId msgId, Tidy (send relateId msgId)) : Tidy (sendToUser msg now send) := by
  unfold sendToUser
  split
  · refine tidy_sessionFor.bind fun sessionId => tidy_getSessionId.bind fun peerSessionId => Keeps.bind ?_ fun sessionId => ?_
    · split
      · exact tidy_addSession
      · exact keeps_pure
    refine tidy_getRelationId.bind fun relateId => ?_
    split
    · refine tidy_getMsgId.bind fun msgId => Keeps.bind (keeps_when ?_) fun _ => keeps_pure
      refine (hsend relateId msgId).bind fun _ => tidy_updateSession.bind fun _ => ?_
      exact tidy_updateSession.bind fun _ => keeps_pure
    · exact keeps_pure
  · exact keeps_pure

/-- `DB_PROXY::sendMessage`, for all four types of messages. -/
theorem tidy_sendMessage {msg : IMMsgData} : Tidy (sendMessage msg) := by
  refine keeps_time.bind fun now => ?_
  dsimp only
  split
  · split
    · exact (tidy_sendToGroup fun _ => tidy_sendGroup).map
    · split
      · exact (tidy_sendToGroup fun _ => tidy_sendGroupAudio).map
      · split
        · exact (tidy_sendToUser fun _ _ => tidy_sendSingle).map
        · exact (tidy_sendToUser fun _ _ => tidy_sendSingleAudio).map
  · exact keeps_pure

/-! ## The other requests -/

/-- `DB_PROXY::getDevicesToken`: the connection to redis is given back before anything is counted. -/
theorem tidy_getDevicesToken {ids : Nat} : Tidy (Actions.getDevicesToken ids) := by
  refine Keeps.bind (keeps_withConn trivial rfl fun _ => keeps_command.bind fun _ => keeps_count keeps_decides ids) fun tokens => ?_
  refine keeps_times (keeps_decides.bind fun _ => Keeps.bind (keeps_when ?_) fun _ => keeps_decides.bind fun _ => ?_) tokens
  · exact Keeps.bind (Keeps.bind (keeps_select trivial) fun _ => keeps_pure) fun _ => keeps_pure
  · split
    · exact tidy_getUnReadCntAll.bind fun _ => tidy_groupGetUnReadCntAll
    · exact keeps_pure

/-- `DB_PROXY::setDevicesToken`: all commands on one connection. -/
theorem tidy_setDevicesToken {hasOld : Bool} : Tidy (Actions.setDevicesToken hasOld) := by
  refine keeps_withConn trivial rfl fun conn => keeps_command.bind fun _ => Keeps.bind (keeps_when ?_) fun _ => ?_
  · refine keeps_command.bind fun reply => ?_
    split
    · exact keeps_command.bind fun _ => keeps_pure
    · exact keeps_pure
  · exact keeps_command.bind fun _ => keeps_command.bind fun _ => keeps_pure

/-- `DB_PROXY::getGroupInfo`: each group is validated, and then those with members are looked up. -/
theorem tidy_getGroups {groupIds : List Nat} {valid : Nat} : Tidy (getGroupInfo groupIds valid) := by
  induction groupIds generalizing valid with
  | nil => exact tidy_getGroupInfo
  | cons groupId groupIds ih => exact tidy_isValidateGroupId.bind fun _ => ih

/-- One group of the sync thread: the sessions of its members are updated. -/
theorem tidy_syncGroup {groupId : Nat} : Tidy (syncGroup groupId) := by
  refine tidy_getGroupUser.bind fun users => keeps_times ?_ users
  refine keeps_pick.bind fun _ => keeps_pick.bind fun _ => tidy_getSessionId.bind fun sessionId => ?_
  split
  · exact tidy_updateSession.bind fun _ => keeps_pure
  · exact tidy_addSession.bind fun _ => keeps_pure

/-! ## What ends with a connection -/

/-- Nothing is held, and no answer has led astray. -/
structure Fresh (s : Watch) : Prop where
  held : s.held = []
  leak : s.leak = false
  null : s.null = false

/-- A connection is left exactly when `removeRepeatUser` had no user. -/
structure Left (s : Watch) : Prop where
  held : s.held = [] ↔ s.leak = false
  null : s.null = false

/-- A thread that has done nothing has left nothing behind. -/
theorem Fresh.left {s : Watch} (h : Fresh s) : Left s := ⟨by rw [h.held, h.leak]; simp, h.null⟩

/-- It may take any connection. -/
theorem Fresh.ready {s : Watch} (h : Fresh s) : Ready AnyGet [] s := by
  refine ⟨nofun, fun _ _ _ => Or.inr fun h' hh' => ?_⟩
  rw [h.held] at hh'
  cases hh'

/-- So may one that has left a connection behind, for it does not use it. -/
theorem Left.ready {s : Watch} (h : Left s) : Ready AnyGet [] s := by
  refine ⟨nofun, fun _ _ _ => ?_⟩
  cases hleak : s.leak with
  | true => exact Or.inl rfl
  | false =>
    refine Or.inr fun h' hh' => ?_
    rw [h.held.mpr hleak] at hh'
    cases hh'

/-- A function that gives back what it holds, between others. -/
theorem Keeps.fresh {α : Type} {p : Handler α} (hp : Tidy p) {s : Watch} (hs : Fresh s) : Safe monitor s p fun _ s' => Fresh s' :=
  (hp s hs.ready).mono fun _ _ h => ⟨h.held.trans hs.held, h.leak.trans hs.leak, h.null.trans hs.null⟩

/-- A tidy function leaves no more behind. -/
theorem Keeps.left {α : Type} {p : Handler α} (hp : Tidy p) {s : Watch} (hs : Left s) : Safe monitor s p fun _ s' => Left s' :=
  (hp s hs.ready).mono fun _ _ h => ⟨by rw [h.held, h.leak]; exact hs.held, h.null.trans hs.null⟩

/-- One turn of the loop: the connection is given back at the first, and used again at the others. -/
theorem safe_repeat {c : Conn} {s : Watch} (hs : s.held.map Held.conn = [c] ∨ s.held = [] ∧ s.reuse = true) :
    Safe monitor s (do
      let isNew ← command c .other
      relConn c
      return isNew ≠ 0 : Handler Bool) fun _ s' => s'.held = [] ∧ s'.leak = s.leak ∧ s'.null = s.null ∧ s'.reuse = s.reuse := by
  have hallows : ∀ (s' : Watch) (o : Op), s'.held = s.held → s'.reuse = s.reuse → o.on = some c →
      s'.reuse = true ∨ ∀ c', o.on = some c' → c' ∈ s'.held.map Held.conn := by
    intro s' o hheld hreuse ho
    rcases hs with h | h
    · refine Or.inr fun c' hc' => ?_
      obtain rfl := Option.some.inj (ho.symm.trans hc')
      rw [hheld, h]
      exact List.mem_cons_self
    · exact Or.inl (hreuse.trans h.2)
  refine Safe.bind (Q := fun _ (s1 : Watch) => s1 = s) (safe_ask (hallows s _ rfl rfl rfl) fun _ => ?_) fun _ s1 h1 => ?_
  · simp only [Watch.next, heldNext, nullUnseen, neverGivenBack, usedAgain, Bool.or_false]
  subst h1
  refine Safe.bind (Q := fun _ (s2 : Watch) => s2.held = [] ∧ s2.leak = s1.leak ∧ s2.null = s1.null ∧ s2.reuse = s1.reuse)
    (safe_ask (hallows s1 _ rfl rfl rfl) fun _ => ?_) fun _ _ h2 => safe_pure h2
  refine ⟨?_, Bool.or_false _, Bool.or_false _, Bool.or_false _⟩
  rcases hs with h | h
  · obtain ⟨h', hh', hc⟩ := List.map_eq_singleton_iff.mp h
    change s1.held.eraseP _ = []
    rw [hh']
    exact List.eraseP_cons_of_pos (decide_eq_true hc)
  · change s1.held.eraseP _ = []
    rw [h.1]
    rfl

/-- `CGroupModel::removeRepeatUser` may end with its connection, and with nothing else. -/
theorem safe_removeRepeatUser {users : Nat} {s : Watch} (hs : Fresh s) :
    Safe monitor s (GroupModel.removeRepeatUser users) fun _ s' => Left s' := by
  refine Safe.bind (safe_getConn (hs.ready.gets _ _ trivial) (Q := fun c (s' : Watch) =>
    c.elim (Fresh s') fun c => s'.held.map Held.conn = [c] ∧ s'.null = false ∧ (s'.leak = true ↔ users = 0) ∧
      (2 ≤ users → s'.reuse = true)) ?_ ?_) fun c s1 h1 => ?_
  · refine ⟨hs.held, ?_, (Bool.or_false _).trans hs.null⟩
    cases users <;> exact (Bool.or_false _).trans hs.leak
  · intro id
    refine ⟨?_, (Bool.or_false _).trans hs.null, ?_, ?_⟩
    · simp only [Watch.next, heldNext, hs.held, List.map_cons, List.map_nil]
    · cases users <;> simp [Watch.next, neverGivenBack, hs.leak]
    · intro hle
      obtain ⟨n, rfl⟩ := Nat.exists_eq_add_of_le' hle
      exact Bool.or_true _
  · cases c with
    | none => exact safe_pure h1.left
    | some c =>
      obtain ⟨hheld, hnull, hleak, hreuse⟩ := h1
      cases users with
      | zero =>
        refine safe_pure ⟨?_, hnull⟩
        rw [hleak.mpr rfl]
        refine ⟨fun h => ?_, fun h => by cases h⟩
        rw [h] at hheld
        cases hheld
      | succ n =>
        have hleak1 : s1.leak = false := Bool.eq_false_iff.mpr fun h => by cases hleak.mp h
        refine Safe.bind (safe_repeat (Or.inl hheld)) fun yes s2 h2 => ?_
        obtain ⟨hheld2, hleak2, hnull2, hreuse2⟩ := h2
        have hfresh : Fresh s2 := ⟨hheld2, hleak2.trans hleak1, hnull2.trans hnull⟩
        cases n with
        | zero => exact safe_pure hfresh.left
        | succ n =>
          have hr : s2.reuse = true := hreuse2.trans (hreuse (by omega))
          refine Safe.bind (safe_count (I := fun (s' : Watch) => Fresh s' ∧ s'.reuse = true) ?_ ⟨hfresh, hr⟩ (n + 1))
            fun _ _ h3 => safe_pure h3.1.left
          intro s3 h3
          refine (safe_repeat (Or.inr ⟨h3.1.held, h3.2⟩)).mono fun _ s4 h4 => ?_
          exact ⟨⟨h4.1, h4.2.1.trans h3.1.leak, h4.2.2.1.trans h3.1.null⟩, h4.2.2.2.trans h3.2⟩

/-- `CGroupModel::addMember` goes on after that. -/
theorem safe_addMember {groupId users : Nat} {s : Watch} (hs : Fresh s) :
    Safe monitor s (GroupModel.addMember groupId users) fun _ s' => Left s' := by
  refine (safe_removeRepeatUser hs).bind fun users s1 h1 => ?_
  refine Keeps.left (tidy_insertNewMember.bind fun ret => tidy_getGroupUser.bind fun _ => keeps_pure) h1

/-- And so does `CGroupModel::modifyGroupMember`. -/
theorem safe_modifyGroupMember {userId groupId type users : Nat} {s : Watch} (hs : Fresh s) :
    Safe monitor s (GroupModel.modifyGroupMember userId groupId type users) fun _ s' => Left s' := by
  refine (Keeps.fresh tidy_hasModifyPermission hs).bind fun permits s1 h1 => ?_
  split
  · refine Safe.bind (Q := fun _ s2 => Left s2) ?_ fun r s2 h2 => ?_
    · split
      · exact safe_addMember h1
      · split
        · exact Keeps.left (tidy_removeMember.bind fun _ => tidy_groupRemoveSession.bind fun _ => keeps_pure) h1.left
        · exact safe_pure h1.left
    · refine Keeps.left (Keeps.bind (keeps_when ?_) fun _ => keeps_pure) h2
      exact Keeps.bind (keeps_change trivial) fun _ => keeps_times tidy_clearUserCounter _
  · exact safe_pure h1.left

/-- One connection is held. -/
structure Only (h : Held) (s : Watch) : Prop where
  held : s.held = [h]
  leak : s.leak = false
  null : s.null = false

/-- What can be asked for beside the connection is ready. -/
theorem Only.ready {h : Held} {s : Watch} (hs : Only h s) : Ready (Beside AnyGet h.conn.pool h.site) [h.conn] s := by
  refine ⟨?_, ?_⟩
  · intro c hc
    rw [hs.held]
    exact hc
  · intro pool site hgets
    refine Or.inr fun h' hh' hpool => ?_
    rw [hs.held] at hh'
    obtain rfl := List.mem_singleton.mp hh'
    rcases hgets.2 with hne | houter
    · exact absurd hpool.symm hne
    · exact houter

/-- A function that is tidy beside one connection leaves that one in hand. -/
theorem Keeps.only {α : Type} {h : Held} {p : Handler α} (hp : Keeps (Beside AnyGet h.conn.pool h.site) [h.conn] p) {s : Watch}
    (hs : Only h s) : Safe monitor s p fun _ s' => Only h s' :=
  (hp s hs.ready).mono fun _ _ h' => ⟨h'.held.trans hs.held, h'.leak.trans hs.leak, h'.null.trans hs.null⟩

/-- The only connection is given back. -/
theorem safe_relConn {h : Held} {s : Watch} (hs : Only h s) : Safe monitor s (relConn h.conn) fun _ s' => Fresh s' := by
  refine safe_ask ?_ fun _ => ⟨?_, (Bool.or_false _).trans hs.leak, (Bool.or_false _).trans hs.null⟩
  · refine Or.inr fun c hc => ?_
    obtain rfl := Option.some.inj hc
    rw [hs.held]
    exact List.mem_cons_self
  · change s.held.eraseP _ = []
    rw [hs.held]
    exact List.eraseP_cons_of_pos (decide_eq_true rfl)

/-- A connection that is not compared with `NULL`: without one there is only the call on it. -/
theorem safe_unseen {pool : Pool} {site : Site} {body : Conn → Handler Unit} {s : Watch}
    (hsite : site = .hasOfflineFile ∨ site = .doSyncGroupChat) (hs : Fresh s)
    (hbody : ∀ id s', Only ⟨⟨pool, id⟩, site⟩ s' → Safe monitor s' (body ⟨pool, id⟩) fun _ s'' => Fresh s'') :
    Safe monitor s (do
      match ← getConn pool site with
      | none => nullCall
      | some conn => body conn) fun _ s' => Fresh s' := by
  refine Safe.bind (safe_getConn (hs.ready.gets pool site trivial) (Q := fun c (s' : Watch) =>
    c.elim (s'.null = true) fun c => c.pool = pool ∧ Only ⟨c, site⟩ s') ?_ ?_) fun c s1 h1 => ?_
  · rcases hsite with rfl | rfl <;> exact Bool.or_true _
  · intro id
    refine ⟨rfl, ?_, ?_, ?_⟩
    · simp only [Watch.next, heldNext, hs.held]
    · rcases hsite with rfl | rfl <;> exact (Bool.or_false _).trans hs.leak
    · rcases hsite with rfl | rfl <;> exact (Bool.or_false _).trans hs.null
  · cases c with
    | none => exact ⟨h1, fun r : Empty => by cases r⟩
    | some c =>
      obtain ⟨rfl, honly⟩ := h1
      exact hbody c.id s1 honly

/-- `DB_PROXY::hasOfflineFile` ends as it begins, with nothing in hand. -/
theorem safe_hasOfflineFile {s : Watch} (hs : Fresh s) : Safe monitor s hasOfflineFile fun _ s' => Fresh s' := by
  refine (Keeps.fresh (keeps_select trivial) hs).bind fun _ s1 h1 => ?_
  refine (Keeps.fresh (keeps_select trivial) h1).bind fun _ s2 h2 => ?_
  refine safe_unseen (Or.inl rfl) h2 fun id s3 h3 => ?_
  refine (Keeps.only (keeps_update List.mem_cons_self) h3).bind fun _ s4 h4 => ?_
  refine (Keeps.only (keeps_update List.mem_cons_self) h4).bind fun _ s5 h5 => ?_
  exact safe_relConn h5

/-- And so does the sync thread, round by round. -/
theorem safe_doSyncGroupChat {s : Watch} (hs : Fresh s) : Safe monitor s doSyncGroupChat fun _ s' => Fresh s' := by
  refine (Keeps.fresh (keeps_withConn trivial rfl fun _ => keeps_query.bind fun _ => keeps_count keeps_decides _) hs).bind
    fun changed s1 h1 => ?_
  refine (Keeps.fresh tidy_updateLastUpdateGroup h1).bind fun _ s2 h2 => ?_
  refine (Keeps.fresh (keeps_times (keeps_pick.bind fun _ => tidy_syncGroup) changed) h2).bind fun _ s3 h3 => ?_
  refine safe_unseen (Or.inr rfl) h3 fun id s4 h4 => ?_
  have hne : Pool.unread ≠ Pool.slave := by decide
  refine (Keeps.only keeps_query h4).bind fun _ s5 h5 => ?_
  refine (Keeps.only (keeps_updateTotalUpdate ⟨trivial, Or.inl hne⟩) h5).bind fun _ s6 h6 => ?_
  exact safe_relConn h6

/-- Every request. -/
theorem safe_handle (r : Request) {s : Watch} (hs : Fresh s) : Safe monitor s (handle r) fun _ s' => Left s' := by
  -- all but two give back what they hold
  have htidy : ∀ {p : Handler Unit}, Tidy p → Safe monitor s p fun _ s' => Left s' := fun hp => Keeps.left hp hs.left
  cases r with
  | doLogin limited =>
    refine htidy ?_
    dsimp only [handle]
    split
    · exact Keeps.bind (keeps_select trivial) fun _ => keeps_pure
    · exact keeps_pure
  | doPushShield => exact htidy (Keeps.bind (keeps_change trivial) fun _ => keeps_pure)
  | doQueryPushShield =>
    exact htidy (Keeps.bind (Keeps.bind (keeps_select trivial) fun _ => keeps_pure) fun _ => keeps_pure)
  | doQueryVisibleRange => exact htidy (Keeps.bind (keeps_select trivial) fun _ => keeps_pure)
  | getRecentSession userId => exact htidy tidy_getRecentSession
  | deleteRecentSession userId peerId sessionType =>
    refine htidy ?_
    dsimp only [handle]
    split
    · refine tidy_getSessionId.bind fun sessionId => ?_
      split
      · refine tidy_removeSession.bind fun removed => ?_
        split
        · exact tidy_clearUserCounter
        · exact keeps_pure
      · exact keeps_pure
    · exact keeps_pure
  | getUserInfo ids => exact htidy (tidy_getUsers.bind fun _ => keeps_pure)
  | getChangedUser lastTimeIsOlder =>
    refine htidy ?_
    dsimp only [handle]
    split
    · exact Keeps.bind (keeps_select trivial) fun _ => tidy_getUsers.bind fun _ => keeps_pure
    · exact keeps_pure
  | getChgedDepart => exact htidy (Keeps.bind (keeps_select trivial) fun _ => tidy_getDepts.bind fun _ => keeps_pure)
  | changeUserSignInfo signInfo => exact htidy (tidy_updateUserSignInfo.bind fun _ => keeps_pure)
  | sendMessage msg => exact htidy (tidy_sendMessage.bind fun _ => keeps_pure)
  | getMessage userId peerId sessionType =>
    refine htidy ?_
    dsimp only [handle]
    split
    · exact tidy_getMessage
    · split
      · refine tidy_isInGroup.bind fun isIn => ?_
        split
        · exact tidy_groupGetMessage
        · exact keeps_pure
      · exact keeps_pure
  | getUnreadMsgCounter userId => exact htidy (tidy_getUnreadMsgCount.bind fun _ => tidy_groupGetUnreadMsgCount)
  | clearUnreadMsgCounter sessionType => exact htidy tidy_clearUserCounter
  | getMessageById userId peerId sessionType msgIds =>
    refine htidy ?_
    dsimp only [handle]
    split
    · exact tidy_getMsgByMsgId
    · split
      · exact tidy_groupGetMsgByMsgId
      · exact keeps_pure
  | getLatestMsgId userId peerId sessionType =>
    refine htidy ?_
    dsimp only [handle]
    split
    · exact tidy_getLastMsg
    · split
      · exact keeps_groupGetLastMsg trivial
      · exact keeps_pure
  | setDevicesToken hasOld => exact htidy tidy_setDevicesToken
  | getDevicesToken ids => exact htidy tidy_getDevicesToken
  | setGroupPush userId groupId =>
    refine htidy (tidy_isValidateGroupId.bind fun isValid => ?_)
    split
    · exact tidy_setPush.bind fun _ => keeps_pure
    · exact keeps_pure
  | getGroupPush groupId users =>
    refine htidy (tidy_isValidateGroupId.bind fun isValid => ?_)
    split
    · exact tidy_getPush
    · exact keeps_pure
  | getNormalGroupList => exact htidy (tidy_getUserGroup.bind fun _ => keeps_pure)
  | getGroupInfo groupIds => exact htidy tidy_getGroups
  | createGroup typeIsValid groupName members =>
    refine htidy ?_
    dsimp only [handle]
    split
    · exact tidy_createGroup.bind fun _ => keeps_pure
    · exact keeps_pure
  | modifyMember typeIsValid userId groupId type users =>
    dsimp only [handle]
    split
    · refine (Keeps.fresh tidy_isValidateGroupId hs).bind fun isValid s1 h1 => ?_
      split
      · exact (safe_modifyGroupMember h1).bind fun _ s2 h2 => safe_pure h2
      · exact safe_pure h1.left
    · exact safe_pure hs.left
  | hasOfflineFile => exact (safe_hasOfflineFile hs).mono fun _ _ h => h.left
  | addOfflineFile => exact htidy (Keeps.bind (keeps_change trivial) fun _ => keeps_pure)
  | delOfflineFile => exact htidy (Keeps.bind (keeps_change trivial) fun _ => keeps_pure)
  | changeFileStatus files => exact htidy (keeps_times (Keeps.bind (keeps_change trivial) fun _ => keeps_pure) files)
  | notifyClientAck files => exact htidy (keeps_times (Keeps.bind (keeps_change trivial) fun _ => keeps_pure) files)
  | unparsed => exact htidy keeps_pure

/-- Whatever a thread runs is safe. -/
theorem Actions.Job.safe (job : Job) : Safe monitor Watch.start job.program fun _ s => Left s := by
  have hstart : Fresh Watch.start := ⟨rfl, rfl, rfl⟩
  cases job with
  | request r => exact safe_handle r hstart
  | sync => exact (safe_doSyncGroupChat hstart).mono fun _ _ h => h.left

end TeamTalk.DbProxy
