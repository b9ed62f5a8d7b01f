import TeamTalk.DbProxy.MessageContent

/-!
# What reading reveals

When a request to read messages tells the user nothing of the conversations of others. `getLatestMsgId` does not ask whether he
is in the group.
-/

namespace TeamTalk.DbProxy.Content

/-- A message of one of a user's conversations. -/
def InConversation (s : Store) (userId : Nat) (row : Message) : Prop :=
  (∃ peerId, getRelationId s userId peerId ≠ 0 ∧ row ∈ singleRows s (getRelationId s userId peerId)) ∨
    ∃ groupId, isInGroup s userId groupId = true ∧ row ∈ groupRows s groupId

/-- Two stores with the same relations, groups and messages of a user, and the same contents of their audio messages. -/
structure Agree (userId : Nat) (s s' : Store) : Prop where
  relation : ∀ peerId, getRelationId s' userId peerId = getRelationId s userId peerId
  single : ∀ peerId, getRelationId s userId peerId ≠ 0 →
    singleRows s' (getRelationId s userId peerId) = singleRows s (getRelationId s userId peerId)
  member : ∀ groupId, s'.groupMember groupId userId = s.groupMember groupId userId
  group : ∀ groupId, isInGroup s userId groupId = true → groupRows s' groupId = groupRows s groupId
  audio : ∀ row, InConversation s userId row → row.type = msgTypeGroupAudio ∨ row.type = msgTypeSingleAudio →
    s'.audio row.content = s.audio row.content

/-- A request is answered alike in all stores that agree on the conversations of its user. -/
def RevealsNothing (s : Store) (req : ReadReq) : Prop := ∀ s', Agree req.userId s s' → read s' req = read s req

/-- The condition: the newest message is not asked of a group that the user is not in. -/
def ReadMeets (s : Store) : ReadReq → Prop
  | .getLatestMsgId userId sessionType sessionId _ => sessionType = sessionTypeGroup → isInGroup s userId sessionId = true
  | _ => True

namespace ReadsAux

/-! ## What the user takes part in -/

theorem msgInfos_from_row {rows : List Message} {msg : MsgInfo} (h : msg ∈ msgInfos rows) :
    ∃ row ∈ rows, msg.msgType = row.type ∧ msg.msgData = row.content := by
  obtain ⟨row, hrow, hmsg⟩ := List.mem_filterMap.1 h
  split at hmsg
  · cases hmsg
    exact ⟨row, hrow, rfl, rfl⟩
  · cases hmsg

/-- The same rows are read alike where their audio messages are. -/
theorem select_congr {s s' : Store} {rows : List Message}
    (h : ∀ row ∈ rows, row.type = msgTypeGroupAudio ∨ row.type = msgTypeSingleAudio → s'.audio row.content = s.audio row.content)
    (cond : Message → Bool) (limit : Nat) : select s' rows cond limit = select s rows cond limit := by
  refine List.map_congr_left fun msg hmsg => ?_
  obtain ⟨row, hrow, htype, hdata⟩ := msgInfos_from_row hmsg
  have hmem : row ∈ rows :=
    (List.mem_filter.1 ((List.mergeSort_perm _ _).mem_iff.1 (List.mem_of_mem_take hrow))).1
  by_cases haudio : msg.msgType = msgTypeGroupAudio ∨ msg.msgType = msgTypeSingleAudio
  · have hsame : s'.audio msg.msgData = s.audio msg.msgData := by
      rw [hdata]
      exact h row hmem (htype ▸ haudio)
    rw [if_pos haudio, if_pos haudio, hsame]
  · rw [if_neg haudio, if_neg haudio]

theorem isInGroup_eq {u : Nat} {s s' : Store} (h : Agree u s s') (groupId : Nat) :
    isInGroup s' u groupId = isInGroup s u groupId := by
  rw [isInGroup, h.member, isInGroup]

theorem joinTime_eq {u : Nat} {s s' : Store} (h : Agree u s s') (groupId : Nat) :
    getUserJoinTime s' groupId u = getUserJoinTime s groupId u := by
  rw [getUserJoinTime, h.member, getUserJoinTime]

/-- The messages of two users are selected alike. -/
theorem select_single {u : Nat} {s s' : Store} (h : Agree u s s') {peerId : Nat} (hne : getRelationId s u peerId ≠ 0)
    (cond : Message → Bool) (limit : Nat) :
    select s' (singleRows s' (getRelationId s u peerId)) cond limit =
      select s (singleRows s (getRelationId s u peerId)) cond limit := by
  rw [h.single peerId hne]
  exact select_congr (fun row hrow => h.audio row (.inl ⟨peerId, hne, hrow⟩)) cond limit

/-- The messages of a group of the user are selected alike. -/
theorem select_group {u : Nat} {s s' : Store} (h : Agree u s s') {groupId : Nat} (hin : isInGroup s u groupId = true)
    (cond : Message → Bool) (limit : Nat) :
    select s' (groupRows s' groupId) cond limit = select s (groupRows s groupId) cond limit := by
  rw [h.group groupId hin]
  exact select_congr (fun row hrow => h.audio row (.inr ⟨groupId, hin, hrow⟩)) cond limit

/-! ## The handlers -/

theorem getMessageList_congr {u : Nat} {s s' : Store} (h : Agree u s s') (sessionId msgIdBegin msgCnt sessionType : Nat) :
    getMessageList s' u sessionId msgIdBegin msgCnt sessionType = getMessageList s u sessionId msgIdBegin msgCnt sessionType := by
  unfold getMessageList getMessage getGroupMessage
  rw [h.relation, isInGroup_eq h, joinTime_eq h]
  dsimp only
  split
  · split
    next hne => rw [select_single h hne, select_single h hne]
    next => rfl
  · split
    · split
      next hin => rw [select_group h hin, select_group h hin]
      next => rfl
    · rfl

theorem getMessageByIdList_congr {u : Nat} {s s' : Store} (h : Agree u s s') (sessionType sessionId : Nat) (lsMsgId : List Nat) :
    getMessageByIdList s' u sessionType sessionId lsMsgId = getMessageByIdList s u sessionType sessionId lsMsgId := by
  unfold getMessageByIdList getMsgByMsgId getGroupMsgByMsgId
  rw [h.relation, isInGroup_eq h, joinTime_eq h]
  dsimp only
  split
  · split
    · rfl
    · split
      next => rfl
      next hne => rw [select_single h hne]
  · split
    · split
      next hin => rw [select_group h hin]
      next => rfl
    · rfl

theorem getLatestId_congr {u : Nat} {s s' : Store} (h : Agree u s s') {sessionType sessionId : Nat}
    (hin : sessionType ≠ sessionTypeSingle → isInGroup s u sessionId = true) :
    getLatestId s' u sessionType sessionId = getLatestId s u sessionType sessionId := by
  unfold getLatestId getLastMsg getGroupLastMsg
  rw [h.relation]
  dsimp only
  split
  · split
    next hne => rw [h.single _ hne]
    next => rfl
  next hgroup => rw [h.group sessionId (hin hgroup)]

/-! ## A group of others -/

theorem lastRowOf_singleton {row : Message} (h : row.status = 0) : lastRowOf [row] = some row := by
  simp [lastRowOf, orderBy, h]

/-- The store with one message in a group in place of those it has. -/
def withGroupMessage (s : Store) (groupId : Nat) (row : Message) : Store :=
  { s with groupMessages := fun i =>
      if i = groupId % 8 then (s.groupMessages i).filter (fun row => row.relateId ≠ groupId) ++ [row] else s.groupMessages i }

theorem groupRows_self (s : Store) {groupId : Nat} {row : Message} (h : row.relateId = groupId) :
    groupRows (withGroupMessage s groupId row) groupId = [row] := by
  rw [groupRows, withGroupMessage]
  dsimp only
  rw [if_pos rfl, List.filter_append, List.filter_filter, List.filter_cons_of_pos (by simp [h]), List.filter_nil]
  have hnone : ((s.groupMessages (groupId % 8)).filter fun row => decide (row.relateId = groupId) && decide (row.relateId ≠ groupId))
      = [] := by
    refine List.filter_eq_nil_iff.2 fun row _ => ?_
    simp
  rw [hnone, List.nil_append]

theorem groupRows_other (s : Store) {groupId other : Nat} {row : Message} (h : row.relateId = groupId) (hne : other ≠ groupId) :
    groupRows (withGroupMessage s groupId row) other = groupRows s other := by
  rw [groupRows, withGroupMessage, groupRows]
  dsimp only
  split
  · rw [List.filter_append, List.filter_filter, List.filter_cons_of_neg (by simp [h, Ne.symm hne]), List.filter_nil,
      List.append_nil]
    refine List.filter_congr fun row _ => ?_
    by_cases hrow : row.relateId = other
    · simp [hrow, hne]
    · simp [hrow]
  · rfl

/-- Another message in a group that the user is not in is none of his. -/
theorem agree_withGroupMessage {s : Store} {u groupId : Nat} {row : Message} (h : row.relateId = groupId)
    (hout : isInGroup s u groupId ≠ true) : Agree u s (withGroupMessage s groupId row) where
  relation _ := rfl
  single _ _ := rfl
  member _ := rfl
  group other hin := by
    refine groupRows_other s h fun heq => ?_
    rw [heq] at hin
    exact hout hin
  audio _ _ _ := rfl

end ReadsAux

open ReadsAux

/-- A request to read messages reveals nothing exactly when it does not ask for the newest message of a group of others. -/
theorem reads_reveal_nothing_iff (s : Store) (req : ReadReq) : RevealsNothing s req ↔ ReadMeets s req := by
  cases req with
  | getMessage u sessionId msgIdBegin msgCnt sessionType attachData =>
    refine iff_of_true (fun s' (h : Agree u s s') => ?_) trivial
    rw [read, read, getMessageList_congr h]
  | getMessageById u sessionType sessionId msgIdList attachData =>
    refine iff_of_true (fun s' (h : Agree u s s') => ?_) trivial
    rw [read, read, getMessageByIdList_congr h]
  | getLatestMsgId u sessionType sessionId attachData =>
    constructor
    · intro h hgroup
      by_contra hout
      subst hgroup
      -- the newest message of the group is another one
      let row : Message :=
        { id := 0, relateId := sessionId, msgId := getLatestId s u sessionTypeGroup sessionId + 1, fromId := 0, created := 0,
          type := msgTypeGroupText, status := 0, content := "" }
      have hsame := h (withGroupMessage s sessionId row) (agree_withGroupMessage rfl hout)
      have hrows : groupRows (withGroupMessage s sessionId row) sessionId = [row] := groupRows_self s rfl
      have hid : getLatestId (withGroupMessage s sessionId row) u sessionTypeGroup sessionId =
          getLatestId s u sessionTypeGroup sessionId + 1 := by
        rw [getLatestId, if_neg (by decide), getGroupLastMsg, hrows, lastRowOf_singleton rfl]
        rfl
      rw [read, read, if_pos (by decide), if_pos (by decide), hid] at hsame
      injection hsame with hsame
      injection hsame with _ _ _ heq
      omega
    · intro h s' (hagree : Agree u s s')
      rw [read, read]
      split
      next hvalid =>
        have hin : sessionType ≠ sessionTypeSingle → isInGroup s u sessionId = true := by
          intro hne
          exact h ((of_decide_eq_true hvalid).resolve_left hne)
        rw [getLatestId_congr hagree hin]
      next => rfl

/-- User 1 is in no group; whether the newest message of group 5 has the id 1 or the id 2 is told him. -/
theorem not_reads_reveal_nothing : ¬∀ (s : Store) (req : ReadReq), RevealsNothing s req := by
  intro h
  let row : Nat → Message := fun msgId =>
    { id := 1, relateId := 5, msgId, fromId := 2, created := 10, type := msgTypeGroupText, status := 0, content := "text" }
  let store : Nat → Store := fun msgId =>
    { relations := [], messages := fun _ => [], groupMessages := fun _ => [row msgId], groupMember := fun _ _ => none, audio := id }
  have hread : ∀ msgId, read (store msgId) (.getLatestMsgId 1 sessionTypeGroup 5 []) =
      some (.latestMsgId 1 sessionTypeGroup 5 msgId []) := by
    intro msgId
    have hlast : getGroupLastMsg (store msgId) 5 = some (row msgId) := lastRowOf_singleton rfl
    rw [read, if_pos (by decide), getLatestId, if_neg (by decide), hlast]
    rfl
  have hagree : Agree 1 (store 1) (store 2) :=
    ⟨fun _ => rfl, fun _ _ => rfl, fun _ => rfl, fun _ hin => Bool.noConfusion hin, fun _ _ _ => rfl⟩
  have hsame := h (store 1) (.getLatestMsgId 1 sessionTypeGroup 5 []) (store 2) hagree
  rw [hread, hread] at hsame
  exact absurd hsame (by decide)

end TeamTalk.DbProxy.Content
