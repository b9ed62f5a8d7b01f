import TeamTalk.DbProxy.MessageContent
import TeamTalk.Lib.Pages

/-!
# Paging through the history

When a client that asks for one page after another gets every message. A page is cut by the times of the messages, and the next
one is asked for by their ids.
-/

namespace TeamTalk.DbProxy.Content

/-- The messages of a session that a user sees; those of a group since he joined. -/
def visible (s : Store) (userId sessionId sessionType : Nat) : List Message :=
  if sessionType = sessionTypeSingle then
    if getRelationId s userId sessionId ≠ 0 then
      (singleRows s (getRelationId s userId sessionId)).filter fun row => row.status = 0
    else []
  else if sessionType = sessionTypeGroup then
    if isInGroup s userId sessionId then
      (groupRows s sessionId).filter fun row => row.status = 0 ∧ getUserJoinTime s sessionId userId ≤ row.created
    else []
  else []

/-- The client: after each page it asks from below the smallest id that it has; `none` when the fuel does not suffice. -/
def history (s : Store) (userId sessionId sessionType k : Nat) : Nat → List MsgInfo → Nat → Option (List MsgInfo)
  | 0, _, _ => none
  | fuel + 1, received, msgIdBegin =>
    let page := getMessageList s userId sessionId msgIdBegin k sessionType
    if page = [] then some received
    else
      match ((received ++ page).map MsgInfo.msgId).min? with
      | none => some (received ++ page)
      | some m =>
        if m ≤ 1 then some (received ++ page) else history s userId sessionId sessionType k fuel (received ++ page) (m - 1)

/-- The client comes to an end, and has every message once. -/
def HistoryComplete (s : Store) (userId sessionId sessionType k : Nat) : Prop :=
  ∃ received, history s userId sessionId sessionType k ((visible s userId sessionId sessionType).length + 1) [] 0 = some received ∧
    (received.map MsgInfo.msgId).Perm ((visible s userId sessionId sessionType).map Message.msgId)

/-- What `sendMessage` stores: a primary key, an id and a type that are valid; the ids of a session are all different. -/
structure Stored (rows : List Message) : Prop where
  ids : (rows.map Message.id).Nodup
  msgIds : (rows.map Message.msgId).Nodup
  pos : ∀ row ∈ rows, 0 < row.msgId
  valid : ∀ row ∈ rows, Actions.msgTypeIsValid row.type = true

/-- The condition: of two messages on different pages by falling ids, the one with the higher id is the newer one. -/
def PagesAgree (k : Nat) (rows : List Message) : Prop := Pages.InOrder Message.msgId (fun a b => a.Before b) k rows

namespace PagingAux

/-! ## Pages of rows -/

/-- What a row is answered as. -/
def toInfo (s : Store) (row : Message) : MsgInfo :=
  { msgId := row.msgId, fromSessionId := row.fromId, createTime := row.created, msgType := row.type,
    msgData := if row.type = msgTypeGroupAudio ∨ row.type = msgTypeSingleAudio then s.audio row.content else row.content }

/-- Rows of valid types are all answered. -/
theorem readAudios_msgInfos (s : Store) {rows : List Message} (h : ∀ row ∈ rows, Actions.msgTypeIsValid row.type = true) :
    readAudios s (msgInfos rows) = rows.map (toInfo s) := by
  induction rows with
  | nil => rfl
  | cons row rows ih =>
    have hrest := ih fun row' hrow' => h row' (List.mem_cons_of_mem row hrow')
    rw [msgInfos, List.filterMap_cons_some (by rw [if_pos (h row List.mem_cons_self)]), readAudios, List.map_cons, List.map_cons]
    refine List.cons_eq_cons.2 ⟨?_, hrest⟩
    unfold toInfo
    dsimp only
    split <;> rfl

/-- A query for visible messages takes a page of what is left of them. -/
theorem select_eq (s : Store) {rows : List Message} {seen cond : Message → Bool} (k begin : Nat)
    (hcond : ∀ row, row.status = 0 ∧ cond row = true ↔ seen row = true ∧ (begin = 0 ∨ row.msgId ≤ begin))
    (hvalid : ∀ row ∈ rows.filter seen, Actions.msgTypeIsValid row.type = true) :
    select s rows cond k =
      (Pages.page (fun a b => a.Before b) k (Pages.left Message.msgId (rows.filter seen) begin)).map (toInfo s) := by
  have hrows : (rows.filter fun row => row.status = 0 ∧ cond row) = Pages.left Message.msgId (rows.filter seen) begin := by
    rw [Pages.left, List.filter_filter]
    refine List.filter_congr fun row _ => ?_
    rw [Bool.eq_iff_iff, decide_eq_true_eq, hcond row, Bool.and_eq_true, decide_eq_true_eq, and_comm]
  rw [select, hrows]
  refine readAudios_msgInfos s fun row hrow => ?_
  exact hvalid row (List.mem_filter.1 (Pages.mem_of_mem_page hrow)).1

/-- A page is one of what is left of the visible messages. -/
theorem getMessageList_eq {s : Store} {u sessionId sessionType : Nat}
    (h : ∀ row ∈ visible s u sessionId sessionType, Actions.msgTypeIsValid row.type = true) (k msgIdBegin : Nat) :
    getMessageList s u sessionId msgIdBegin k sessionType =
      (Pages.page (fun a b => a.Before b) k
        (Pages.left Message.msgId (visible s u sessionId sessionType) msgIdBegin)).map (toInfo s) := by
  have hnil :
      (Pages.page (fun a b => decide (Message.Before a b)) k (Pages.left Message.msgId [] msgIdBegin)).map (toInfo s) = [] := by
    simp [Pages.page, Pages.left]
  unfold getMessageList visible getMessage getGroupMessage at *
  split at h
  next hsingle =>
    rw [if_pos hsingle, if_pos hsingle]
    dsimp only
    split at h
    next hrelate =>
      rw [if_pos hrelate, if_pos hrelate]
      split
      next hzero => exact select_eq s k msgIdBegin (fun row => by simp [hzero]) h
      next hzero => exact select_eq s k msgIdBegin (fun row => by simp [hzero]) h
    next hrelate => rw [if_neg hrelate, if_neg hrelate, hnil]
  next hsingle =>
    rw [if_neg hsingle, if_neg hsingle]
    split at h
    next hgroup =>
      rw [if_pos hgroup, if_pos hgroup]
      dsimp only
      split at h
      next hin =>
        rw [if_pos hin, if_pos hin]
        split
        next hzero => exact select_eq s k msgIdBegin (fun row => by simp [hzero]) h
        next hzero =>
          refine select_eq s k msgIdBegin (fun row => ?_) h
          simp only [decide_eq_true_eq]
          tauto
      next hin => rw [if_neg hin, if_neg hin, hnil]
    next hgroup => rw [if_neg hgroup, if_neg hgroup, hnil]

/-! ## The client -/

/-- The client reads the pages of the visible messages. -/
theorem history_eq {s : Store} {u sessionId sessionType : Nat}
    (h : ∀ row ∈ visible s u sessionId sessionType, Actions.msgTypeIsValid row.type = true) (k fuel : Nat)
    (received : List Message) (msgIdBegin : Nat) :
    history s u sessionId sessionType k fuel (received.map (toInfo s)) msgIdBegin =
      (Pages.walk Message.msgId (fun a b => a.Before b) k (visible s u sessionId sessionType) fuel received msgIdBegin).map
        fun rows => rows.map (toInfo s) := by
  induction fuel generalizing received msgIdBegin with
  | zero => rfl
  | succ fuel ih =>
    have hids : ∀ rows : List Message, (rows.map (toInfo s)).map MsgInfo.msgId = rows.map Message.msgId := fun rows => by
      rw [List.map_map]
      rfl
    have hpage := getMessageList_eq h k msgIdBegin
    rw [history, Pages.walk]
    generalize getMessageList s u sessionId msgIdBegin k sessionType = page at *
    generalize Pages.page (fun a b => decide (Message.Before a b)) k
      (Pages.left Message.msgId (visible s u sessionId sessionType) msgIdBegin) = rows at *
    subst hpage
    by_cases hnil : rows = []
    · rw [if_pos hnil, if_pos (List.map_eq_nil_iff.2 hnil)]
      rfl
    · rw [if_neg hnil, if_neg fun heq => hnil (List.map_eq_nil_iff.1 heq), ← List.map_append, hids]
      cases ((received ++ rows).map Message.msgId).min? with
      | none => rfl
      | some m =>
        dsimp only
        split
        next => rfl
        next => exact ih _ _

/-- The order of a query is one. -/
theorem before_trans (a b c : Message) (h : a.Before b) (h' : b.Before c) : a.Before c := by
  unfold Message.Before at *
  omega

theorem before_total (a b : Message) : a.Before b ∨ b.Before a := by
  unfold Message.Before
  omega

theorem before_antisymm {rows : List Message} (hids : (rows.map Message.id).Nodup) {a b : Message} (ha : a ∈ rows) (hb : b ∈ rows)
    (h : a.Before b) (h' : b.Before a) : a = b := by
  have hid : a.id = b.id := by
    unfold Message.Before at *
    omega
  exact List.inj_on_of_nodup_map hids ha hb hid

end PagingAux

open PagingAux

/-- The client gets every message once exactly when the times agree with the ids between pages. -/
theorem history_complete_iff (s : Store) (userId sessionId sessionType k : Nat) (hk : 0 < k)
    (hstored : Stored (visible s userId sessionId sessionType)) :
    HistoryComplete s userId sessionId sessionType k ↔ PagesAgree k (visible s userId sessionId sessionType) := by
  obtain ⟨out, hwalk, hmem, hiff⟩ := Pages.walk_perm_iff (r := fun a b : Message => decide (a.Before b))
    (fun a b c h h' => decide_eq_true (before_trans a b c (of_decide_eq_true h) (of_decide_eq_true h')))
    (fun a b => by simpa using before_total a b)
    (fun a ha b hb h h' => before_antisymm hstored.ids ha hb (of_decide_eq_true h) (of_decide_eq_true h'))
    hstored.msgIds hstored.pos hk
  have hhistory := history_eq hstored.valid k ((visible s userId sessionId sessionType).length + 1) [] 0
  rw [hwalk] at hhistory
  have hids : (out.map (toInfo s)).map MsgInfo.msgId = out.map Message.msgId := by
    rw [List.map_map]
    rfl
  rw [PagesAgree, ← hiff]
  constructor
  · rintro ⟨received, hreceived, hperm⟩
    have heq : received = out.map (toInfo s) := Option.some.inj (hreceived.symm.trans hhistory)
    rw [heq, hids] at hperm
    have hnodup : out.Nodup := (hperm.nodup_iff.2 hstored.msgIds).of_map
    refine (List.perm_ext_iff_of_nodup hnodup hstored.msgIds.of_map).2 fun row => ⟨hmem row, fun hrow => ?_⟩
    obtain ⟨row', hrow', hid⟩ := List.mem_map.1 (hperm.mem_iff.2 (List.mem_map_of_mem hrow))
    have hsame : row' = row := List.inj_on_of_nodup_map hstored.msgIds (hmem row' hrow') hrow hid
    exact hsame ▸ hrow'
  · intro hperm
    exact ⟨out.map (toInfo s), hhistory, hids ▸ hperm.map Message.msgId⟩

/-- Two messages of group 5; that with the id 2 is the older one. -/
def crossedRows : List Message := [
  { id := 1, relateId := 5, msgId := 1, fromId := 1, created := 20, type := msgTypeGroupText, status := 0, content := "a" },
  { id := 2, relateId := 5, msgId := 2, fromId := 2, created := 10, type := msgTypeGroupText, status := 0, content := "b" }]

/-- Group 5, which user 1 has joined at the beginning. -/
def crossed : Store where
  relations := []
  messages _ := []
  groupMessages _ := crossedRows
  groupMember _ _ := some 0
  audio := id

/-- Read in pages of one, the message with the id 2 never comes. -/
theorem not_history_complete :
    ¬∀ (s : Store) (userId sessionId sessionType k : Nat), 0 < k → Stored (visible s userId sessionId sessionType) →
      HistoryComplete s userId sessionId sessionType k := by
  intro h
  have hstored : Stored (visible crossed 1 5 sessionTypeGroup) := ⟨by decide, by decide, by decide, by decide⟩
  obtain ⟨received, hreceived, hperm⟩ := h crossed 1 5 sessionTypeGroup 1 (by decide) hstored
  have hpage : getMessageList crossed 1 5 0 1 sessionTypeGroup =
      [{ msgId := 1, fromSessionId := 1, createTime := 20, msgType := msgTypeGroupText, msgData := "a" }] := by
    have hsort : orderBy crossedRows = crossedRows := List.mergeSort_of_pairwise (by decide)
    have hrows : (crossedRows.filter fun row =>
        decide (row.status = 0 ∧ decide (getUserJoinTime crossed 5 1 ≤ row.created) = true)) =
        crossedRows := by decide
    rw [getMessageList, if_neg (by decide), if_pos rfl, if_pos (by decide), getGroupMessage, if_pos rfl, select]
    change readAudios crossed (msgInfos ((orderBy (crossedRows.filter fun row => _)).take 1)) = _
    rw [hrows, hsort]
    decide
  rw [history, hpage] at hreceived
  have hone : received = [{ msgId := 1, fromSessionId := 1, createTime := 20, msgType := msgTypeGroupText, msgData := "a" }] :=
    (Option.some.inj hreceived).symm
  rw [hone] at hperm
  exact absurd hperm.length_eq (by decide)

/-- In pages of two, both come. -/
theorem crossed_history_complete : HistoryComplete crossed 1 5 sessionTypeGroup 2 := by
  have hstored : Stored (visible crossed 1 5 sessionTypeGroup) := ⟨by decide, by decide, by decide, by decide⟩
  exact (history_complete_iff crossed 1 5 sessionTypeGroup 2 (by decide) hstored).2
    (by unfold PagesAgree Pages.InOrder; decide)

end TeamTalk.DbProxy.Content
