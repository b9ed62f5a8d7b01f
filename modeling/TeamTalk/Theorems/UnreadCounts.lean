import TeamTalk.DbProxy.UnreadCounts

/-!
# Unread counts that agree

When the totals and the lists of unread counts agree with the counters. A count goes on from one group to the next where a user
is ahead of his group, and the total is added to before the last message is looked at.
-/

namespace TeamTalk.DbProxy.Unread

/-! ## The property -/

/-- How far a group is ahead of a user; a group without a counter has no messages. -/
def unread (s : Store) (userId groupId : Nat) : UInt32 :=
  match s.groupCnt groupId with
  | none => 0
  | some nGroupCnt => nextCount 0 nGroupCnt ((s.userCnt userId groupId).getD 0)

/-- The groups that should be listed, each with its count. -/
def unreadGroups (s : Store) (userId : Nat) (lsGroupId : List Visit) : List (Nat × UInt32) :=
  lsGroupId.filterMap fun v =>
    if unread s userId v.groupId ≠ 0 ∧ (s.groupLast v.groupId).any (fun last => Actions.msgTypeIsValid last.msgType) then
      some (v.groupId, unread s userId v.groupId)
    else none

/-- The counts of a list. -/
def listed (ls : List UnreadInfo) : List (Nat × UInt32) := ls.map fun info => (info.sessionId, info.unreadCnt)

/-- What is added to a total is the sum of the list. -/
def AddsList (total : UInt32) (r : UInt32 × List UnreadInfo) : Prop := r.1 = total + (r.2.map UnreadInfo.unreadCnt).sum

/-- Lists and totals agree with the counters and with each other. -/
structure UnreadAgrees (s : Store) (userId : Nat) (lsGroupId : List Visit) (mapUnread : List PeerCount) (total : UInt32) :
    Prop where
  list : listed (getUnreadMsgCount s userId lsGroupId total).2 = unreadGroups s userId lsGroupId
  adds : AddsList total (getUnreadMsgCount s userId lsGroupId total)
  all : getUnReadCntAll s userId (lsGroupId.map Visit.groupId) total =
    total + (lsGroupId.map fun v => unread s userId v.groupId).sum
  single : AddsList total (getSingleUnreadMsgCount s userId mapUnread total)

/-! ## The condition -/

/-- A group of the list, and the groups before it. -/
structure Pass where
  before : List Visit
  visit : Visit

/-- The groups of a list, each with those before it. -/
def passes (before : List Visit) : List Visit → List Pass
  | [] => []
  | v :: vs => { before, visit := v } :: passes (before ++ [v]) vs

/-- The user has read more than the group has. -/
def Behind (s : Store) (userId groupId : Nat) : Prop :=
  ∃ nGroupCnt, s.groupCnt groupId = some nGroupCnt ∧ nGroupCnt < (s.userCnt userId groupId).getD 0

instance (s : Store) (userId groupId : Nat) : Decidable (Behind s userId groupId) :=
  match h : s.groupCnt groupId with
  | none => .isFalse fun ⟨_, h', _⟩ => by rw [h] at h'; cases h'
  | some n =>
    decidable_of_iff (n < (s.userCnt userId groupId).getD 0)
      ⟨fun hlt => ⟨n, h, hlt⟩, fun ⟨m, h', hlt⟩ => by rw [h] at h'; cases h'; exact hlt⟩

/-- A group that has a counter, and whose user has not read more. -/
def aheadBy (s : Store) (userId groupId : Nat) : Option UInt32 :=
  if (s.groupCnt groupId).isSome ∧ ¬Behind s userId groupId then some (unread s userId groupId) else none

/-- The count of the last such group. -/
def carried (s : Store) (userId : Nat) (before : List Visit) : UInt32 :=
  (before.reverse.findSome? fun v => aheadBy s userId v.groupId).getD 0

/-- The count of a group, or the one before where the group is behind. -/
def shown (s : Store) (userId : Nat) (p : Pass) : UInt32 :=
  if Behind s userId p.visit.groupId then carried s userId p.before else unread s userId p.visit.groupId

/-- The type that is found: that of the last message, or what the memory holds. -/
def typeFound (s : Store) (v : Visit) : Bool :=
  Actions.msgTypeIsValid (((s.groupLast v.groupId).map LastMsg.msgType).getD v.memory.msgType)

/-- The condition: a group that is shown is not behind, and is not shown by what the memory holds; and what is counted of groups
without a valid type, and of those behind, comes to nothing. -/
structure UnreadMeets (s : Store) (userId : Nat) (lsGroupId : List Visit) : Prop where
  list : ∀ p ∈ passes [] lsGroupId, shown s userId p ≠ 0 → typeFound s p.visit = true →
    ¬Behind s userId p.visit.groupId ∧ (s.groupLast p.visit.groupId).isSome
  adds : (((passes [] lsGroupId).filter fun p => !typeFound s p.visit).map (shown s userId)).sum = 0
  all : (((passes [] lsGroupId).filter fun p => Behind s userId p.visit.groupId).map
    fun p => carried s userId p.before).sum = 0

namespace UnreadCountsAux

/-! ## Lists -/

/-- A list that takes at least what another takes is the other only when it takes nothing more. -/
theorem filterMap_eq_iff {α β : Type} {f g : α → Option β} {l : List α} (h : ∀ a ∈ l, ∀ b, g a = some b → f a = some b) :
    l.filterMap f = l.filterMap g ↔ ∀ a ∈ l, f a ≠ none → g a ≠ none := by
  have hle : ∀ l : List α, (∀ a ∈ l, ∀ b, g a = some b → f a = some b) → (l.filterMap g).length ≤ (l.filterMap f).length := by
    intro l hl
    induction l with
    | nil => exact le_rfl
    | cons a l ih =>
      have hrest := ih fun a' ha' => hl a' (List.mem_cons_of_mem _ ha')
      cases hg : g a with
      | none =>
        rw [List.filterMap_cons_none hg]
        exact hrest.trans (by cases hf : f a <;> simp [hf])
      | some b =>
        rw [List.filterMap_cons_some hg, List.filterMap_cons_some (hl a List.mem_cons_self b hg)]
        simpa using hrest
  induction l with
  | nil => simp
  | cons a l ih =>
    have hl : ∀ a' ∈ l, ∀ b, g a' = some b → f a' = some b := fun a' ha' => h a' (List.mem_cons_of_mem _ ha')
    have hiff : l.filterMap f = l.filterMap g ↔ ∀ a ∈ l, f a ≠ none → g a ≠ none := ih hl
    rw [List.forall_mem_cons]
    cases hg : g a with
    | some b =>
      have hf := h a List.mem_cons_self b hg
      rw [List.filterMap_cons_some hg, List.filterMap_cons_some hf, List.cons_inj_right, hiff]
      simp
    | none =>
      cases hf : f a with
      | none =>
        rw [List.filterMap_cons_none hg, List.filterMap_cons_none hf, hiff]
        simp
      | some b =>
        rw [List.filterMap_cons_none hg, List.filterMap_cons_some hf]
        refine iff_of_false (fun heq => ?_) fun hall => hall.1 (Option.some_ne_none b) rfl
        have hlen := congrArg List.length heq
        have := hle l hl
        rw [List.length_cons] at hlen
        omega

/-- A sum falls into two. -/
theorem sum_split {α : Type} (p : α → Bool) (f : α → UInt32) (l : List α) :
    (l.map f).sum = ((l.filter p).map f).sum + ((l.filter fun a => !p a).map f).sum := by
  induction l with
  | nil => rfl
  | cons a l ih =>
    rw [List.map_cons, List.sum_cons, ih]
    cases hp : p a with
    | true =>
      rw [List.filter_cons_of_pos hp, List.filter_cons_of_neg (by simp [hp]), List.map_cons, List.sum_cons, add_assoc]
    | false =>
      rw [List.filter_cons_of_neg (by simp [hp]), List.filter_cons_of_pos (by simp [hp]), List.map_cons, List.sum_cons]
      abel

theorem passes_append (before vs : List Visit) (v : Visit) :
    passes before (vs ++ [v]) = passes before vs ++ [{ before := before ++ vs, visit := v }] := by
  induction vs generalizing before with
  | nil => simp [passes]
  | cons w vs ih => simp [passes, ih]

theorem map_visit_passes (before vs : List Visit) : (passes before vs).map Pass.visit = vs := by
  induction vs generalizing before with
  | nil => rfl
  | cons v vs ih => rw [passes, List.map_cons, ih]

/-! ## One group -/

/-- A group has no counter, or the user is not ahead of it, or he is. -/
theorem group_cases (s : Store) (userId g : Nat) :
    (s.groupCnt g = none ∧ ¬Behind s userId g ∧ unread s userId g = 0 ∧ aheadBy s userId g = none) ∨
    (∃ n, s.groupCnt g = some n ∧ ¬Behind s userId g ∧ aheadBy s userId g = some (unread s userId g) ∧
      ∀ nCount, nextCount nCount n ((s.userCnt userId g).getD 0) = unread s userId g) ∨
    (∃ n, s.groupCnt g = some n ∧ Behind s userId g ∧ unread s userId g = 0 ∧ aheadBy s userId g = none ∧
      ∀ nCount, nextCount nCount n ((s.userCnt userId g).getD 0) = nCount) := by
  cases hg : s.groupCnt g with
  | none =>
    have hnot : ¬Behind s userId g := by
      rintro ⟨n, h, -⟩
      rw [hg] at h
      cases h
    exact .inl ⟨rfl, hnot, by simp [unread, hg], by simp [aheadBy, hg]⟩
  | some n =>
    by_cases hlt : n < (s.userCnt userId g).getD 0
    · have hbehind : Behind s userId g := ⟨n, hg, hlt⟩
      have hnext : ∀ nCount, nextCount nCount n ((s.userCnt userId g).getD 0) = nCount :=
        fun nCount => if_neg (UInt32.not_le.2 hlt)
      refine .inr (.inr ⟨n, rfl, hbehind, ?_, by simp [aheadBy, hbehind], hnext⟩)
      rw [unread, hg]
      exact hnext 0
    · have hnot : ¬Behind s userId g := by
        rintro ⟨m, h, hlt'⟩
        rw [hg] at h
        cases h
        exact hlt hlt'
      have hge : (s.userCnt userId g).getD 0 ≤ n := UInt32.not_lt.1 hlt
      have hnext : ∀ nCount, nextCount nCount n ((s.userCnt userId g).getD 0) = unread s userId g := by
        intro nCount
        simp only [unread, hg, nextCount, if_pos hge]
      exact .inr (.inl ⟨n, rfl, hnot, by simp [aheadBy, hg, hnot], hnext⟩)

theorem carried_append (s : Store) (userId : Nat) (vs : List Visit) (v : Visit) :
    carried s userId (vs ++ [v]) = (aheadBy s userId v.groupId).getD (carried s userId vs) := by
  rw [carried, List.reverse_append, List.reverse_singleton, List.singleton_append, List.findSome?_cons]
  cases aheadBy s userId v.groupId <;> rfl

/-- What is listed for a group. -/
def entry (s : Store) (userId : Nat) (p : Pass) : Option (Nat × UInt32) :=
  if shown s userId p ≠ 0 ∧ typeFound s p.visit = true then some (p.visit.groupId, shown s userId p) else none

/-- The count of a group decides what is added and listed, and goes on. -/
theorem count_cases (s : Store) (userId : Nat) (vs : List Visit) (v : Visit) :
    (s.groupCnt v.groupId = none ∧ shown s userId { before := vs, visit := v } = 0 ∧
      carried s userId (vs ++ [v]) = carried s userId vs) ∨
    ∃ n, s.groupCnt v.groupId = some n ∧
      nextCount (carried s userId vs) n ((s.userCnt userId v.groupId).getD 0) = shown s userId { before := vs, visit := v } ∧
      carried s userId (vs ++ [v]) = shown s userId { before := vs, visit := v } := by
  rw [carried_append, shown]
  dsimp only
  rcases group_cases s userId v.groupId with
    ⟨hg, hnot, hzero, hnone⟩ | ⟨n, hg, hnot, hsome, hnext⟩ | ⟨n, hg, hbehind, hzero, hnone, hnext⟩
  · rw [if_neg hnot, hnone]
    exact .inl ⟨hg, hzero, rfl⟩
  · rw [if_neg hnot, hsome]
    exact .inr ⟨n, hg, hnext _, rfl⟩
  · rw [if_pos hbehind, hnone]
    exact .inr ⟨n, hg, hnext _, rfl⟩

/-- One round adds the count of its group, and lists it. -/
theorem unreadRound_spec (s : Store) (userId : Nat) {l : Loop} {vs : List Visit} (v : Visit)
    (h : l.nCount = carried s userId vs) :
    (unreadRound s userId l v).nCount = carried s userId (vs ++ [v]) ∧
      (unreadRound s userId l v).nTotalCnt = l.nTotalCnt + shown s userId { before := vs, visit := v } ∧
      listed (unreadRound s userId l v).lsUnreadCount =
        listed l.lsUnreadCount ++ (entry s userId { before := vs, visit := v }).toList := by
  have htype : Actions.msgTypeIsValid (getLastMsg (s.groupLast v.groupId) { v.memory with msgData := "" }).msgType =
      typeFound s v := by
    rw [getLastMsg, typeFound]
    cases s.groupLast v.groupId <;> rfl
  unfold unreadRound entry
  rcases count_cases s userId vs v with ⟨hg, hshown, hcarried⟩ | ⟨n, hg, hshown, hcarried⟩
  · rw [hg, hcarried, hshown]
    exact ⟨h, (add_zero _).symm, by simp⟩
  · rw [hg, hcarried]
    dsimp only
    rw [h, hshown, htype]
    generalize shown s userId { before := vs, visit := v } = nCount
    by_cases hzero : nCount = 0
    · subst hzero
      exact ⟨rfl, (add_zero _).symm, by simp⟩
    · rw [if_pos (UInt32.pos_iff_ne_zero.2 hzero)]
      refine ⟨rfl, rfl, ?_⟩
      cases typeFound s v with
      | true => simp [listed, hzero]
      | false => simp

/-! ## The loops -/

/-- What the loop has after some groups. -/
theorem unreadRound_foldl (s : Store) (userId : Nat) (vs : List Visit) (total : UInt32) :
    let l := vs.foldl (unreadRound s userId) { nCount := 0, nTotalCnt := total, lsUnreadCount := [] }
    l.nCount = carried s userId vs ∧ l.nTotalCnt = total + ((passes [] vs).map (shown s userId)).sum ∧
      listed l.lsUnreadCount = (passes [] vs).filterMap (entry s userId) := by
  induction vs using List.reverseRecOn with
  | nil => exact ⟨rfl, (add_zero total).symm, rfl⟩
  | append_singleton vs v ih =>
    obtain ⟨hcount, htotal, hlisted⟩ := ih
    obtain ⟨hcount', htotal', hlisted'⟩ := unreadRound_spec s userId v hcount
    rw [List.foldl_append, List.foldl_cons, List.foldl_nil, passes_append, List.nil_append]
    refine ⟨hcount', ?_, ?_⟩
    · rw [htotal', htotal, List.map_append, List.sum_append, List.map_singleton, List.sum_singleton, add_assoc]
    · rw [hlisted', hlisted, List.filterMap_append]
      cases hentry : entry s userId { before := vs, visit := v } <;> simp [hentry]

/-- The second function counts alike. -/
theorem cntAllRound_foldl (s : Store) (userId : Nat) (vs : List Visit) (total : UInt32) :
    (vs.map Visit.groupId).foldl (cntAllRound s userId) (0, total) =
      (carried s userId vs, total + ((passes [] vs).map (shown s userId)).sum) := by
  induction vs using List.reverseRecOn with
  | nil => exact Prod.ext rfl (add_zero total).symm
  | append_singleton vs v ih =>
    rw [List.map_append, List.foldl_append, ih, passes_append, List.nil_append, List.map_append, List.sum_append]
    rw [List.map_singleton, List.map_singleton, List.sum_singleton, List.foldl_cons, List.foldl_nil, cntAllRound]
    rcases count_cases s userId vs v with ⟨hg, hshown, hcarried⟩ | ⟨n, hg, hshown, hcarried⟩
    · rw [hg, hcarried, hshown, add_zero]
    · rw [hg, hcarried]
      dsimp only
      rw [hshown, ← add_assoc]
      split
      next => rfl
      next hzero =>
        have hnot : shown s userId { before := vs, visit := v } = 0 := by
          by_contra hne
          exact hzero (UInt32.pos_iff_ne_zero.2 hne)
        rw [hnot, add_zero]

/-! ## The four parts -/

/-- What should be listed for a group is listed. -/
theorem entry_of_unread {s : Store} {userId : Nat} (p : Pass) (hunread : unread s userId p.visit.groupId ≠ 0)
    (hvalid : (s.groupLast p.visit.groupId).any (fun last => Actions.msgTypeIsValid last.msgType) = true) :
    entry s userId p = some (p.visit.groupId, unread s userId p.visit.groupId) := by
  have hnot : ¬Behind s userId p.visit.groupId := by
    rcases group_cases s userId p.visit.groupId with ⟨-, hnot, -⟩ | ⟨-, -, hnot, -⟩ | ⟨-, -, -, hzero, -⟩
    · exact hnot
    · exact hnot
    · exact absurd hzero hunread
  have hshown : shown s userId p = unread s userId p.visit.groupId := if_neg hnot
  obtain ⟨last, hlast, htype⟩ := (Option.any_eq_true ..).1 hvalid
  have hfound : typeFound s p.visit = true := by
    rw [typeFound, hlast]
    exact htype
  rw [entry, hshown, if_pos ⟨hunread, hfound⟩]

/-- The list is right exactly when nothing else is shown. -/
theorem list_iff (s : Store) (userId : Nat) (lsGroupId : List Visit) (total : UInt32) :
    listed (getUnreadMsgCount s userId lsGroupId total).2 = unreadGroups s userId lsGroupId ↔
      ∀ p ∈ passes [] lsGroupId, shown s userId p ≠ 0 → typeFound s p.visit = true →
        ¬Behind s userId p.visit.groupId ∧ (s.groupLast p.visit.groupId).isSome := by
  obtain ⟨-, -, hlisted⟩ := unreadRound_foldl s userId lsGroupId total
  have hgroups : unreadGroups s userId lsGroupId = (passes [] lsGroupId).filterMap fun p =>
      if unread s userId p.visit.groupId ≠ 0 ∧
          (s.groupLast p.visit.groupId).any (fun last => Actions.msgTypeIsValid last.msgType) then
        some (p.visit.groupId, unread s userId p.visit.groupId)
      else none := by
    conv_lhs => rw [← map_visit_passes [] lsGroupId, unreadGroups, List.filterMap_map]
    rfl
  rw [hgroups]
  refine (Eq.congr_left hlisted).trans ((filterMap_eq_iff ?_).trans ?_)
  · intro p _ b hb
    split at hb
    next h =>
      cases hb
      exact entry_of_unread p h.1 h.2
    next => cases hb
  · refine forall₂_congr fun p _ => ?_
    rw [entry]
    constructor
    · intro h hshown hfound
      have hexpected := h (by rw [if_pos ⟨hshown, hfound⟩]; exact Option.some_ne_none _)
      split at hexpected
      next hand =>
        refine ⟨fun hbehind => ?_, Option.isSome_iff_exists.2 ?_⟩
        · rcases group_cases s userId p.visit.groupId with ⟨-, hnot, -⟩ | ⟨-, -, hnot, -⟩ | ⟨-, -, -, hzero, -⟩
          · exact hnot hbehind
          · exact hnot hbehind
          · exact hand.1 hzero
        · obtain ⟨last, hlast, -⟩ := (Option.any_eq_true ..).1 hand.2
          exact ⟨last, hlast⟩
      next => exact absurd rfl hexpected
    · intro h hentry
      split at hentry
      next hand =>
        obtain ⟨hnot, hsome⟩ := h hand.1 hand.2
        obtain ⟨last, hlast⟩ := Option.isSome_iff_exists.1 hsome
        have hunread : unread s userId p.visit.groupId ≠ 0 := by
          have hshown : shown s userId p = unread s userId p.visit.groupId := if_neg hnot
          rw [← hshown]
          exact hand.1
        have hfound := hand.2
        rw [typeFound, hlast] at hfound
        have hany : (s.groupLast p.visit.groupId).any (fun last => Actions.msgTypeIsValid last.msgType) = true := by
          rw [hlast]
          exact hfound
        rw [if_pos ⟨hunread, hany⟩]
        exact Option.some_ne_none _
      next => exact absurd rfl hentry

/-- The sum of the list is that of the counts whose type is found. -/
theorem sum_entries (s : Store) (userId : Nat) (l : List Pass) :
    ((l.filterMap (entry s userId)).map Prod.snd).sum =
      ((l.filter fun p => typeFound s p.visit).map (shown s userId)).sum := by
  induction l with
  | nil => rfl
  | cons p l ih =>
    cases hfound : typeFound s p.visit with
    | false =>
      rw [List.filterMap_cons_none (by simp [entry, hfound]), List.filter_cons_of_neg (by simp [hfound]), ih]
    | true =>
      rw [List.filter_cons_of_pos (by simp [hfound]), List.map_cons, List.sum_cons]
      by_cases hshown : shown s userId p = 0
      · rw [List.filterMap_cons_none (by simp [entry, hshown]), hshown, zero_add, ih]
      · rw [List.filterMap_cons_some (by rw [entry, if_pos ⟨hshown, hfound⟩]), List.map_cons, List.sum_cons, ih]

/-- The total is right exactly when what is counted and not listed comes to nothing. -/
theorem adds_iff (s : Store) (userId : Nat) (lsGroupId : List Visit) (total : UInt32) :
    AddsList total (getUnreadMsgCount s userId lsGroupId total) ↔
      (((passes [] lsGroupId).filter fun p => !typeFound s p.visit).map (shown s userId)).sum = 0 := by
  obtain ⟨-, htotal, hlisted⟩ := unreadRound_foldl s userId lsGroupId total
  have hsum : ((getUnreadMsgCount s userId lsGroupId total).2.map UnreadInfo.unreadCnt).sum =
      (((passes [] lsGroupId).filter fun p => typeFound s p.visit).map (shown s userId)).sum := by
    rw [← sum_entries, ← hlisted, listed, List.map_map]
    rfl
  rw [AddsList, hsum]
  refine (Eq.congr_left htotal).trans ?_
  rw [add_right_inj, sum_split (fun p => typeFound s p.visit) (shown s userId)]
  exact add_eq_left

/-- The second total is right exactly when what goes on to groups behind comes to nothing. -/
theorem all_iff (s : Store) (userId : Nat) (lsGroupId : List Visit) (total : UInt32) :
    getUnReadCntAll s userId (lsGroupId.map Visit.groupId) total =
        total + (lsGroupId.map fun v => unread s userId v.groupId).sum ↔
      (((passes [] lsGroupId).filter fun p => Behind s userId p.visit.groupId).map fun p => carried s userId p.before).sum = 0 := by
  have hunread : (lsGroupId.map fun v => unread s userId v.groupId).sum =
      ((passes [] lsGroupId).map fun p => unread s userId p.visit.groupId).sum := by
    conv_lhs => rw [← map_visit_passes [] lsGroupId, List.map_map]
    rfl
  rw [getUnReadCntAll, cntAllRound_foldl, hunread, add_right_inj]
  rw [sum_split (fun p => decide (Behind s userId p.visit.groupId)) (shown s userId),
    sum_split (fun p => decide (Behind s userId p.visit.groupId)) fun p : Pass => unread s userId p.visit.groupId]
  have hbehind : ((passes [] lsGroupId).filter fun p => Behind s userId p.visit.groupId).map (shown s userId) =
      ((passes [] lsGroupId).filter fun p => Behind s userId p.visit.groupId).map fun p => carried s userId p.before := by
    refine List.map_congr_left fun p hp => ?_
    exact if_pos (of_decide_eq_true (List.mem_filter.1 hp).2)
  have hahead : ((passes [] lsGroupId).filter fun p => !decide (Behind s userId p.visit.groupId)).map (shown s userId) =
      ((passes [] lsGroupId).filter fun p => !decide (Behind s userId p.visit.groupId)).map
        fun p => unread s userId p.visit.groupId := by
    refine List.map_congr_left fun p hp => ?_
    exact if_neg (by simpa using (List.mem_filter.1 hp).2)
  have hzero : (((passes [] lsGroupId).filter fun p => Behind s userId p.visit.groupId).map
      fun p => unread s userId p.visit.groupId).sum = 0 := by
    refine List.sum_eq_zero fun n hn => ?_
    obtain ⟨p, hp, rfl⟩ := List.mem_map.1 hn
    have hb : Behind s userId p.visit.groupId := of_decide_eq_true (List.mem_filter.1 hp).2
    rcases group_cases s userId p.visit.groupId with ⟨-, -, hzero, -⟩ | ⟨-, -, hnot, -⟩ | ⟨-, -, -, hzero, -⟩
    · exact hzero
    · exact absurd hb hnot
    · exact hzero
  rw [hbehind, hahead, hzero, zero_add]
  exact add_eq_right

/-- A peer's count is added when it is listed. -/
theorem single_adds (s : Store) (userId : Nat) (mapUnread : List PeerCount) (total : UInt32) :
    AddsList total (getSingleUnreadMsgCount s userId mapUnread total) := by
  induction mapUnread using List.reverseRecOn with
  | nil => exact (add_zero total).symm
  | append_singleton mapUnread entry ih =>
    unfold getSingleUnreadMsgCount AddsList at ih ⊢
    rw [List.foldl_append, List.foldl_cons, List.foldl_nil, singleRound]
    split
    · rw [List.map_append, List.sum_append, ih, List.map_singleton, List.sum_singleton, add_assoc]
    · exact ih

end UnreadCountsAux

open UnreadCountsAux

/-- The unread counts agree exactly under the condition. -/
theorem unread_agrees_iff (s : Store) (userId : Nat) (lsGroupId : List Visit) (mapUnread : List PeerCount) (total : UInt32) :
    UnreadAgrees s userId lsGroupId mapUnread total ↔ UnreadMeets s userId lsGroupId := by
  constructor
  · intro h
    exact ⟨(list_iff s userId lsGroupId total).1 h.list, (adds_iff s userId lsGroupId total).1 h.adds,
      (all_iff s userId lsGroupId total).1 h.all⟩
  · intro h
    exact ⟨(list_iff s userId lsGroupId total).2 h.list, (adds_iff s userId lsGroupId total).2 h.adds,
      (all_iff s userId lsGroupId total).2 h.all, single_adds s userId mapUnread total⟩

/-- User 7 has read 2 of the 5 messages of group 1, and, by his counter, 4 of the one message of group 2: both are listed with 3. -/
theorem not_unread_agrees :
    ¬∀ (s : Store) (userId : Nat) (lsGroupId : List Visit) (mapUnread : List PeerCount) (total : UInt32),
      UnreadAgrees s userId lsGroupId mapUnread total := by
  intro h
  have hagrees := h {
      groupCnt := fun g => if g = 1 then some 5 else if g = 2 then some 1 else none
      userCnt := fun _ g => if g = 1 then some 2 else if g = 2 then some 4 else none
      groupLast := fun g => some { msgId := g, msgType := 0x11, msgData := "text", fromId := 8 }
      singleLast := fun _ _ => none } 7
    [{ groupId := 1, memory := { msgId := 0, msgType := 0, msgData := "", fromId := 0 } },
      { groupId := 2, memory := { msgId := 0, msgType := 0, msgData := "", fromId := 0 } }] [] 0
  exact absurd hagrees.list (by decide)

end TeamTalk.DbProxy.Unread
