import TeamTalk.DbProxy.GroupRuns

/-!
# Members are kept twice, and counted twice

Redis and `IMGroupMember` agree on the members of every group, whatever `CGroupModel` is asked to do with ids below 2^31. An id from
2^31 on is inserted as a negative number, and is not found again. `IMGroup.userCnt` is never the number of members: those of a new
group are counted when it is made, and again when they are inserted, and nobody who leaves is subtracted.
-/

namespace TeamTalk.DbProxy.Groups

open Prog

/-- A call of `CGroupModel`, with the users as a list. `nCreator` is what `removeGroup` finds in its variable. -/
inductive GroupCall where
  | createGroup (userId : Nat) (groupName groupAvatar : String) (groupType : Nat) (members : List Nat)
  | addMember (groupId : Nat) (users : List Nat)
  | removeMember (groupId : Nat) (users : List Nat)
  | removeGroup (nCreator userId groupId : Nat)

/-- The store after a call. -/
def GroupCall.after (s : Store) : GroupCall → Store
  | .createGroup userId name avatar type members => (s.run (Groups.createGroup userId name avatar type (.ofList members))).1
  | .addMember g users => (s.run (Groups.addMember g (.ofList users))).1
  | .removeMember g users => (s.run (Groups.removeMember g (.ofList users))).1
  | .removeGroup nCreator userId g => (s.run (Groups.removeGroup nCreator userId g)).1

/-- One call after another. -/
def groupStep (s : Store) (c : GroupCall) : Option (Store × List Empty) := some (c.after s, [])

/-- The ids that a call inserts are below 2^31. -/
def Small (s : Store) : GroupCall → Prop
  | .createGroup _ _ _ _ members => s.nextGroupId < 2 ^ 31 ∧ ∀ u ∈ members, u < 2 ^ 31
  | .addMember g users => g < 2 ^ 31 ∧ ∀ u ∈ users, u < 2 ^ 31
  | .removeMember .. | .removeGroup .. => True

/-- What a row is about. -/
def MemberRow.key (r : MemberRow) : Int × Int := (r.groupId, r.userId)

/-- Redis has the users whose row has status 0, and nobody has two rows in a group. -/
structure Agree (s : Store) : Prop where
  redis : ∀ (g : Nat) (x : Int), { groupId := g, userId := x, status := 0 } ∈ s.members ↔ ∃ u ∈ s.groupMember g, x = u
  rows : (s.members.map MemberRow.key).Nodup

/-- Redis and the rows agree, after every sequence of calls. -/
def MembersAgree : Prop := ∀ log s, Machine.Run groupStep (fun _ _ => True) Store.init log s → Agree s

/-- The number of members of a group. -/
def memberCount (s : Store) (groupId : Nat) : Nat := s.members.countP fun r => r.groupId = (groupId : Int) ∧ r.status = 0

/-- The count of every group is right, after every sequence of calls. -/
def UserCntRight : Prop :=
  ∀ log s, Machine.Run groupStep (fun _ _ => True) Store.init log s → ∀ row ∈ s.groups, row.userCnt = memberCount s row.id

namespace MembersAux

open RunsAux

/-! ## Redis and the rows -/

/-- Who has a row. -/
theorem hasRow_iff {s : Store} {g u : Nat} : s.hasRow g u = true ↔ ((g : Int), (u : Int)) ∈ s.members.map MemberRow.key := by
  simp only [Store.hasRow, List.any_eq_true, decide_eq_true_eq, List.mem_map, MemberRow.key, Prod.mk.injEq]

/-- The status of a row changes, and not what it is about. -/
theorem key_setStatus (s : Store) (g : Nat) (users : List Nat) (status : Nat) :
    (s.setStatus g users status).members.map MemberRow.key = s.members.map MemberRow.key := by
  rw [Store.setStatus, List.map_map]
  refine List.map_congr_left fun r _ => ?_
  simp only [Function.comp_apply]
  split <;> rfl

/-- A row with a status, after the status of some users has been set. -/
theorem mem_setStatus {s : Store} {g status : Nat} {users : List Nat} {y x : Int} {st : Nat} :
    { groupId := y, userId := x, status := st } ∈ (s.setStatus g users status).members ↔
      if y = g ∧ ∃ u ∈ users, x = u then st = status ∧ (y, x) ∈ s.members.map MemberRow.key
      else { groupId := y, userId := x, status := st } ∈ s.members := by
  simp only [Store.setStatus, List.mem_map]
  constructor
  · rintro ⟨r, hr, heq⟩
    by_cases hrow : Store.isRowOf g users r = true
    · rw [if_pos hrow] at heq
      obtain ⟨rfl, rfl, rfl⟩ := MemberRow.mk.inj heq
      have hof := of_decide_eq_true hrow
      rw [if_pos hof]
      exact ⟨rfl, r, hr, rfl⟩
    · rw [if_neg hrow] at heq
      subst heq
      rw [if_neg fun hof => hrow (decide_eq_true hof)]
      exact hr
  · split
    · rename_i hof
      rintro ⟨rfl, r, hr, hkey⟩
      obtain ⟨rfl, rfl⟩ := Prod.mk.inj hkey
      refine ⟨r, hr, ?_⟩
      rw [if_pos (show Store.isRowOf g users r = true from decide_eq_true hof)]
    · rename_i hnot
      exact fun hin => ⟨_, hin, if_neg fun hof => hnot (of_decide_eq_true hof)⟩

/-- A small id is inserted as it is. -/
theorem mem_newRows {s : Store} {g : Nat} {users : List Nat} (hg : g < 2 ^ 31) (hsmall : ∀ u ∈ users, u < 2 ^ 31) {r : MemberRow} :
    r ∈ ((s.newUsers g users).map fun u => { groupId := setParam g, userId := setParam u, status := 0 }) ↔
      ∃ u ∈ users, s.hasRow g u = false ∧ r = { groupId := g, userId := u, status := 0 } := by
  simp only [List.mem_map, Store.newUsers, List.mem_filter, Bool.not_eq_true', setParam_of_lt hg]
  refine exists_congr fun u => ⟨?_, ?_⟩
  · rintro ⟨⟨hu, hrow⟩, rfl⟩
    exact ⟨hu, hrow, by rw [setParam_of_lt (hsmall u hu)]⟩
  · rintro ⟨hu, hrow, rfl⟩
    exact ⟨⟨hu, hrow⟩, by rw [setParam_of_lt (hsmall u hu)]⟩

/-- Who gets a row had none, and gets one only. -/
theorem rows_withMembers {s : Store} {g : Nat} {users : List Nat} (h : (s.members.map MemberRow.key).Nodup) (hnodup : users.Nodup)
    (hg : g < 2 ^ 31) (hsmall : ∀ u ∈ users, u < 2 ^ 31) : ((s.withMembers g users).members.map MemberRow.key).Nodup := by
  change ((s.setStatus g users 0).members ++ _).map MemberRow.key |>.Nodup
  rw [List.map_append, key_setStatus, List.nodup_append]
  refine ⟨h, ?_, ?_⟩
  · rw [List.map_map]
    refine List.Nodup.map_on (fun a ha b hb heq => ?_) (hnodup.filter _)
    have heq : setParam a = setParam b := (Prod.mk.inj heq).2
    rw [setParam_of_lt (hsmall a (List.mem_filter.1 ha).1), setParam_of_lt (hsmall b (List.mem_filter.1 hb).1)] at heq
    exact Int.natCast_inj.1 heq
  · rintro old hold new hnew rfl
    obtain ⟨r, hr, rfl⟩ := List.mem_map.1 hnew
    obtain ⟨u, -, hrow, rfl⟩ := (mem_newRows hg hsmall).1 hr
    rw [hasRow_iff.2 hold] at hrow
    cases hrow

/-- Who is to be a member is one in redis, and in the rows. -/
theorem agree_withMembers {s : Store} {g : Nat} {users : List Nat} (h : Agree s) (hnodup : users.Nodup)
    (hg : g < 2 ^ 31) (hsmall : ∀ u ∈ users, u < 2 ^ 31) : Agree (s.withMembers g users) := by
  refine ⟨fun g' x => ?_, rows_withMembers h.rows hnodup hg hsmall⟩
  change _ ∈ (s.setStatus g users 0).members ++ _ ↔ _
  rw [List.mem_append, mem_setStatus, mem_newRows hg hsmall]
  simp only [MemberRow.mk.injEq, Int.natCast_inj, mem_withMembers]
  by_cases hg' : g' = g
  · subst hg'
    by_cases hx : ∃ u ∈ users, x = u
    · -- who is asked for has a row, or gets one
      obtain ⟨u, hu, rfl⟩ := hx
      rw [if_pos ⟨rfl, u, hu, rfl⟩, ← hasRow_iff]
      refine iff_of_true ?_ ⟨u, .inr ⟨rfl, hu⟩, rfl⟩
      cases hrow : s.hasRow g' u with
      | true => exact .inl ⟨trivial, rfl⟩
      | false => exact .inr ⟨u, hu, hrow, rfl, rfl, trivial⟩
    · rw [if_neg fun hof => hx hof.2, h.redis]
      constructor
      · rintro (⟨u, hu, rfl⟩ | ⟨u, hu, -, -, rfl, -⟩)
        · exact ⟨u, .inl hu, rfl⟩
        · exact absurd ⟨u, hu, rfl⟩ hx
      · rintro ⟨u, hu | ⟨-, hu⟩, rfl⟩
        · exact .inl ⟨u, hu, rfl⟩
        · exact absurd ⟨u, hu, rfl⟩ hx
  · simp [hg', h.redis]

/-- Who leaves is no member any more, in redis and in the rows. -/
theorem agree_withoutMembers {s : Store} {g : Nat} {users : List Nat} (h : Agree s) : Agree (s.withoutMembers g users) := by
  refine ⟨fun g' x => ?_, ?_⟩
  · change _ ∈ (s.setStatus g users 1).members ↔ _
    rw [mem_setStatus]
    simp only [Int.natCast_inj, mem_withoutMembers]
    by_cases hof : g' = g ∧ ∃ u ∈ users, x = u
    · rw [if_pos hof]
      obtain ⟨rfl, v, hv, rfl⟩ := hof
      refine iff_of_false (fun hrow => absurd hrow.1 Nat.zero_ne_one) ?_
      rintro ⟨u, ⟨-, hnot⟩, heq⟩
      exact hnot ⟨rfl, Int.natCast_inj.1 heq ▸ hv⟩
    · rw [if_neg hof, h.redis]
      refine exists_congr fun u => and_congr_left fun hu => (and_iff_left ?_).symm
      exact fun hin => hof ⟨hin.1, u, hin.2, hu⟩
  · change ((s.setStatus g users 1).members.map MemberRow.key).Nodup
    rw [key_setStatus]
    exact h.rows

/-- A group without rows has no members. -/
theorem agree_cleared {s : Store} {g : Nat} (h : Agree s) : Agree (s.cleared g) := by
  refine ⟨fun g' x => ?_, ?_⟩
  · change _ ∈ s.members.filter (·.groupId ≠ (g : Int)) ↔ _
    simp only [mem_cleared, List.mem_filter, h.redis, decide_eq_true_eq, ne_eq, Int.natCast_inj]
    constructor
    · rintro ⟨⟨u, hu, hx⟩, hg⟩
      exact ⟨u, ⟨hu, hg⟩, hx⟩
    · rintro ⟨u, ⟨hu, hg⟩, hx⟩
      exact ⟨⟨u, hu, hx⟩, hg⟩
  · exact (List.filter_sublist.map MemberRow.key).nodup h.rows

/-- There are no groups, in redis and in the rows. -/
theorem agree_init : Agree Store.init := by
  refine ⟨fun g x => iff_of_false List.not_mem_nil ?_, List.nodup_nil⟩
  rintro ⟨u, hu, -⟩
  exact List.not_mem_nil hu

/-- The invariant: ids are not 0, and redis agrees with the rows. -/
theorem agree_step {out : List Empty} {s s' : Store} {c : GroupCall} (h : s.nextGroupId ≠ 0 ∧ Agree s) (hsmall : Small s c)
    (hstep : groupStep s c = some (s', out)) : s'.nextGroupId ≠ 0 ∧ Agree s' := by
  obtain ⟨rfl, -⟩ := Prod.mk.inj (Option.some.inj hstep)
  obtain ⟨hid, hagree⟩ := h
  cases c with
  | createGroup userId name avatar type members =>
    by_cases hnobody : name = "" ∨ (UserSet.ofList members).users = []
    · rw [GroupCall.after, run_createGroup_nobody s hnobody]
      exact ⟨hid, hagree⟩
    · rw [not_or] at hnobody
      rw [GroupCall.after, run_createGroup s hnobody.1 hnobody.2 hid]
      refine ⟨Nat.succ_ne_zero _, agree_withMembers (agree_cleared ⟨hagree.redis, hagree.rows⟩) (UserSet.nodup _) hsmall.1 ?_⟩
      exact fun u hu => hsmall.2 u (UserSet.mem_ofList.1 hu)
  | addMember g users =>
    rw [GroupCall.after, run_addMember]
    dsimp only
    split
    · refine ⟨hid, agree_withMembers hagree ((UserSet.nodup _).filter _) hsmall.1 ?_⟩
      exact fun u hu => hsmall.2 u (UserSet.mem_ofList.1 (mem_of_absent hu))
    · exact ⟨hid, hagree⟩
  | removeMember g users =>
    obtain ⟨cur, hrun⟩ := @run_removeMember s g (.ofList users)
    rw [GroupCall.after, hrun]
    exact ⟨hid, agree_withoutMembers hagree⟩
  | removeGroup nCreator userId g =>
    rcases run_removeGroup s nCreator userId g with hrun | ⟨users, hrun⟩
    · rw [GroupCall.after, hrun]
      exact ⟨hid, hagree⟩
    · rw [GroupCall.after, hrun]
      exact ⟨hid, agree_withoutMembers ⟨hagree.redis, hagree.rows⟩⟩

/-! ## The count -/

/-- The number of rows of a group, whatever their status. -/
def rowsIn (s : Store) (groupId : Nat) : Nat := s.members.countP fun r => r.groupId = (groupId : Int)

/-- Every group has been counted to more than it has rows. -/
structure Overcounted (s : Store) : Prop where
  positive : 0 < s.nextGroupId
  old : ∀ row ∈ s.groups, 0 < row.id ∧ row.id < s.nextGroupId
  more : ∀ row ∈ s.groups, rowsIn s row.id < row.userCnt

theorem rowCount_setStatus (s : Store) (g : Nat) (users : List Nat) (status g' : Nat) :
    rowsIn (s.setStatus g users status) g' = rowsIn s g' := by
  rw [rowsIn, Store.setStatus, List.countP_map]
  refine List.countP_congr fun r _ => ?_
  simp only [Function.comp_apply]
  split <;> rfl

/-- Only the group that is given gets rows, if it gets any: they could be for a negative number. -/
theorem rowCount_withMembers (s : Store) (g : Nat) (users : List Nat) {g' : Nat} (hpos : 0 < g') :
    rowsIn (s.withMembers g users) g' ≤ rowsIn s g' + if g' = g then (s.newUsers g users).length else 0 := by
  rw [← rowCount_setStatus s g users 0]
  simp only [rowsIn, Store.withMembers, List.countP_append, List.countP_map]
  refine Nat.add_le_add_left ?_ _
  split
  · exact List.countP_le_length
  · rename_i hne
    refine Nat.le_of_eq (List.countP_eq_zero.2 fun u _ => ?_)
    simpa using fun heq => hne (eq_of_setParam_eq hpos heq).symm

/-- Who is inserted is counted. -/
theorem overcounted_withMembers {s : Store} (h : Overcounted s) (g : Nat) (users : List Nat) :
    Overcounted (s.withMembers g users) := by
  refine ⟨h.positive, ?_, ?_⟩
  · intro row hrow
    obtain ⟨r, hr, rfl⟩ := List.mem_map.1 hrow
    have hold := h.old r hr
    split <;> exact hold
  · intro row hrow
    obtain ⟨r, hr, rfl⟩ := List.mem_map.1 hrow
    have hover := h.more r hr
    have hid : (if r.id = g then { r with userCnt := r.userCnt + (s.newUsers g users).length } else r).id = r.id := by split <;> rfl
    rw [hid]
    refine Nat.lt_of_le_of_lt (rowCount_withMembers s g users (h.old r hr).1) ?_
    split
    · exact Nat.add_lt_add_right hover _
    · exact hover

/-- The rows of who leaves stay, and so does the count. -/
theorem overcounted_withoutMembers {s : Store} (h : Overcounted s) (g : Nat) (users : List Nat) :
    Overcounted (s.withoutMembers g users) := by
  refine ⟨h.positive, h.old, fun row hrow => ?_⟩
  have hcount : rowsIn (s.withoutMembers g users) row.id = rowsIn s row.id := rowCount_setStatus s g users 1 row.id
  rw [hcount]
  exact h.more row hrow

/-- A new group has been counted, and has no rows yet. -/
theorem overcounted_created {s : Store} (h : Overcounted s) (name avatar : String) (creator type : Nat) {userCnt : Nat}
    (hcnt : 0 < userCnt) : Overcounted ((s.withGroup name avatar creator type userCnt).cleared s.nextGroupId) := by
  have hcount : ∀ g, rowsIn ((s.withGroup name avatar creator type userCnt).cleared s.nextGroupId) g =
      if g = s.nextGroupId then 0 else rowsIn s g := by
    intro g
    simp only [rowsIn, Store.cleared, Store.setMembers, Store.withGroup, List.countP_filter]
    split
    · rename_i heq
      refine List.countP_eq_zero.2 fun r _ => ?_
      simp [heq]
    · rename_i hne
      refine List.countP_congr fun r _ => ?_
      simp only [Bool.and_eq_true, decide_eq_true_eq, and_iff_left_iff_imp]
      intro hr
      rw [hr, ne_eq, Int.natCast_inj]
      exact hne
  refine ⟨Nat.succ_pos _, fun row hrow => ?_, fun row hrow => ?_⟩
  · rcases List.mem_append.1 hrow with hrow | hrow
    · exact ⟨(h.old row hrow).1, Nat.lt_succ_of_lt (h.old row hrow).2⟩
    · rw [List.mem_singleton.1 hrow]
      exact ⟨h.positive, Nat.lt_succ_self _⟩
  · rw [hcount]
    rcases List.mem_append.1 hrow with hrow | hrow
    · rw [if_neg (Nat.ne_of_lt (h.old row hrow).2)]
      exact h.more row hrow
    · rw [List.mem_singleton.1 hrow, if_pos rfl]
      exact hcnt

theorem overcounted_status {s : Store} (h : Overcounted s) (g status : Nat) :
    Overcounted (s.mapGroup g ({ · with status })) := by
  refine ⟨h.positive, fun row hrow => ?_, fun row hrow => ?_⟩
  · obtain ⟨r, hr, rfl⟩ := List.mem_map.1 hrow
    have hold := h.old r hr
    split <;> exact hold
  · obtain ⟨r, hr, rfl⟩ := List.mem_map.1 hrow
    have hover := h.more r hr
    split <;> exact hover

theorem overcounted_step {out : List Empty} {s s' : Store} {c : GroupCall} (h : Overcounted s)
    (hstep : groupStep s c = some (s', out)) : Overcounted s' := by
  obtain ⟨rfl, -⟩ := Prod.mk.inj (Option.some.inj hstep)
  cases c with
  | createGroup userId name avatar type members =>
    by_cases hnobody : name = "" ∨ (UserSet.ofList members).users = []
    · rw [GroupCall.after, run_createGroup_nobody s hnobody]
      exact h
    · rw [not_or] at hnobody
      rw [GroupCall.after, run_createGroup s hnobody.1 hnobody.2 (Nat.ne_of_gt h.positive)]
      exact overcounted_withMembers (overcounted_created h _ _ _ _ (List.length_pos_iff.2 hnobody.2)) _ _
  | addMember g users =>
    rw [GroupCall.after, run_addMember]
    dsimp only
    split
    · exact overcounted_withMembers h _ _
    · exact h
  | removeMember g users =>
    obtain ⟨cur, hrun⟩ := @run_removeMember s g (.ofList users)
    rw [GroupCall.after, hrun]
    exact overcounted_withoutMembers h _ _
  | removeGroup nCreator userId g =>
    rcases run_removeGroup s nCreator userId g with hrun | ⟨users, hrun⟩
    · rw [GroupCall.after, hrun]
      exact h
    · rw [GroupCall.after, hrun]
      exact overcounted_withoutMembers (overcounted_status h _ _) _ _

theorem overcounted_init : Overcounted Store.init := ⟨Nat.one_pos, nofun, nofun⟩

end MembersAux

open MembersAux

/-- After every sequence of calls that insert small ids only, redis has exactly the users whose row has status 0, and nobody has two
rows in a group. -/
theorem members_agree (log : List Empty) (s : Store) (hrun : Machine.Run groupStep Small Store.init log s) : Agree s := by
  exact (hrun.invariant (I := fun _ s => s.nextGroupId ≠ 0 ∧ Agree s) ⟨Nat.one_ne_zero, agree_init⟩
    fun h hsmall hstep => agree_step h hsmall hstep).2

/-- A group of two members: one is removed, and comes back with somebody new. -/
theorem members_agree_back : ∃ s, s.groupMember 1 = [8, 7, 9] ∧
    s.members = [{ groupId := 1, userId := 7, status := 0 }, { groupId := 1, userId := 8, status := 0 },
      { groupId := 1, userId := 9, status := 0 }] ∧ Agree s := by
  have hrun : Machine.Run groupStep Small Store.init ((([] ++ []) ++ []) ++ []) _ :=
    .step (.step (.step .start (e := GroupCall.createGroup 7 "g" "" groupTypeTmp [7, 8]) ⟨by decide, by decide⟩ rfl)
      (e := GroupCall.removeMember 1 [7]) trivial rfl) (e := GroupCall.addMember 1 [9, 8, 7, 9]) ⟨by decide, by decide⟩ rfl
  exact ⟨_, rfl, rfl, members_agree _ _ hrun⟩

/-- A member with a great id: the row is for a negative number. -/
theorem members_not_agree : ¬MembersAgree := by
  intro hall
  have hrun : Machine.Run groupStep (fun _ _ => True) Store.init [] _ :=
    .step .start (e := GroupCall.createGroup 7 "g" "" groupTypeTmp [2 ^ 31]) trivial rfl
  have hrow := ((hall _ _ hrun).redis 1 (2 ^ 31)).2 ⟨2 ^ 31, by decide, by decide⟩
  revert hrow
  decide

/-- After every sequence of calls, the count of every group is wrong: it is greater than the number of members. -/
theorem userCnt_wrong (log : List Empty) (s : Store) (hrun : Machine.Run groupStep (fun _ _ => True) Store.init log s)
    (row : GroupRow) (hrow : row ∈ s.groups) : row.userCnt ≠ memberCount s row.id := by
  have h := (hrun.invariant (I := fun _ s => Overcounted s) overcounted_init fun h _ hstep => overcounted_step h hstep).more row hrow
  have hle : memberCount s row.id ≤ rowsIn s row.id := List.countP_mono_left fun r _ hr => by
    simp only [decide_eq_true_eq] at *
    exact hr.1
  omega

/-- A group with one member is counted to two. -/
theorem userCnt_wrong_one : ∃ s row, row ∈ s.groups ∧ row.userCnt = 2 ∧ memberCount s row.id = 1 ∧
    row.userCnt ≠ memberCount s row.id := by
  have hrun : Machine.Run groupStep (fun _ _ => True) Store.init [] _ :=
    .step .start (e := GroupCall.createGroup 7 "g" "" groupTypeTmp [7]) trivial rfl
  exact ⟨_, _, List.mem_singleton.2 rfl, rfl, rfl, userCnt_wrong _ _ hrun _ (List.mem_singleton.2 rfl)⟩

/-- The count of a new group is wrong. -/
theorem userCnt_not_right : ¬UserCntRight := by
  intro hall
  have hrun : Machine.Run groupStep (fun _ _ => True) Store.init [] _ :=
    .step .start (e := GroupCall.createGroup 7 "g" "" groupTypeTmp [7]) trivial rfl
  exact absurd (hall _ _ hrun _ (List.mem_singleton.2 rfl)) (by decide)

end TeamTalk.DbProxy.Groups
