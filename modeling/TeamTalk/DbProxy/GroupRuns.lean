import TeamTalk.DbProxy.Groups

/-!
# What group functions do

Each function of `CGroupModel`, run alone, leaves the store that is named here.
-/

namespace TeamTalk.DbProxy.Groups

open Prog

/-- Run a function that is alone. -/
def Store.run {α : Type} (s : Store) (p : Prog calls α) : Store × α := Prog.run (C := calls) Store.serve s p

namespace Store

/-- A user has a row in a group, whatever its status. -/
def hasRow (s : Store) (groupId userId : Nat) : Bool := s.members.any fun r => r.groupId = groupId ∧ r.userId = userId

/-- The users of a list that have no row. -/
def newUsers (s : Store) (groupId : Nat) (users : List Nat) : List Nat := users.filter fun u => !s.hasRow groupId u

/-- Set the status of the rows of some users. -/
def setStatus (s : Store) (groupId : Nat) (users : List Nat) (status : Nat) : Store :=
  { s with members := s.members.map fun r => if isRowOf groupId users r then { r with status } else r }

/-- One more field of a hash. -/
def insertField (fields : List Nat) (u : Nat) : List Nat := if u ∈ fields then fields else fields ++ [u]

/-- The users of a list are members: in the table, in the count, and in redis. -/
def withMembers (s : Store) (groupId : Nat) (users : List Nat) : Store :=
  { s with
    members := (s.setStatus groupId users 0).members ++
      (s.newUsers groupId users).map fun u => { groupId := setParam groupId, userId := setParam u, status := 0 }
    groups := s.groups.map fun r => if r.id = groupId then { r with userCnt := r.userCnt + (s.newUsers groupId users).length } else r
    groupMember := fun g => if g = groupId then users.foldl insertField (s.groupMember groupId) else s.groupMember g }

/-- The users of a list are members no more. -/
def withoutMembers (s : Store) (groupId : Nat) (users : List Nat) : Store :=
  (s.setStatus groupId users 1).setMembers groupId ((s.groupMember groupId).filter (· ∉ users))

/-- The users of a set that redis does not have. -/
def absent (s : Store) (groupId : Nat) (users : List Nat) : List Nat := users.filter (· ∉ s.groupMember groupId)

/-- A group has no rows, and redis no members of it. -/
def cleared (s : Store) (groupId : Nat) : Store :=
  { s with members := s.members.filter (·.groupId ≠ (groupId : Int)) }.setMembers groupId []

/-- A group more. -/
def withGroup (s : Store) (name avatar : String) (creator type userCnt : Nat) : Store :=
  { s with groups := s.groups ++ [{ id := s.nextGroupId, name, avatar, creator, type, userCnt, version := 1, status := 0 }]
           nextGroupId := s.nextGroupId + 1 }

end Store

namespace RunsAux

variable {α β : Type}

/-- A function that only returns. -/
@[simp] theorem run_pure (s : Store) (a : α) : s.run (pure a) = (s, a) := rfl

/-- One function after the other: the second runs on the store that the first leaves. -/
@[simp] theorem run_bind (s : Store) (p : Prog calls α) (f : α → Prog calls β) :
    s.run (p >>= f) = (s.run p).1.run (f (s.run p).2) := 
  Prog.run_bind (C := calls) (S := Store) Store.serve s p f

/-- What is done on a condition. -/
@[simp] theorem run_when (s : Store) (c : Prop) [Decidable c] (p : Prog calls Unit) :
    s.run (when c p) = if c then s.run p else (s, ()) := 
  Prog.run_when (C := calls) (S := Store) Store.serve s c p

/-- A choice is made before anything runs. -/
theorem run_ite (s : Store) (c : Prop) [Decidable c] (p q : Prog calls α) :
    s.run (if c then p else q) = if c then s.run p else s.run q := by
  split <;> rfl

/-! ## Statements and commands -/

section Statements

variable (s : Store) (g u n status : Nat) (users : List Nat)

/-- The new group has the next id. -/
@[simp] theorem run_insertGroup (name avatar : String) (creator type userCnt : Nat) :
    s.run (insertGroup name avatar creator type userCnt 0 1) = (s.withGroup name avatar creator type userCnt, s.nextGroupId) := rfl

/-- A query leaves the store alone. -/
@[simp] theorem run_selectCreator :
    s.run (selectCreator g) = (s, (s.groups.filter (·.id = g)).map (·.creator)) := rfl

/-- The answer is whether a row changes. -/
@[simp] theorem run_updateStatus : s.run (updateStatus g status) =
    (s.mapGroup g ({ · with status }), s.groups.any fun r => r.id = g ∧ r.status ≠ status) := rfl

/-- A row always changes, if there is one. -/
@[simp] theorem run_incVersion : s.run (incVersion g) =
    (s.mapGroup g fun r => { r with version := r.version + 1 }, s.groups.any (·.id = g)) := rfl

/-- `userCnt` counts up. -/
@[simp] theorem run_addUserCnt :
    s.run (addUserCnt g n) = (s.mapGroup g fun r => { r with userCnt := r.userCnt + n }, ()) := rfl

/-- The rows of the groups, in the order of the table. -/
@[simp] theorem run_selectGroups : s.run (selectGroups users) = (s, s.groups.filter (·.id ∈ users)) := rfl

/-- Creator and type, as they stand in the rows. -/
@[simp] theorem run_selectPermission :
    s.run (selectPermission g) = (s, (s.groups.filter (·.id = g)).map fun r => (r.creator, r.type)) := rfl

/-- Each user id is read back into a `uint32_t`. -/
@[simp] theorem run_selectMembers :
    s.run (selectMembers g) = (s, (s.members.filter (·.groupId = (g : Int))).map (getInt ·.userId)) := rfl

/-- Those users of the list who have a row, whatever its status. -/
@[simp] theorem run_selectHasUser :
    s.run (selectHasUser g users) = (s, (s.members.filter (Store.isRowOf g users)).map (getInt ·.userId)) := rfl

/-- The rows of the users get the status. -/
@[simp] theorem run_updateMemberStatus : s.run (updateMemberStatus g users status) =
    (s.setStatus g users status, s.members.any fun r => Store.isRowOf g users r ∧ r.status ≠ status) := rfl

/-- Both ids are bound as signed numbers. -/
@[simp] theorem run_insertMember : s.run (insertMember g u status) =
    ({ s with members := s.members ++ [{ groupId := setParam g, userId := setParam u, status }] }, ()) := rfl

/-- All rows of the group go. -/
@[simp] theorem run_deleteMembers : s.run (deleteMembers g) =
    ({ s with members := s.members.filter (·.groupId ≠ (g : Int)) }, s.members.any (·.groupId = (g : Int))) := rfl

/-- A field that is there stays in its place. -/
@[simp] theorem run_hset : s.run (hset g u) = (s.setMembers g (Store.insertField (s.groupMember g) u), ()) := rfl

/-- A field goes. -/
@[simp] theorem run_hdel : s.run (hdel g u) = (s.setMembers g ((s.groupMember g).filter (· ≠ u)), ()) := rfl

/-- Whether the field is there. -/
@[simp] theorem run_hget : s.run (hget g u) = (s, decide (u ∈ s.groupMember g)) := rfl

/-- All fields of the hash. -/
@[simp] theorem run_hgetAll : s.run (hgetAll g) = (s, s.groupMember g) := rfl

/-- An empty hash is none. -/
@[simp] theorem run_isExists : s.run (isExists g) = (s, decide (s.groupMember g ≠ [])) := rfl

/-- One setting changes. -/
@[simp] theorem run_hsetPush : s.run (hsetPush g u status) =
    ({ s with groupSet := fun g' u' => if g' = g ∧ u' = u then some status else s.groupSet g' u' }, ()) := rfl

/-- An answer changes nothing that is stored. -/
@[simp] theorem run_addResponsePdu (msg : Msg) : s.run (addResponsePdu n msg) = (s, ()) := rfl

end Statements

/-! ## Loops -/

/-- Setting what is there changes nothing. -/
theorem setMembers_self (s : Store) (g : Nat) : s.setMembers g (s.groupMember g) = s := by
  have h : (fun g' => if g' = g then s.groupMember g else s.groupMember g') = s.groupMember := by
    funext g'
    split
    · rename_i heq
      rw [heq]
    · rfl
  rw [Store.setMembers, h]

/-- The rows are added at the end, in the order of the users. -/
theorem run_each_insertMember (s : Store) (g : Nat) (users : List Nat) :
    s.run (each (fun u => insertMember g u 0) users) =
      ({ s with members := s.members ++ users.map fun u => { groupId := setParam g, userId := setParam u, status := 0 } }, ()) := by
  induction users generalizing s with
  | nil => simp [each]
  | cons u users ih => simp [each, run_insertMember, ih]

/-- The fields are added one by one. -/
theorem run_each_hset (s : Store) (g : Nat) (users : List Nat) :
    s.run (each (hset g) users) =
      (s.setMembers g (users.foldl Store.insertField (s.groupMember g)), ()) := by
  induction users generalizing s with
  | nil =>
    simp only [each, run_pure, List.foldl_nil, setMembers_self]
  | cons u users ih =>
    simp only [each, run_bind, run_hset, ih, Store.setMembers, List.foldl_cons, if_true, Prod.mk.injEq, and_true,
      Store.mk.injEq, true_and]
    funext g'
    split <;> rfl

/-- Together, all of the users go. -/
theorem run_each_hdel (s : Store) (g : Nat) (users : List Nat) :
    s.run (each (hdel g) users) = (s.setMembers g ((s.groupMember g).filter (· ∉ users)), ()) := by
  induction users generalizing s with
  | nil =>
    simp only [each, run_pure, List.not_mem_nil, not_false_eq_true, decide_true, List.filter_true, setMembers_self]
  | cons u users ih =>
    simp only [each, run_bind, run_hdel, ih, Store.setMembers, if_true, List.filter_filter, Prod.mk.injEq, and_true,
      Store.mk.injEq, true_and]
    funext g'
    split
    · refine List.filter_congr fun x _ => ?_
      by_cases hx : x = u <;> simp [hx]
    · rfl

/-! ## Functions -/

/-- What `HGETALL` answers is all that there is, so redis has no members left. -/
theorem run_clearGroupMember (s : Store) (g : Nat) : s.run (clearGroupMember g) = (s.cleared g, ()) := by
  simp only [clearGroupMember, run_bind, run_deleteMembers, run_hgetAll, run_each_hdel, Store.cleared, Store.setMembers,
    Prod.mk.injEq, and_true, Store.mk.injEq, true_and]
  funext g'
  split
  · simp
  · rfl

/-- The users of the list who have a row are found, and nobody else. -/
theorem mem_hasUser {s : Store} {g u : Nat} {users : List Nat} :
    u ∈ (UserSet.ofList ((s.members.filter (Store.isRowOf g users)).map (getInt ·.userId))).users ↔ u ∈ users ∧ s.hasRow g u := by
  simp only [UserSet.mem_ofList, List.mem_map, List.mem_filter, Store.isRowOf, decide_eq_true_eq, Store.hasRow, List.any_eq_true]
  constructor
  · rintro ⟨r, ⟨hr, hg, v, hin, hv⟩, rfl⟩
    rw [hv, getInt_natCast]
    exact ⟨hin, r, hr, hg, hv⟩
  · rintro ⟨hin, r, hr, hg, hu⟩
    exact ⟨r, ⟨hr, hg, u, hin, hu⟩, by rw [hu, getInt_natCast]⟩

/-- Only users that have a row are looked for. -/
theorem setStatus_hasUser {s : Store} {g status : Nat} {users users' : List Nat}
    (h : ∀ u, u ∈ users' ↔ u ∈ users ∧ s.hasRow g u) : s.setStatus g users' status = s.setStatus g users status := by
  simp only [Store.setStatus, Store.mk.injEq, true_and, and_true]
  refine List.map_congr_left fun r hr => ?_
  have heq : Store.isRowOf g users' r = Store.isRowOf g users r := by
    simp only [Store.isRowOf, h, decide_eq_decide]
    refine and_congr_right fun hg => exists_congr fun u => and_congr_left fun hu => and_iff_left ?_
    rw [Store.hasRow, List.any_eq_true]
    exact ⟨r, hr, by simp [hg, hu]⟩
  rw [heq]

/-- The users become members. -/
theorem run_insertNewMember (s : Store) {g : Nat} {set : UserSet} (hg : g ≠ 0) (hne : set.users ≠ []) :
    s.run (insertNewMember g set) = (s.withMembers g set.users, true) := by
  have hnew : ∀ has : UserSet, (∀ u, u ∈ has.users ↔ u ∈ set.users ∧ s.hasRow g u) →
      (set.users.filter fun u => u ∉ has.users) = s.newUsers g set.users := by
    intro has hhas
    refine List.filter_congr fun u hu => ?_
    by_cases hrow : s.hasRow g u = true <;> simp [hhas, hu, hrow]
  have hmem : ∀ u, u ∈ (UserSet.ofList ((s.members.filter (Store.isRowOf g set.users)).map (getInt ·.userId))).users ↔
      u ∈ set.users ∧ s.hasRow g u := fun u => mem_hasUser
  rw [insertNewMember, run_ite, if_pos ⟨hg, hne⟩, run_bind, run_selectHasUser]
  dsimp only
  generalize UserSet.ofList ((s.members.filter (Store.isRowOf g set.users)).map (getInt ·.userId)) = has at hmem
  -- the rows that exist
  have hset : (s.run (when (has.users ≠ []) do
      let _ ← updateMemberStatus g has.users 0)).1 = s.setStatus g set.users 0 := by
    rw [← setStatus_hasUser hmem, run_when]
    split
    · rfl
    · rename_i hnone
      rw [not_not] at hnone
      simp [Store.setStatus, Store.isRowOf, hnone]
  rw [run_bind, hset, run_bind, hnew has hmem, run_each_insertMember, run_bind]
  dsimp only
  -- the count, which is not written when nobody is new
  have hcount : ∀ s' : Store, (s'.run (when ((s.newUsers g set.users).length ≠ 0)
      (addUserCnt g (s.newUsers g set.users).length))).1 =
      s'.mapGroup g fun r => { r with userCnt := r.userCnt + (s.newUsers g set.users).length } := by
    intro s'
    rw [run_when]
    split
    · rfl
    · rename_i hzero
      rw [not_not] at hzero
      rw [hzero]
      simp [Store.mapGroup]
  rw [hcount, run_bind, run_each_hset, run_pure]
  rfl

/-- Nobody becomes a member of group 0, or of no group at all. -/
theorem run_insertNewMember_nobody (s : Store) {g : Nat} {set : UserSet} (h : ¬(g ≠ 0 ∧ set.users ≠ [])) :
    s.run (insertNewMember g set) = (s, false) := by
  rw [insertNewMember, run_ite, if_neg h, run_pure]

/-- A group with its members. -/
theorem run_createGroup (s : Store) {userId type : Nat} {name avatar : String} {set : UserSet} (hname : name ≠ "")
    (hset : set.users ≠ []) (hid : s.nextGroupId ≠ 0) : s.run (createGroup userId name avatar type set) =
      (((s.withGroup name avatar userId type set.users.length).cleared s.nextGroupId).withMembers s.nextGroupId set.users,
        s.nextGroupId) := by
  rw [createGroup, run_ite, if_neg (not_or.2 ⟨hname, hset⟩), run_bind, insertNewGroup, run_insertGroup, run_bind,
    run_clearGroupMember, run_bind, run_insertNewMember _ hid hset, run_pure]

/-- A group without a name or without members is not made. -/
theorem run_createGroup_nobody (s : Store) {userId type : Nat} {name avatar : String} {set : UserSet}
    (h : name = "" ∨ set.users = []) : s.run (createGroup userId name avatar type set) = (s, 0) := by
  rw [createGroup, run_ite, if_pos h, run_pure]

/-- Redis decides who is a member already. -/
theorem run_removeRepeatUser (s : Store) (g : Nat) (users : List Nat) :
    s.run (removeRepeatUser g users) = (s, s.absent g users) := by
  refine (Prog.run_filter (C := calls) (S := Store) Store.serve (s := s) (p := fun u => do return !(← hget g u))
    (fun u => (rfl : _ = (s, !decide (u ∈ s.groupMember g)))) users).trans ?_
  simp [Store.absent]

/-- Who is no member yet is one now. -/
theorem run_addMember (s : Store) {g : Nat} {set : UserSet} :
    s.run (addMember g set) =
      (if g ≠ 0 ∧ s.absent g set.users ≠ [] then s.withMembers g (s.absent g set.users) else s,
        decide (g ≠ 0 ∧ s.absent g set.users ≠ []), set.filter (· ∈ s.absent g set.users),
        (if g ≠ 0 ∧ s.absent g set.users ≠ [] then s.withMembers g (s.absent g set.users) else s).groupMember g) := by
  have husers : (set.filter (· ∈ s.absent g set.users)).users = s.absent g set.users := by
    refine List.filter_congr fun u hu => ?_
    simp [Store.absent, hu]
  rw [addMember, run_bind, run_removeRepeatUser]
  dsimp only
  rw [run_bind]
  by_cases h : g ≠ 0 ∧ s.absent g set.users ≠ []
  · rw [run_insertNewMember s h.1 (by rw [husers]; exact h.2), run_bind, getGroupUser, run_hgetAll, run_pure, if_pos h,
      decide_eq_true h, husers]
  · rw [run_insertNewMember_nobody s (by rw [husers]; exact h), run_bind, getGroupUser, run_hgetAll, run_pure, if_neg h,
      decide_eq_false h]

/-- Removing nobody changes nothing. -/
theorem withoutMembers_nil (s : Store) (g : Nat) : s.withoutMembers g [] = s := by
  have hstatus : s.setStatus g [] 1 = s := by simp [Store.setStatus, Store.isRowOf]
  rw [Store.withoutMembers, hstatus]
  simp only [List.not_mem_nil, not_false_eq_true, decide_true, List.filter_true, setMembers_self]

/-- The users are members no more, and the call always succeeds. -/
theorem run_removeMember (s : Store) {g : Nat} {set : UserSet} : ∃ curUserId,
    s.run (removeMember g set) = (s.withoutMembers g set.users, true, set, curUserId) := by
  rw [removeMember, run_ite]
  split
  · rename_i hnobody
    rw [hnobody, withoutMembers_nil]
    exact ⟨[], rfl⟩
  · refine ⟨(s.withoutMembers g set.users).groupMember g, ?_⟩
    rw [run_bind, run_updateMemberStatus, run_bind, run_each_hdel, run_bind, getGroupUser, run_hgetAll, run_pure]
    rfl

/-- A group that is removed loses its members, if a row of it changes. -/
theorem run_removeGroup (s : Store) (nCreator userId g : Nat) : (s.run (removeGroup nCreator userId g)).1 = s ∨
    ∃ users, (s.run (removeGroup nCreator userId g)).1 = (s.mapGroup g ({ · with status := 0 })).withoutMembers g users := by
  rw [removeGroup, run_bind, run_selectCreator]
  dsimp only
  rw [run_bind, run_ite]
  split
  · rw [run_updateStatus]
    dsimp only
    split
    · obtain ⟨cur, hrun⟩ := @run_removeMember (s.mapGroup g ({ · with status := 0 })) g
        (UserSet.ofList (((s.mapGroup g ({ · with status := 0 })).members.filter (·.groupId = (g : Int))).map (getInt ·.userId)))
      rw [run_bind, run_selectMembers, run_bind, hrun]
      exact .inr ⟨_, rfl⟩
    · refine .inr ⟨[], ?_⟩
      rw [withoutMembers_nil]
      rfl
  · rw [run_pure]
    dsimp only
    rw [if_neg Bool.false_ne_true]
    exact .inl rfl

/-- User 0 may do everything. -/
theorem run_hasModifyPermission (s : Store) (userId g type : Nat) : s.run (hasModifyPermission userId g type) =
    (s, decide (userId = 0) || ((s.groups.filter (·.id = g)).map fun r => (r.creator, r.type)).any (permits userId type)) := by
  rw [hasModifyPermission, run_ite]
  split
  · rename_i h
    rw [run_pure, decide_eq_true h, Bool.true_or]
  · rename_i h
    rw [run_bind, run_selectPermission, run_pure, decide_eq_false h, Bool.false_or]

/-! ## Members -/

/-- The fields are those of before, and the new one. -/
theorem mem_insertField (fields : List Nat) (u v : Nat) : v ∈ Store.insertField fields u ↔ v ∈ fields ∨ v = u := by
  unfold Store.insertField
  split
  · rename_i hu
    refine (or_iff_left_of_imp ?_).symm
    rintro rfl
    exact hu
  · simp

/-- The same, for all users of a list. -/
theorem mem_foldl_insertField (users fields : List Nat) (v : Nat) :
    v ∈ users.foldl Store.insertField fields ↔ v ∈ fields ∨ v ∈ users := by
  induction users generalizing fields with
  | nil => simp
  | cons u users ih => rw [List.foldl_cons, ih, mem_insertField, List.mem_cons, or_assoc]

/-- Redis has the new members of the group, and all members of before. -/
theorem mem_withMembers {s : Store} {g g' u : Nat} {users : List Nat} :
    u ∈ (s.withMembers g users).groupMember g' ↔ u ∈ s.groupMember g' ∨ g' = g ∧ u ∈ users := by
  simp only [Store.withMembers]
  split
  · rename_i heq
    subst heq
    simp [mem_foldl_insertField]
  · rename_i hne
    simp [hne]

/-- Redis has all members of before, but for those that go. -/
theorem mem_withoutMembers {s : Store} {g g' u : Nat} {users : List Nat} :
    u ∈ (s.withoutMembers g users).groupMember g' ↔ u ∈ s.groupMember g' ∧ ¬(g' = g ∧ u ∈ users) := by
  simp only [Store.withoutMembers, Store.setMembers]
  split
  · rename_i heq
    subst heq
    simp
  · rename_i hne
    simp [hne, Store.setStatus]

/-- Redis has the members of the other groups. -/
theorem mem_cleared {s : Store} {g g' u : Nat} : u ∈ (s.cleared g).groupMember g' ↔ u ∈ s.groupMember g' ∧ g' ≠ g := by
  simp only [Store.cleared, Store.setMembers]
  split
  · rename_i heq
    simp [heq]
  · rename_i hne
    simp [hne]

/-- The users of a set that redis does not have are in the set. -/
theorem mem_of_absent {s : Store} {g u : Nat} {users : List Nat} (h : u ∈ s.absent g users) : u ∈ users := (List.mem_filter.1 h).1

end RunsAux

end TeamTalk.DbProxy.Groups
