import TeamTalk.DbProxy.GroupRuns

/-!
# Group requests by many threads

Worker threads make groups, change members, and answer with the infos of groups. What a thread has done in its job is watched: the
group it makes, the groups whose members it has changed but not yet the version, the groups it has found to have members, and what it
has read of infos.
-/

namespace TeamTalk.DbProxy.Groups

open Prog

/-- What a worker thread may be asked to do. -/
inductive InfoJob where
  | createGroup (connUuid : Nat) (msg : IMGroupCreateReq)
  | modifyMember (connUuid : Nat) (msg : IMGroupChangeMemberReq)
  | getGroupInfo (connUuid : Nat) (msg : IMGroupInfoListReq)

/-- The handler of a job. -/
def InfoJob.body : InfoJob → Prog calls Unit
  | .createGroup connUuid msg => Action.createGroup connUuid msg
  | .modifyMember connUuid msg => Action.modifyMember connUuid msg
  | .getGroupInfo connUuid msg => Action.getGroupInfo connUuid msg

/-- The store, and the worker threads. -/
abbrev InfoThreads := Threads calls Store InfoJob

/-- One call of one thread, or a new job. -/
def infoStep (s : InfoThreads) (e : Sched InfoJob) : Option (InfoThreads × List Empty) :=
  Threads.step Store.serve InfoJob.body s e

/-- What a thread has done in its job: the rows are those it has selected last, the lists what it has read since. -/
structure Watch where
  made : Option Nat
  changed : List Nat
  seen : List Nat
  rows : List GroupRow
  lists : List (Nat × List Nat)

namespace Watch

/-- A job begins. -/
def start : Watch := { made := none, changed := [], seen := [], rows := [], lists := [] }

/-- A call, and its answer. A group that is being made has no version to change. -/
def next (w : Watch) : (o : Op) → o.Reply → Watch
  | .insertGroup .., id => { w with made := some id }
  | .hset g _, _ | .hdel g _, _ => { w with changed := if w.made = some g then w.changed else g :: w.changed }
  | .incVersion g, _ => { w with changed := w.changed.filter (· ≠ g) }
  | .isExists g, found => { w with seen := bif found then g :: w.seen else w.seen }
  | .selectGroups _, rows => { w with rows, lists := [] }
  | .hgetAll g, users => { w with lists := (g, users) :: w.lists }
  | .addResponsePdu _ _, _ => { w with made := none }
  | _, _ => w

/-- The version and the members are what has been read. -/
def Has (w : Watch) (groupId version : Nat) (users : List Nat) : Prop :=
  (∃ row ∈ w.rows, row.id = groupId ∧ row.version = version) ∧ (groupId, users) ∈ w.lists

/-- What a job may do: it makes groups of a valid type, has seen or made what it changes, and answers what it has read. -/
def Allows (w : Watch) : Op → Prop
  | .insertGroup _ _ _ type _ _ version => groupTypeIsValid type = true ∧ 0 < version
  | .hset g _ | .hdel g _ => w.made = some g ∨ g ∈ w.seen
  | .addResponsePdu _ (.imGroupInfoListRsp rsp) => ∀ info ∈ rsp.groupInfoList, w.Has info.groupId info.version info.groupMemberList
  | _ => True

end Watch

/-- The watch on each thread. -/
def watches : Monitor calls := { State := Watch, next := Watch.next, allows := Watch.Allows }

/-- At the end of a job, the versions of all groups that it changed have been changed. -/
def Versioned (_ : InfoJob) (w : Watch) : Prop := w.changed = []

namespace InfosAux

/-! ## Reading, and changing one group -/

/-- Members of a group are changed: a group that is being made is not to be versioned. -/
structure Writes (g : Nat) (w w' : Watch) : Prop where
  made : w'.made = w.made
  seen : ∀ g' ∈ w.seen, g' ∈ w'.seen
  changed : ∀ g' ∈ w'.changed, g' ∈ w.changed ∨ g' = g ∧ w.made ≠ some g

variable {g : Nat} {w w' w'' : Watch}

theorem Writes.refl (g : Nat) (w : Watch) : Writes g w w := ⟨rfl, fun _ h => h, fun _ h => .inl h⟩

theorem Writes.trans (h : Writes g w w') (h' : Writes g w' w'') : Writes g w w'' := by
  refine ⟨h'.made.trans h.made, fun g' hg' => h'.seen g' (h.seen g' hg'), fun g' hg' => ?_⟩
  rcases h'.changed g' hg' with hold | ⟨rfl, hmade⟩
  · exact h.changed g' hold
  · exact .inr ⟨rfl, h.made ▸ hmade⟩

/-- The group is made by the job, or has been seen. -/
def Known (g : Nat) (w : Watch) : Prop := w.made = some g ∨ g ∈ w.seen

theorem Known.writes {g' : Nat} (h : Known g w) (hw : Writes g' w w') : Known g w' :=
  h.imp (hw.made ▸ ·) (hw.seen g)

/-- A call that changes no member. -/
theorem safe_quiet {o : Op} (hallows : Watch.Allows w o) (hquiet : ∀ r, Writes g w (w.next o r)) :
    Safe watches w (ask (C := calls) o) fun _ w' => Writes g w w' :=
  safe_ask (M := watches) hallows hquiet

theorem writes_lists (lists : List (Nat × List Nat)) : Writes g w { w with lists } := ⟨rfl, fun _ h => h, fun _ h => .inl h⟩

theorem safe_hgetAll (g g' : Nat) (w : Watch) : Safe watches w (hgetAll g') fun _ w' => Writes g w w' :=
  safe_quiet trivial fun _ => writes_lists _

theorem writes_change (g : Nat) (w : Watch) :
    Writes g w { w with changed := if w.made = some g then w.changed else g :: w.changed } := by
  refine ⟨rfl, fun _ h => h, fun g' hg' => ?_⟩
  dsimp only at hg'
  split at hg'
  · exact .inl hg'
  · rename_i hmade
    rcases List.mem_cons.1 hg' with rfl | hold
    · exact .inr ⟨rfl, hmade⟩
    · exact .inl hold

theorem safe_hset (h : Known g w) (u : Nat) : Safe watches w (hset g u) fun _ w' => Writes g w w' :=
  safe_quiet h fun _ => writes_change g w

theorem safe_hdel (h : Known g w) (u : Nat) : Safe watches w (hdel g u) fun _ w' => Writes g w w' :=
  safe_quiet h fun _ => writes_change g w

/-- A loop whose body changes members of the group does so. -/
theorem safe_eachWrites {f : Nat → Prog calls Unit} (hf : ∀ w, Known g w → ∀ u, Safe watches w (f u) fun _ w' => Writes g w w')
    (h : Known g w) (users : List Nat) : Safe watches w (each f users) fun _ w' => Writes g w w' := by
  refine (safe_each (M := watches) (I := fun w' => Writes g w w') (fun u _ w1 hw1 => ?_) (.refl g w))
  exact (hf w1 (h.writes hw1) u).mono fun _ w2 hw2 => hw1.trans hw2

theorem safe_insertNewMember (h : Known g w) (set : UserSet) :
    Safe watches w (insertNewMember g set) fun ret w' => Writes g w w' ∧ (ret = false → w'.changed = w.changed) := by
  unfold insertNewMember
  split
  · refine (safe_quiet (g := g) (o := .selectHasUser g set.users) trivial fun _ => .refl g w).bind fun has w1 hw1 => ?_
    refine Safe.bind (Q := fun _ w' => Writes g w w') ?_ fun _ w2 hw2 => ?_
    · refine safe_when (fun _ => ?_) fun _ => hw1
      refine (safe_quiet (g := g) (o := .updateMemberStatus g _ 0) trivial fun _ => .refl g w1).bind fun _ w2 hw2 => ?_
      exact safe_pure (hw1.trans hw2)
    refine Safe.bind (Q := fun _ w' => Writes g w w') ?_ fun _ w3 hw3 => ?_
    · refine (safe_eachWrites (g := g) (fun w' _ u => ?_) (h.writes hw2) _).mono fun _ _ hw => hw2.trans hw
      exact safe_quiet (o := .insertMember g u 0) trivial fun _ => .refl g w'
    refine Safe.bind (Q := fun _ w' => Writes g w w') ?_ fun _ w4 hw4 => ?_
    · refine safe_when (fun _ => ?_) fun _ => hw3
      exact (safe_quiet (o := .addUserCnt g _) trivial fun _ => .refl g w3).mono fun _ _ hw => hw3.trans hw
    refine (safe_eachWrites (fun w' hw' u => safe_hset hw' u) (h.writes hw4) _).bind fun _ w5 hw5 => ?_
    exact safe_pure ⟨hw4.trans hw5, nofun⟩
  · exact safe_pure ⟨.refl g w, fun _ => rfl⟩

theorem safe_clearGroupMember (h : Known g w) : Safe watches w (clearGroupMember g) fun _ w' => Writes g w w' := by
  refine (safe_quiet (g := g) (o := .deleteMembers g) trivial fun _ => .refl g w).bind fun _ w1 hw1 => ?_
  refine (safe_hgetAll g g w1).bind fun _ w2 hw2 => ?_
  refine (safe_eachWrites (fun w' hw' u => safe_hdel hw' u) (h.writes (hw1.trans hw2)) _).mono fun _ w3 hw3 => ?_
  exact (hw1.trans hw2).trans hw3

theorem safe_removeRepeatUser (g : Nat) (w : Watch) (users : List Nat) :
    Safe watches w (removeRepeatUser g users) fun _ w' => w' = w := by
  refine safe_filter (M := watches) (I := fun w' => w' = w) (fun u _ w1 hw1 => ?_) rfl
  exact Safe.bind (safe_ask (M := watches) (o := Op.hget g u) trivial fun _ => hw1) fun _ _ hw2 => safe_pure hw2

theorem safe_addMember (h : Known g w) (set : UserSet) :
    Safe watches w (addMember g set) fun ret w' => Writes g w w' ∧ (ret.1 = false → w'.changed = w.changed) := by
  refine (safe_removeRepeatUser g w set.users).bind fun rest w1 hw1 => ?_
  subst hw1
  refine (safe_insertNewMember h _).bind fun ret w2 hw2 => ?_
  -- the members are read once more, for the answer
  refine Safe.bind (safe_ask (M := watches) (o := Op.hgetAll g) trivial fun users => ?_) fun _ w3 hw3 => safe_pure hw3
  exact ⟨hw2.1.trans (writes_lists _), hw2.2⟩

theorem safe_removeMember (h : Known g w) (set : UserSet) :
    Safe watches w (removeMember g set) fun ret w' => Writes g w w' ∧ (ret.1 = false → w'.changed = w.changed) := by
  unfold removeMember
  split
  · exact safe_pure ⟨.refl g w, fun _ => rfl⟩
  · refine (safe_quiet (g := g) (o := .updateMemberStatus g _ 1) trivial fun _ => .refl g w).bind fun _ w1 hw1 => ?_
    refine (safe_eachWrites (fun w' hw' u => safe_hdel hw' u) (h.writes hw1) _).bind fun _ w2 hw2 => ?_
    refine (safe_hgetAll g g w2).bind fun _ w3 hw3 => safe_pure ?_
    exact ⟨(hw1.trans hw2).trans hw3, nofun⟩

/-! ## Jobs -/

/-- A call that the watch does not look at. -/
theorem safe_unseen {o : Op} (hallows : Watch.Allows w o) (hunseen : ∀ r, w.next o r = w) :
    Safe watches w (ask (C := calls) o) fun _ w' => w' = w :=
  safe_ask (M := watches) hallows hunseen

theorem safe_createGroup (connUuid : Nat) (msg : IMGroupCreateReq) :
    Safe watches Watch.start (Action.createGroup connUuid msg) fun _ w => w.changed = [] := by
  refine safe_when (fun hvalid => ?_) fun _ => rfl
  refine Safe.bind (Q := fun _ (w : Watch) => w.changed = []) ?_ fun groupId w hw => ⟨trivial, fun _ => hw⟩
  unfold createGroup
  split
  · exact safe_pure rfl
  · -- the group is made, and all that follows is for it
    refine Safe.bind (Q := fun (id : Nat) (w : Watch) => w.made = some id ∧ w.changed = []) ?_ fun id w1 hw1 => ?_
    · exact ⟨⟨hvalid, Nat.one_pos⟩, fun id => ⟨rfl, rfl⟩⟩
    obtain ⟨hmade, hchanged⟩ := hw1
    refine (safe_clearGroupMember (.inl hmade)).bind fun _ w2 hw2 => ?_
    refine (safe_insertNewMember (.inl (hw2.made.trans hmade)) _).bind fun _ w3 hw3 => safe_pure ?_
    have hw := hw2.trans hw3.1
    refine List.eq_nil_iff_forall_not_mem.2 fun g hg => ?_
    rcases hw.changed g hg with hold | ⟨rfl, hnot⟩
    · rw [hchanged] at hold
      cases hold
    · exact hnot hmade

theorem safe_hasModifyPermission (w : Watch) (userId groupId type : Nat) :
    Safe watches w (hasModifyPermission userId groupId type) fun _ w' => w' = w := by
  unfold hasModifyPermission
  split
  · exact safe_pure rfl
  · exact (safe_unseen (o := .selectPermission groupId) trivial fun _ => rfl).bind fun _ _ hw => safe_pure hw

theorem safe_modifyGroupMember (hseen : g ∈ w.seen) (hchanged : w.changed = []) (userId type : Nat) (set : UserSet) :
    Safe watches w (modifyGroupMember userId g type set) fun _ w' => w'.changed = [] := by
  refine (safe_hasModifyPermission w userId g type).bind fun may w1 hw1 => ?_
  subst hw1
  split
  · -- what was changed is changed, and is of this group
    refine Safe.bind (Q := fun ret (w' : Watch) => Writes g w1 w' ∧ (ret.1 = false → w'.changed = w1.changed)) ?_ ?_
    · split
      · exact safe_addMember (.inr hseen) set
      · split
        · exact safe_removeMember (.inr hseen) set
        · exact safe_pure ⟨.refl g w1, fun _ => rfl⟩
    · rintro ⟨ret, set', cur⟩ w2 ⟨hw2, hfailed⟩
      refine Safe.bind (Q := fun _ (w' : Watch) => w'.changed = []) ?_ fun _ w3 hw3 => safe_pure hw3
      refine safe_when (fun _ => ?_) fun hnot => ?_
      · refine Safe.bind (safe_ask (M := watches) (o := Op.incVersion g) trivial fun _ => ?_) fun _ w3 hw3 => safe_pure hw3
        refine List.filter_eq_nil_iff.2 fun g' hg' => ?_
        rcases hw2.changed g' hg' with hold | ⟨rfl, -⟩
        · rw [hchanged] at hold
          cases hold
        · simp
      · exact (hfailed (Bool.eq_false_iff.2 hnot)).trans hchanged
  · exact safe_pure hchanged

theorem safe_modifyMember (connUuid : Nat) (msg : IMGroupChangeMemberReq) :
    Safe watches Watch.start (Action.modifyMember connUuid msg) fun _ w => w.changed = [] := by
  refine safe_when (fun _ => ?_) fun _ => rfl
  refine Safe.bind (Q := fun found (w : Watch) => w.changed = [] ∧ (found = true → msg.groupId ∈ w.seen)) ?_ ?_
  · refine safe_ask (M := watches) (o := Op.isExists msg.groupId) trivial fun found => ⟨rfl, ?_⟩
    rintro rfl
    exact List.mem_cons_self
  · rintro found w ⟨hchanged, hseen⟩
    split
    · rename_i hfound
      refine (safe_modifyGroupMember (hseen hfound) hchanged _ _ _).bind fun ret w1 hw1 => ?_
      exact ⟨trivial, fun _ => hw1⟩
    · exact safe_pure hchanged

/-- Looking for groups that have members changes nothing. -/
theorem safe_collectVersions (acc vs : List GroupVersionInfo) (hchanged : w.changed = []) :
    Safe watches w (Action.collectVersions acc vs) fun _ w' => w'.changed = [] := by
  induction vs generalizing acc w with
  | nil => exact safe_pure hchanged
  | cons v vs ih =>
    refine Safe.bind (Q := fun _ (w : Watch) => w.changed = []) ?_ fun found w1 hw1 => ?_
    · exact safe_ask (M := watches) (o := Op.isExists v.groupId) trivial fun _ => hchanged
    · split
      · exact ih _ hw1
      · exact ih _ hw1

/-- The infos have the versions that were selected, and the members that were read after. -/
theorem safe_fillGroupMember (infos : List GroupInfo) (hchanged : w.changed = []) :
    Safe watches w (fillGroupMember infos) fun infos' w' => w'.changed = [] ∧ w'.rows = w.rows ∧ (∀ l ∈ w.lists, l ∈ w'.lists) ∧
      ∀ info' ∈ infos', (info'.groupId, info'.groupMemberList) ∈ w'.lists ∧
        ∃ info ∈ infos, info.groupId = info'.groupId ∧ info.version = info'.version := by
  induction infos generalizing w with
  | nil => exact safe_pure ⟨hchanged, rfl, fun _ h => h, nofun⟩
  | cons info infos ih =>
    refine Safe.bind (Q := fun users (w' : Watch) => w'.changed = [] ∧ w'.rows = w.rows ∧ (∀ l ∈ w.lists, l ∈ w'.lists) ∧
      (info.groupId, users) ∈ w'.lists) ?_ ?_
    · exact safe_ask (M := watches) (o := Op.hgetAll info.groupId) trivial fun users =>
        ⟨hchanged, rfl, fun _ => List.mem_cons_of_mem _, List.mem_cons_self⟩
    · rintro users w1 ⟨hchanged1, hrows1, hlists1, hin⟩
      refine (ih hchanged1).bind ?_
      rintro rest w2 ⟨hchanged2, hrows2, hlists2, hrest⟩
      refine safe_pure ⟨hchanged2, hrows2.trans hrows1, fun l hl => hlists2 l (hlists1 l hl), fun info' hinfo' => ?_⟩
      rcases List.mem_cons.1 hinfo' with rfl | hinfo'
      · exact ⟨hlists2 _ hin, info, List.mem_cons_self, rfl, rfl⟩
      · obtain ⟨hlist, info0, hinfo0, heq⟩ := hrest info' hinfo'
        exact ⟨hlist, info0, List.mem_cons_of_mem _ hinfo0, heq⟩

theorem newerInfo_some {versions : List GroupVersionInfo} {row : GroupRow} {info : GroupInfo}
    (h : newerInfo versions row = some info) : info.groupId = row.id ∧ info.version = row.version := by
  unfold newerInfo at h
  split at h
  · split at h
    · obtain rfl := Option.some.inj h
      exact ⟨rfl, rfl⟩
    · cases h
  · cases h

theorem safe_getGroupInfo (connUuid : Nat) (msg : IMGroupInfoListReq) :
    Safe watches Watch.start (Action.getGroupInfo connUuid msg) fun _ w => w.changed = [] := by
  refine Safe.bind
    (Q := fun infos (w : Watch) => w.changed = [] ∧ ∀ info ∈ infos, w.Has info.groupId info.version info.groupMemberList)
    ?_ ?_
  · refine (safe_collectVersions [] msg.groupVersionList rfl).bind fun versions w1 hw1 => ?_
    unfold Groups.getGroupInfo
    split
    · exact safe_pure ⟨hw1, nofun⟩
    · refine Safe.bind (Q := fun rows (w : Watch) => w.changed = [] ∧ w.rows = rows) ?_ ?_
      · exact safe_ask (M := watches) (o := Op.selectGroups _) trivial fun rows => ⟨hw1, rfl⟩
      · rintro rows w2 ⟨hw2, rfl⟩
        refine (safe_fillGroupMember _ hw2).mono ?_
        rintro infos w3 ⟨hw3, hrows, -, hinfos⟩
        refine ⟨hw3, fun info hinfo => ?_⟩
        obtain ⟨hlist, info0, hinfo0, hid, hversion⟩ := hinfos info hinfo
        obtain ⟨row, hrow, hnewer⟩ := List.mem_filterMap.1 hinfo0
        obtain ⟨hid0, hversion0⟩ := newerInfo_some hnewer
        exact ⟨⟨row, hrows ▸ hrow, hid0.symm.trans hid, hversion0.symm.trans hversion⟩, hlist⟩
  · rintro infos w ⟨hchanged, hinfos⟩
    exact ⟨hinfos, fun _ => hchanged⟩

theorem safe_body (job : InfoJob) : Safe watches Watch.start job.body fun _ w => Versioned job w := by
  cases job with
  | createGroup connUuid msg => exact safe_createGroup connUuid msg
  | modifyMember connUuid msg => exact safe_modifyMember connUuid msg
  | getGroupInfo connUuid msg => exact safe_getGroupInfo connUuid msg

end InfosAux

end TeamTalk.DbProxy.Groups
