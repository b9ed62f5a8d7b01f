import TeamTalk.DbProxy.GroupInfos

/-!
# Infos of groups lose no member

A client keeps the version and the members of each info, and asks with the version. What it has kept is outdated only when the version
is, unless the members were read while a group was being made: the version does not change when the last of them are stored.
-/

namespace TeamTalk.DbProxy.Groups

open Prog

/-- The watch on a thread. -/
def watch (s : InfoThreads) (i : Nat) : Watch := Threads.monitor (M := watches) Watch.start s i

/-- An answer is sent. -/
def Op.isAnswer : Op → Bool
  | .addResponsePdu .. => true
  | _ => false

/-- A thread makes the group, and has not yet come to its answer. -/
def Storing (s : InfoThreads) (groupId : Nat) : Prop :=
  ∃ i t o, s.threads i = some t ∧ (watch s i).made = some groupId ∧ t.prog.next = some o ∧ Op.isAnswer o = false

/-- A thread has changed members of the group, and not yet its version. -/
def Changing (s : InfoThreads) (groupId : Nat) : Prop := ∃ i, groupId ∈ (watch s i).changed

/-- The condition on a turn: the members of a group that has been selected are not read while it is being made. -/
def ReadsWhole (s : InfoThreads) : Sched InfoJob → Prop
  | .start _ _ => True
  | .go i => ∀ t g, s.threads i = some t → t.prog.next = some (Op.hgetAll g) → (∃ row ∈ (watch s i).rows, row.id = g) → ¬Storing s g

/-- The infos that a call sends to a client; which answers are sent to him is a parameter. -/
def Op.infosFor (mine : Nat → IMGroupInfoListRsp → Bool) : Op → List GroupInfo
  | .addResponsePdu connUuid (.imGroupInfoListRsp rsp) => if mine connUuid rsp then rsp.groupInfoList else []
  | _ => []

/-- The infos that a client was sent, the latest first. -/
def sentInfos (mine : Nat → IMGroupInfoListRsp → Bool) (history : List (Nat × Prog.Entry calls)) : List GroupInfo :=
  history.flatMap fun e => Op.infosFor mine e.2.1

/-- What the client has kept of a group. -/
def cachedInfo (mine : Nat → IMGroupInfoListRsp → Bool) (s : InfoThreads) (groupId : Nat) : Option GroupInfo :=
  (sentInfos mine s.history).find? (·.groupId = groupId)

/-- The version that the client asks with. -/
def cachedVersion (mine : Nat → IMGroupInfoListRsp → Bool) (s : InfoThreads) (groupId : Nat) : Nat :=
  ((cachedInfo mine s groupId).map (·.version)).getD 0

/-- An answer of the store as it is, but for the other groups. -/
def ServedWith (s : Store) (groupId : Nat) (o : Op) (r : o.Reply) : Prop :=
  ∃ s' : Store, s'.groupMember groupId = s.groupMember groupId ∧
    (∀ row : GroupRow, row.id = groupId → (row ∈ s'.groups ↔ row ∈ s.groups)) ∧ r = (s'.serve o).2

/-- In every run whose turns all meet a condition: while no thread makes the group or changes it, a client that asks for the group is
sent its info, unless the client has the members that the group has. -/
def InfosCompleteIn (ok : InfoThreads → Sched InfoJob → Prop) : Prop :=
  ∀ log (s : InfoThreads), Machine.Run infoStep ok (Threads.init Store.init) log s →
    ∀ mine g, ¬Storing s g → ¬Changing s g → s.store.groupMember g ≠ [] →
    ∀ msg : IMGroupInfoListReq, (∃ v ∈ msg.groupVersionList, v.groupId = g) →
      (∀ v ∈ msg.groupVersionList, v.groupId = g → v.version = cachedVersion mine s g) →
      Ends (C := calls) (ServedWith s.store g) (Action.groupInfos msg) (fun infos => ∃ info ∈ infos, info.groupId = g) ∨
        ∃ info, cachedInfo mine s g = some info ∧ ∀ u, u ∈ info.groupMemberList ↔ u ∈ s.store.groupMember g

namespace InfosAux

/-! ## Versions -/

/-- A group has a version. -/
def VersionOf (s : Store) (g v : Nat) : Prop := ∃ row ∈ s.groups, row.id = g ∧ row.version = v

/-- Each group has one version, which is not 0; its type is valid, and its id has been given. -/
structure Rows (s : Store) : Prop where
  old : ∀ g v, VersionOf s g v → g < s.nextGroupId
  unique : ∀ g v v', VersionOf s g v → VersionOf s g v' → v = v'
  valid : ∀ row ∈ s.groups, groupTypeIsValid row.type = true
  positive : ∀ g v, VersionOf s g v → 0 < v

theorem rows_init : Rows Store.init := by
  refine ⟨?_, ?_, nofun, ?_⟩
  · rintro g v ⟨row, hrow, -⟩
    cases hrow
  · rintro g v v' ⟨row, hrow, -⟩
    cases hrow
  · rintro g v ⟨row, hrow, -⟩
    cases hrow

/-- The rows of a group are changed, and not what they are about. -/
theorem versionOf_mapGroup {s : Store} {g g' v' : Nat} {f : GroupRow → GroupRow} {n : Nat} (hid : ∀ r, (f r).id = r.id)
    (hversion : ∀ r, (f r).version = r.version + n) :
    VersionOf (s.mapGroup g f) g' v' ↔ ∃ v, VersionOf s g' v ∧ v' = if g' = g then v + n else v := by
  constructor
  · rintro ⟨row, hrow, rfl, rfl⟩
    obtain ⟨r, hr, rfl⟩ := List.mem_map.1 hrow
    refine ⟨r.version, ⟨r, hr, ?_, rfl⟩, ?_⟩
    · split
      · rw [hid]
      · rfl
    · by_cases heq : r.id = g
      · rw [if_pos heq, hid, if_pos heq, hversion]
      · rw [if_neg heq, if_neg heq]
  · rintro ⟨v, ⟨r, hr, rfl, rfl⟩, rfl⟩
    refine ⟨_, List.mem_map_of_mem hr, ?_, ?_⟩
    · split
      · rw [hid]
      · rfl
    · by_cases heq : r.id = g
      · rw [if_pos heq, if_pos heq, hversion]
      · rw [if_neg heq, if_neg heq]

theorem rows_mapGroup {s : Store} {g : Nat} {f : GroupRow → GroupRow} {n : Nat} (h : Rows s) (hid : ∀ r, (f r).id = r.id)
    (hversion : ∀ r, (f r).version = r.version + n) (htype : ∀ r, (f r).type = r.type) : Rows (s.mapGroup g f) := by
  refine ⟨fun g' v' hv' => ?_, fun g' v' v'' hv' hv'' => ?_, fun row hrow => ?_, fun g' v' hv' => ?_⟩
  · obtain ⟨v, hv, -⟩ := (versionOf_mapGroup hid hversion).1 hv'
    exact h.old g' v hv
  · obtain ⟨v1, hv1, rfl⟩ := (versionOf_mapGroup hid hversion).1 hv'
    obtain ⟨v2, hv2, rfl⟩ := (versionOf_mapGroup hid hversion).1 hv''
    rw [h.unique g' v1 v2 hv1 hv2]
  · obtain ⟨r, hr, rfl⟩ := List.mem_map.1 hrow
    split
    · rw [htype]
      exact h.valid r hr
    · exact h.valid r hr
  · obtain ⟨v, hv, rfl⟩ := (versionOf_mapGroup hid hversion).1 hv'
    have hpos := h.positive g' v hv
    split
    · omega
    · exact hpos

theorem versionOf_insert {s : Store} {g v : Nat} {row : GroupRow} {n : Nat} :
    VersionOf { s with groups := s.groups ++ [row], nextGroupId := n } g v ↔
      VersionOf s g v ∨ row.id = g ∧ row.version = v := by
  simp only [VersionOf, List.mem_append, List.mem_singleton, or_and_right, exists_or, exists_eq_left]

theorem rows_serve {s : Store} {w : Watch} {o : Op} (h : Rows s) (hallows : w.Allows o) : Rows (s.serve o).1 := by
  cases o with
  | insertGroup name avatar creator type userCnt status version =>
    obtain ⟨htype, hversion⟩ := hallows
    have hfresh : ∀ v, ¬VersionOf s s.nextGroupId v := fun v hv => absurd (h.old _ v hv) (Nat.lt_irrefl _)
    refine ⟨fun g v hv => ?_, fun g v v' hv hv' => ?_, fun row hrow => ?_, fun g v hv => ?_⟩
    · rcases versionOf_insert.1 hv with hold | ⟨rfl, rfl⟩
      · exact Nat.lt_succ_of_lt (h.old g v hold)
      · exact Nat.lt_succ_self _
    · rcases versionOf_insert.1 hv with hold | ⟨rfl, rfl⟩
      · rcases versionOf_insert.1 hv' with hold' | ⟨rfl, rfl⟩
        · exact h.unique g v v' hold hold'
        · exact absurd hold (hfresh v)
      · rcases versionOf_insert.1 hv' with hold' | ⟨-, rfl⟩
        · exact absurd hold' (hfresh v')
        · rfl
    · rcases List.mem_append.1 hrow with hold | hnew
      · exact h.valid row hold
      · rw [List.mem_singleton.1 hnew]
        exact htype
    · rcases versionOf_insert.1 hv with hold | ⟨rfl, rfl⟩
      · exact h.positive g v hold
      · exact hversion
  | updateStatus g status => exact rows_mapGroup (n := 0) h (fun _ => rfl) (fun _ => rfl) fun _ => rfl
  | incVersion g => exact rows_mapGroup (n := 1) h (fun _ => rfl) (fun _ => rfl) fun _ => rfl
  | addUserCnt g n => exact rows_mapGroup (n := 0) h (fun _ => rfl) (fun _ => rfl) fun _ => rfl
  | _ => exact ⟨h.old, h.unique, h.valid, h.positive⟩

theorem versionOf_grows {s : Store} {g v n : Nat} (g' : Nat) {f : GroupRow → GroupRow} (hid : ∀ r, (f r).id = r.id)
    (hversion : ∀ r, (f r).version = r.version + n) (h : VersionOf s g v) :
    ∃ v', VersionOf (s.mapGroup g' f) g v' ∧ v ≤ v' ∧ (g = g' → v' = v + n) := by
  refine ⟨_, (versionOf_mapGroup hid hversion).2 ⟨v, h, rfl⟩, ?_, fun heq => if_pos heq⟩
  split
  · omega
  · exact Nat.le_refl v

/-- Versions grow, and grow with `incVersion`. -/
theorem versionOf_serve {s : Store} {g v : Nat} (o : Op) (h : VersionOf s g v) :
    ∃ v', VersionOf (s.serve o).1 g v' ∧ v ≤ v' ∧ (o = .incVersion g → v < v') := by
  cases o with
  | insertGroup name avatar creator type userCnt status version => exact ⟨v, versionOf_insert.2 (.inl h), Nat.le_refl v, nofun⟩
  | updateStatus g' status =>
    obtain ⟨v', hv', hle, -⟩ := versionOf_grows g' (f := ({ · with status })) (n := 0) (fun _ => rfl) (fun _ => rfl) h
    exact ⟨v', hv', hle, nofun⟩
  | incVersion g' =>
    obtain ⟨v', hv', hle, hlt⟩ :=
      versionOf_grows g' (f := fun r => { r with version := r.version + 1 }) (n := 1) (fun _ => rfl) (fun _ => rfl) h
    refine ⟨v', hv', hle, fun heq => ?_⟩
    rw [hlt (Op.incVersion.inj heq).symm]
    exact Nat.lt_succ_self v
  | addUserCnt g' n =>
    obtain ⟨v', hv', hle, -⟩ :=
      versionOf_grows g' (f := fun r => { r with userCnt := r.userCnt + n }) (n := 0) (fun _ => rfl) (fun _ => rfl) h
    exact ⟨v', hv', hle, nofun⟩
  | _ => exact ⟨v, h, Nat.le_refl v, nofun⟩

/-- The members of a group change by `HSET` and `HDEL` only. -/
theorem groupMember_serve (s : Store) (o : Op) (g : Nat) :
    (s.serve o).1.groupMember g = s.groupMember g ∨ ∃ u, o = .hset g u ∨ o = .hdel g u := by
  cases o with
  | hset g' u =>
    by_cases heq : g = g'
    · exact .inr ⟨u, .inl (by rw [heq])⟩
    · exact .inl (if_neg heq)
  | hdel g' u =>
    by_cases heq : g = g'
    · exact .inr ⟨u, .inr (by rw [heq])⟩
    · exact .inl (if_neg heq)
  | _ => exact .inl rfl

/-! ## What threads and clients have read -/

/-- A thread, or a client, has read the version and the members of a group. -/
def Pair (s : InfoThreads) (g v : Nat) (users : List Nat) : Prop :=
  (∃ i, (watch s i).Has g v users) ∨
    ∃ e ∈ s.history, ∃ connUuid rsp, e.2.1 = Op.addResponsePdu connUuid (.imGroupInfoListRsp rsp) ∧
      ∃ info ∈ rsp.groupInfoList, info.groupId = g ∧ info.version = v ∧ info.groupMemberList = users

/-- What has been read of a group is old, or right, or is being outdated; and was not read while the group was made. -/
structure InfosSound (s : InfoThreads) : Prop where
  rows : Rows s.store
  known : ∀ g, s.store.groupMember g ≠ [] → ∃ v, VersionOf s.store g v
  seen : ∀ i g, Known g (watch s i) → ∃ v, VersionOf s.store g v
  selected : ∀ i, ∀ row ∈ (watch s i).rows, ∃ v, VersionOf s.store row.id v ∧ row.version ≤ v
  pairs : ∀ g v users, Pair s g v users → ¬Storing s g ∧
    ∃ v', VersionOf s.store g v' ∧ v ≤ v' ∧ (v < v' ∨ users = s.store.groupMember g ∨ Changing s g)

theorem infosSound_init : InfosSound (Threads.init Store.init) := by
  refine ⟨rows_init, fun g h => absurd rfl h, ?_, ?_, ?_⟩
  · rintro i g (h | h)
    · cases h
    · cases h
  · intro i row h
    cases h
  · rintro g v users (⟨i, ⟨row, h, -⟩, -⟩ | ⟨e, h, -⟩)
    · cases h
    · cases h

/-- A thread that begins a job forgets what it has read. -/
theorem pair_start {s : InfoThreads} {i g v : Nat} {job : InfoJob} {users : List Nat}
    (h : Pair (s.setThread i { job, trace := [], prog := job.body }) g v users) : Pair s g v users := by
  rcases h with ⟨j, hj⟩ | hj
  · refine .inl ⟨j, ?_⟩
    have hwatch : watch (s.setThread i { job, trace := [], prog := job.body }) j = if j = i then Watch.start else watch s j :=
      Threads.monitor_setThread s i j _
    rw [hwatch] at hj
    split at hj
    · obtain ⟨⟨row, hrow, -⟩, -⟩ := hj
      cases hrow
    · exact hj
  · exact .inr hj

/-- A thread that is done begins a job: what it has read is forgotten. -/
theorem infosSound_start {s : InfoThreads} (h : InfosSound s) (i : Nat) (job : InfoJob)
    (hidle : ∀ t, s.threads i = some t → t.prog.next = none ∧ Versioned t.job (watch s i)) :
    InfosSound (s.setThread i { job, trace := [], prog := job.body }) := by
  have hwatch : ∀ j, watch (s.setThread i { job, trace := [], prog := job.body }) j =
      if j = i then Watch.start else watch s j := fun j => Threads.monitor_setThread s i j _
  have hold : ∀ j, j ≠ i → watch (s.setThread i { job, trace := [], prog := job.body }) j = watch s j := fun j hj => by
    rw [hwatch, if_neg hj]
  have hnew : watch (s.setThread i { job, trace := [], prog := job.body }) i = Watch.start := by
    rw [hwatch, if_pos rfl]
  refine ⟨h.rows, h.known, fun j g hj => ?_, fun j row hrow => ?_, fun g v users hpair => ?_⟩
  · by_cases heq : j = i
    · subst heq
      rw [hnew] at hj
      rcases hj with hj | hj
      · cases hj
      · cases hj
    · rw [hold j heq] at hj
      exact h.seen j g hj
  · by_cases heq : j = i
    · subst heq
      rw [hnew] at hrow
      cases hrow
    · rw [hold j heq] at hrow
      exact h.selected j row hrow
  · obtain ⟨hstoring, v', hv', hle, hold'⟩ := h.pairs g v users (pair_start hpair)
    refine ⟨?_, v', hv', hle, hold'.imp_right (Or.imp_right ?_)⟩
    · rintro ⟨j, t, o, ht, hmade, hnext, ho⟩
      by_cases heq : j = i
      · subst heq
        rw [hnew] at hmade
        cases hmade
      · rw [hold j heq] at hmade
        exact hstoring ⟨j, t, o, (if_neg heq).symm.trans ht, hmade, hnext, ho⟩
    · rintro ⟨j, hj⟩
      refine ⟨j, ?_⟩
      by_cases heq : j = i
      · -- nothing that it changed is left to be versioned
        subst heq
        cases ht : s.threads j with
        | none =>
          simp only [watch, Threads.monitor, ht] at hj
          cases hj
        | some t =>
          rw [(hidle t ht).2] at hj
          cases hj
      · rw [hold j heq]
        exact hj

section Call

variable {s : InfoThreads} {i : Nat} {t : Runner calls InfoJob} {o : Op} {k : o.Reply → Prog calls Unit}

theorem watch_called (ht : s.threads i = some t) (j : Nat) : watch (s.called Store.serve i t o k) j =
    if j = i then (watch s i).next o (s.store.serve o).2 else watch s j :=
  Threads.monitor_called ht o k j

/-- What the watch of a thread knows after a call. -/
theorem known_next {w : Watch} {g : Nat} {r : o.Reply} (h : Known g (w.next o r)) (hr : r = (s.store.serve o).2) :
    Known g w ∨ s.store.groupMember g ≠ [] ∨ ∃ name avatar creator type userCnt status version,
      o = .insertGroup name avatar creator type userCnt status version ∧ g = s.store.nextGroupId := by
  subst hr
  cases o with
  | insertGroup name avatar creator type userCnt status version =>
    rcases h with hmade | hseen
    · exact .inr (.inr ⟨_, _, _, _, _, _, _, rfl, (Option.some.inj hmade).symm⟩)
    · exact .inl (.inr hseen)
  | isExists g' =>
    rcases h with hmade | hseen
    · exact .inl (.inl hmade)
    · simp only [Watch.next] at hseen
      cases hfound : (s.store.serve (.isExists g')).2 with
      | false =>
        rw [hfound] at hseen
        exact .inl (.inr hseen)
      | true =>
        rw [hfound] at hseen
        rcases List.mem_cons.1 hseen with rfl | hold
        · exact .inr (.inl (of_decide_eq_true hfound))
        · exact .inl (.inr hold)
  | addResponsePdu connUuid msg =>
    rcases h with hmade | hseen
    · cases hmade
    · exact .inl (.inr hseen)
  | _ => exact .inl h

/-- A group that a thread is storing was being stored, or has just been inserted. -/
theorem storing_called (ht : s.threads i = some t) (hprog : t.prog = .call (C := calls) o k) {g : Nat}
    (h : Storing (s.called Store.serve i t o k) g) : Storing s g ∨ s.store.nextGroupId = g := by
  obtain ⟨j, t', o', ht', hmade, hnext, ho'⟩ := h
  rw [watch_called ht] at hmade
  by_cases heq : j = i
  · subst heq
    rw [if_pos rfl] at hmade
    have hwas : Op.isAnswer o = false → (watch s j).made = some g → Storing s g := by
      intro ho hm
      exact ⟨j, t, o, ht, hm, by rw [hprog]; rfl, ho⟩
    cases o with
    | insertGroup name avatar creator type userCnt status version => exact .inr (Option.some.inj hmade)
    | addResponsePdu connUuid msg => cases hmade
    | _ => exact .inl (hwas rfl hmade)
  · rw [if_neg heq] at hmade
    exact .inl ⟨j, t', o', (if_neg heq).symm.trans ht', hmade, hnext, ho'⟩

/-- Only `incVersion` ends a change; who changes members of a group that he does not make begins one. -/
theorem changing_called (ht : s.threads i = some t) {g : Nat} (h : Changing s g) :
    Changing (s.called Store.serve i t o k) g ∨ o = .incVersion g := by
  obtain ⟨j, hj⟩ := h
  by_cases heq : j = i
  · subst heq
    have hstays : g ∈ ((watch s j).next o (s.store.serve o).2).changed → Changing (s.called Store.serve j t o k) g := by
      intro hin
      refine ⟨j, ?_⟩
      rw [watch_called ht, if_pos rfl]
      exact hin
    cases o with
    | hset g' u =>
      refine .inl (hstays ?_)
      simp only [Watch.next]
      split
      · exact hj
      · exact List.mem_cons_of_mem _ hj
    | hdel g' u =>
      refine .inl (hstays ?_)
      simp only [Watch.next]
      split
      · exact hj
      · exact List.mem_cons_of_mem _ hj
    | incVersion g' =>
      by_cases hg : g = g'
      · exact .inr (by rw [hg])
      · exact .inl (hstays (List.mem_filter.2 ⟨hj, by simpa using hg⟩))
    | _ => exact .inl (hstays hj)
  · refine .inl ⟨j, ?_⟩
    rw [watch_called ht, if_neg heq]
    exact hj

/-- What has been read was read before, or is what a thread reads now of a group that it has selected. -/
theorem pair_called (ht : s.threads i = some t) (hallows : (watch s i).Allows o) {g v : Nat} {users : List Nat}
    (h : Pair (s.called Store.serve i t o k) g v users) : Pair s g v users ∨
      (o = .hgetAll g ∧ users = s.store.groupMember g ∧ ∃ row ∈ (watch s i).rows, row.id = g ∧ row.version = v) := by
  rcases h with ⟨j, hj⟩ | ⟨e, he, connUuid, rsp, hmsg, info, hinfo, hpair⟩
  · rw [watch_called ht] at hj
    by_cases heq : j = i
    · subst heq
      rw [if_pos rfl] at hj
      cases o with
      | selectGroups ids => cases hj.2
      | hgetAll g' =>
        obtain ⟨hrow, hlist⟩ := hj
        rcases List.mem_cons.1 hlist with hnew | hold
        · obtain ⟨rfl, rfl⟩ := Prod.mk.inj hnew
          exact .inr ⟨rfl, rfl, hrow⟩
        · exact .inl (.inl ⟨j, hrow, hold⟩)
      | _ => exact .inl (.inl ⟨j, hj⟩)
    · rw [if_neg heq] at hj
      exact .inl (.inl ⟨j, hj⟩)
  · rcases List.mem_cons.1 he with rfl | hold
    · change o = _ at hmsg
      subst hmsg
      obtain ⟨rfl, rfl, rfl⟩ := hpair
      exact .inl (.inl ⟨i, hallows info hinfo⟩)
    · exact .inl (.inr ⟨e, hold, connUuid, rsp, hmsg, info, hinfo, hpair⟩)

theorem infosSound_called (h : InfosSound s) (hok : ReadsWhole s (.go i)) (ht : s.threads i = some t)
    (hprog : t.prog = .call (C := calls) o k) (hallows : (watch s i).Allows o) : InfosSound (s.called Store.serve i t o k) := by
  have hnext : t.prog.next = some o := by
    rw [hprog]
    rfl
  have hgrows : ∀ {g v}, VersionOf s.store g v → ∃ v', VersionOf (s.called Store.serve i t o k).store g v' ∧ v ≤ v' ∧
      (o = .incVersion g → v < v') := fun hv => versionOf_serve o hv
  -- a group that has a version keeps one
  have hkeeps : ∀ {g}, (∃ v, VersionOf s.store g v) → ∃ v, VersionOf (s.called Store.serve i t o k).store g v := by
    rintro g ⟨v, hv⟩
    obtain ⟨v', hv', -⟩ := hgrows hv
    exact ⟨v', hv'⟩
  refine ⟨rows_serve h.rows hallows, fun g hne => ?_, fun j g hj => ?_, fun j row hrow => ?_, fun g v users hpair => ?_⟩
  · rcases groupMember_serve s.store o g with hsame | ⟨u, rfl | rfl⟩
    · exact hkeeps (h.known g (hsame ▸ hne))
    · exact hkeeps (h.seen i g hallows)
    · exact hkeeps (h.seen i g hallows)
  · rw [watch_called ht] at hj
    split at hj
    · rcases known_next hj rfl with hold | hne | ⟨name, avatar, creator, type, userCnt, status, version, rfl, rfl⟩
      · exact hkeeps (h.seen i g hold)
      · exact hkeeps (h.known g hne)
      · exact ⟨version, versionOf_insert.2 (.inr ⟨rfl, rfl⟩)⟩
    · exact hkeeps (h.seen j g hj)
  · have hwas : row ∈ (watch s j).rows ∨ row ∈ s.store.groups := by
      rw [watch_called ht] at hrow
      split at hrow
      · rename_i heq
        subst heq
        cases o with
        | selectGroups ids => exact .inr (List.mem_filter.1 hrow).1
        | _ => exact .inl hrow
      · exact .inl hrow
    obtain ⟨v, hv, hle⟩ : ∃ v, VersionOf s.store row.id v ∧ row.version ≤ v := by
      rcases hwas with hold | hin
      · exact h.selected j row hold
      · exact ⟨row.version, ⟨row, hin, rfl, rfl⟩, Nat.le_refl _⟩
    obtain ⟨v', hv', hle', -⟩ := hgrows hv
    exact ⟨v', hv', Nat.le_trans hle hle'⟩
  · have hnotStoring : ¬Storing s g → (∃ v, VersionOf s.store g v) → ¬Storing (s.called Store.serve i t o k) g := by
      rintro hnot ⟨v, hv⟩ hstoring
      rcases storing_called ht hprog hstoring with hwas | rfl
      · exact hnot hwas
      · exact absurd (h.rows.old _ v hv) (Nat.lt_irrefl _)
    rcases pair_called ht hallows hpair with hwas | ⟨rfl, rfl, row, hrow, rfl, rfl⟩
    · obtain ⟨hnot, v1, hv1, hle, hcases⟩ := h.pairs g v users hwas
      obtain ⟨v2, hv2, hle2, hinc⟩ := hgrows hv1
      refine ⟨hnotStoring hnot ⟨v1, hv1⟩, v2, hv2, Nat.le_trans hle hle2, ?_⟩
      rcases hcases with hlt | hsame | hchanging
      · exact .inl (Nat.lt_of_lt_of_le hlt hle2)
      · -- the members are as they were, or are being changed, for the group is not being made
        have hmade : Op.isAnswer o = false → (watch s i).made ≠ some g := fun ho hm => hnot ⟨i, t, o, ht, hm, hnext, ho⟩
        refine .inr ?_
        rcases groupMember_serve s.store o g with heq | ⟨u, rfl | rfl⟩
        · exact .inl (hsame.trans heq.symm)
        · refine .inr ⟨i, ?_⟩
          rw [watch_called ht, if_pos rfl]
          simp only [Watch.next]
          rw [if_neg (hmade rfl)]
          exact List.mem_cons_self
        · refine .inr ⟨i, ?_⟩
          rw [watch_called ht, if_pos rfl]
          simp only [Watch.next]
          rw [if_neg (hmade rfl)]
          exact List.mem_cons_self
      · rcases changing_called ht hchanging with hstays | hincs
        · exact .inr (.inr hstays)
        · exact .inl (Nat.lt_of_le_of_lt hle (hinc hincs))
    · obtain ⟨v1, hv1, hle⟩ := h.selected i row hrow
      obtain ⟨v2, hv2, hle2, -⟩ := hgrows hv1
      refine ⟨hnotStoring (hok t row.id ht hnext ⟨row, hrow, rfl⟩) ⟨v1, hv1⟩, v2, hv2, Nat.le_trans hle hle2, .inr (.inl rfl)⟩

end Call

/-! ## Answers to a client -/

/-- The versions that a client has of a group that has members are looked at. -/
theorem ends_collectVersions {s : Store} {g version : Nat} (hne : s.groupMember g ≠ []) (acc vs : List GroupVersionInfo)
    (hsome : ∃ v ∈ acc ++ vs, v.groupId = g) (hall : ∀ v ∈ acc ++ vs, v.groupId = g → v.version = version) :
    Ends (C := calls) (ServedWith s g) (Action.collectVersions acc vs) fun versions =>
      (∃ v ∈ versions, v.groupId = g) ∧ ∀ v ∈ versions, v.groupId = g → v.version = version := by
  induction vs generalizing acc with
  | nil =>
    rw [List.append_nil] at hsome hall
    exact ends_pure ⟨hsome, hall⟩
  | cons v vs ih =>
    refine Ends.bind (Q := fun found : Bool => found = false → v.groupId ≠ g) ?_ fun found hfound => ?_
    · rintro r ⟨s', hmember, -, rfl⟩ hnone heq
      exact of_decide_eq_false hnone (heq ▸ hmember ▸ hne)
    split
    · refine ih _ ?_ fun v' hv' => hall v' ?_
      · obtain ⟨v', hv', hg⟩ := hsome
        by_cases heq : v.groupId = g
        · exact ⟨v, List.mem_append_left _ List.mem_cons_self, heq⟩
        · refine ⟨v', ?_, hg⟩
          rcases List.mem_append.1 hv' with hacc | hvs
          · refine List.mem_append_left _ (List.mem_cons_of_mem _ (List.mem_filter.2 ⟨hacc, decide_eq_true ?_⟩))
            exact fun hsame => heq (hsame.symm.trans hg)
          · rcases List.mem_cons.1 hvs with rfl | hvs
            · exact absurd hg heq
            · exact List.mem_append_right _ hvs
      · rcases List.mem_append.1 hv' with hacc | hvs
        · rcases List.mem_cons.1 hacc with rfl | hacc
          · exact List.mem_append_right _ List.mem_cons_self
          · exact List.mem_append_left _ (List.mem_filter.1 hacc).1
        · exact List.mem_append_right _ (List.mem_cons_of_mem _ hvs)
    · -- a group that has no members is another one
      rename_i hnot
      have hother := hfound (Bool.eq_false_iff.2 hnot)
      refine ih acc ?_ fun v' hv' => hall v' ?_
      · obtain ⟨v', hv', hg⟩ := hsome
        refine ⟨v', ?_, hg⟩
        rcases List.mem_append.1 hv' with hacc | hvs
        · exact List.mem_append_left _ hacc
        · rcases List.mem_cons.1 hvs with rfl | hvs
          · exact absurd hg hother
          · exact List.mem_append_right _ hvs
      · rcases List.mem_append.1 hv' with hacc | hvs
        · exact List.mem_append_left _ hacc
        · exact List.mem_append_right _ (List.mem_cons_of_mem _ hvs)

/-- Whoever is asked for keeps his info. -/
theorem ends_fillGroupMember {ok : (o : Op) → o.Reply → Prop} (infos : List GroupInfo) :
    Ends (C := calls) ok (fillGroupMember infos) fun infos' => ∀ info ∈ infos, ∃ info' ∈ infos', info'.groupId = info.groupId := by
  induction infos with
  | nil => exact ends_pure nofun
  | cons info infos ih =>
    refine Ends.bind (Q := fun _ => True) (fun _ _ => trivial) fun users _ => ?_
    refine ih.bind fun rest hrest => ends_pure fun info0 hinfo0 => ?_
    rcases List.mem_cons.1 hinfo0 with rfl | hold
    · exact ⟨_, List.mem_cons_self, rfl⟩
    · obtain ⟨info', hinfo', heq⟩ := hrest info0 hold
      exact ⟨info', List.mem_cons_of_mem _ hinfo', heq⟩

/-- A group that has members and a newer version is answered. -/
theorem ends_groupInfos {s : Store} {g version v : Nat} (hrows : Rows s) (hne : s.groupMember g ≠ []) (hversion : VersionOf s g v)
    (hlt : version < v) {msg : IMGroupInfoListReq} (hsome : ∃ v ∈ msg.groupVersionList, v.groupId = g)
    (hall : ∀ v ∈ msg.groupVersionList, v.groupId = g → v.version = version) :
    Ends (C := calls) (ServedWith s g) (Action.groupInfos msg) fun infos => ∃ info ∈ infos, info.groupId = g := by
  refine (ends_collectVersions hne [] msg.groupVersionList hsome hall).bind ?_
  rintro versions ⟨⟨v0, hv0, hg0⟩, hversions⟩
  obtain ⟨row, hrow, hid, rfl⟩ := hversion
  unfold Groups.getGroupInfo
  rw [if_neg (List.ne_nil_of_mem hv0)]
  refine Ends.bind (Q := fun rows : List GroupRow => row ∈ rows) ?_ fun rows hin => ?_
  · rintro r ⟨s', -, hgroups, rfl⟩
    refine List.mem_filter.2 ⟨(hgroups row hid).2 hrow, decide_eq_true (List.mem_map.2 ⟨v0, hv0, ?_⟩)⟩
    rw [hid]
    exact hg0
  · refine (ends_fillGroupMember _).mono fun infos hinfos => ?_
    obtain ⟨info, hnewer⟩ : ∃ info, newerInfo versions row = some info := by
      unfold newerInfo
      cases hfind : versions.find? (·.groupId = row.id) with
      | none => exact absurd (decide_eq_true (hg0.trans hid.symm)) (List.find?_eq_none.1 hfind v0 hv0)
      | some v1 =>
        have hg1 : v1.groupId = row.id := by simpa using List.find?_some hfind
        have hv1 := hversions v1 (List.mem_of_find?_eq_some hfind) (hg1.trans hid)
        dsimp only
        rw [if_pos ⟨hv1 ▸ hlt, hrows.valid row hrow⟩]
        exact ⟨_, rfl⟩
    obtain ⟨info', hinfo', heq⟩ := hinfos info (List.mem_filterMap.2 ⟨row, hin, hnewer⟩)
    refine ⟨info', hinfo', ?_⟩
    rw [heq, (newerInfo_some hnewer).1, hid]

theorem mem_infosFor {mine : Nat → IMGroupInfoListRsp → Bool} {o : Op} {info : GroupInfo} (h : info ∈ o.infosFor mine) :
    ∃ connUuid rsp, o = .addResponsePdu connUuid (.imGroupInfoListRsp rsp) ∧ info ∈ rsp.groupInfoList := by
  unfold Op.infosFor at h
  split at h
  · split at h
    · exact ⟨_, _, rfl, h⟩
    · cases h
  · cases h

/-- What a client has kept has been sent. -/
theorem pair_cachedInfo {mine : Nat → IMGroupInfoListRsp → Bool} {s : InfoThreads} {g : Nat} {info : GroupInfo}
    (h : cachedInfo mine s g = some info) : Pair s g info.version info.groupMemberList := by
  rw [cachedInfo] at h
  have hg : info.groupId = g := by simpa using List.find?_some h
  obtain ⟨e, he, hin⟩ := List.mem_flatMap.1 (List.mem_of_find?_eq_some h)
  obtain ⟨connUuid, rsp, hmsg, hinfo⟩ := mem_infosFor hin
  exact .inr ⟨e, he, connUuid, rsp, hmsg, info, hinfo, hg, rfl, rfl⟩

/-! ## Nobody twice -/

/-- Redis has nobody twice among the members of a group. -/
theorem nodup_serve {s : Store} (h : ∀ g, (s.groupMember g).Nodup) (o : Op) (g : Nat) : ((s.serve o).1.groupMember g).Nodup := by
  cases o with
  | hset g' u =>
    simp only [Store.serve, Store.setMembers]
    split
    · split
      · exact h g'
      · rename_i hnew
        exact List.nodup_append.2 ⟨h g', List.nodup_singleton u, fun a ha b hb heq => hnew (List.mem_singleton.1 hb ▸ heq ▸ ha)⟩
    · exact h g
  | hdel g' u =>
    simp only [Store.serve, Store.setMembers]
    split
    · exact (h g').filter _
    · exact h g
  | _ => exact h g

/-- Nor has anybody who has read them, whatever the threads do. -/
theorem nodup_of_run {ok : InfoThreads → Sched InfoJob → Prop} {log : List Empty} {s : InfoThreads}
    (hrun : Machine.Run infoStep ok (Threads.init Store.init) log s) {g v : Nat} {users : List Nat} (hpair : Pair s g v users) :
    users.Nodup := by
  have hall : (∀ g, (s.store.groupMember g).Nodup) ∧ ∀ g v users, Pair s g v users → users.Nodup := by
    refine (Threads.run_invariant (M := watches)
      (I := fun s => (∀ g, (s.store.groupMember g).Nodup) ∧ ∀ g v users, Pair s g v users → users.Nodup)
      safe_body Threads.allSafe_init ⟨fun _ => List.nodup_nil, ?_⟩ ?_ ?_ hrun).2
    · rintro g v users (⟨i, ⟨row, h, -⟩, -⟩ | ⟨e, h, -⟩)
      · cases h
      · cases h
    · rintro s i job ⟨hstore, hpairs⟩ - -
      exact ⟨hstore, fun g v users hpair => hpairs g v users (pair_start hpair)⟩
    · rintro s i t o k ⟨hstore, hpairs⟩ - ht - hallows
      refine ⟨nodup_serve hstore o, fun g v users hpair => ?_⟩
      rcases pair_called ht hallows hpair with hwas | ⟨-, rfl, -⟩
      · exact hpairs g v users hwas
      · exact hstore g
  exact hall.2 g v users hpair

/-! ## A group of two -/

/-- User 1 makes a group with user 2. -/
def pairGroup : InfoJob :=
  .createGroup 0
    { userId := 1, groupType := groupTypeTmp, groupName := "g", groupAvatar := "", memberIdList := [1, 2], attachData := none }

/-- A client asks for group 1, of which it has a version. -/
def askGroup (version : Nat) : IMGroupInfoListReq :=
  { userId := 1, groupVersionList := [{ groupId := 1, version }], attachData := none }

/-- All answers are sent to the client. -/
def allAnswers (_ : Nat) (_ : IMGroupInfoListRsp) : Bool := true

/-- The first member is stored; the client asks, and is answered; then the second member is stored. -/
def askedEarly : List (Sched InfoJob) :=
  .start 0 pairGroup :: List.replicate 8 (.go 0) ++ .start 1 (.getGroupInfo 0 (askGroup 0)) :: List.replicate 4 (.go 1) ++
    List.replicate 2 (.go 0)

/-- Nobody has changed a group, if none of the first threads has, and the others had no turn. -/
theorem not_changing_of_steps {es : List (Sched InfoJob)} {log : List Empty} {s : InfoThreads} {n g : Nat}
    (hsteps : Machine.steps infoStep (Threads.init Store.init) es = some (s, log)) (hturns : ∀ e ∈ es, Threads.turnOf e < n)
    (hnone : ∀ i < n, (watch s i).changed = []) : ¬Changing s g := by
  rintro ⟨i, hi⟩
  by_cases hlt : i < n
  · rw [hnone i hlt] at hi
    cases hi
  · have ht : s.threads i = none := Threads.threads_steps hsteps fun e he heq => hlt (by rw [heq]; exact hturns e he)
    simp only [watch, Threads.monitor, ht] at hi
    cases hi

/-- Nobody makes a group, if the first threads are done, and the others had no turn. -/
theorem not_storing_of_steps {es : List (Sched InfoJob)} {log : List Empty} {s : InfoThreads} {n g : Nat}
    (hsteps : Machine.steps infoStep (Threads.init Store.init) es = some (s, log)) (hturns : ∀ e ∈ es, Threads.turnOf e < n)
    (hdone : ∀ i < n, ∀ t, s.threads i = some t → t.prog.next = none) : ¬Storing s g := by
  rintro ⟨i, t, o, ht, -, hnext, -⟩
  by_cases hlt : i < n
  · rw [hdone i hlt t ht] at hnext
    cases hnext
  · rw [Threads.threads_steps hsteps fun e he heq => hlt (by rw [heq]; exact hturns e he)] at ht
    cases ht

end InfosAux

open InfosAux

/-- No thread reads the members of a group while it is being made, and a client that asks for a group is sent its info, unless he has its
members; even while the group is being made, for then he has nothing. -/
theorem infos_complete (log : List Empty) (s : InfoThreads)
    (hrun : Machine.Run infoStep ReadsWhole (Threads.init Store.init) log s) (mine : Nat → IMGroupInfoListRsp → Bool) (g : Nat)
    (hchanging : ¬Changing s g) (hne : s.store.groupMember g ≠ []) (msg : IMGroupInfoListReq)
    (hsome : ∃ v ∈ msg.groupVersionList, v.groupId = g)
    (hall : ∀ v ∈ msg.groupVersionList, v.groupId = g → v.version = cachedVersion mine s g) :
    Ends (C := calls) (ServedWith s.store g) (Action.groupInfos msg) (fun infos => ∃ info ∈ infos, info.groupId = g) ∨
      ∃ info, cachedInfo mine s g = some info ∧ ∀ u, u ∈ info.groupMemberList ↔ u ∈ s.store.groupMember g := by
  obtain ⟨-, h⟩ := Threads.run_invariant (M := watches) (I := InfosSound) safe_body Threads.allSafe_init
    infosSound_init (fun s i job h _ hidle => infosSound_start h i job hidle)
    (fun s i t o k h hok ht hprog hallows => infosSound_called h hok ht hprog hallows) hrun
  obtain ⟨v, hv⟩ := h.known g hne
  rw [cachedVersion] at hall
  cases hcached : cachedInfo mine s g with
  | none =>
    rw [hcached] at hall
    exact .inl (ends_groupInfos h.rows hne hv (h.rows.positive g v hv) hsome hall)
  | some info =>
    rw [hcached] at hall
    obtain ⟨-, v', hv', -, hlt | hsame | hnow⟩ := h.pairs g _ _ (pair_cachedInfo hcached)
    · exact .inl (ends_groupInfos h.rows hne hv' hlt hsome hall)
    · exact .inr ⟨info, rfl, fun u => by rw [hsame]⟩
    · exact absurd hnow hchanging

/-- A client that has nothing is sent the group of two, which is not changed. -/
theorem infos_complete_pair : ∃ log s, Machine.Run infoStep ReadsWhole (Threads.init Store.init) log s ∧
    Ends (C := calls) (ServedWith s.store 1) (Action.groupInfos (askGroup 0)) (fun infos => ∃ info ∈ infos, info.groupId = 1) := by
  obtain ⟨log, s, hrun, hsteps, hmember, hnone, hcached⟩ : ∃ log s,
      Machine.Run infoStep ReadsWhole (Threads.init Store.init) log s ∧
      Machine.steps infoStep (Threads.init Store.init) (.start 0 pairGroup :: List.replicate 9 (.go 0)) = some (s, log) ∧
      s.store.groupMember 1 = [1, 2] ∧ (watch s 0).changed = [] ∧ cachedInfo allAnswers s 1 = none := by
    refine ⟨_, _, .step (.step (.step (.step (.step (.step (.step (.step (.step (.step .start (e := .start 0 pairGroup) trivial rfl)
      (e := .go 0) ?_ rfl) (e := .go 0) ?_ rfl) (e := .go 0) ?_ rfl) (e := .go 0) ?_ rfl) (e := .go 0) ?_ rfl)
      (e := .go 0) ?_ rfl) (e := .go 0) ?_ rfl) (e := .go 0) ?_ rfl) (e := .go 0) ?_ rfl, rfl, rfl, rfl, rfl⟩
    all_goals
      rintro t g ht hnext ⟨row, hrow, -⟩
      cases hrow
  have hchanging : ¬Changing s 1 := by
    refine not_changing_of_steps (n := 1) hsteps (by decide) fun i hi => ?_
    obtain rfl := Nat.lt_one_iff.1 hi
    exact hnone
  have hends := infos_complete log s hrun allAnswers 1 hchanging (by rw [hmember]; nofun) (askGroup 0)
    ⟨_, List.mem_singleton.2 rfl, rfl⟩ fun v hv _ => by
      obtain rfl := List.mem_singleton.1 hv
      rw [cachedVersion, hcached]
      rfl
  refine ⟨log, s, hrun, hends.resolve_right ?_⟩
  rintro ⟨info, hinfo, -⟩
  rw [hcached] at hinfo
  cases hinfo

/-- The client asked while the group was being made: it keeps version 1 without user 2, and is sent nothing when it asks again. -/
theorem infos_not_complete : ¬InfosCompleteIn fun _ _ => True := by
  intro hall
  obtain ⟨log, s, hsteps, hmember, hgroups, hdone0, hdone1, hnone0, hnone1, info, hcached, hversion, hlist⟩ : ∃ log s,
      Machine.steps infoStep (Threads.init Store.init) askedEarly = some (s, log) ∧ s.store.groupMember 1 = [1, 2] ∧
      (∃ row, s.store.groups = [row] ∧ row.id = 1 ∧ row.version = 1) ∧
      (∀ t, s.threads 0 = some t → t.prog.next = none) ∧ (∀ t, s.threads 1 = some t → t.prog.next = none) ∧
      (watch s 0).changed = [] ∧ (watch s 1).changed = [] ∧
      ∃ info, cachedInfo allAnswers s 1 = some info ∧ info.version = 1 ∧ info.groupMemberList = [1] := by
    refine ⟨_, _, rfl, rfl, ⟨_, rfl, rfl, rfl⟩, ?_, ?_, rfl, rfl, _, rfl, rfl, rfl⟩
    · intro t ht
      obtain rfl := Option.some.inj ht
      rfl
    · intro t ht
      obtain rfl := Option.some.inj ht
      rfl
  have hturns : ∀ e ∈ askedEarly, Threads.turnOf e < 2 := by decide
  have hstoring : ¬Storing s 1 := not_storing_of_steps hsteps hturns fun i hi => by
    match i, hi with
    | 0, _ => exact hdone0
    | 1, _ => exact hdone1
  have hchanging : ¬Changing s 1 := not_changing_of_steps hsteps hturns fun i hi => by
    match i, hi with
    | 0, _ => exact hnone0
    | 1, _ => exact hnone1
  have hversion1 : cachedVersion allAnswers s 1 = 1 := by
    rw [cachedVersion, hcached]
    exact hversion
  rcases hall _ _ (Machine.Run.of_steps (fun _ _ => trivial) .start hsteps) allAnswers 1 hstoring hchanging
    (by rw [hmember]; nofun) (askGroup 1) ⟨_, List.mem_singleton.2 rfl, rfl⟩ (fun v hv _ => by
      obtain rfl := List.mem_singleton.1 hv
      exact hversion1.symm) with hends | ⟨info', hinfo', hsame⟩
  · -- the store answers as it is: the version is not newer
    obtain ⟨row, hgroups, hid, hrow⟩ := hgroups
    have hsame : ∀ o : Op, ServedWith s.store 1 o (s.store.serve o).2 := fun o => ⟨s.store, rfl, fun _ _ => Iff.rfl, rfl⟩
    have hfound := hsame (.isExists 1)
    have hrows := hsame (.selectGroups [1])
    have hfound' : (s.store.serve (.isExists 1)).2 = true := decide_eq_true (by rw [hmember]; nofun)
    have hrows' : (s.store.serve (.selectGroups [1])).2 = [row] := by
      change s.store.groups.filter (·.id ∈ [1]) = [row]
      rw [hgroups]
      simp [hid]
    rw [hfound'] at hfound
    rw [hrows'] at hrows
    have hnone := hends true hfound [row] hrows
    obtain ⟨id, name, avatar, creator, type, userCnt, version, status⟩ := row
    obtain rfl : id = 1 := hid
    obtain rfl : version = 1 := hrow
    obtain ⟨info', hin, -⟩ := hnone
    cases hin
  · rw [hcached] at hinfo'
    obtain rfl := Option.some.inj hinfo'
    have htwo := (hsame 2).2 (by rw [hmember]; decide)
    rw [hlist] at htwo
    exact absurd htwo (by decide)

end TeamTalk.DbProxy.Groups
