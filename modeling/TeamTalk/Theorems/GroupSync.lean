import Mathlib
import TeamTalk.DbProxy.SessionModel
import TeamTalk.DbProxy.SyncCenter

/-!
# Group activity in the sessions

When a cycle of the sync thread brings every member's session up to the group's last chat, and no session's time goes back. The
new last-update time is taken after the query, and a time is written some steps after it was read.
-/

namespace TeamTalk.DbProxy.Sync

/-! ## The properties -/

/-- No session's time goes back. -/
def NotBack (rows rows' : List Row) : Prop :=
  ∀ (id : Nat) (row : Row), rows[id]? = some row → ∃ row' : Row, rows'[id]? = some row' ∧ row.updated ≤ row'.updated

/-- When a cycle is complete, every member's session has at least the last chat that the group had when the cycle started. -/
def Synced (G : Groups) (s : State) : Prop :=
  s.cycle = .waiting → ∀ row ∈ s.rows, row.group ∈ G.ids → row.user ∈ G.members row.group →
    s.started row.group ≤ row.updated

/-- What is claimed of a step. -/
def Keeps (G : Groups) (s : State) (_ : Event) (s' : State) : Prop := NotBack s.rows s'.rows ∧ Synced G s'

/-! ## The condition -/

/-- The member has no session with the group. -/
def NoSession (rows : List Row) (user group : Nat) : Prop := ∀ row ∈ rows, ¬(row.user = user ∧ row.group = group)

/-- The condition on a step of the sync thread. When the new last-update time is taken, every group that has had a message
since the query had it in this second. `addSession` inserts no second session. A time that was read some steps before is not
written over a later one of a message or of `addSession`, and a last chat not over a later one from before the start. -/
def SyncMeets (G : Groups) (s : State) : Prop :=
  match s.cycle with
  | .queried _ => ∀ g ∈ G.ids, s.lastChated g = s.started g ∨ s.lastChated g = s.now
  | .member group _ user (.write none _) _ _ => NoSession s.rows user group
  | .member _ _ _ (.write (some id) now) _ _ =>
    ∀ row, s.rows[id]? = some row → row.writer = .message ∨ row.writer = .add → row.updated ≤ now
  | .member _ update _ (.set id) _ _ => ∀ row, s.rows[id]? = some row → row.writer ≠ .sync → row.updated ≤ update
  | _ => True

/-- The condition on a step of a message. `addSession` inserts no second session. The time at which the message began, or at
which `addSession` looked at the clock, is not written over a later one that was set since the start. -/
def MessageMeets (s : State) (m : Msg) : Prop :=
  match m.stage with
  | .write none _ => NoSession s.rows m.user m.group
  | .write (some id) now => ∀ row, s.rows[id]? = some row → row.writer ≠ .earlier → row.updated ≤ now
  | .set id => ∀ row, s.rows[id]? = some row → row.writer ≠ .earlier → row.updated ≤ m.now
  | _ => True

/-- The condition on a step. -/
def SyncKeeps (G : Groups) (s : State) : Event → Prop
  | .sync => SyncMeets G s
  | .message i => ∀ m, s.msgs i = some m → MessageMeets s m
  | _ => True

/-! ## The rows are those of the sessions -/

/-- A row of this model and one of `IMRecentSession`, whose type is that of a group. -/
structure Shows (row : Row) (session : Sessions.Session) : Prop where
  user : session.userId = row.user
  group : session.peerId = row.group
  type : session.type = sessionTypeGroup
  status : session.status = row.status
  updated : session.updated = row.updated

/-- The two models of `getSessionId` find the same session. -/
theorem getSessionId_of_shows {rows : List Row} {sessions : List Sessions.Session} (h : List.Forall₂ Shows rows sessions)
    (user group : Nat) (isAll : Bool) :
    Sessions.getSessionId sessions user group sessionTypeGroup isAll = getSessionId rows user group isAll := by
  obtain ⟨hlength, hshows⟩ := List.forall₂_iff_get.1 h
  rw [Sessions.getSessionId, getSessionId, hlength]
  refine congrArg List.getLast? (List.filter_congr fun id hid => ?_)
  have hid' : id < sessions.length := List.mem_range.1 hid
  have hrow := hshows id (hlength ▸ hid') hid'
  rw [List.getElem?_eq_getElem hid', List.getElem?_eq_getElem (hlength ▸ hid'), Option.any_some, Option.any_some]
  simp only [List.get_eq_getElem] at hrow
  simp [Sessions.Session.Of, hrow.user, hrow.group, hrow.type, hrow.status, Bool.and_assoc]

/-- And the two of `addSession` leave the same sessions. -/
theorem addSession_shows {rows : List Row} {sessions : List Sessions.Session} (h : List.Forall₂ Shows rows sessions)
    (user group now : Nat) :
    List.Forall₂ Shows (addSession rows (getSessionId rows user group true) user group now).1
      (Sessions.addSession sessions user group sessionTypeGroup now).1 := by
  rw [Sessions.addSession, getSessionId_of_shows h]
  obtain ⟨hlength, hshows⟩ := List.forall₂_iff_get.1 h
  cases getSessionId rows user group true with
  | some id =>
    refine List.forall₂_iff_get.2 ⟨by simpa [addSession] using hlength, fun i hi hi' => ?_⟩
    simp only [addSession, List.length_modify] at hi hi'
    have hrow := hshows i hi hi'
    simp only [addSession, List.get_eq_getElem, List.getElem_modify] at hrow ⊢
    split
    · exact ⟨hrow.user, hrow.group, hrow.type, rfl, rfl⟩
    · exact hrow
  | none => exact List.rel_append h (.cons ⟨rfl, rfl, rfl, rfl, rfl⟩ .nil)

namespace GroupSyncAux

/-! ## The invariant -/

/-- The cycle has still to see to the session of a member. -/
def Pending (cycle : Cycle) (group user : Nat) : Prop :=
  match cycle with
  | .waiting => False
  | .queried changed => ∃ v, (group, v) ∈ changed
  | .groups changed => ∃ v, (group, v) ∈ changed
  | .member g _ u _ users changed => (group = g ∧ (user = u ∨ user ∈ users)) ∨ ∃ v, (group, v) ∈ changed

/-- What the cycle has read are last chats at its start. -/
def Reads (cycle : Cycle) (started : Nat → Nat) : Prop :=
  match cycle with
  | .waiting => True
  | .queried changed => ∀ p ∈ changed, p.2 = started p.1
  | .groups changed => ∀ p ∈ changed, p.2 = started p.1
  | .member g v _ _ _ changed => v = started g ∧ ∀ p ∈ changed, p.2 = started p.1

/-- An id that a lookup has given is that of a session of the member with the group. -/
def Found (rows : List Row) (user group : Nat) (found : Option Nat) : Prop :=
  ∀ id, found = some id → ∃ row, rows[id]? = some row ∧ row.user = user ∧ row.group = group

/-- What a thread holds: an id that is that of the session, and a time that `addSession` has read since `low`. -/
def StageOk (rows : List Row) (low now user group : Nat) : Stage → Prop
  | .find | .add => True
  | .clock found => Found rows user group found
  | .write found time => Found rows user group found ∧ low ≤ time ∧ time ≤ now
  | .chat id | .set id => Found rows user group (some id)

/-- What the sync thread holds. -/
def CycleOk (rows : List Row) (base : Nat) (started : Nat → Nat) (now : Nat) : Cycle → Prop
  | .member g _ u stage _ _ => StageOk rows (max base (started g)) now u g stage
  | _ => True

/-- The sessions: their times are past; what was there at the start is no later than the start; what the sync thread has set is
no later than the last chat at the start of the cycle; a member has one session with a group; it has the last chat that the
group had when the cycle started, or the cycle has still to see to it; and a member without a session is one of a group that
has had no message, or the cycle has still to see to it. -/
structure RowsOk (G : Groups) (base now : Nat) (started : Nat → Nat) (pending : Nat → Nat → Prop) (rows : List Row) : Prop where
  le_now : ∀ row ∈ rows, row.updated ≤ now
  earlier_le : ∀ row ∈ rows, row.writer = .earlier → row.updated ≤ base
  sync_le : ∀ row ∈ rows, row.writer = .sync → row.updated ≤ started row.group
  unique : ∀ (i j : Nat) (r r' : Row), rows[i]? = some r → rows[j]? = some r' → r.user = r'.user → r.group = r'.group → i = j
  reached : ∀ row ∈ rows, row.group ∈ G.ids → row.user ∈ G.members row.group →
    started row.group ≤ row.updated ∨ pending row.group row.user
  absent : ∀ g ∈ G.ids, ∀ u ∈ G.members g, NoSession rows u g → started g ≤ base ∨ pending g u

/-- What a message that is being handled holds. -/
structure MsgOk (G : Groups) (base now : Nat) (rows : List Row) (m : Msg) : Prop where
  group_mem : m.group ∈ G.ids
  user_mem : m.user ∈ G.members m.group
  base_le : base ≤ m.now
  le_now : m.now ≤ now
  stage : StageOk rows base now m.user m.group m.stage

/-- The invariant. A group whose last chat is another one than at the start of the cycle will be found by the next query. -/
structure Inv (G : Groups) (base : Nat) (s : State) : Prop where
  base_le : base ≤ s.now
  chated_le : ∀ g, s.lastChated g ≤ s.now
  stored_le : s.lastUpdateGroup ≤ s.now
  started_le : ∀ g, s.started g ≤ s.lastChated g
  known : ∀ g ∈ G.ids, s.lastChated g = s.started g ∨ s.lastUpdateGroup ≤ s.lastChated g
  rows : RowsOk G base s.now s.started (Pending s.cycle) s.rows
  reads : Reads s.cycle s.started
  cycle : CycleOk s.rows base s.started s.now s.cycle
  msgs : ∀ i m, s.msgs i = some m → MsgOk G base s.now s.rows m

theorem pending_nextMember (group update : Nat) (users : List Nat) (changed : List (Nat × Nat)) (g u : Nat) :
    Pending (nextMember group update users changed) g u ↔ (g = group ∧ u ∈ users) ∨ ∃ v, (g, v) ∈ changed := by
  cases users with
  | nil => simp [nextMember, Pending]
  | cons user users => simp [nextMember, Pending]

theorem reads_nextMember {group update : Nat} {users : List Nat} {changed : List (Nat × Nat)} {started : Nat → Nat}
    (hv : update = started group) (h : ∀ p ∈ changed, p.2 = started p.1) :
    Reads (nextMember group update users changed) started := by
  cases users with
  | nil => exact h
  | cons user users => exact ⟨hv, h⟩

theorem cycleOk_nextMember (rows : List Row) (base : Nat) (started : Nat → Nat) (now group update : Nat) (users : List Nat)
    (changed : List (Nat × Nat)) : CycleOk rows base started now (nextMember group update users changed) := by
  cases users with
  | nil => trivial
  | cons user users => trivial

theorem found_getSessionId (rows : List Row) (user group : Nat) (isAll : Bool) :
    Found rows user group (getSessionId rows user group isAll) :=
  fun _ h => getSessionId_some h

/-- What a thread holds stays so when the clock moves on. -/
theorem StageOk.tick {rows : List Row} {low now now' user group : Nat} {stage : Stage}
    (h : StageOk rows low now user group stage) (hnow : now ≤ now') : StageOk rows low now' user group stage := by
  cases stage with
  | write found time => exact ⟨h.1, h.2.1, h.2.2.trans hnow⟩
  | _ => exact h

/-! ## A write -/

section Write

variable {G : Groups} {base now id : Nat} {started : Nat → Nat} {pending pending' : Nat → Nat → Prop} {rows rows' : List Row}
  {row' : Row}

/-- A row that is there after a write was there before, or is the one that was written. -/
theorem mem_wrote (h : Wrote rows rows' id row') {row : Row} (hrow : row ∈ rows') :
    row = row' ∨ ∃ j, j ≠ id ∧ rows[j]? = some row ∧ rows'[j]? = some row := by
  obtain ⟨j, hj⟩ := List.mem_iff_getElem?.1 hrow
  by_cases hid : j = id
  · subst hid
    rw [h.written] at hj
    exact .inl (Option.some.inj hj).symm
  · exact .inr ⟨j, hid, by rw [← h.others j hid, hj], hj⟩

/-- A write that moves no time back moves none back. -/
theorem notBack_wrote (h : Wrote rows rows' id row') (hle : ∀ row, rows[id]? = some row → row.updated ≤ row'.updated) :
    NotBack rows rows' := by
  intro j row hrow
  by_cases hj : j = id
  · subst hj
    exact ⟨row', h.written, hle row hrow⟩
  · exact ⟨row, by rw [h.others j hj, hrow], Nat.le_refl _⟩

/-- An id stays that of the same session. -/
theorem found_wrote (h : Wrote rows rows' id row') {user group : Nat} {found : Option Nat} (hf : Found rows user group found) :
    Found rows' user group found := by
  intro k hk
  obtain ⟨row, hrow, hu, hg⟩ := hf k hk
  by_cases hid : k = id
  · subst hid
    obtain ⟨huser, hgroup⟩ := h.kept row hrow
    exact ⟨row', h.written, huser ▸ hu, hgroup ▸ hg⟩
  · exact ⟨row, by rw [h.others k hid, hrow], hu, hg⟩

theorem StageOk.wrote {low user group : Nat} {stage : Stage} (hs : StageOk rows low now user group stage)
    (h : Wrote rows rows' id row') : StageOk rows' low now user group stage := by
  cases stage with
  | find => trivial
  | add => trivial
  | clock found => exact found_wrote h hs
  | write found time => exact ⟨found_wrote h hs.1, hs.2⟩
  | chat k => exact found_wrote h hs
  | set k => exact found_wrote h hs

theorem CycleOk.wrote {cycle : Cycle} (hc : CycleOk rows base started now cycle) (h : Wrote rows rows' id row') :
    CycleOk rows' base started now cycle := by
  cases cycle with
  | member g v u stage users changed => exact StageOk.wrote hc h
  | _ => trivial

theorem MsgOk.wrote {m : Msg} (hm : MsgOk G base now rows m) (h : Wrote rows rows' id row') : MsgOk G base now rows' m :=
  ⟨hm.group_mem, hm.user_mem, hm.base_le, hm.le_now, hm.stage.wrote h⟩

/-- A member that has no session after a write had none before. -/
theorem noSession_wrote (h : Wrote rows rows' id row') {user group : Nat} (hno : NoSession rows' user group) :
    NoSession rows user group ∧ ¬(row'.user = user ∧ row'.group = group) := by
  refine ⟨?_, hno row' (List.mem_of_getElem? h.written)⟩
  rintro row hrow ⟨hu, hg⟩
  obtain ⟨j, hj⟩ := List.mem_iff_getElem?.1 hrow
  by_cases hid : j = id
  · subst hid
    obtain ⟨huser, hgroup⟩ := h.kept row hj
    exact hno row' (List.mem_of_getElem? h.written) ⟨huser ▸ hu, hgroup ▸ hg⟩
  · exact hno row (List.mem_of_getElem? ((h.others j hid).trans hj)) ⟨hu, hg⟩

/-- A write that moves no time back, and inserts no second session, keeps the sessions as they should be. -/
theorem RowsOk.wrote (h : RowsOk G base now started pending rows) (hw : Wrote rows rows' id row') (hnow : row'.updated ≤ now)
    (hearlier : row'.writer ≠ .earlier) (hsync : row'.writer = .sync → row'.updated ≤ started row'.group)
    (hle : ∀ row, rows[id]? = some row → row.updated ≤ row'.updated)
    (hnew : rows[id]? = none → NoSession rows row'.user row'.group ∧
      (started row'.group ≤ row'.updated ∨ pending' row'.group row'.user))
    (hpending : ∀ g u, pending g u → pending' g u ∨ (row'.group = g ∧ row'.user = u ∧ started g ≤ row'.updated)) :
    RowsOk G base now started pending' rows' := by
  refine ⟨?_, ?_, ?_, ?_, ?_, ?_⟩
  · intro row hrow
    rcases mem_wrote hw hrow with rfl | ⟨j, -, hj, -⟩
    · exact hnow
    · exact h.le_now row (List.mem_of_getElem? hj)
  · intro row hrow hwriter
    rcases mem_wrote hw hrow with rfl | ⟨j, -, hj, -⟩
    · exact absurd hwriter hearlier
    · exact h.earlier_le row (List.mem_of_getElem? hj) hwriter
  · intro row hrow hwriter
    rcases mem_wrote hw hrow with rfl | ⟨j, -, hj, -⟩
    · exact hsync hwriter
    · exact h.sync_le row (List.mem_of_getElem? hj) hwriter
  · -- another row for the same member and group would have been there before
    have hone : ∀ (j : Nat) (row : Row), j ≠ id → rows'[j]? = some row → row.user = row'.user → row.group = row'.group → False := by
      intro j row hj hrow hu hg
      rw [hw.others j hj] at hrow
      cases hold : rows[id]? with
      | none => exact (hnew hold).1 row (List.mem_of_getElem? hrow) ⟨hu, hg⟩
      | some old =>
        obtain ⟨hou, hog⟩ := hw.kept old hold
        exact hj (h.unique j id row old hrow hold (hu.trans hou.symm) (hg.trans hog.symm))
    intro i j r r' hi hj hu hg
    by_cases hii : i = id
    · by_cases hjj : j = id
      · rw [hii, hjj]
      · subst hii
        rw [hw.written] at hi
        cases hi
        exact (hone j r' hjj hj hu.symm hg.symm).elim
    · by_cases hjj : j = id
      · subst hjj
        rw [hw.written] at hj
        cases hj
        exact (hone i r hii hi hu hg).elim
      · rw [hw.others i hii] at hi
        rw [hw.others j hjj] at hj
        exact h.unique i j r r' hi hj hu hg
  · intro row hrow hids hmember
    rcases mem_wrote hw hrow with rfl | ⟨j, hj, hold, hnow⟩
    · cases hold : rows[id]? with
      | none => exact (hnew hold).2
      | some old =>
        obtain ⟨hou, hog⟩ := hw.kept old hold
        rcases h.reached old (List.mem_of_getElem? hold) (hog ▸ hids) (by rw [hou, hog]; exact hmember) with hreached | hp
        · rw [hog] at hreached
          exact .inl (Nat.le_trans hreached (hle old hold))
        · rw [hou, hog] at hp
          rcases hpending _ _ hp with hp | ⟨-, -, hp⟩
          · exact .inr hp
          · exact .inl hp
    · rcases h.reached row (List.mem_of_getElem? hold) hids hmember with hreached | hp
      · exact .inl hreached
      · rcases hpending _ _ hp with hp | ⟨hg, hu, -⟩
        · exact .inr hp
        · -- the member's session is the one that was written
          exfalso
          cases hid : rows[id]? with
          | none => exact (hnew hid).1 row (List.mem_of_getElem? hold) ⟨hu.symm, hg.symm⟩
          | some old =>
            obtain ⟨hou, hog⟩ := hw.kept old hid
            exact hj (h.unique j id row old hold hid (hu.symm.trans hou.symm) (hg.symm.trans hog.symm))
  · intro g hg u hu hno
    obtain ⟨hold, hother⟩ := noSession_wrote hw hno
    rcases h.absent g hg u hu hold with hbase | hp
    · exact .inl hbase
    · rcases hpending g u hp with hp | ⟨hg', hu', -⟩
      · exact .inr hp
      · exact absurd ⟨hu', hg'⟩ hother

/-- The time of a session is set. -/
theorem RowsOk.set (h : RowsOk G base now started pending rows) {user group time : Nat} (writer : Writer)
    (hf : Found rows user group (some id)) (hnow : time ≤ now) (hearlier : writer ≠ .earlier)
    (hsync : writer = .sync → time ≤ started group) (hle : ∀ row, rows[id]? = some row → row.updated ≤ time)
    (hpending : ∀ g u, pending g u → pending' g u ∨ (group = g ∧ user = u ∧ started g ≤ time)) :
    RowsOk G base now started pending' (updateSession rows id time writer) ∧
      NotBack rows (updateSession rows id time writer) ∧
      ∃ row', Wrote rows (updateSession rows id time writer) id row' := by
  obtain ⟨row, hrow, rfl, rfl⟩ := hf id rfl
  have hw : Wrote rows (updateSession rows id time writer) id { row with updated := time, writer := writer } :=
    wrote_modify hrow rfl rfl
  refine ⟨h.wrote hw hnow hearlier hsync hle ?_ hpending, notBack_wrote hw hle, _, hw⟩
  intro hnone
  rw [hrow] at hnone
  cases hnone

/-- `addSession` has written a session. -/
theorem RowsOk.added (h : RowsOk G base now started pending rows) {user group time : Nat} {found : Option Nat}
    (hf : Found rows user group found) (hnow : time ≤ now)
    (hle : ∀ k row, found = some k → rows[k]? = some row → row.updated ≤ time)
    (hnew : found = none → NoSession rows user group ∧ (started group ≤ time ∨ pending' group user))
    (hpending : ∀ g u, pending g u → pending' g u ∨ (group = g ∧ user = u ∧ started g ≤ time)) :
    RowsOk G base now started pending' (addSession rows found user group time).1 ∧
      NotBack rows (addSession rows found user group time).1 ∧
      ∃ row', Wrote rows (addSession rows found user group time).1 (addSession rows found user group time).2 row' ∧
        row'.user = user ∧ row'.group = group := by
  cases found with
  | none =>
    have hw := wrote_append rows { user, group, updated := time, status := 0, writer := .add }
    have hold : ∀ row, rows[rows.length]? = some row → row.updated ≤ time := by
      intro row hrow
      simp at hrow
    exact ⟨h.wrote hw hnow (by simp) (by simp) hold (fun _ => hnew rfl) hpending, notBack_wrote hw hold, _, hw, rfl, rfl⟩
  | some k =>
    obtain ⟨row, hrow, rfl, rfl⟩ := hf k rfl
    have hw : Wrote rows (addSession rows (some k) row.user row.group time).1 k
        { row with status := 0, updated := time, writer := .add } := wrote_modify hrow rfl rfl
    have hold : ∀ row, rows[k]? = some row → row.updated ≤ time := fun row hrow => hle k row rfl hrow
    refine ⟨h.wrote hw hnow (by simp) (by simp) hold ?_ hpending, notBack_wrote hw hold, _, hw, rfl, rfl⟩
    intro hnone
    rw [hrow] at hnone
    cases hnone

end Write

/-- What the sync thread holds stays so when the clock moves on. -/
theorem CycleOk.tick {rows : List Row} {base now now' : Nat} {started : Nat → Nat} {cycle : Cycle}
    (h : CycleOk rows base started now cycle) (hnow : now ≤ now') : CycleOk rows base started now' cycle := by
  cases cycle with
  | member g v u stage users changed => exact StageOk.tick h hnow
  | _ => trivial

/-- Nothing is written. -/
theorem notBack_refl (rows : List Row) : NotBack rows rows :=
  fun _ row h => ⟨row, h, Nat.le_refl _⟩

section Step

variable {G : Groups} {base : Nat} {s s' : State}

/-! ## A step of the sync thread -/

/-- The sessions stay as they should be when the cycle comes to something else, and what it has still to see to is the same. -/
theorem RowsOk.pending {now : Nat} {started : Nat → Nat} {pending pending' : Nat → Nat → Prop} {rows : List Row}
    (h : RowsOk G base now started pending rows)
    (hpending : ∀ g u, g ∈ G.ids → u ∈ G.members g → pending g u → pending' g u) :
    RowsOk G base now started pending' rows :=
  ⟨h.le_now, h.earlier_le, h.sync_le, h.unique,
    fun row hrow hg hu => (h.reached row hrow hg hu).imp_right (hpending _ _ hg hu),
    fun g hg u hu hno => (h.absent g hg u hu hno).imp_right (hpending g u hg hu)⟩

/-- Where the sync thread goes on, and writes nothing, the invariant stays. -/
theorem Inv.goOn (h : Inv G base s) {cycle : Cycle}
    (hpending : ∀ g u, g ∈ G.ids → u ∈ G.members g → Pending s.cycle g u → Pending cycle g u)
    (hreads : Reads cycle s.started) (hcycle : CycleOk s.rows base s.started s.now cycle) : Inv G base { s with cycle } :=
  ⟨h.base_le, h.chated_le, h.stored_le, h.started_le, h.known, h.rows.pending hpending, hreads, hcycle, h.msgs⟩

/-- The query: a group that it leaves out has the last chat that it had when the last cycle started, or none. -/
theorem inv_query (h : Inv G base s) (hcycle : s.cycle = .waiting) :
    Inv G base { s with cycle := .queried (changedGroups G s), started := s.lastChated } := by
  have hmem : ∀ g ∈ G.ids, (∃ v, (g, v) ∈ changedGroups G s) ∨ s.lastChated g < s.lastUpdateGroup ∨ s.lastChated g = 0 := by
    intro g hg
    by_cases hc : s.lastUpdateGroup ≤ s.lastChated g ∧ s.lastChated g ≠ 0
    · exact .inl ⟨s.lastChated g, List.mem_filterMap.2 ⟨g, hg, if_pos hc⟩⟩
    · exact .inr (by omega)
  -- what the last cycle has seen to is up to date for the groups that the query leaves out
  have hstill : ∀ g ∈ G.ids, (∃ v, (g, v) ∈ changedGroups G s) ∨ s.lastChated g = s.started g ∨ s.lastChated g = 0 := by
    intro g hg
    rcases hmem g hg with hm | hlt | hzero
    · exact .inl hm
    · rcases h.known g hg with heq | hle
      · exact .inr (.inl heq)
      · omega
    · exact .inr (.inr hzero)
  refine ⟨h.base_le, h.chated_le, h.stored_le, fun g => Nat.le_refl _, fun g _ => .inl rfl, ?_, ?_, trivial, h.msgs⟩
  · refine ⟨h.rows.le_now, h.rows.earlier_le, ?_, h.rows.unique, ?_, ?_⟩
    · intro row hrow hwriter
      exact (h.rows.sync_le row hrow hwriter).trans (h.started_le _)
    · intro row hrow hg hu
      rcases hstill row.group hg with hm | heq | hzero
      · exact .inr hm
      · rcases h.rows.reached row hrow hg hu with hreached | hp
        · exact .inl (heq.trans_le hreached)
        · rw [hcycle] at hp
          exact hp.elim
      · exact .inl (hzero.trans_le (Nat.zero_le _))
    · intro g hg u hu hno
      rcases hstill g hg with hm | heq | hzero
      · exact .inr hm
      · rcases h.rows.absent g hg u hu hno with hbase | hp
        · exact .inl (heq.trans_le hbase)
        · rw [hcycle] at hp
          exact hp.elim
      · exact .inl (hzero.trans_le (Nat.zero_le _))
  · intro p hp
    obtain ⟨g, -, hg⟩ := List.mem_filterMap.1 hp
    split at hg
    · cases hg
      rfl
    · cases hg

/-- The new last-update time: a group that has had a message since the query had it in this second. -/
theorem inv_stored (h : Inv G base s) {changed : List (Nat × Nat)} (hcycle : s.cycle = .queried changed)
    (hmeets : ∀ g ∈ G.ids, s.lastChated g = s.started g ∨ s.lastChated g = s.now) :
    Inv G base { s with cycle := .groups changed, lastUpdateGroup := s.now } := by
  refine ⟨h.base_le, h.chated_le, Nat.le_refl _, h.started_le, ?_, ?_, ?_, trivial, h.msgs⟩
  · intro g hg
    exact (hmeets g hg).imp_right Eq.ge
  · refine h.rows.pending fun g u _ _ hp => ?_
    rw [hcycle] at hp
    exact hp
  · have hreads := h.reads
    rw [hcycle] at hreads
    exact hreads

/-- What the sync thread has still to see to, when it has given a member's session the group's last chat. -/
theorem pending_done {group update user time : Nat} {stage : Stage} {users : List Nat} {changed : List (Nat × Nat)}
    {started : Nat → Nat} (hle : started group ≤ time) (g u : Nat)
    (h : Pending (.member group update user stage users changed) g u) :
    Pending (nextMember group update users changed) g u ∨ (group = g ∧ user = u ∧ started g ≤ time) := by
  rw [pending_nextMember]
  rcases h with ⟨rfl, rfl | hu⟩ | hv
  · exact .inr ⟨rfl, rfl, hle⟩
  · exact .inl (.inl ⟨rfl, hu⟩)
  · exact .inl (.inr hv)

/-- The sync thread has written a session, and goes on. -/
theorem Inv.wrote (h : Inv G base s) {rows' : List Row} {id : Nat} {row' : Row} {cycle : Cycle}
    (hw : Wrote s.rows rows' id row') (hrows : RowsOk G base s.now s.started (Pending cycle) rows')
    (hreads : Reads cycle s.started) (hcycle : CycleOk rows' base s.started s.now cycle) :
    Inv G base { s with rows := rows', cycle } :=
  ⟨h.base_le, h.chated_le, h.stored_le, h.started_le, h.known, hrows, hreads, hcycle, fun i m hm => (h.msgs i m hm).wrote hw⟩

theorem inv_sync (h : Inv G base s) (hmeets : SyncMeets G s) (hstep : syncStep G s = some s') :
    Inv G base s' ∧ NotBack s.rows s'.rows := by
  have hreads := h.reads
  have hok := h.cycle
  have hrows := h.rows
  unfold syncStep at hstep
  unfold SyncMeets at hmeets
  cases hcycle : s.cycle with
  | waiting =>
    simp only [hcycle] at hstep
    cases hstep
    exact ⟨inv_query h hcycle, notBack_refl _⟩
  | queried changed =>
    simp only [hcycle] at hstep hmeets
    cases hstep
    exact ⟨inv_stored h hcycle hmeets, notBack_refl _⟩
  | groups changed =>
    rw [hcycle] at hreads
    cases changed with
    | nil =>
      simp only [hcycle] at hstep
      cases hstep
      refine ⟨h.goOn (fun g u _ _ hp => ?_) trivial trivial, notBack_refl _⟩
      simp [hcycle, Pending] at hp
    | cons p changed =>
      obtain ⟨group, update⟩ := p
      simp only [hcycle] at hstep
      cases hstep
      refine ⟨h.goOn (fun g u _ hu hp => ?_) (reads_nextMember (hreads _ List.mem_cons_self) fun p hp =>
        hreads p (List.mem_cons_of_mem _ hp)) (cycleOk_nextMember ..), notBack_refl _⟩
      rw [hcycle] at hp
      rw [pending_nextMember]
      obtain ⟨v, hv⟩ := hp
      rcases List.mem_cons.1 hv with heq | hv
      · cases heq
        exact .inl ⟨rfl, hu⟩
      · exact .inr ⟨v, hv⟩
  | member group update user stage users changed =>
    rw [hcycle] at hreads hok hrows
    obtain ⟨hupdate, hchanged⟩ := hreads
    have hsame : ∀ stage' g u, g ∈ G.ids → u ∈ G.members g → Pending s.cycle g u →
        Pending (.member group update user stage' users changed) g u := by
      intro stage' g u _ _ hp
      rw [hcycle] at hp
      exact hp
    cases stage with
    | find =>
      simp only [hcycle] at hstep
      split at hstep
      · rename_i id hid
        cases hstep
        exact ⟨h.goOn (hsame _) ⟨hupdate, hchanged⟩ fun _ hk => getSessionId_some (hid.trans hk), notBack_refl _⟩
      · cases hstep
        exact ⟨h.goOn (hsame _) ⟨hupdate, hchanged⟩ trivial, notBack_refl _⟩
    | add =>
      simp only [hcycle] at hstep
      cases hstep
      exact ⟨h.goOn (hsame _) ⟨hupdate, hchanged⟩ (found_getSessionId s.rows user group true), notBack_refl _⟩
    | clock found =>
      simp only [hcycle] at hstep
      cases hstep
      refine ⟨h.goOn (hsame _) ⟨hupdate, hchanged⟩ ⟨hok, ?_, Nat.le_refl _⟩, notBack_refl _⟩
      exact max_le h.base_le ((h.started_le group).trans (h.chated_le group))
    | write found time =>
      simp only [hcycle] at hstep hmeets
      cases hstep
      obtain ⟨hfound, hlow, hnow⟩ := hok
      -- what is older than the cycle, or of the sync thread itself, is no later than the time that `addSession` has read
      have hle : ∀ k row, found = some k → s.rows[k]? = some row → row.updated ≤ time := by
        intro k row hk hrow
        have hmem := List.mem_of_getElem? hrow
        cases hwriter : row.writer with
        | earlier => exact (hrows.earlier_le row hmem hwriter).trans ((le_max_left ..).trans hlow)
        | sync =>
          obtain ⟨row', hrow', -, hg⟩ := hfound k hk
          rw [hrow] at hrow'
          cases hrow'
          exact (hg ▸ hrows.sync_le row hmem hwriter).trans ((le_max_right ..).trans hlow)
        | message =>
          subst hk
          exact hmeets row hrow (.inl hwriter)
        | add =>
          subst hk
          exact hmeets row hrow (.inr hwriter)
      have hnew : found = none → NoSession s.rows user group ∧
          (s.started group ≤ time ∨ Pending (nextMember group update users changed) group user) := by
        intro hnone
        subst hnone
        exact ⟨hmeets, .inl ((le_max_right ..).trans hlow)⟩
      obtain ⟨hrows', hback, row', hw, -, -⟩ := hrows.added hfound hnow hle hnew
        (pending_done ((le_max_right ..).trans hlow))
      exact ⟨h.wrote hw hrows' (reads_nextMember hupdate hchanged) (cycleOk_nextMember ..), hback⟩
    | chat id =>
      simp only [hcycle] at hstep
      cases hstep
    | set id =>
      simp only [hcycle] at hstep hmeets
      cases hstep
      subst hupdate
      have hle : ∀ row, s.rows[id]? = some row → row.updated ≤ s.started group := by
        intro row hrow
        by_cases hwriter : row.writer = .sync
        · obtain ⟨row', hrow', -, hg⟩ := hok id rfl
          rw [hrow] at hrow'
          cases hrow'
          exact hg ▸ hrows.sync_le row (List.mem_of_getElem? hrow) hwriter
        · exact hmeets row hrow hwriter
      obtain ⟨hrows', hback, row', hw⟩ := hrows.set .sync hok ((h.started_le group).trans (h.chated_le group)) (by simp)
        (fun _ => Nat.le_refl _) hle (pending_done (Nat.le_refl _))
      exact ⟨h.wrote hw hrows' (reads_nextMember rfl hchanged) (cycleOk_nextMember ..), hback⟩

/-! ## A step of a message -/

/-- What the messages that are being handled hold, when something becomes of one. -/
theorem msgs_setMsg {i : Nat} {m' : Option Msg} {now : Nat} {rows : List Row}
    (h : ∀ j m, s.msgs j = some m → MsgOk G base now rows m) (hm : ∀ m, m' = some m → MsgOk G base now rows m) (j : Nat) (m : Msg)
    (hj : (s.setMsg i m').msgs j = some m) : MsgOk G base now rows m := by
  simp only [State.setMsg] at hj
  split at hj
  · exact hm m hj
  · exact h j m hj

/-- A message comes to its next stage, or is done. -/
theorem Inv.setMsg (h : Inv G base s) (i : Nat) {m' : Option Msg} (hm : ∀ m, m' = some m → MsgOk G base s.now s.rows m) :
    Inv G base (s.setMsg i m') :=
  ⟨h.base_le, h.chated_le, h.stored_le, h.started_le, h.known, h.rows, h.reads, h.cycle, msgs_setMsg h.msgs hm⟩

/-- The same, when it has written a session. -/
theorem Inv.wroteMsg (h : Inv G base s) {rows' : List Row} {id : Nat} {row' : Row} (hw : Wrote s.rows rows' id row')
    (hrows : RowsOk G base s.now s.started (Pending s.cycle) rows') (i : Nat) {m' : Option Msg}
    (hm : ∀ m, m' = some m → MsgOk G base s.now rows' m) : Inv G base ({ s with rows := rows' }.setMsg i m') :=
  Inv.setMsg (s := { s with rows := rows' })
    ⟨h.base_le, h.chated_le, h.stored_le, h.started_le, h.known, hrows, h.reads, h.cycle.wrote hw,
      fun j m hj => (h.msgs j m hj).wrote hw⟩ i hm

/-- A message sets the last chat of its group: the group will be found by the next query. -/
theorem Inv.chated (h : Inv G base s) (group : Nat) :
    Inv G base { s with lastChated := fun g => if g = group then s.now else s.lastChated g } := by
  refine ⟨h.base_le, ?_, h.stored_le, ?_, ?_, h.rows, h.reads, h.cycle, h.msgs⟩
  · intro g
    dsimp only
    split
    · exact Nat.le_refl _
    · exact h.chated_le g
  · intro g
    dsimp only
    split
    · exact (h.started_le g).trans (h.chated_le g)
    · exact h.started_le g
  · intro g hg
    dsimp only
    split
    · exact .inr h.stored_le
    · exact h.known g hg

theorem inv_message (h : Inv G base s) {i : Nat} {m : Msg} (hm : s.msgs i = some m) (hmeets : MessageMeets s m) :
    Inv G base (messageStep s i m) ∧ NotBack s.rows (messageStep s i m).rows := by
  have hok := h.msgs i m hm
  have hnext : ∀ {rows : List Row} {stage : Stage}, StageOk rows base s.now m.user m.group stage →
      ∀ m', some { m with stage } = some m' → MsgOk G base s.now rows m' := by
    intro rows stage hstage m' heq
    cases heq
    exact ⟨hok.group_mem, hok.user_mem, hok.base_le, hok.le_now, hstage⟩
  have hstageOk := hok.stage
  unfold MessageMeets at hmeets
  unfold messageStep
  cases hstage : m.stage with
  | find =>
    dsimp only
    split
    · rename_i id hid
      exact ⟨h.setMsg i (hnext fun _ hk => getSessionId_some (hid.trans hk)), notBack_refl _⟩
    · exact ⟨h.setMsg i (hnext trivial), notBack_refl _⟩
  | add => exact ⟨h.setMsg i (hnext (found_getSessionId s.rows m.user m.group true)), notBack_refl _⟩
  | clock found =>
    rw [hstage] at hstageOk
    exact ⟨h.setMsg i (hnext ⟨hstageOk, h.base_le, Nat.le_refl _⟩), notBack_refl _⟩
  | write found time =>
    rw [hstage] at hstageOk
    simp only [hstage] at hmeets
    obtain ⟨hfound, hlow, hnow⟩ := hstageOk
    have hle : ∀ k row, found = some k → s.rows[k]? = some row → row.updated ≤ time := by
      intro k row hk hrow
      by_cases hwriter : row.writer = .earlier
      · exact (h.rows.earlier_le row (List.mem_of_getElem? hrow) hwriter).trans hlow
      · subst hk
        exact hmeets row hrow hwriter
    -- a member without a session is one of a group that has had no message, or the cycle has still to come to it
    have hnew : found = none → NoSession s.rows m.user m.group ∧
        (s.started m.group ≤ time ∨ Pending s.cycle m.group m.user) := by
      intro hnone
      subst hnone
      exact ⟨hmeets, (h.rows.absent m.group hok.group_mem m.user hok.user_mem hmeets).imp_left fun hb => hb.trans hlow⟩
    obtain ⟨hrows', hback, row', hw, hu, hg⟩ := h.rows.added hfound hnow hle hnew fun _ _ hp => .inl hp
    refine ⟨h.wroteMsg hw hrows' i (hnext ?_), hback⟩
    intro k hk
    cases hk
    exact ⟨row', hw.written, hu, hg⟩
  | chat id =>
    rw [hstage] at hstageOk
    exact ⟨(h.chated m.group).setMsg i (hnext hstageOk), notBack_refl _⟩
  | set id =>
    rw [hstage] at hstageOk
    simp only [hstage] at hmeets
    have hle : ∀ row, s.rows[id]? = some row → row.updated ≤ m.now := by
      intro row hrow
      by_cases hwriter : row.writer = .earlier
      · exact (h.rows.earlier_le row (List.mem_of_getElem? hrow) hwriter).trans hok.base_le
      · exact hmeets row hrow hwriter
    obtain ⟨hrows', hback, row', hw⟩ := h.rows.set .message hstageOk hok.le_now (by simp) (by simp) hle fun _ _ hp => .inl hp
    exact ⟨h.wroteMsg hw hrows' i (by simp), hback⟩

/-! ## A step -/

theorem inv_start (start : Start G) : Inv G start.now start.state := by
  have hstarted : ∀ g, start.state.started g ≤ start.lastChated g := by
    intro g
    simp only [Start.state]
    split
    · exact Nat.le_refl _
    · exact Nat.zero_le _
  refine ⟨Nat.le_refl _, start.lastChated_le, start.lastUpdateGroup_le, hstarted, ?_, ?_, trivial, trivial, by simp [Start.state]⟩
  · intro g _
    simp only [Start.state]
    split
    · exact .inl rfl
    · exact .inr (by omega)
  · refine ⟨start.updated_le, fun row hrow _ => start.updated_le row hrow, ?_, start.unique, ?_, ?_⟩
    · intro row hrow hwriter
      rw [start.earlier row hrow] at hwriter
      cases hwriter
    · intro row hrow hg hu
      simp only [Start.state]
      split
      · rename_i hlt
        exact .inl (start.covered row hrow hg hu hlt)
      · exact .inl (Nat.zero_le _)
    · intro g _ u _ _
      exact .inl ((hstarted g).trans (start.lastChated_le g))

/-- Every step that meets the condition keeps the invariant, and moves no time back. -/
theorem inv_step (h : Inv G base s) {e : Event} {out : List Unit} (hstep : step G s e = some (s', out))
    (hmeets : SyncKeeps G s e) : Inv G base s' ∧ NotBack s.rows s'.rows := by
  cases e with
  | tick now =>
    simp only [step] at hstep
    split at hstep
    · rename_i hle
      cases hstep
      refine ⟨⟨h.base_le.trans hle, fun g => (h.chated_le g).trans hle, h.stored_le.trans hle, h.started_le, h.known, ?_, h.reads,
        ?_, ?_⟩, notBack_refl _⟩
      · exact ⟨fun row hrow => (h.rows.le_now row hrow).trans hle, h.rows.earlier_le, h.rows.sync_le, h.rows.unique,
          h.rows.reached, h.rows.absent⟩
      · exact h.cycle.tick hle
      · intro i m hm
        have hok := h.msgs i m hm
        exact ⟨hok.group_mem, hok.user_mem, hok.base_le, hok.le_now.trans hle, hok.stage.tick hle⟩
    · cases hstep
  | send i user group =>
    simp only [step] at hstep
    split at hstep
    · rename_i hsend
      cases hstep
      refine ⟨h.setMsg i ?_, notBack_refl _⟩
      intro m hm
      cases hm
      exact ⟨hsend.2.1, hsend.2.2, h.base_le, Nat.le_refl _, trivial⟩
    · cases hstep
  | message i =>
    obtain ⟨m, hm, heq⟩ := Option.map_eq_some_iff.1 hstep
    cases heq
    exact inv_message h hm (hmeets m hm)
  | sync =>
    obtain ⟨s1, hs1, heq⟩ := Option.map_eq_some_iff.1 hstep
    cases heq
    exact inv_sync h hmeets hs1

/-- When no cycle is under way, every member's session has the last chat that the group had when the last one started. -/
theorem Inv.synced (h : Inv G base s) : Synced G s := by
  intro hcycle row hrow hg hu
  rcases h.rows.reached row hrow hg hu with hreached | hp
  · exact hreached
  · rw [hcycle] at hp
    exact hp.elim

end Step

end GroupSyncAux

open GroupSyncAux

/-! ## Every run -/

/-- In every run whose steps all meet the condition, no session's time goes back, and whenever a cycle is complete, every
member's session has the last chat that the group had when the cycle started. -/
theorem sync_keeps (G : Groups) (start : Start G) (es : List Event)
    (h : Machine.Along (step G) (fun s e _ => SyncKeeps G s e) start.state es) :
    Machine.Along (step G) (Keeps G) start.state es :=
  Machine.Along.of_invariant (I := Inv G start.now) (fun hinv hstep hmeets =>
    ⟨(inv_step hinv hstep hmeets).1, (inv_step hinv hstep hmeets).2, (inv_step hinv hstep hmeets).1.synced⟩) (inv_start start) h

/-! ### A group of two -/

/-- Users 1 and 2 are in group 7. -/
def oneGroup : Groups where
  ids := [7]
  members := fun _ => [1, 2]
  sorted := by simp

/-- The group's last chat was at 5, and both have seen it. -/
def seen : Start oneGroup where
  now := 10
  lastUpdateGroup := 10
  lastChated := fun _ => 5
  rows := [⟨1, 7, 5, 0, .earlier⟩, ⟨2, 7, 5, 0, .earlier⟩]
  lastUpdateGroup_le := by decide
  lastChated_le := by simp
  updated_le := by decide
  earlier := by decide
  unique := by
    intro i j r r' hi hj hu hg
    rcases i with _ | _ | i <;> rcases j with _ | _ | j <;> simp at hi hj <;> subst hi <;> subst hj <;> simp at hu ⊢
  covered := by simp

/-- A message after a cycle, and the next cycle. -/
theorem sync_keeps_seen : Machine.Along (step oneGroup) (Keeps oneGroup) seen.state
    [.sync, .sync, .sync, .send 0 1 7, .message 0, .message 0, .message 0, .sync, .sync, .sync, .sync, .sync, .sync, .sync, .sync] := by
  refine sync_keeps oneGroup seen _
    ⟨trivial, ?_, trivial, trivial, ?_, ?_, ?_, trivial, ?_, trivial, trivial, ?_, trivial, ?_, trivial, trivial⟩
  · intro g _
    exact .inl rfl
  · intro m hm
    cases hm
    trivial
  · intro m hm
    cases hm
    trivial
  · intro m hm
    cases hm
    intro row hrow hwriter
    cases hrow
    exact absurd rfl hwriter
  · intro g _
    exact .inl rfl
  · intro row hrow _
    cases hrow
    decide
  · intro row hrow _
    cases hrow
    decide

/-- User 1 writes to the group at 10, between the query and the moment, at 11, at which the new last-update time is taken. The
next cycle leaves the group out: user 2's session stays as it was. -/
theorem not_sync_keeps : ¬∀ (G : Groups) (start : Start G) (es : List Event),
    Machine.Along (step G) (Keeps G) start.state es := by
  intro h
  have hrun := h oneGroup seen
    [.sync, .send 0 1 7, .message 0, .message 0, .message 0, .tick 11, .sync, .sync, .sync, .sync, .sync]
  have hsynced := hrun.2.2.2.2.2.2.2.2.2.2.1.2 rfl ⟨2, 7, 5, 0, .earlier⟩ (by decide) (by decide) (by decide)
  exact absurd hsynced (by decide)

end TeamTalk.DbProxy.Sync
