import Mathlib
import TeamTalk.Lib.Machine

/-!
# The sync thread of db_proxy_server

`CSyncCenter::doSyncGroupChat` brings the sessions of a group's members up to the group's last chat, cycle after cycle, while
other threads handle group messages (`DB_PROXY::sendMessage`). A step is one statement on the database, or one look at the
clock: a message looks when it begins, and `addSession` between its lookup and its statement. Master and slave are one store,
and every statement succeeds.
-/

namespace TeamTalk.DbProxy.Sync

/-- Who has set the time of a session last: whoever was there before, the sync thread, a message, or `addSession`. -/
inductive Writer where
  | earlier | sync | message | add
  deriving DecidableEq, Repr

/-- A row of `IMRecentSession` whose type is that of a group; its id is its place in the table. -/
structure Row where
  user : Nat
  group : Nat
  updated : Nat
  status : Nat
  writer : Writer
  deriving DecidableEq, Repr

/-! ## `CSessionModel` -/

/-- `CSessionModel::getSessionId`: the last of the rows. -/
def getSessionId (rows : List Row) (user group : Nat) (isAll : Bool) : Option Nat :=
  ((List.range rows.length).filter fun id =>
    (rows[id]?).any fun row => row.user = user && row.group = group && (isAll || row.status = 0)).getLast?

/-- `CSessionModel::updateSession`. -/
def updateSession (rows : List Row) (id updated : Nat) (writer : Writer) : List Row :=
  rows.modify id fun row => { row with updated, writer }

/-- The statement of `CSessionModel::addSession`, by what its lookup has found: the table, and the id. -/
def addSession (rows : List Row) (found : Option Nat) (user group now : Nat) : List Row × Nat :=
  match found with
  | some id => (rows.modify id fun row => { row with status := 0, updated := now, writer := .add }, id)
  | none => (rows ++ [{ user, group, updated := now, status := 0, writer := .add }], rows.length)

/-! ## Threads -/

/-- What is done next for a session: it is looked up; `addSession` looks it up, looks at the clock, and writes it; the message
sets the group's last chat; the session's time is set. -/
inductive Stage where
  | find
  | add
  | clock (found : Option Nat)
  | write (found : Option Nat) (now : Nat)
  | chat (id : Nat)
  | set (id : Nat)
  deriving DecidableEq, Repr

/-- A group message that is being handled, and `nNow`. -/
structure Msg where
  user : Nat
  group : Nat
  now : Nat
  stage : Stage
  deriving DecidableEq, Repr

/-- Where the sync thread is: it waits; it has asked for `mapChangedGroup`; it has stored the new last-update time, and goes
through the groups; or through the members of one. -/
inductive Cycle where
  | waiting
  | queried (changed : List (Nat × Nat))
  | groups (changed : List (Nat × Nat))
  | member (group update user : Nat) (stage : Stage) (users : List Nat) (changed : List (Nat × Nat))
  deriving DecidableEq, Repr

/-- The groups, in the order of their ids, and their members. -/
structure Groups where
  ids : List Nat
  members : Nat → List Nat
  sorted : ids.Pairwise (· < ·)

/-- The state, and for each group the last chat that it had when the last cycle started. -/
structure State where
  now : Nat
  lastUpdateGroup : Nat
  lastChated : Nat → Nat
  rows : List Row
  cycle : Cycle
  msgs : Nat → Option Msg
  started : Nat → Nat

/-- The next member, or the next group. -/
def nextMember (group update : Nat) (users : List Nat) (changed : List (Nat × Nat)) : Cycle :=
  match users with
  | [] => .groups changed
  | user :: users => .member group update user .find users changed

/-- What the query gives: `mapChangedGroup`. -/
def changedGroups (G : Groups) (s : State) : List (Nat × Nat) :=
  G.ids.filterMap fun g =>
    if s.lastUpdateGroup ≤ s.lastChated g ∧ s.lastChated g ≠ 0 then some (g, s.lastChated g) else none

/-- A step of `doSyncGroupChat`. -/
def syncStep (G : Groups) (s : State) : Option State :=
  match s.cycle with
  | .waiting => some { s with cycle := .queried (changedGroups G s), started := s.lastChated }
  | .queried changed => some { s with cycle := .groups changed, lastUpdateGroup := s.now }
  | .groups [] => some { s with cycle := .waiting }
  | .groups ((group, update) :: changed) =>
    some { s with cycle := nextMember group update (G.members group) changed }
  | .member group update user stage users changed =>
    match stage with
    | .find =>
      match getSessionId s.rows user group true with
      | some id => some { s with cycle := .member group update user (.set id) users changed }
      | none => some { s with cycle := .member group update user .add users changed }
    | .add =>
      some { s with cycle := .member group update user (.clock (getSessionId s.rows user group true)) users changed }
    | .clock found => some { s with cycle := .member group update user (.write found s.now) users changed }
    | .write found now =>
      some { s with
        rows := (addSession s.rows found user group now).1
        cycle := nextMember group update users changed }
    | .set id =>
      some { s with
        rows := updateSession s.rows id update .sync
        cycle := nextMember group update users changed }
    | .chat _ => none

/-- What becomes of a message. -/
def State.setMsg (s : State) (i : Nat) (m : Option Msg) : State :=
  { s with msgs := fun j => if j = i then m else s.msgs j }

/-- A step of `sendMessage`. -/
def messageStep (s : State) (i : Nat) (m : Msg) : State :=
  match m.stage with
  | .find =>
    match getSessionId s.rows m.user m.group false with
    | some id => s.setMsg i (some { m with stage := .chat id })
    | none => s.setMsg i (some { m with stage := .add })
  | .add => s.setMsg i (some { m with stage := .clock (getSessionId s.rows m.user m.group true) })
  | .clock found => s.setMsg i (some { m with stage := .write found s.now })
  | .write found now =>
    let added := addSession s.rows found m.user m.group now
    { s with rows := added.1 }.setMsg i (some { m with stage := .chat added.2 })
  | .chat id =>
    { s with lastChated := fun g => if g = m.group then s.now else s.lastChated g }.setMsg i
      (some { m with stage := .set id })
  | .set id => { s with rows := updateSession s.rows id m.now .message }.setMsg i none

/-- What can happen: the clock moves on, a member's message begins, it takes a step, the sync thread takes a step. -/
inductive Event where
  | tick (now : Nat)
  | send (i user group : Nat)
  | message (i : Nat)
  | sync
  deriving DecidableEq, Repr

def step (G : Groups) (s : State) : Event → Option (State × List Unit)
  | .tick now => if s.now ≤ now then some ({ s with now }, []) else none
  | .send i user group =>
    if s.msgs i = none ∧ group ∈ G.ids ∧ user ∈ G.members group then
      some (s.setMsg i (some { user, group, now := s.now, stage := .find }), [])
    else none
  | .message i => (s.msgs i).map fun m => (messageStep s i m, [])
  | .sync => (syncStep G s).map fun s' => (s', [])

/-- What db_proxy_server starts with: every time is past, a member has one session with a group at most, and the members of
the groups that the first query leaves out are up to date. -/
structure Start (G : Groups) where
  now : Nat
  lastUpdateGroup : Nat
  lastChated : Nat → Nat
  rows : List Row
  lastUpdateGroup_le : lastUpdateGroup ≤ now
  lastChated_le : ∀ g, lastChated g ≤ now
  updated_le : ∀ row ∈ rows, row.updated ≤ now
  earlier : ∀ row ∈ rows, row.writer = .earlier
  unique : ∀ (i j : Nat) (r r' : Row), rows[i]? = some r → rows[j]? = some r' → r.user = r'.user → r.group = r'.group → i = j
  covered : ∀ row ∈ rows, row.group ∈ G.ids → row.user ∈ G.members row.group →
    lastChated row.group < lastUpdateGroup → lastChated row.group ≤ row.updated

/-- The state at the start. No cycle has started yet. -/
def Start.state {G : Groups} (start : Start G) : State where
  now := start.now
  lastUpdateGroup := start.lastUpdateGroup
  lastChated := start.lastChated
  rows := start.rows
  cycle := .waiting
  msgs := fun _ => none
  started := fun g => if start.lastChated g < start.lastUpdateGroup then start.lastChated g else 0

/-! ## Sessions -/

theorem getSessionId_some {rows : List Row} {user group id : Nat} {isAll : Bool}
    (h : getSessionId rows user group isAll = some id) :
    ∃ row, rows[id]? = some row ∧ row.user = user ∧ row.group = group := by
  have hmem := List.mem_of_getLast? h
  obtain ⟨-, hany⟩ := List.mem_filter.1 hmem
  obtain ⟨row, hrow, hmatch⟩ := (Option.any_eq_true ..).1 hany
  simp only [Bool.and_eq_true, decide_eq_true_eq] at hmatch
  exact ⟨row, hrow, hmatch.1.1, hmatch.1.2⟩

/-- A row was written: the row of an id, which keeps its user and its group, or a new one. -/
structure Wrote (rows rows' : List Row) (id : Nat) (row' : Row) : Prop where
  written : rows'[id]? = some row'
  others : ∀ j, j ≠ id → rows'[j]? = rows[j]?
  kept : ∀ row, rows[id]? = some row → row.user = row'.user ∧ row.group = row'.group

theorem wrote_modify {rows : List Row} {id : Nat} {row : Row} (h : rows[id]? = some row) {f : Row → Row}
    (huser : (f row).user = row.user) (hgroup : (f row).group = row.group) : Wrote rows (rows.modify id f) id (f row) where
  written := by simp [h]
  others j hj := by simp [Ne.symm hj]
  kept row' h' := by
    rw [h] at h'
    cases h'
    exact ⟨huser.symm, hgroup.symm⟩

theorem wrote_append (rows : List Row) (row : Row) : Wrote rows (rows ++ [row]) rows.length row where
  written := by simp
  others j hj := by
    rcases Nat.lt_or_gt_of_ne hj with hlt | hgt
    · exact List.getElem?_append_left hlt
    · rw [List.getElem?_eq_none (by rw [List.length_append, List.length_singleton]; omega),
        List.getElem?_eq_none (Nat.le_of_lt hgt)]
  kept row' h' := by simp at h'

end TeamTalk.DbProxy.Sync
