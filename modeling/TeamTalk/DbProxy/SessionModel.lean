import Mathlib.Data.List.Basic
import Mathlib.Tactic
import TeamTalk.Protocol.BaseDefine

/-!
# Sessions in db_proxy_server

The table `IMRecentSession`, the statements of `CSessionModel` on it, and what `DB_PROXY::sendMessage` does to it for a message
from one user to another. Master and slave are one store, and no storage call fails. A row keeps what is inserted: ids and times
are below 2^31, since `SetParam` binds them as signed numbers.
-/

namespace TeamTalk.DbProxy.Sessions

/-- A row of `IMRecentSession`. Its id is its place in the table. -/
structure Session where
  userId : Nat
  peerId : Nat
  type : Nat
  status : Nat
  created : Nat
  updated : Nat
  deriving DecidableEq, Repr

/-- The row is one of a user with a peer. -/
def Session.Of (row : Session) (userId peerId type : Nat) : Prop :=
  row.userId = userId ∧ row.peerId = peerId ∧ row.type = type

instance (row : Session) (userId peerId type : Nat) : Decidable (row.Of userId peerId type) :=
  inferInstanceAs (Decidable (_ ∧ _ ∧ _))

/-! ## `CSessionModel` -/

/-- `CSessionModel::getSessionId`: the last of the rows. -/
def getSessionId (rows : List Session) (userId peerId type : Nat) (isAll : Bool) : Option Nat :=
  ((List.range rows.length).filter fun id =>
    (rows[id]?).any fun row => row.Of userId peerId type && (isAll || row.status = 0)).getLast?

/-- `CSessionModel::updateSession`. No row has the invalid id. -/
def updateSession (rows : List Session) (id : Option Nat) (updated : Nat) : List Session :=
  match id with
  | some id => rows.modify id fun row => { row with updated }
  | none => rows

/-- `CSessionModel::removeSession`. -/
def removeSession (rows : List Session) (id now : Nat) : List Session :=
  rows.modify id fun row => { row with status := 1, updated := now }

/-- `CSessionModel::addSession`: the table, and the id. An update that changes nothing counts as failed. -/
def addSession (rows : List Session) (userId peerId type now : Nat) : List Session × Option Nat :=
  match getSessionId rows userId peerId type true with
  | some id =>
    let renewed := rows.modify id fun row => { row with status := 0, updated := now }
    (renewed, if renewed = rows then none else some id)
  | none =>
    (rows ++ [{ userId, peerId, type, status := 0, created := now, updated := now }], some rows.length)

/-! ## `sendMessage` -/

/-- What the other calls give: the relation of the two, the new message id, and what `addSession` sees on the clock. -/
structure SendEnv where
  relateId : Nat
  msgId : Nat
  senderNow : Nat
  peerNow : Nat

/-- The sender's side of `sendMessage`: a session that is not seen is added. -/
def senderSession (env : SendEnv) (rows : List Session) (fromId toId : Nat) : List Session × Option Nat :=
  match getSessionId rows fromId toId sessionTypeSingle false with
  | none => addSession rows fromId toId sessionTypeSingle env.senderNow
  | some id => (rows, some id)

/-- The receiver's side. The id of a session that is added goes where the sender's id was. -/
def peerSession (env : SendEnv) (rows : List Session) (fromId toId : Nat) (sessionId : Option Nat) :
    List Session × Option Nat :=
  match getSessionId rows toId fromId sessionTypeSingle false with
  | none => addSession rows toId fromId sessionTypeSingle env.peerNow
  | some _ => (rows, sessionId)

/-- Either branch of `sendMessage` for a message from one user to another: the table, and the message id that is answered. -/
def sendSingle (env : SendEnv) (rows : List Session) (fromId toId now : Nat) : List Session × Nat :=
  if fromId ≠ toId then
    let sender := senderSession env rows fromId toId
    let peerSessionId := getSessionId sender.1 toId fromId sessionTypeSingle false
    let peer := peerSession env sender.1 fromId toId sender.2
    if peer.2 ≠ none ∧ env.relateId ≠ 0 then
      if env.msgId ≠ 0 then (updateSession (updateSession peer.1 peer.2 now) peerSessionId now, env.msgId)
      else (peer.1, 0)
    else (peer.1, 0)
  else (rows, 0)

/-- The kinds of messages from one user to another. -/
inductive SingleType where
  | text
  | audio
  deriving DecidableEq, Repr

/-- `DB_PROXY::sendMessage`, for these: the table, and the message id that is answered. An empty message is not answered. -/
def sendMessage (env : SendEnv) (rows : List Session) (type : SingleType) (msgLen fromId toId now : Nat) :
    List Session × Option Nat :=
  if msgLen ≠ 0 then
    let (rows, msgId) :=
      match type with
      | .text => sendSingle env rows fromId toId now
      | .audio => sendSingle env rows fromId toId now
    (rows, some msgId)
  else (rows, none)

/-! ## Lookups -/

theorem getSessionId_some {rows : List Session} {userId peerId type id : Nat} {isAll : Bool}
    (h : getSessionId rows userId peerId type isAll = some id) :
    ∃ row, rows[id]? = some row ∧ row.Of userId peerId type ∧ (isAll = true ∨ row.status = 0) := by
  have hmem := List.mem_of_getLast? h
  obtain ⟨-, hany⟩ := List.mem_filter.1 hmem
  obtain ⟨row, hrow, hmatch⟩ := (Option.any_eq_true ..).1 hany
  simp only [Bool.and_eq_true, Bool.or_eq_true, decide_eq_true_eq] at hmatch
  exact ⟨row, hrow, hmatch.1, hmatch.2⟩

/-- A lookup that finds nothing: there is no such row. -/
theorem getSessionId_none {rows : List Session} {userId peerId type id : Nat} {isAll : Bool} {row : Session}
    (h : getSessionId rows userId peerId type isAll = none) (hrow : rows[id]? = some row) (hof : row.Of userId peerId type) :
    isAll = false ∧ row.status ≠ 0 := by
  have hlt : id < rows.length := (List.getElem?_eq_some_iff.1 hrow).1
  have hno := List.getLast?_eq_none_iff.1 h
  have hnot := List.filter_eq_nil_iff.1 hno id (List.mem_range.2 hlt)
  simp only [hrow, Option.any_some, hof, decide_true, Bool.true_and, Bool.or_eq_true, decide_eq_true_eq, not_or,
    Bool.not_eq_true] at hnot
  exact hnot

/-- Nothing is seen exactly when no row is visible. -/
theorem getSessionId_eq_none {rows : List Session} {userId peerId type : Nat} :
    getSessionId rows userId peerId type false = none ↔
      ∀ (id : Nat) (row : Session), rows[id]? = some row → row.Of userId peerId type → row.status ≠ 0 := by
  constructor
  · exact fun h id row hrow hof => (getSessionId_none h hrow hof).2
  · intro h
    cases hfound : getSessionId rows userId peerId type false with
    | none => rfl
    | some id =>
      obtain ⟨row, hrow, hof, hstatus⟩ := getSessionId_some hfound
      exact absurd (hstatus.resolve_left (by decide)) (h id row hrow hof)

/-! ## One row -/

/-- Two tables that differ in one row at most, which is a user's with a peer in both. -/
structure Differ (rows rows' : List Session) (id userId peerId type : Nat) : Prop where
  same : ∀ j, j ≠ id → rows'[j]? = rows[j]?
  before : ∀ row, rows[id]? = some row → row.Of userId peerId type
  after : ∃ row, rows'[id]? = some row ∧ row.Of userId peerId type

/-- A row of a user with a peer has this time. -/
def HasTime (rows : List Session) (userId peerId type updated : Nat) : Prop :=
  ∃ (id : Nat) (row : Session), rows[id]? = some row ∧ row.Of userId peerId type ∧ row.updated = updated

/-- Such a row other than the one with this id. -/
def HasOther (rows : List Session) (id : Option Nat) (userId peerId type updated : Nat) : Prop :=
  ∃ (j : Nat) (row : Session), rows[j]? = some row ∧ row.Of userId peerId type ∧ row.updated = updated ∧ id ≠ some j

/-- What is known of the rows of one user with one peer is kept by a change to those of others. -/
theorem Differ.row_iff {rows rows' : List Session} {id u p type u' p' : Nat} (h : Differ rows rows' id u p type)
    (hne : ¬(u' = u ∧ p' = p)) (j : Nat) (row : Session) :
    (rows'[j]? = some row ∧ row.Of u' p' type) ↔ (rows[j]? = some row ∧ row.Of u' p' type) := by
  by_cases hj : j = id
  · subst hj
    constructor
    · rintro ⟨hrow, hof⟩
      obtain ⟨row', hrow', hof'⟩ := h.after
      rw [hrow] at hrow'
      cases hrow'
      exact absurd ⟨hof.1.symm.trans hof'.1, hof.2.1.symm.trans hof'.2.1⟩ hne
    · rintro ⟨hrow, hof⟩
      have hof' := h.before row hrow
      exact absurd ⟨hof.1.symm.trans hof'.1, hof.2.1.symm.trans hof'.2.1⟩ hne
  · rw [h.same j hj]

theorem Differ.hasTime_iff {rows rows' : List Session} {id u p type u' p' : Nat} (h : Differ rows rows' id u p type)
    (hne : ¬(u' = u ∧ p' = p)) (t : Nat) : HasTime rows' u' p' type t ↔ HasTime rows u' p' type t := by
  refine exists_congr fun j => exists_congr fun row => ?_
  rw [← and_assoc, ← and_assoc, h.row_iff hne j row]

/-- Whether a user's session with one peer is seen is not changed by a change to the rows of others. -/
theorem Differ.unseen_iff {rows rows' : List Session} {id u p type u' p' : Nat} (h : Differ rows rows' id u p type)
    (hne : ¬(u' = u ∧ p' = p)) :
    getSessionId rows' u' p' type false = none ↔ getSessionId rows u' p' type false = none := by
  rw [getSessionId_eq_none, getSessionId_eq_none]
  refine forall_congr' fun j => forall_congr' fun row => ?_
  have hrow := h.row_iff hne j row
  constructor
  · exact fun hvisible hrow' hof => (fun h => hvisible h.1 h.2) (hrow.2 ⟨hrow', hof⟩)
  · exact fun hvisible hrow' hof => (fun h => hvisible h.1 h.2) (hrow.1 ⟨hrow', hof⟩)

end TeamTalk.DbProxy.Sessions
