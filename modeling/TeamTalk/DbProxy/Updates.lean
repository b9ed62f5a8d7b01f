import TeamTalk.DbProxy.SessionModel
import TeamTalk.DbProxy.Statements
import TeamTalk.Lib.SqlStatement

/-!
# Updates of one row

`CDBConn::ExecuteUpdate`, and the calls that set columns of a row by its id and report whether that was done: the sign info and the
push shield of a user, and the revival of a session and of a relation. MySQL counts the rows that an update has changed. A table does
what its statements say. A connection is there; the caches that are told of a success are left out.
-/

namespace TeamTalk.DbProxy.Updates

open Sessions (Session)

/-! ## Tables -/

/-- A table by its primary key. Ids begin at 1, and those from `nextId` on have not been given. -/
structure Table (Row : Type) where
  row : Nat → Option Row
  nextId : Nat
  zero : row 0 = none
  fresh : ∀ id, nextId ≤ id → row id = none
  positive : 0 < nextId

namespace Table

variable {Row : Type}

/-- Change the row with an id, if there is one. -/
def modify (t : Table Row) (id : Nat) (f : Row → Row) : Table Row where
  row := fun id' => if id' = id then (t.row id').map f else t.row id'
  nextId := t.nextId
  zero := by simp [t.zero]
  fresh := by
    intro id' hid
    simp [t.fresh id' hid]
  positive := t.positive

/-- One more row. -/
def insert (t : Table Row) (row : Row) : Table Row where
  row := fun id => if id = t.nextId then some row else t.row id
  nextId := t.nextId + 1
  zero := by
    have := t.positive
    simp [t.zero]
    omega
  fresh := by
    intro id hid
    simp [show id ≠ t.nextId by omega, t.fresh id (by omega)]
  positive := Nat.succ_pos _

/-- The ids of the rows that a selection finds. -/
def select (t : Table Row) (p : Row → Bool) : List Nat := (List.range t.nextId).filter fun id => (t.row id).any p

end Table

/-- The name of a table, and what an assignment does to a row. There is nothing for a column that is not known here, and for a value
that is not one of the column. -/
structure Schema (Row : Type) where
  name : Text
  assign : Row → Text → Text → Option Row

/-- The assignments of a statement, one after the other. -/
def Schema.assignAll {Row : Type} (S : Schema Row) (row : Row) (assignments : List (Text × Text)) : Option Row :=
  assignments.foldlM (fun row p => S.assign row p.1 p.2) row

/-- The value of a column of numbers. -/
def number (value : Text) : Option Nat := if value.all Char.isDigit then some (Nat.ofDigitChars 10 value 0) else none

/-! ## `ExecuteUpdate` -/

section ExecuteUpdate

variable {Row : Type} [DecidableEq Row] (S : Schema Row)

/-- `mysql_real_query` and `mysql_affected_rows`, of an update. A statement that does not set columns of a row by its id fails. -/
def query (t : Table Row) (sql : Text) : Option (Table Row × Nat) :=
  match Sql.parseUpdate (Statements.Statement.query sql).tokens with
  | none => none
  | some update =>
    if update.table = S.name ∧ update.column = "id".toList ∧ update.value.all Char.isDigit then
      let id := Nat.ofDigitChars 10 update.value 0
      match t.row id with
      | none => some (t, 0)
      | some row =>
        match S.assignAll row update.assignments with
        | none => none
        | some row' => some (t.modify id fun _ => row', if row' = row then 0 else 1)
    else none

/-- `CDBConn::ExecuteUpdate`. -/
def executeUpdate (t : Table Row) (sql : Text) : Table Row × Bool :=
  match query S t sql with
  | none => (t, false)
  | some (t', affectedRows) => (t', 0 < affectedRows)

end ExecuteUpdate

/-! ## Users -/

/-- A row of `IMUser`, with the columns that are set here. -/
structure User where
  signInfo : Text
  pushShieldStatus : Nat
  updated : Nat
  deriving DecidableEq, Repr

/-- An assignment to a column. -/
def User.assign (row : User) (column value : Text) : Option User :=
  if column = "sign_info".toList then some { row with signInfo := value }
  else if column = "push_shield_status".toList then (number value).map fun n => { row with pushShieldStatus := n }
  else if column = "updated".toList then (number value).map fun n => { row with updated := n }
  else none

/-- `IMUser`. -/
def users : Schema User := { name := "IMUser".toList, assign := User.assign }

/-- `CUserModel::updateUserSignInfo`. -/
def updateUserSignInfo (t : Table User) (userId : Nat) (signInfo : Text) (now : Nat) : Table User × Bool :=
  match Statements.updateUserSignInfo userId now signInfo with
  | none => (t, false)
  | some sql => executeUpdate users t sql

/-- `CUserModel::updatePushShield`. -/
def updatePushShield (t : Table User) (userId shieldStatus now : Nat) : Table User × Bool :=
  executeUpdate users t ("update IMUser set `push_shield_status`=".toList ++ int2string shieldStatus ++ ", `updated`=".toList ++
    int2string now ++ " where id=".toList ++ int2string userId)

/-! ## Sessions -/

/-- An assignment to a column. -/
def assignSession (row : Session) (column value : Text) : Option Session :=
  if column = "status".toList then (number value).map fun n => { row with status := n }
  else if column = "updated".toList then (number value).map fun n => { row with updated := n }
  else none

/-- `IMRecentSession`. -/
def recentSessions : Schema Session := { name := "IMRecentSession".toList, assign := assignSession }

/-- `CSessionModel::getSessionId`: the last of the rows, or `INVALID_VALUE`. -/
def getSessionId (slave : Table Session) (userId peerId type : Nat) (isAll : Bool) : Nat :=
  (slave.select fun row => row.Of userId peerId type && (isAll || row.status = 0)).getLast?.getD 0

/-- `CSessionModel::addSession`. -/
def addSession (slave master : Table Session) (userId peerId type now : Nat) : Table Session × Nat :=
  let sessionId := getSessionId slave userId peerId type true
  if sessionId ≠ 0 then
    let (master, ret) := executeUpdate recentSessions master ("update IMRecentSession set status=0, updated=".toList ++
      int2string now ++ " where id=".toList ++ int2string sessionId)
    (master, if !ret then 0 else sessionId)
  else (master.insert { userId, peerId, type, status := 0, created := now, updated := now }, master.nextId)

/-! ## Relations -/

/-- A row of `IMRelationShip`. -/
structure Relation where
  smallId : Nat
  bigId : Nat
  status : Nat
  created : Nat
  updated : Nat
  deriving DecidableEq, Repr

/-- An assignment to a column. -/
def Relation.assign (row : Relation) (column value : Text) : Option Relation :=
  if column = "status".toList then (number value).map fun n => { row with status := n }
  else if column = "updated".toList then (number value).map fun n => { row with updated := n }
  else none

/-- `IMRelationShip`. -/
def relations : Schema Relation := { name := "IMRelationShip".toList, assign := Relation.assign }

/-- The row that `addRelation` finds: the first one. -/
def findRelation (master : Table Relation) (smallId bigId : Nat) : Option Nat :=
  (master.select fun row => row.smallId = smallId && row.bigId = bigId).head?

/-- `CRelationModel::addRelation`. -/
def addRelation (master : Table Relation) (smallId bigId now : Nat) : Table Relation × Nat :=
  match findRelation master smallId bigId with
  | some relationId =>
    let (master, ret) := executeUpdate relations master ("update IMRelationShip set status=0, updated=".toList ++ int2string now ++
      " where id=".toList ++ int2string relationId)
    (master, if !ret then 0 else relationId)
  | none => (master.insert { smallId, bigId, status := 0, created := now, updated := now }, master.nextId)

end TeamTalk.DbProxy.Updates
