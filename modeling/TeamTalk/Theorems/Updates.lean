import TeamTalk.DbProxy.Updates
import TeamTalk.Theorems.Statements

/-!
# What an update reports

`ExecuteUpdate` succeeds when MySQL has changed a row. A row that holds the values already, the time of the update among them, is not
changed, so the same request in the same second is answered with a failure.
-/

namespace TeamTalk.DbProxy.Updates

open Sessions (Session)

/-! ## The property -/

/-- Success is reported exactly when the row is there and holds the value afterwards. -/
def Reports {Row : Type} (success : Prop) (t : Table Row) (id : Nat) (holds : Row → Prop) : Prop :=
  success ↔ ∃ row, t.row id = some row ∧ holds row

/-- `updateUserSignInfo` reports whether the sign info is stored. -/
def SignInfoReports (t : Table User) (userId : Nat) (signInfo : Text) (now : Nat) : Prop :=
  Reports ((updateUserSignInfo t userId signInfo now).2 = true) (updateUserSignInfo t userId signInfo now).1 userId
    fun row => row.signInfo = signInfo

/-- `updatePushShield` reports whether the status is stored. -/
def PushShieldReports (t : Table User) (userId shieldStatus now : Nat) : Prop :=
  Reports ((updatePushShield t userId shieldStatus now).2 = true) (updatePushShield t userId shieldStatus now).1 userId
    fun row => row.pushShieldStatus = shieldStatus

/-- `addSession` gives a valid id exactly when the session that it has found is in use. -/
def SessionReports (slave master : Table Session) (userId peerId type now : Nat) : Prop :=
  ∀ id, id ≠ 0 → getSessionId slave userId peerId type true = id →
    Reports ((addSession slave master userId peerId type now).2 ≠ 0) (addSession slave master userId peerId type now).1 id
      fun row => row.status = 0

/-- `addRelation` gives a valid id exactly when the relation that it has found is in use. -/
def RelationReports (master : Table Relation) (smallId bigId now : Nat) : Prop :=
  ∀ id, findRelation master smallId bigId = some id →
    Reports ((addRelation master smallId bigId now).2 ≠ 0) (addRelation master smallId bigId now).1 id fun row => row.status = 0

/-! ## The condition -/

/-- A row that is there differs from what it is set to: in the value, or in the time. -/
def Differs {Row : Type} (t : Table Row) (id : Nat) (same : Row → Prop) : Prop := ∀ row, t.row id = some row → ¬same row

namespace UpdatesAux

open Statements StatementsAux TokensAux

/-! ## The statements -/

/-- The end of each statement. -/
def whereTokens (id : Nat) : List Sql.Token :=
  [.word "where".toList, .word "id".toList, .symbol '=', .word (int2string id)]

/-- The tokens of the condition on the id. -/
theorem lex_where (id : Nat) : Sql.lex (" where id=".toList ++ int2string id) = whereTokens id := by
  have hrun : Sql.run .between " where id=".toList = (.between, [.word "where".toList, .word "id".toList, .symbol '=']) := by
    decide
  rw [Sql.lex, Sql.lexFrom_append, hrun]
  dsimp only
  rw [Sql.lexFrom_number (fun _ hc => isDigit_int2string hc) Nat.toDigits_ne_nil]
  rfl

/-- A number, and the end of a statement. -/
theorem lex_number_where (n id : Nat) :
    Sql.lex (int2string n ++ (" where id=".toList ++ int2string id)) = .word (int2string n) :: whereTokens id := by
  rw [← lex_where id]
  exact Sql.lex_number_append (s := "where id=".toList ++ int2string id) (fun _ hc => isDigit_int2string hc) Nat.toDigits_ne_nil
    (c := ' ') (by decide)

/-- It has no NUL. -/
theorem noNul_where (id : Nat) : '\x00' ∉ " where id=".toList ++ int2string id := by
  intro h
  rcases List.mem_append.1 h with h | h
  · exact absurd h (by decide)
  · exact noNul_int2string id h

/-- A statement that ends with a number and the condition. -/
theorem tokens_eq {front : Text} {tokens : List Sql.Token} (hnul : '\x00' ∉ front) (hrun : Sql.run .between front = (.between, tokens))
    (n id : Nat) :
    (Statement.query (front ++ int2string n ++ " where id=".toList ++ int2string id)).tokens =
      tokens ++ .word (int2string n) :: whereTokens id := by
  have hall : '\x00' ∉ front ++ (int2string n ++ (" where id=".toList ++ int2string id)) := by
    intro h
    rcases List.mem_append.1 h with h | h
    · exact hnul h
    · rcases List.mem_append.1 h with h | h
      · exact noNul_int2string n h
      · exact noNul_where id h
  rw [Statement.tokens, List.append_assoc, List.append_assoc, cStr_eq hall, Sql.lex, Sql.lexFrom_append, hrun]
  exact congrArg (tokens ++ ·) (lex_number_where n id)

/-- A numeral is a value. -/
theorem item?_int2string (n : Nat) : (Sql.Token.word (int2string n)).item? = some (int2string n) :=
  Sql.item?_number fun _ hc => isDigit_int2string hc

/-- And reads back as its number. -/
theorem number_int2string (n : Nat) : number (int2string n) = some n := by
  have hall : (int2string n).all Char.isDigit = true := List.all_eq_true.2 fun _ hc => isDigit_int2string hc
  rw [number, if_pos hall, int2string, Nat.ofDigitChars_ten_toDigits]

/-- The statement of `updateUserSignInfo`, with a text that stands for itself. -/
theorem parse_signInfo (userId now : Nat) {signInfo : Text} (h : Safe signInfo) :
    Sql.parseUpdate (Statement.query ((signInfoTemplate userId now).fill signInfo)).tokens =
      some { table := users.name, assignments := [("sign_info".toList, signInfo), ("updated".toList, int2string now)]
             column := "id".toList, value := int2string userId } := by
  have hbefore : '\x00' ∉ "update IMUser set `sign_info`=".toList := by decide
  have hrun : Sql.run .between ", `updated`=".toList = (.between, [.symbol ',', .name "updated".toList, .symbol '=']) := by
    decide
  have hrest : (signInfoTemplate userId now).rest = ", `updated`=".toList ++ int2string now ++ " where id=".toList ++ int2string userId :=
    rfl
  have hrestNul : '\x00' ∉ (signInfoTemplate userId now).rest := by
    rw [hrest, List.append_assoc, List.append_assoc]
    intro hmem
    rcases List.mem_append.1 hmem with hmem | hmem
    · exact absurd hmem (by decide)
    · rcases List.mem_append.1 hmem with hmem | hmem
      · exact noNul_int2string now hmem
      · exact noNul_where userId hmem
  have hfront : (Sql.run .between "update IMUser set `sign_info`=".toList).2 =
      [.word "update".toList, .word "IMUser".toList, .word "set".toList, .name "sign_info".toList, .symbol '='] := by
    decide
  have hback : Sql.lex (signInfoTemplate userId now).rest =
      [.symbol ',', .name "updated".toList, .symbol '=', .word (int2string now)] ++ whereTokens userId := by
    rw [hrest, List.append_assoc, List.append_assoc, Sql.lex, Sql.lexFrom_append, hrun]
    exact congrArg ([.symbol ',', .name "updated".toList, .symbol '='] ++ ·) (lex_number_where now userId)
  rw [Statement.tokens, cStr_fill _ hbefore hrestNul, if_neg h.1, Sql.Template.lex_fill _ h.2,
    show (signInfoTemplate userId now).before = "update IMUser set `sign_info`=".toList from rfl, hfront, hback]
  exact Sql.parseUpdate_two rfl rfl rfl (item?_int2string now) (item?_int2string userId)

/-- The statement of `updatePushShield`. -/
theorem parse_pushShield (userId shieldStatus now : Nat) :
    Sql.parseUpdate (Statement.query ("update IMUser set `push_shield_status`=".toList ++ int2string shieldStatus ++
      ", `updated`=".toList ++ int2string now ++ " where id=".toList ++ int2string userId)).tokens =
        some { table := users.name
               assignments := [("push_shield_status".toList, int2string shieldStatus), ("updated".toList, int2string now)]
               column := "id".toList, value := int2string userId } := by
  have hfirst : Sql.run .between "update IMUser set `push_shield_status`=".toList =
      (.between, [.word "update".toList, .word "IMUser".toList, .word "set".toList, .name "push_shield_status".toList, .symbol '=']) := by
    decide
  have hsecond : Sql.run .between ", `updated`=".toList = (.between, [.symbol ',', .name "updated".toList, .symbol '=']) := by
    decide
  have hnumber : Sql.run .between (int2string shieldStatus ++ ", `updated`=".toList) =
      (.between, [.word (int2string shieldStatus), .symbol ',', .name "updated".toList, .symbol '=']) := by
    refine (Sql.run_number_append (s := " `updated`=".toList) (fun _ hc => isDigit_int2string hc) Nat.toDigits_ne_nil (c := ',')
      (by decide)).trans ?_
    exact congrArg (Sql.after [.word (int2string shieldStatus)]) hsecond
  have hrun : Sql.run .between ("update IMUser set `push_shield_status`=".toList ++ int2string shieldStatus ++ ", `updated`=".toList) =
      (.between, [.word "update".toList, .word "IMUser".toList, .word "set".toList, .name "push_shield_status".toList, .symbol '=',
        .word (int2string shieldStatus), .symbol ',', .name "updated".toList, .symbol '=']) := by
    rw [List.append_assoc, Sql.run_append, hfirst]
    exact congrArg (Sql.after _) hnumber
  have hnul : '\x00' ∉ "update IMUser set `push_shield_status`=".toList ++ int2string shieldStatus ++ ", `updated`=".toList := by
    rw [List.mem_append, List.mem_append]
    rintro ((hmem | hmem) | hmem)
    · exact absurd hmem (by decide)
    · exact noNul_int2string shieldStatus hmem
    · exact absurd hmem (by decide)
  rw [tokens_eq hnul hrun]
  exact Sql.parseUpdate_two rfl (item?_int2string shieldStatus) rfl (item?_int2string now) (item?_int2string userId)

/-- The statements that revive a row. -/
theorem parse_revive {table front : Text} (hnul : '\x00' ∉ front)
    (hrun : Sql.run .between front = (.between, [.word "update".toList, .word table, .word "set".toList, .word "status".toList, .symbol '=',
      .word "0".toList, .symbol ',', .word "updated".toList, .symbol '='])) (now id : Nat) :
    Sql.parseUpdate (Statement.query (front ++ int2string now ++ " where id=".toList ++ int2string id)).tokens =
      some { table, assignments := [("status".toList, "0".toList), ("updated".toList, int2string now)]
             column := "id".toList, value := int2string id } := by
  rw [tokens_eq hnul hrun]
  exact Sql.parseUpdate_two rfl rfl rfl (item?_int2string now) (item?_int2string id)

/-! ## `ExecuteUpdate` -/

section ExecuteUpdate

variable {Row : Type} {S : Schema Row} {t : Table Row} {sql : Text} {id : Nat} {f : Row → Row} {assignments : List (Text × Text)}

/-- What an update by an id does, and what is reported. -/
theorem executeUpdate_eq [DecidableEq Row]
    (hparse : Sql.parseUpdate (Statement.query sql).tokens =
      some { table := S.name, assignments, column := "id".toList, value := int2string id })
    (hassign : ∀ row, S.assignAll row assignments = some (f row)) :
    (executeUpdate S t sql).1.row id = (t.row id).map f ∧
      ((executeUpdate S t sql).2 = true ↔ ∃ row, t.row id = some row ∧ f row ≠ row) := by
  have hall : (int2string id).all Char.isDigit = true := List.all_eq_true.2 fun _ hc => isDigit_int2string hc
  have hid : Nat.ofDigitChars 10 (int2string id) 0 = id := Nat.ofDigitChars_ten_toDigits
  rw [executeUpdate, query, hparse]
  dsimp only
  rw [if_pos ⟨rfl, rfl, hall⟩, hid]
  cases hrow : t.row id with
  | none => simp [hrow]
  | some row =>
    by_cases hsame : f row = row
    · simp [hassign, hsame, Table.modify, hrow]
    · simp [hassign, hsame, Table.modify, hrow]

/-- An update reports right exactly when it changes the row, if there is one. -/
theorem reports_iff_differs {t' : Table Row} {success : Prop} {holds same : Row → Prop} (hrow : t'.row id = (t.row id).map f)
    (hsuccess : success ↔ ∃ row, t.row id = some row ∧ f row ≠ row) (hholds : ∀ row, holds (f row))
    (hsame : ∀ row, f row = row ↔ same row) : Reports success t' id holds ↔ Differs t id same := by
  rw [Reports, hsuccess, hrow, Differs]
  cases ht : t.row id with
  | none => simp
  | some row => simp [hholds, hsame]

end ExecuteUpdate

/-! ## The columns -/

/-- Two assignments. -/
theorem assign_two {Row : Type} {S : Schema Row} {row row1 row2 : Row} {m a n b : Text} (hm : S.assign row m a = some row1)
    (hn : S.assign row1 n b = some row2) : S.assignAll row [(m, a), (n, b)] = some row2 := by
  simp [Schema.assignAll, List.foldlM, hm, hn]

/-- The row with its new sign info. -/
theorem assign_signInfo (row : User) (v : Text) : row.assign "sign_info".toList v = some { row with signInfo := v } := by
  rw [User.assign, if_pos rfl]

/-- With its new push shield. -/
theorem assign_pushShield (row : User) (n : Nat) :
    row.assign "push_shield_status".toList (int2string n) = some { row with pushShieldStatus := n } := by
  rw [User.assign, if_neg (by decide), if_pos rfl, number_int2string, Option.map_some]

/-- And with its new time. -/
theorem assign_updated (row : User) (n : Nat) :
    row.assign "updated".toList (int2string n) = some { row with updated := n } := by
  rw [User.assign, if_neg (by decide), if_neg (by decide), if_pos rfl, number_int2string, Option.map_some]

/-- The numeral of nothing. -/
theorem number_zero : number "0".toList = some 0 := number_int2string 0

/-- A removed session's row. -/
theorem assign_session (row : Session) (now : Nat) :
    recentSessions.assignAll row [("status".toList, "0".toList), ("updated".toList, int2string now)] =
      some { row with status := 0, updated := now } := by
  have hstatus : assignSession row "status".toList "0".toList = some { row with status := 0 } := by
    rw [assignSession, if_pos rfl, number_zero, Option.map_some]
  refine assign_two hstatus ?_
  exact (by rw [assignSession, if_neg (by decide), if_pos rfl, number_int2string, Option.map_some] :
    assignSession { row with status := 0 } "updated".toList (int2string now) = _)

/-- A deleted relation's row. -/
theorem assign_relation (row : Relation) (now : Nat) :
    relations.assignAll row [("status".toList, "0".toList), ("updated".toList, int2string now)] =
      some { row with status := 0, updated := now } := by
  have hstatus : row.assign "status".toList "0".toList = some { row with status := 0 } := by
    rw [Relation.assign, if_pos rfl, number_zero, Option.map_some]
  refine assign_two hstatus ?_
  exact (by rw [Relation.assign, if_neg (by decide), if_pos rfl, number_int2string, Option.map_some] :
    Relation.assign { row with status := 0 } "updated".toList (int2string now) = _)

/-! ## The calls -/

/-- The sign info is reported right exactly where the row differs. -/
theorem signInfo_iff (t : Table User) (userId now : Nat) {signInfo : Text} (hlength : signInfo.length ≤ 128) (hsafe : Safe signInfo) :
    SignInfoReports t userId signInfo now ↔ Differs t userId fun row => row.signInfo = signInfo ∧ row.updated = now := by
  have hsql : updateUserSignInfo t userId signInfo now = executeUpdate users t ((signInfoTemplate userId now).fill signInfo) := by
    rw [updateUserSignInfo, signInfo_eq userId now signInfo hlength]
  obtain ⟨hrow, hsuccess⟩ := executeUpdate_eq (S := users) (t := t) (f := fun row => { row with signInfo, updated := now })
    (parse_signInfo userId now hsafe) fun row => assign_two (assign_signInfo row signInfo) (assign_updated _ now)
  rw [SignInfoReports, hsql]
  refine reports_iff_differs hrow hsuccess (fun _ => rfl) fun row => ?_
  cases row
  simp only [User.mk.injEq, true_and, eq_comm]

/-- And so is the push shield. -/
theorem pushShield_iff (t : Table User) (userId shieldStatus now : Nat) :
    PushShieldReports t userId shieldStatus now ↔
      Differs t userId fun row => row.pushShieldStatus = shieldStatus ∧ row.updated = now := by
  obtain ⟨hrow, hsuccess⟩ := executeUpdate_eq (S := users) (t := t)
    (f := fun row => { row with pushShieldStatus := shieldStatus, updated := now }) (parse_pushShield userId shieldStatus now)
    fun row => assign_two (assign_pushShield row shieldStatus) (assign_updated _ now)
  refine reports_iff_differs hrow hsuccess (fun _ => rfl) fun row => ?_
  cases row
  simp only [User.mk.injEq, true_and, eq_comm]

/-- An id that is given back when the update has succeeded. -/
theorem valid_iff {id : Nat} (hid : id ≠ 0) (ret : Bool) : (if !ret then 0 else id) ≠ 0 ↔ ret = true := by
  cases ret <;> simp [hid]

/-- A session found on the slave. -/
theorem session_iff (slave master : Table Session) (userId peerId type now : Nat) :
    SessionReports slave master userId peerId type now ↔ ∀ id, id ≠ 0 → getSessionId slave userId peerId type true = id →
      Differs master id fun row => row.status = 0 ∧ row.updated = now := by
  refine forall_congr' fun id => forall_congr' fun hid => forall_congr' fun hfound => ?_
  have hrun : Sql.run .between "update IMRecentSession set status=0, updated=".toList = (.between, [.word "update".toList,
      .word "IMRecentSession".toList, .word "set".toList, .word "status".toList, .symbol '=', .word "0".toList, .symbol ',',
      .word "updated".toList, .symbol '=']) := by
    decide
  obtain ⟨hrow, hsuccess⟩ := executeUpdate_eq (S := recentSessions) (t := master)
    (f := fun row => { row with status := 0, updated := now }) (parse_revive (by decide) hrun now id) fun row => assign_session row now
  rw [addSession, hfound]
  dsimp only
  rw [if_pos hid, valid_iff hid]
  refine reports_iff_differs hrow hsuccess (fun _ => rfl) fun row => ?_
  cases row
  simp only [Sessions.Session.mk.injEq, true_and, eq_comm]

/-- No row that is found has the invalid id. -/
theorem findRelation_ne_zero {master : Table Relation} {smallId bigId id : Nat}
    (h : findRelation master smallId bigId = some id) : id ≠ 0 := by
  rintro rfl
  obtain ⟨-, hany⟩ := List.mem_filter.1 (List.mem_of_mem_head? h)
  rw [master.zero] at hany
  cases hany

/-- And a relation. -/
theorem relation_iff (master : Table Relation) (smallId bigId now : Nat) :
    RelationReports master smallId bigId now ↔ ∀ id, findRelation master smallId bigId = some id →
      Differs master id fun row => row.status = 0 ∧ row.updated = now := by
  refine forall_congr' fun id => forall_congr' fun hfound => ?_
  have hrun : Sql.run .between "update IMRelationShip set status=0, updated=".toList = (.between, [.word "update".toList,
      .word "IMRelationShip".toList, .word "set".toList, .word "status".toList, .symbol '=', .word "0".toList, .symbol ',',
      .word "updated".toList, .symbol '=']) := by
    decide
  obtain ⟨hrow, hsuccess⟩ := executeUpdate_eq (S := relations) (t := master)
    (f := fun row => { row with status := 0, updated := now }) (parse_revive (by decide) hrun now id) fun row => assign_relation row now
  rw [addRelation, hfound]
  dsimp only
  rw [valid_iff (findRelation_ne_zero hfound)]
  refine reports_iff_differs hrow hsuccess (fun _ => rfl) fun row => ?_
  cases row
  simp only [Relation.mk.injEq, true_and, eq_comm]

end UpdatesAux

open UpdatesAux Statements

/-- For users, sessions and relations: success is reported as it should be exactly when there is no row to update, or the row differs
from what it is set to. For a sign info this is said of the texts that the statement says as they are. -/
theorem updates_report_iff (userTable : Table User) (userId shieldStatus : Nat) (signInfo : Text) (slave master : Table Session)
    (peerId type : Nat) (relationTable : Table Relation) (smallId bigId now : Nat) :
    (signInfo.length ≤ 128 → Safe signInfo → (SignInfoReports userTable userId signInfo now ↔
      Differs userTable userId fun row => row.signInfo = signInfo ∧ row.updated = now)) ∧
    (PushShieldReports userTable userId shieldStatus now ↔
      Differs userTable userId fun row => row.pushShieldStatus = shieldStatus ∧ row.updated = now) ∧
    (SessionReports slave master userId peerId type now ↔ ∀ id, id ≠ 0 → getSessionId slave userId peerId type true = id →
      Differs master id fun row => row.status = 0 ∧ row.updated = now) ∧
    (RelationReports relationTable smallId bigId now ↔ ∀ id, findRelation relationTable smallId bigId = some id →
      Differs relationTable id fun row => row.status = 0 ∧ row.updated = now) :=
  ⟨signInfo_iff userTable userId now, pushShield_iff userTable userId shieldStatus now, session_iff slave master userId peerId type now,
    relation_iff relationTable smallId bigId now⟩

/-- A user whose push shield was set to 1 a moment ago. -/
def shielded : Table User where
  row := fun id => if id = 7 then some { signInfo := [], pushShieldStatus := 1, updated := 1000 } else none
  nextId := 8
  zero := rfl
  fresh := by
    intro id hid
    exact if_neg (by omega)
  positive := by decide

/-- The same status again, in the same second: a failure is reported, though the row holds it. -/
theorem not_updates_report : ¬∀ t userId shieldStatus now, PushShieldReports t userId shieldStatus now := by
  intro h
  exact (pushShield_iff shielded 7 1 1000).1 (h shielded 7 1 1000) _ rfl ⟨rfl, rfl⟩

end TeamTalk.DbProxy.Updates
