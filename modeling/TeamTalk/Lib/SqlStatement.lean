import TeamTalk.Lib.Sql

/-!
# Insertions, updates and selections

What an `insert` of one row, and an `update` and a `select` by one column say, read off their tokens. A value is a number or a string
literal.
-/

namespace Sql

/-! ## The statements -/

/-- A name, quoted or not. -/
def Token.ident? : Token → Option (List Char)
  | .name w => some w
  | .word w => some w
  | _ => none

/-- A value. -/
def Token.item? : Token → Option (List Char)
  | .text v => some v
  | .word w => if w.all Char.isDigit then some w else none
  | _ => none

/-- A list, behind the bracket that opens it: what is in it, and what stands behind it. -/
def bracketList (f : Token → Option (List Char)) : List Token → Option (List (List Char) × List Token)
  | token :: .symbol c :: rest =>
    match f token with
    | none => none
    | some v =>
      if c = ')' then some ([v], rest)
      else if c = ',' then (bracketList f rest).map fun p => (v :: p.1, p.2)
      else none
  | _ => none

/-- A row for a table: the columns with their values. -/
structure Insert where
  table : List Char
  columns : List (List Char × List Char)
  deriving DecidableEq, Repr

/-- The values of an insertion, behind its columns. -/
def parseValues (table : List Char) (names : List (List Char)) : List Token → Option Insert
  | .word keyword :: .symbol '(' :: rest =>
    if keyword = "values".toList then
      match bracketList Token.item? rest with
      | some (items, []) => if items.length = names.length then some { table, columns := names.zip items } else none
      | _ => none
    else none
  | _ => none

/-- `insert into table(…) values(…)`. -/
def parseInsert : List Token → Option Insert
  | .word keyword :: .word into :: .word table :: .symbol '(' :: rest =>
    if keyword = "insert".toList ∧ into = "into".toList then
      (bracketList Token.ident? rest).bind fun p => parseValues table p.1 p.2
    else none
  | _ => none

/-- The rows of a table in which a column has a value. -/
structure Select where
  table : List Char
  column : List Char
  value : List Char
  deriving DecidableEq, Repr

/-- `select * from table where column=value`. -/
def parseSelect : List Token → Option Select
  | [.word keyword, .symbol '*', .word source, .word table, .word condition, .word column, .symbol '=', value] =>
    if keyword = "select".toList ∧ source = "from".toList ∧ condition = "where".toList then
      value.item?.map fun value => { table, column, value }
    else none
  | _ => none

/-- New values for columns of the rows in which a column has a value. -/
structure Update where
  table : List Char
  assignments : List (List Char × List Char)
  column : List Char
  value : List Char
  deriving DecidableEq, Repr

/-- The assignments of an update, and what stands behind the last one. -/
def parseAssignments : List Token → Option (List (List Char × List Char) × List Token)
  | name :: .symbol '=' :: value :: rest =>
    match name.ident?, value.item? with
    | some name, some value =>
      match rest with
      | .symbol ',' :: rest => (parseAssignments rest).map fun p => ((name, value) :: p.1, p.2)
      | rest => some ([(name, value)], rest)
    | _, _ => none
  | _ => none

/-- The end of an update, behind its assignments. -/
def parseCondition (table : List Char) (assignments : List (List Char × List Char)) : List Token → Option Update
  | [.word condition, .word column, .symbol '=', value] =>
    if condition = "where".toList then value.item?.map fun value => { table, assignments, column, value } else none
  | _ => none

/-- `update table set … where column=value`. -/
def parseUpdate : List Token → Option Update
  | .word keyword :: .word table :: .word set :: rest =>
    if keyword = "update".toList ∧ set = "set".toList then
      (parseAssignments rest).bind fun p => parseCondition table p.1 p.2
    else none
  | _ => none

theorem parseInsert_eq (table : List Char) (rest : List Token) :
    parseInsert (.word "insert".toList :: .word "into".toList :: .word table :: .symbol '(' :: rest) =
      (bracketList Token.ident? rest).bind fun p => parseValues table p.1 p.2 := by
  rw [parseInsert, if_pos ⟨rfl, rfl⟩]

theorem parseValues_eq {table : List Char} {names items : List (List Char)} {rest : List Token}
    (h : bracketList Token.item? rest = some (items, [])) (hlen : items.length = names.length) :
    parseValues table names (.word "values".toList :: .symbol '(' :: rest) = some { table, columns := names.zip items } := by
  rw [parseValues, if_pos rfl, h]
  exact if_pos hlen

theorem parseSelect_eq {table column value : List Char} {token : Token} (h : token.item? = some value) :
    parseSelect [.word "select".toList, .symbol '*', .word "from".toList, .word table, .word "where".toList, .word column, .symbol '=',
      token] = some { table, column, value } := by
  rw [parseSelect, if_pos ⟨rfl, rfl, rfl⟩, h]
  rfl

/-- An assignment that is not the last one. -/
theorem parseAssignments_cons {name value : Token} {n v : List Char} (hn : name.ident? = some n) (hv : value.item? = some v)
    (rest : List Token) :
    parseAssignments (name :: .symbol '=' :: value :: .symbol ',' :: rest) =
      (parseAssignments rest).map fun p => ((n, v) :: p.1, p.2) := by
  rw [parseAssignments, hn, hv]
  rfl

/-- The last assignment, and the condition. -/
theorem parseAssignments_last {name value : Token} {n v w : List Char} (hn : name.ident? = some n) (hv : value.item? = some v)
    (rest : List Token) :
    parseAssignments (name :: .symbol '=' :: value :: .word w :: rest) = some ([(n, v)], .word w :: rest) := by
  rw [parseAssignments, hn, hv]

/-- An update of two columns. -/
theorem parseUpdate_two {table column m n : List Char} {name1 value1 name2 value2 value : Token} {a b v : List Char}
    (hm : name1.ident? = some m) (ha : value1.item? = some a) (hn : name2.ident? = some n) (hb : value2.item? = some b)
    (hv : value.item? = some v) :
    parseUpdate [.word "update".toList, .word table, .word "set".toList, name1, .symbol '=', value1, .symbol ',', name2, .symbol '=',
      value2, .word "where".toList, .word column, .symbol '=', value] =
        some { table, assignments := [(m, a), (n, b)], column, value := v } := by
  rw [parseUpdate, if_pos ⟨rfl, rfl⟩, parseAssignments_cons hm ha, parseAssignments_last hn hb]
  simp only [Option.map_some, Option.bind_some, parseCondition, if_true, hv]

/-! ## Numbers in a statement -/

theorem item?_number {w : List Char} (h : ∀ c ∈ w, c.isDigit = true) : (Token.word w).item? = some w :=
  if_pos (List.all_eq_true.2 h)

/-- The word that has begun goes on. -/
theorem run_word {u w : List Char} (hw : ∀ c ∈ w, isWord c = true) : run (.word u) w = (.word (u ++ w), []) := by
  induction w generalizing u with
  | nil => rw [List.append_nil]; rfl
  | cons c w ih =>
    have hstep : step (.word u) c = (.word (u ++ [c]), []) := if_pos (hw c List.mem_cons_self)
    rw [run, hstep, ih fun d hd => hw d (List.mem_cons_of_mem c hd)]
    simp [after]

/-- A number is a word. -/
theorem run_number {w : List Char} (hw : ∀ c ∈ w, c.isDigit = true) (hne : w ≠ []) : run .between w = (.word w, []) := by
  obtain ⟨c, w, rfl⟩ := List.exists_cons_of_ne_nil hne
  have halpha : ∀ d : Char, d.isDigit = true → d.isAlphanum = true := fun d hd => by simp [Char.isAlphanum, hd]
  have hbegin : step .between c = (.word [c], []) := begin_alphanum (halpha c (hw c List.mem_cons_self))
  rw [run, hbegin, run_word fun d hd => by simp [isWord, halpha d (hw d (List.mem_cons_of_mem c hd))]]
  rfl

/-- A number and something that is not part of it. -/
theorem run_number_append {w s : List Char} {c : Char} (hw : ∀ c ∈ w, c.isDigit = true) (hne : w ≠ []) (hc : isWord c = false) :
    run .between (w ++ c :: s) = after [.word w] (run .between (c :: s)) := by
  have hstep : step (.word w) c = after [.word w] (begin c) := if_neg (by rw [hc]; exact Bool.false_ne_true)
  rw [run_append, run_number hw hne]
  simp only [run, hstep, after]
  simp [step]

theorem lex_number_append {w s : List Char} {c : Char} (hw : ∀ c ∈ w, c.isDigit = true) (hne : w ≠ []) (hc : isWord c = false) :
    lex (w ++ c :: s) = .word w :: lex (c :: s) := by
  have hstep : step (.word w) c = after [.word w] (begin c) := if_neg (by rw [hc]; exact Bool.false_ne_true)
  rw [lex, lexFrom_append, run_number hw hne]
  simp only [lexFrom, hstep, after, lex]
  simp [step]

/-- A number at the end. -/
theorem lexFrom_number {w : List Char} (hw : ∀ c ∈ w, c.isDigit = true) (hne : w ≠ []) : lexFrom .between w = [.word w] := by
  have happend := lexFrom_append .between w []
  rw [List.append_nil, run_number hw hne] at happend
  exact happend

end Sql
