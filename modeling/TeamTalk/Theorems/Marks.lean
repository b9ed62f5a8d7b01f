import TeamTalk.DbProxy.Statements

/-!
# Question marks are replaced by position

What a template becomes when values are put in for its question marks, one after the other, and when `replace_mark` with a running
position does this. The position is kept in a `uint32_t`: once the text before it has 4 GiB, the search begins inside that text.
-/

namespace TeamTalk.DbProxy.Statements

/-! ## The property -/

/-- What a value is in a statement. -/
def MarkValue.sql : MarkValue → Text
  | .text newValue => "'".toList ++ newValue ++ "'".toList
  | .number newValue => int2string newValue

/-- A template up to the last question mark that there is a value for, with the values put in. -/
def filled : Text → List MarkValue → Text
  | [], _ => []
  | _, [] => []
  | c :: template, value :: values => if c = '?' then value.sql ++ filled template values else c :: filled template (value :: values)

/-- What is behind that question mark. -/
def remaining : Text → List MarkValue → Text
  | [], _ => []
  | template, [] => template
  | c :: template, value :: values => if c = '?' then remaining template values else remaining template (value :: values)

/-- The calls of `replace_mark`, with a position that is 0 first. -/
def replaceMarks (template : Text) (values : List MarkValue) : Text × Nat := values.foldl callReplaceMark (template, 0)

/-- Each call replaces the next question mark of the template by its value, and nothing else. -/
def Positional (template : Text) (values : List MarkValue) : Prop :=
  ∀ k ≤ values.length, (replaceMarks template (values.take k)).1 = filled template (values.take k) ++ remaining template (values.take k)

/-! ## The condition -/

/-- The text that comes before a call has no question mark behind the position that a `uint32_t` keeps of its length. -/
def Kept (text : Text) : Prop := '?' ∉ text.drop (text.length % uint32Size)

/-- A text that is not that long is fine. -/
theorem Kept.of_lt {text : Text} (h : text.length < uint32Size) : Kept text := by
  rw [Kept, Nat.mod_eq_of_lt h, List.drop_length]
  exact List.not_mem_nil

namespace MarksAux

variable {template a b c : Text} {values : List MarkValue} {value : MarkValue}

/-! ## Templates -/

theorem filled_nil (template : Text) : filled template [] = [] := by cases template <;> rfl

theorem remaining_nil (template : Text) : remaining template [] = template := by cases template <;> rfl

/-- The values are put in one after the other. -/
theorem filled_append (template : Text) (values more : List MarkValue) :
    filled template (values ++ more) = filled template values ++ filled (remaining template values) more := by
  induction template, values using filled.induct with
  | case1 values => cases values <;> cases more <;> rfl
  | case2 template hne => simp [filled_nil, remaining_nil]
  | case3 template value values ih => simp [filled, remaining, ih]
  | case4 c template value values hc ih => simpa [filled, remaining, hc] using ih

theorem remaining_append (template : Text) (values more : List MarkValue) :
    remaining template (values ++ more) = remaining (remaining template values) more := by
  induction template, values using filled.induct with
  | case1 values => cases values <;> cases more <;> rfl
  | case2 template hne => simp [remaining_nil]
  | case3 template value values ih => simp [remaining, ih]
  | case4 c template value values hc ih => simpa [remaining, hc] using ih

/-- The next question mark. -/
theorem filled_mark (hb : '?' ∉ b) : filled (b ++ '?' :: c) [value] = b ++ value.sql ∧ remaining (b ++ '?' :: c) [value] = c := by
  induction b with
  | nil => simp [filled, remaining, filled_nil, remaining_nil]
  | cons x b ih =>
    have hx : x ≠ '?' := fun heq => hb (by simp [heq])
    have hrest := ih fun hmem => hb (List.mem_cons_of_mem x hmem)
    exact ⟨by simp [filled, hx, hrest.1], by simp [remaining, hx, hrest.2]⟩

/-- A value takes one question mark. -/
theorem count_remaining (h : values.length ≤ template.count '?') :
    (remaining template values).count '?' = template.count '?' - values.length := by
  induction template, values using filled.induct with
  | case1 values => simp [remaining]
  | case2 template hne => simp [remaining_nil]
  | case3 template value values ih =>
    have hlen : values.length ≤ template.count '?' := by simpa using h
    simp [remaining, ih hlen]
  | case4 c template value values hc ih =>
    have hcount : (c :: template).count '?' = template.count '?' := by simp [hc]
    rw [hcount] at h ⊢
    simpa [remaining, hc] using ih h

/-! ## One call -/

/-- What a call writes begins with a quote or a digit. -/
theorem sql_eq_cons (value : MarkValue) : ∃ d rest, value.sql = d :: rest ∧ d ≠ '?' := by
  cases value with
  | text newValue => exact ⟨'\'', newValue ++ "'".toList, rfl, by decide⟩
  | number newValue =>
    cases hdigits : int2string newValue with
    | nil => exact absurd hdigits Nat.toDigits_ne_nil
    | cons d rest =>
      refine ⟨d, rest, hdigits, ?_⟩
      rintro rfl
      have hmem : '?' ∈ int2string newValue := by simp [hdigits]
      have hdigit : Char.isDigit '?' = true := Nat.isDigit_of_mem_toDigits (by decide) (by decide) hmem
      simp at hdigit

theorem callReplaceMark_eq (text : Text) (pos : Nat) (value : MarkValue) :
    callReplaceMark (text, pos) value = ((replaceAt text value.sql pos).1, (replaceAt text value.sql pos).2 % uint32Size) := by
  cases value <;> rfl

/-- The first question mark behind the position is replaced. -/
theorem callReplaceMark_mark {pos : Nat} (hpos : pos ≤ a.length) (ha : '?' ∉ a.drop pos) (hb : '?' ∉ b) :
    callReplaceMark (a ++ (b ++ '?' :: c), pos) value = (a ++ b ++ value.sql ++ c, (a ++ b ++ value.sql).length % uint32Size) := by
  have htake : (a.take pos).length = pos := List.length_take_of_le hpos
  have htext : a ++ (b ++ '?' :: c) = a.take pos ++ ((a.drop pos ++ b) ++ '?' :: c) := by
    simp [List.append_assoc, ← List.append_assoc (a.take pos), List.take_append_drop]
  have hnot : '?' ∉ a.drop pos ++ b := by simp [ha, hb]
  have hreplace := replaceAt_mark (a := a.take pos) (c := c) hnot value.sql
  rw [htake, ← htext, ← List.append_assoc (a.take pos), List.take_append_drop] at hreplace
  rw [callReplaceMark_eq, hreplace]

/-- A question mark that is behind the position and in the text before is replaced instead. -/
theorem callReplaceMark_wrong {pos : Nat} (ha : '?' ∈ a.drop pos) (rest : Text) :
    (callReplaceMark (a ++ rest, pos) value).1 ≠ a ++ c := by
  obtain ⟨x, y, hsplit, hx⟩ := List.eq_append_cons_of_mem ha
  have hpos : pos ≤ a.length := by
    by_contra hlt
    rw [List.drop_eq_nil_of_le (Nat.le_of_not_le hlt)] at ha
    exact List.not_mem_nil ha
  have htake : (a.take pos).length = pos := List.length_take_of_le hpos
  have hfull : a = a.take pos ++ (x ++ '?' :: y) := by rw [← hsplit, List.take_append_drop]
  have hreplace := replaceAt_mark (a := a.take pos) (c := y ++ rest) hx value.sql
  obtain ⟨d, more, hsql, hd⟩ := sql_eq_cons value
  have htext : a ++ rest = a.take pos ++ (x ++ '?' :: (y ++ rest)) := by
    conv_lhs => rw [hfull]
    simp
  rw [htake, ← htext] at hreplace
  rw [callReplaceMark_eq, hreplace]
  intro heq
  dsimp only at heq
  conv_rhs at heq => rw [hfull]
  simp only [List.append_assoc, hsql, List.cons_append, List.append_cancel_left_eq, List.cons.injEq] at heq
  exact hd heq.1

/-! ## The run -/

theorem replaceMarks_append (template : Text) (values : List MarkValue) (value : MarkValue) :
    replaceMarks template (values ++ [value]) = callReplaceMark (replaceMarks template values) value := by
  simp [replaceMarks]

/-- The next mark, and what the next value does. -/
theorem exists_next {k : Nat} (h : template.count '?' = values.length) (hk : k < values.length) :
    ∃ b c, '?' ∉ b ∧ remaining template (values.take k) = b ++ '?' :: c ∧
      filled template (values.take (k + 1)) = filled template (values.take k) ++ b ++ (values[k]).sql ∧
      remaining template (values.take (k + 1)) = c := by
  have hlen : (values.take k).length = k := List.length_take_of_le (Nat.le_of_lt hk)
  have hcount : (remaining template (values.take k)).count '?' ≠ 0 := by
    rw [count_remaining (by omega)]
    omega
  have hmem : '?' ∈ remaining template (values.take k) := List.count_pos_iff.1 (Nat.pos_of_ne_zero hcount)
  obtain ⟨b, c, hsplit, hb⟩ := List.eq_append_cons_of_mem hmem
  have htake : values.take (k + 1) = values.take k ++ [values[k]] := (List.take_append_getElem hk).symm
  refine ⟨b, c, hb, hsplit, ?_, ?_⟩
  · rw [htake, filled_append, hsplit, (filled_mark hb).1, List.append_assoc]
  · rw [htake, remaining_append, hsplit, (filled_mark hb).2]

/-- A run in which the position is right before each call. -/
theorem replaceMarks_take (h : template.count '?' = values.length) {k : Nat} (hk : k ≤ values.length)
    (hkept : ∀ j < k, Kept (filled template (values.take j))) :
    replaceMarks template (values.take k) = (filled template (values.take k) ++ remaining template (values.take k),
      (filled template (values.take k)).length % uint32Size) := by
  induction k with
  | zero => simp [replaceMarks, filled_nil, remaining_nil]
  | succ k ih =>
    obtain ⟨b, c, hb, hsplit, hfilled, hremaining⟩ := exists_next h hk
    have hprev := ih (Nat.le_of_succ_le hk) fun j hj => hkept j (Nat.lt_succ_of_lt hj)
    rw [← List.take_append_getElem hk, replaceMarks_append, List.take_append_getElem hk, hprev, hsplit, hfilled, hremaining]
    exact callReplaceMark_mark (Nat.mod_le _ _) (hkept k (Nat.lt_succ_self k)) hb

/-- Where the values come to their question marks, the text that is written before each call is kept. -/
theorem kept_of_positional (h : template.count '?' = values.length) (hpos : Positional template values) :
    ∀ k < values.length, Kept (filled template (values.take k)) := by
  intro k
  induction k using Nat.strong_induction_on with
  | _ k ih =>
    intro hk
    by_contra hnot
    obtain ⟨b, c, -, -, hfilled, hremaining⟩ := exists_next h hk
    have hrun := replaceMarks_take h (Nat.le_of_lt hk) fun j hj => ih j hj (Nat.lt_trans hj hk)
    have hnext := hpos (k + 1) hk
    rw [← List.take_append_getElem hk, replaceMarks_append, List.take_append_getElem hk, hrun, hfilled, List.append_assoc,
      List.append_assoc] at hnext
    exact callReplaceMark_wrong (not_not.1 hnot) _ hnext

/-! ## A text that is too long -/

/-- A text of question marks so long that the position after it is 2. -/
theorem not_kept_long {n : Nat} (h : n = uint32Size) : ¬Kept (filled ['?', '?'] [.text (List.replicate n '?')]) := by
  have hfilled : filled ['?', '?'] [.text (List.replicate n '?')] = '\'' :: (List.replicate n '?' ++ ['\'']) := by
    simp [filled, MarkValue.sql]
  have hlen : ('\'' :: (List.replicate n '?' ++ ['\''])).length = n + 2 := by simp
  have hmod : (n + 2) % uint32Size = 2 := (congrArg (fun m => (m + 2) % uint32Size) h).trans (Nat.add_mod_left uint32Size 2)
  have hmem : '?' ∈ (List.replicate n '?').drop 1 := by
    have hne : n - 1 ≠ 0 := by
      rw [h]
      decide
    rw [List.drop_replicate, List.mem_replicate]
    exact ⟨hne, rfl⟩
  rw [Kept, hfilled, hlen, hmod, not_not, List.drop_succ_cons, List.drop_append]
  exact List.mem_append_left _ hmem

end MarksAux

open MarksAux

/-- The values come to the question marks of the template in order, exactly when the text that is written before each call is kept. -/
theorem positional_iff {template : Text} {values : List MarkValue} (h : template.count '?' = values.length) :
    Positional template values ↔ ∀ k < values.length, Kept (filled template (values.take k)) := by
  refine ⟨kept_of_positional h, fun hkept k hk => ?_⟩
  rw [replaceMarks_take h hk fun j hj => hkept j (Nat.lt_of_lt_of_le hj hk)]

/-- A text with a question mark and a number. -/
theorem positional_pair : Positional "a=? and b=?".toList [.text ['?'], .number 7] := by
  refine (positional_iff (by decide)).2 fun k hk => Kept.of_lt ?_
  have hcases : k = 0 ∨ k = 1 := by
    simp only [List.length_cons, List.length_nil] at hk
    omega
  rcases hcases with rfl | rfl <;> decide

/-- Not all values come to their question marks: behind a text of 4 GiB, the position is in that text. -/
theorem not_positional : ¬∀ template values, template.count '?' = values.length → Positional template values := by
  intro h
  generalize hn : uint32Size = n
  have hpos : Positional ['?', '?'] [.text (List.replicate n '?'), .number 0] := h _ _ rfl
  exact not_kept_long hn.symm (kept_of_positional rfl hpos 1 (Nat.lt_succ_self 1))

end TeamTalk.DbProxy.Statements
