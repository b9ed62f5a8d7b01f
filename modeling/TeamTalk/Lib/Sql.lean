import Mathlib

/-!
# The tokens of an SQL statement

How MySQL splits a statement into tokens, in its default mode: words, quoted names, string literals, symbols. A quote stands in
a literal when it is doubled or follows a backslash. A byte is a character here.
-/

namespace Sql

/-- A token. What is opened and not closed is broken. -/
inductive Token where
  | word (w : List Char)
  | name (w : List Char)
  | text (value : List Char)
  | symbol (c : Char)
  | broken
  deriving DecidableEq, Repr

/-- Where the lexer is. -/
inductive Mode where
  | between
  | word (w : List Char)
  | name (w : List Char)
  | nameQuote (w : List Char)
  | text (q : Char) (value : List Char)
  | escape (q : Char) (value : List Char)
  | quote (q : Char) (value : List Char)
  | dash
  | dashes
  | slash
  | slashStar
  | block
  | star
  | line
  deriving DecidableEq, Repr

/-- A character of a word. -/
def isWord (c : Char) : Bool := c.isAlphanum || c = '_' || c = '$' || '\x80' ≤ c

def isBlank (c : Char) : Bool := c ∈ [' ', '\t', '\n', '\r', '\x0b', '\x0c']

/-- A quote that opens a string literal. -/
def isQuote (c : Char) : Bool := c = '\'' || c = '"'

/-- What a backslash and a character stand for in a literal. -/
def unescape (c : Char) : List Char :=
  match c with
  | '0' => ['\x00']
  | 'b' => ['\x08']
  | 'n' => ['\n']
  | 'r' => ['\r']
  | 't' => ['\t']
  | 'Z' => ['\x1a']
  | '%' => ['\\', '%']
  | '_' => ['\\', '_']
  | c => [c]

/-- A character outside of every token. -/
def begin (c : Char) : Mode × List Token :=
  if isBlank c then (.between, [])
  else if isQuote c then (.text c [], [])
  else if c = '`' then (.name [], [])
  else if c = '#' then (.line, [])
  else if c = '-' then (.dash, [])
  else if c = '/' then (.slash, [])
  else if isWord c then (.word [c], [])
  else (.between, [.symbol c])

/-- Tokens that come before those of a step. -/
def after (tokens : List Token) (p : Mode × List Token) : Mode × List Token := (p.1, tokens ++ p.2)

/-- A step of the lexer. A comment that begins with an exclamation mark is code. -/
def step (m : Mode) (c : Char) : Mode × List Token :=
  match m with
  | .between => begin c
  | .word w => if isWord c then (.word (w ++ [c]), []) else after [.word w] (begin c)
  | .name w => if c = '`' then (.nameQuote w, []) else (.name (w ++ [c]), [])
  | .nameQuote w => if c = '`' then (.name (w ++ [c]), []) else after [.name w] (begin c)
  | .text q v => if c = q then (.quote q v, []) else if c = '\\' then (.escape q v, []) else (.text q (v ++ [c]), [])
  | .escape q v => (.text q (v ++ unescape c), [])
  | .quote q v => if c = q then (.text q (v ++ [c]), []) else after [.text v] (begin c)
  | .dash => if c = '-' then (.dashes, []) else after [.symbol '-'] (begin c)
  | .dashes =>
    if c = '\n' then (.between, [])
    else if isBlank c || c < ' ' then (.line, [])
    else after [.symbol '-', .symbol '-'] (begin c)
  | .slash => if c = '*' then (.slashStar, []) else after [.symbol '/'] (begin c)
  | .slashStar =>
    if c = '!' then (.between, [.symbol '/', .symbol '*', .symbol '!']) else if c = '*' then (.star, []) else (.block, [])
  | .block => if c = '*' then (.star, []) else (.block, [])
  | .star => if c = '/' then (.between, []) else if c = '*' then (.star, []) else (.block, [])
  | .line => if c = '\n' then (.between, []) else (.line, [])

/-- The end of the statement. -/
def finish : Mode → List Token
  | .between | .line | .dashes => []
  | .word w => [.word w]
  | .nameQuote w => [.name w]
  | .quote _ v => [.text v]
  | .dash => [.symbol '-']
  | .slash => [.symbol '/']
  | .name _ | .text _ _ | .escape _ _ | .slashStar | .block | .star => [.broken]

/-- The tokens from a mode on. -/
def lexFrom (m : Mode) : List Char → List Token
  | [] => finish m
  | c :: s => (step m c).2 ++ lexFrom (step m c).1 s

/-- The tokens of a statement. -/
def lex (s : List Char) : List Token := lexFrom .between s

/-- The mode after a part of a statement, and its tokens so far. -/
def run (m : Mode) : List Char → Mode × List Token
  | [] => (m, [])
  | c :: s => after (step m c).2 (run (step m c).1 s)

theorem lexFrom_append (m : Mode) (a b : List Char) : lexFrom m (a ++ b) = (run m a).2 ++ lexFrom (run m a).1 b := by
  induction a generalizing m with
  | nil => rfl
  | cons c a ih => simp [lexFrom, run, after, ih]

theorem run_append (m : Mode) (a b : List Char) : run m (a ++ b) = after (run m a).2 (run (run m a).1 b) := by
  induction a generalizing m with
  | nil => rfl
  | cons c a ih => simp [run, after, ih]

theorem mode_append (m : Mode) (a b : List Char) : (run m (a ++ b)).1 = (run (run m a).1 b).1 := by
  rw [run_append]
  rfl

theorem begin_alphanum {c : Char} (h : c.isAlphanum = true) : begin c = (.word [c], []) := by
  have hword : isWord c = true := by simp [isWord, h]
  have hne : ∀ d : Char, d.isAlphanum = false → c ≠ d := by
    rintro d hd rfl
    rw [h] at hd
    cases hd
  have hblank : isBlank c = false := by
    simp only [isBlank, decide_eq_false_iff_not, List.mem_cons, List.not_mem_nil, or_false, not_or]
    exact ⟨hne _ (by decide), hne _ (by decide), hne _ (by decide), hne _ (by decide), hne _ (by decide), hne _ (by decide)⟩
  have hquote : isQuote c = false := by simp [isQuote, hne '\'' (by decide), hne '"' (by decide)]
  simp [begin, hblank, hquote, hword, hne '`' (by decide), hne '#' (by decide), hne '-' (by decide), hne '/' (by decide)]

/-- After a word, the lexer goes on as between tokens. -/
theorem mode_alphanum {w : List Char} (hw : ∀ c ∈ w, c.isAlphanum = true) {c : Char} (hc : isWord c = false) (s : List Char) :
    (run .between (w ++ c :: s)).1 = (run .between (c :: s)).1 := by
  have hword : ∀ u : List Char, (run (.word u) (w ++ c :: s)).1 = (run .between (c :: s)).1 := by
    intro u
    induction w generalizing u with
    | nil => simp [run, step, after, hc]
    | cons d w ih =>
      have hd : isWord d = true := by simp [isWord, hw d List.mem_cons_self]
      simpa [run, step, after, hd] using ih (fun e he => hw e (List.mem_cons_of_mem d he)) (u ++ [d])
  cases w with
  | nil => rfl
  | cons d w =>
    have hd := begin_alphanum (hw d List.mem_cons_self)
    have hd' : isWord d = true := by simp [isWord, hw d List.mem_cons_self]
    have := hword []
    simpa [run, step, after, hd, hd'] using this

/-! ## What a token says -/

/-- The value of a string literal. -/
def Token.value? : Token → Option (List Char)
  | .text v => some v
  | _ => none

/-- A token without the value of its literal. -/
def Token.shape : Token → Token
  | .text _ => .text []
  | t => t

/-- The values of the string literals. -/
def values (tokens : List Token) : List (List Char) := tokens.filterMap Token.value?

/-- The structure of a statement: its tokens, but for the values of the string literals. -/
def shapes (tokens : List Token) : List Token := tokens.map Token.shape

@[simp] theorem values_append (a b : List Token) : values (a ++ b) = values a ++ values b := List.filterMap_append

@[simp] theorem values_text (v : List Char) (tokens : List Token) : values (.text v :: tokens) = v :: values tokens := rfl

@[simp] theorem values_broken : values [.broken] = [] := rfl

@[simp] theorem shapes_append (a b : List Token) : shapes (a ++ b) = shapes a ++ shapes b := List.map_append

/-! ## A statement without quotes -/

/-- The lexer is in no string literal. -/
def Mode.Outside : Mode → Prop
  | .text _ _ | .escape _ _ | .quote _ _ => False
  | _ => True

theorem begin_outside {c : Char} (h : isQuote c = false) : (begin c).1.Outside ∧ values (begin c).2 = [] := by
  unfold begin
  split_ifs <;> simp_all [Mode.Outside, values, Token.value?]

/-- A character that is no quote opens no literal. -/
theorem step_outside {m : Mode} {c : Char} (hm : m.Outside) (h : isQuote c = false) :
    (step m c).1.Outside ∧ values (step m c).2 = [] := by
  have hbegin := begin_outside h
  unfold step
  cases m with
  | text q v => exact hm.elim
  | escape q v => exact hm.elim
  | quote q v => exact hm.elim
  | between => exact hbegin
  | _ =>
    dsimp only
    split_ifs <;> simp_all [after, Mode.Outside, values, Token.value?]

theorem run_outside {m : Mode} {s : List Char} (hm : m.Outside) (h : ∀ c ∈ s, isQuote c = false) :
    (run m s).1.Outside ∧ values (run m s).2 = [] := by
  induction s generalizing m with
  | nil => exact ⟨hm, rfl⟩
  | cons c s ih =>
    obtain ⟨hstep, hvalues⟩ := step_outside hm (h c List.mem_cons_self)
    obtain ⟨hrun, hrest⟩ := ih hstep fun d hd => h d (List.mem_cons_of_mem c hd)
    exact ⟨hrun, by simp [run, after, hvalues, hrest]⟩

/-- A statement without quotes has no string literal. -/
theorem values_lexFrom {m : Mode} {s : List Char} (hm : m.Outside) (h : ∀ c ∈ s, isQuote c = false) :
    values (lexFrom m s) = [] := by
  obtain ⟨hrun, hvalues⟩ := run_outside hm h
  have heq := lexFrom_append m s []
  rw [List.append_nil] at heq
  rw [heq, values_append, hvalues, List.nil_append, lexFrom]
  cases hmode : (run m s).1 <;> simp_all [finish, values, Token.value?, Mode.Outside]

/-! ## A literal -/

/-- The value of a literal whose quote is open, and what comes after it. -/
def literal (q : Char) : List Char → Option (List Char × List Char)
  | [] => none
  | [c] => if c = q then some ([], []) else none
  | c :: d :: s =>
    if c = q then
      if d = q then (literal q s).map fun p => (q :: p.1, p.2) else some ([], d :: s)
    else if c = '\\' then (literal q s).map fun p => (unescape d ++ p.1, p.2)
    else (literal q (d :: s)).map fun p => (c :: p.1, p.2)

theorem lexFrom_quote {q d : Char} (h : d ≠ q) (v s : List Char) :
    lexFrom (.quote q v) (d :: s) = .text v :: lex (d :: s) := by
  simp [lexFrom, lex, step, after, h]

/-- The lexer reads the literal. -/
theorem lexFrom_text {q : Char} (hq : q ≠ '\\') (s v : List Char) :
    lexFrom (.text q v) s =
      match literal q s with
      | none => [.broken]
      | some (u, rest) => .text (v ++ u) :: lex rest := by
  induction s using literal.induct q generalizing v with
  | case1 => rfl
  | case2 => simp [lexFrom, step, finish, literal, lex]
  | case3 c hc =>
    by_cases hb : c = '\\'
    · simp [lexFrom, step, finish, literal, hb, Ne.symm hq]
    · simp [lexFrom, step, finish, literal, hc, hb]
  | case4 s ih =>
    have hstep : lexFrom (.text q v) (q :: q :: s) = lexFrom (.text q (v ++ [q])) s := by simp [lexFrom, step]
    rw [hstep, ih, literal]
    cases literal q s <;> simp
  | case5 d s hd =>
    have hstep : lexFrom (.text q v) (q :: d :: s) = lexFrom (.quote q v) (d :: s) := by simp [lexFrom, step]
    rw [hstep, lexFrom_quote hd, literal]
    simp [hd]
  | case6 d s hc ih =>
    have hstep : lexFrom (.text q v) ('\\' :: d :: s) = lexFrom (.text q (v ++ unescape d)) s := by
      simp [lexFrom, step, hc]
    rw [hstep, ih, literal]
    cases literal q s <;> simp [hc]
  | case7 c d s hc hb ih =>
    have hstep : lexFrom (.text q v) (c :: d :: s) = lexFrom (.text q (v ++ [c])) (d :: s) := by
      conv => lhs; rw [lexFrom]
      simp [step, hc, hb]
    rw [hstep, ih, literal]
    cases literal q (d :: s) <;> simp [hc, hb]

/-- A text that stands for itself between two quotes: there is no quote in it, and every backslash is one that stays. -/
def plain (q : Char) : List Char → Bool
  | [] => true
  | [c] => c ≠ q && c ≠ '\\'
  | c :: d :: s => if c = '\\' then (d = '%' || d = '_') && plain q s else c ≠ q && plain q (d :: s)

/-- A backslash and a character stand for one character, unless the backslash stays. -/
theorem length_unescape {c : Char} (h : ¬(c = '%' ∨ c = '_')) : (unescape c).length = 1 := by
  unfold unescape
  split <;> simp_all

theorem length_unescape_le (c : Char) : (unescape c).length ≤ 2 := by
  unfold unescape
  split <;> simp

/-- A literal needs the characters of its value, and its closing quote. -/
theorem length_lt_of_literal {q : Char} {s u rest : List Char} (h : literal q s = some (u, rest)) : u.length < s.length := by
  induction s using literal.induct q generalizing u rest with
  | case1 => simp [literal] at h
  | case2 =>
    simp only [literal, if_true] at h
    cases h
    simp
  | case3 c hc => simp [literal, hc] at h
  | case4 s ih =>
    simp only [literal, if_true, Option.map_eq_some_iff] at h
    obtain ⟨⟨u', rest'⟩, hu, heq⟩ := h
    cases heq
    have := ih hu
    simp only [List.length_cons]
    omega
  | case5 d s hd =>
    simp only [literal, if_true, hd, if_false] at h
    cases h
    simp
  | case6 d s hc ih =>
    simp only [literal, hc, if_true, if_false, Option.map_eq_some_iff] at h
    obtain ⟨⟨u', rest'⟩, hu, heq⟩ := h
    cases heq
    have := ih hu
    have := length_unescape_le d
    simp only [List.length_append, List.length_cons]
    omega
  | case7 c d s hc hb ih =>
    simp only [literal, hc, hb, if_false, Option.map_eq_some_iff] at h
    obtain ⟨⟨u', rest'⟩, hu, heq⟩ := h
    cases heq
    have := ih hu
    simp only [List.length_cons] at this ⊢
    omega

/-- Without another quote, the literal is not closed. -/
theorem literal_eq_none {q : Char} {s : List Char} (h : q ∉ s) : literal q s = none := by
  induction s using literal.induct q with
  | case1 => rfl
  | case2 => simp at h
  | case3 c hc => simp [literal, hc]
  | case4 s _ => simp at h
  | case5 d s _ => simp at h
  | case6 d s hc ih =>
    simp only [List.mem_cons, not_or] at h
    simp [literal, hc, ih h.2.2]
  | case7 c d s hc hb ih => simp [literal, hc, hb, ih fun hmem => h (List.mem_cons_of_mem c hmem)]

/-- A plain text stands for itself. -/
theorem literal_plain {q : Char} (hq : q ≠ '\\') {v rest : List Char} (h : plain q v = true) (hrest : rest.head? ≠ some q) :
    literal q (v ++ q :: rest) = some (v, rest) := by
  induction v using plain.induct with
  | case1 =>
    cases rest with
    | nil => simp [literal]
    | cons d rest =>
      have hd : d ≠ q := by simpa using hrest
      simp [literal, hd]
  | case2 c =>
    simp only [plain, Bool.and_eq_true, decide_eq_true_eq] at h
    have hnext : literal q (q :: rest) = some ([], rest) := by
      cases rest with
      | nil => simp [literal]
      | cons d rest =>
        have hd : d ≠ q := by simpa using hrest
        simp [literal, hd]
    simp [literal, h.1, h.2, hnext]
  | case3 d s ih =>
    simp only [plain, if_true, Bool.and_eq_true, Bool.or_eq_true, decide_eq_true_eq] at h
    obtain ⟨hd, hs⟩ := h
    rcases hd with rfl | rfl
    · simp [literal, Ne.symm hq, ih hs, unescape]
    · simp [literal, Ne.symm hq, ih hs, unescape]
  | case4 c d s hc ih =>
    simp only [plain, hc, if_false, Bool.and_eq_true, decide_eq_true_eq] at h
    have hnext := ih h.2
    rw [List.cons_append] at hnext
    simp [literal, h.1, hc, hnext]

/-- Of a text between two quotes, where no other quote follows, a literal has all the characters only if the text is plain. -/
theorem plain_or_length_lt {q : Char} (hq : q ≠ '\\') {v rest u rest' : List Char} (hrest : q ∉ rest)
    (h : literal q (v ++ q :: rest) = some (u, rest')) : (plain q v = true ∧ u = v) ∨ u.length < v.length := by
  have hhead : rest.head? ≠ some q := fun hmem => hrest (List.mem_of_head? hmem)
  -- every two characters are read at once where the first is a quote or a backslash
  induction hn : v.length using Nat.strong_induction_on generalizing v u rest' with
  | _ n ih =>
    subst hn
    by_cases hplain : plain q v = true
    · rw [literal_plain hq hplain hhead] at h
      cases h
      exact .inl ⟨hplain, rfl⟩
    · refine .inr ?_
      match v with
      | [] => simp [plain] at hplain
      | [c] =>
        by_cases hc : c = q
        · subst hc
          simp [literal, literal_eq_none hrest] at h
        · by_cases hb : c = '\\'
          · subst hb
            simp [literal, hc, literal_eq_none hrest] at h
          · simp [plain, hc, hb] at hplain
      | c :: d :: s =>
        have hs : ∀ {u' r}, literal q (s ++ q :: rest) = some (u', r) → (plain q s = true ∧ u' = s) ∨ u'.length < s.length :=
          fun hu => ih s.length (by simp only [List.length_cons]; omega) hu rfl
        simp only [List.cons_append, literal] at h
        split_ifs at h with hc hd hb
        · obtain ⟨⟨u', r⟩, hu, heq⟩ := Option.map_eq_some_iff.1 h
          cases heq
          rcases hs hu with ⟨-, rfl⟩ | hlt
          · simp
          · simp only [List.length_cons]
            omega
        · cases h
          simp
        · obtain ⟨⟨u', r⟩, hu, heq⟩ := Option.map_eq_some_iff.1 h
          cases heq
          subst hb
          have hd : ¬((d = '%' ∨ d = '_') ∧ plain q s = true) := by simpa [plain] using hplain
          have hle := length_unescape_le d
          rcases hs hu with ⟨hps, rfl⟩ | hlt
          · have hone := length_unescape fun hmem => hd ⟨hmem, hps⟩
            simp only [List.length_append, List.length_cons]
            omega
          · simp only [List.length_append, List.length_cons]
            omega
        · obtain ⟨⟨u', r⟩, hu, heq⟩ := Option.map_eq_some_iff.1 h
          cases heq
          rcases ih (d :: s).length (by simp) (v := d :: s) hu rfl with ⟨hps, -⟩ | hlt
          · exact absurd (by simp [plain, hc, hb, hps]) hplain
          · simp only [List.length_cons] at hlt ⊢
            omega

/-! ## A text in a statement -/

/-- A statement with a place for a text between quotes, and no other quotes. -/
structure Template where
  before : List Char
  rest : List Char
  opens : (run .between before).1 = .between
  before_quote : ∀ c ∈ before, isQuote c = false
  rest_quote : ∀ c ∈ rest, isQuote c = false

namespace Template

variable (T : Template)

/-- The statement with a text. -/
def fill (v : List Char) : List Char := T.before ++ '\'' :: v ++ '\'' :: T.rest

theorem lex_before (s : List Char) : lex (T.before ++ '\'' :: s) = (run .between T.before).2 ++ lexFrom (.text '\'' []) s := by
  rw [lex, lexFrom_append, T.opens]
  rfl

theorem values_before : values (run .between T.before).2 = [] := (run_outside (m := .between) trivial T.before_quote).2

theorem quote_not_mem_rest : '\'' ∉ T.rest := by
  intro h
  have := T.rest_quote _ h
  simp [isQuote] at this

/-- With a plain text, the statement is the same as with another, but for the value of the literal. -/
theorem lex_fill {v : List Char} (h : plain '\'' v = true) :
    lex (T.fill v) = (run .between T.before).2 ++ .text v :: lex T.rest := by
  have hhead : T.rest.head? ≠ some '\'' := fun hmem => T.quote_not_mem_rest (List.mem_of_head? hmem)
  rw [fill, List.append_assoc, List.cons_append, lex_before, lexFrom_text (by decide), literal_plain (by decide) h hhead]
  rfl

theorem shapes_fill {v w : List Char} (hv : plain '\'' v = true) (hw : plain '\'' w = true) :
    shapes (lex (T.fill v)) = shapes (lex (T.fill w)) := by
  rw [lex_fill T hv, lex_fill T hw]
  simp [shapes, Token.shape]

/-- Only a plain text is what its literal says. -/
theorem values_fill {v : List Char} : values (lex (T.fill v)) = [v] ↔ plain '\'' v = true := by
  constructor
  · intro h
    rw [fill, List.append_assoc, List.cons_append, lex_before, lexFrom_text (by decide), values_append, values_before] at h
    cases hlit : literal '\'' (v ++ '\'' :: T.rest) with
    | none => simp [hlit] at h
    | some p =>
      obtain ⟨u, r⟩ := p
      simp only [hlit, values_text, List.nil_append, List.cons.injEq] at h
      rcases plain_or_length_lt (by decide) T.quote_not_mem_rest hlit with ⟨hplain, -⟩ | hlt
      · exact hplain
      · rw [h.1] at hlt
        exact absurd hlt (Nat.lt_irrefl _)
  · intro h
    have hrest : values (lex T.rest) = [] := values_lexFrom (m := .between) trivial T.rest_quote
    rw [lex_fill T h, values_append, values_before]
    simpa using hrest

/-- In a statement that is cut off in the text, the literal does not say the whole text. -/
theorem values_cut {v s : List Char} (h : s.length ≤ v.length) : values (lex (T.before ++ '\'' :: s)) ≠ [v] := by
  intro heq
  rw [lex_before, lexFrom_text (by decide), values_append, values_before] at heq
  cases hlit : literal '\'' s with
  | none => simp [hlit] at heq
  | some p =>
    obtain ⟨u, r⟩ := p
    simp only [hlit, values_text, List.nil_append, List.cons.injEq] at heq
    have := length_lt_of_literal hlit
    rw [heq.1] at this
    omega

end Template

end Sql
