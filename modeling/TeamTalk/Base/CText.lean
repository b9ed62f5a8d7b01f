import TeamTalk.Base.UtilPdu

/-!
# C strings

What the C library makes of texts: terminators, the formats the servers use, and numbers read back.
-/

namespace TeamTalk

/-- The bytes of a text in ASCII. -/
def chars (text : String) : Bytes := text.toList.map fun ch => UInt8.ofNat ch.toNat

/-- A literal is a list of characters; what is computed of it is computed from the list. -/
theorem chars_ofList (text : List Char) : chars (String.ofList text) = text.map fun ch => UInt8.ofNat ch.toNat := by
  rw [chars, String.toList_ofList]

/-- A text up to its terminator. -/
def cString (text : Bytes) : Bytes := text.takeWhile (· ≠ 0)

/-- `std::string::find`. -/
def stringFind (src sub : Bytes) : Option Nat :=
  (List.range (src.length + 1)).find? fun i => sub.isPrefixOf (src.drop i)

/-- `%u`. -/
def decimal (n : Nat) : Bytes := (Nat.toDigits 10 n).map fun ch => UInt8.ofNat ch.toNat

/-- `%d`. -/
def decimalInt (i : Int) : Bytes := if i < 0 then chars "-" ++ decimal i.natAbs else decimal i.natAbs

/-- What `snprintf` leaves in a buffer of `n` bytes, without the terminator. -/
def cut (n : Nat) (text : Bytes) : Bytes := text.take (n - 1)

/-- `atoi`. -/
def atoi (text : Bytes) : Int :=
  let text := text.dropWhile fun ch => ch = 32 || (9 ≤ ch && ch ≤ 13)
  let value (digits : Bytes) : Int :=
    ((digits.takeWhile fun ch => 48 ≤ ch && ch ≤ 57).foldl (fun n ch => n * 10 + (ch.toNat - 48)) 0 : Nat)
  match text with
  | 45 :: digits => -value digits
  | 43 :: digits => value digits
  | digits => value digits

/-! ## Texts and numbers read back -/

namespace CTextAux

theorem cString_eq_self {text : Bytes} (h : 0 ∉ text) : cString text = text :=
  List.takeWhile_eq_self_iff.2 fun _ hch => decide_eq_true fun hzero => h (hzero ▸ hch)

theorem toNat_of_isDigit {c : Char} (h : c.isDigit = true) : 48 ≤ c.toNat ∧ c.toNat ≤ 57 :=
  Char.isDigit_iff_toNat.1 h

theorem toNat_byte {c : Char} (h : c.isDigit = true) : (UInt8.ofNat c.toNat).toNat = c.toNat :=
  by
  have hlt := (toNat_of_isDigit h).2
  exact UInt8.toNat_ofNat_of_lt' (lt_of_le_of_lt hlt (by decide))

theorem isDigit_of_mem_toDigits {n : Nat} {c : Char} (h : c ∈ Nat.toDigits 10 n) : c.isDigit = true :=
  Nat.isDigit_of_mem_toDigits (by decide) (by decide) h

/-- The bytes of a number are digits. -/
theorem digit_of_mem_decimal {n : Nat} {ch : UInt8} (h : ch ∈ decimal n) : 48 ≤ ch ∧ ch ≤ 57 := by
  obtain ⟨c, hc, rfl⟩ := List.mem_map.1 h
  have hdigit := isDigit_of_mem_toDigits hc
  have hrange := toNat_of_isDigit hdigit
  rw [UInt8.le_iff_toNat_le, UInt8.le_iff_toNat_le, toNat_byte hdigit]
  exact hrange

theorem foldl_bytes {cs : List Char} (h : ∀ c ∈ cs, c.isDigit = true) (init : Nat) :
    (cs.map fun c => UInt8.ofNat c.toNat).foldl (fun n ch => n * 10 + (ch.toNat - 48)) init = Nat.ofDigitChars 10 cs init := by
  induction cs generalizing init with
  | nil => rfl
  | cons c cs ih =>
    rw [List.map_cons, List.foldl_cons, Nat.ofDigitChars_cons, toNat_byte (h c List.mem_cons_self),
      ih fun c' hc' => h c' (List.mem_cons_of_mem c hc'), Nat.mul_comm init 10]
    rfl

/-- A number that was printed is read back. -/
theorem atoi_decimal (n : Nat) : atoi (decimal n) = n := by
  have hvalue : (decimal n).foldl (fun n ch => n * 10 + (ch.toNat - 48)) 0 = n := by
    rw [decimal, foldl_bytes (fun c hc => isDigit_of_mem_toDigits hc), Nat.ofDigitChars_ten_toDigits]
  have hall : (decimal n).takeWhile (fun ch => 48 ≤ ch && ch ≤ 57) = decimal n := by
    refine List.takeWhile_eq_self_iff.2 fun ch hch => ?_
    have := digit_of_mem_decimal hch
    simp [this]
  cases hdigits : decimal n with
  | nil => exact absurd (List.map_eq_nil_iff.1 hdigits) Nat.toDigits_ne_nil
  | cons first rest =>
    have hfirst : 48 ≤ first ∧ first ≤ 57 := digit_of_mem_decimal (n := n) (by rw [hdigits]; exact List.mem_cons_self)
    have hnot : ∀ ch : UInt8, ch < 48 → first ≠ ch := by
      rintro ch hlt rfl
      exact absurd hfirst.1 (UInt8.not_le.2 hlt)
    -- the first digit is no blank and no sign
    have hblank : ¬(first = 32 || (9 ≤ first && first ≤ 13)) = true := by
      simp only [Bool.or_eq_true, Bool.and_eq_true, decide_eq_true_eq, not_or, not_and]
      exact ⟨hnot 32 (by decide), fun _ h13 => absurd (UInt8.le_trans hfirst.1 h13) (by decide)⟩
    have hdrop : (first :: rest).dropWhile (fun ch => ch = 32 || (9 ≤ ch && ch ≤ 13)) = first :: rest := by
      rw [List.dropWhile_cons, if_neg hblank]
    rw [hdigits] at hall hvalue
    unfold atoi
    rw [hdrop]
    dsimp only
    split
    next digits heq => exact absurd (List.cons.inj heq).1 (hnot 45 (by decide))
    next digits heq => exact absurd (List.cons.inj heq).1 (hnot 43 (by decide))
    next => rw [hall, hvalue]

end CTextAux

/-! ## Overflow -/

/-- What an operation on `int`s does whose result is no `int`: it has no defined result, or it wraps, as compilers and libraries for
the usual machines let it. -/
inductive IntOverflow where
  | undefined
  | wraps
  deriving DecidableEq, Repr

/-- The value of an `int` operation. -/
def IntOverflow.toUint32 (overflow : IntOverflow) (i : Int) : Option Nat :=
  if overflow = .wraps ∨ (-2147483648 ≤ i ∧ i < 2147483648) then some (i % uint32Size).toNat else none

/-- The range of `long`, at whose ends `strtol` stops. -/
def clampLong (i : Int) : Int := max (-9223372036854775808) (min i 9223372036854775807)

/-- `string2int`: `atoi`, as a `uint32_t`. -/
def stringToInt (overflow : IntOverflow) (text : Bytes) : Option Nat := overflow.toUint32 (clampLong (atoi text))

end TeamTalk
