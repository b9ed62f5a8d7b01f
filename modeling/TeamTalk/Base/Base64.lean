import Mathlib
import TeamTalk.Base.UtilPdu

/-!
# Base64

`base64_encode` and `base64_decode`. Both collect bits in an accumulator that keeps more than it needs: only its low bits, as
many as are collected, are ever looked at. libsecurity has a copy of both.
-/

namespace TeamTalk.Base64

/-- `b64_table`. -/
def b64Table : List Char :=
  ['A', 'B', 'C', 'D', 'E', 'F', 'G', 'H', 'I', 'J', 'K', 'L', 'M', 'N', 'O', 'P', 'Q', 'R', 'S', 'T', 'U', 'V', 'W', 'X',
    'Y', 'Z', 'a', 'b', 'c', 'd', 'e', 'f', 'g', 'h', 'i', 'j', 'k', 'l', 'm', 'n', 'o', 'p', 'q', 'r', 's', 't', 'u', 'v',
    'w', 'x', 'y', 'z', '0', '1', '2', '3', '4', '5', '6', '7', '8', '9', '+', '/']

/-- `reverse_table`. -/
def reverseTable : List Nat :=
  [64, 64, 64, 64, 64, 64, 64, 64, 64, 64, 64, 64, 64, 64, 64, 64,
    64, 64, 64, 64, 64, 64, 64, 64, 64, 64, 64, 64, 64, 64, 64, 64,
    64, 64, 64, 64, 64, 64, 64, 64, 64, 64, 64, 62, 64, 64, 64, 63,
    52, 53, 54, 55, 56, 57, 58, 59, 60, 61, 64, 64, 64, 64, 64, 64,
    64, 0, 1, 2, 3, 4, 5, 6, 7, 8, 9, 10, 11, 12, 13, 14,
    15, 16, 17, 18, 19, 20, 21, 22, 23, 24, 25, 64, 64, 64, 64, 64,
    64, 26, 27, 28, 29, 30, 31, 32, 33, 34, 35, 36, 37, 38, 39, 40,
    41, 42, 43, 44, 45, 46, 47, 48, 49, 50, 51, 64, 64, 64, 64, 64]

/-- The byte of a character. -/
def charByte (c : Char) : UInt8 := UInt8.ofNat c.toNat

/-- The padding, `'='`. -/
def pad : UInt8 := charByte '='

/-- `b64_table[n & 0x3fu]`. -/
def b64Char (n : Nat) : UInt8 := charByte (b64Table.getD (n &&& 0x3f) 'A')

/-! ## `base64_encode` -/

/-- The `while` loop: the characters that are written, and how many bits are left. -/
def flushBits (accumulator bitsCollected : Nat) : Bytes × Nat :=
  if bitsCollected ≥ 6 then
    let rest := flushBits accumulator (bitsCollected - 6)
    (b64Char (accumulator >>> (bitsCollected - 6)) :: rest.1, rest.2)
  else ([], bitsCollected)

/-- The `for` loop, and the trailing bits. -/
def encodeLoop (accumulator bitsCollected : Nat) : Bytes → Bytes
  | [] => if bitsCollected > 0 then [b64Char (accumulator <<< (6 - bitsCollected) % uint32Size)] else []
  | i :: is =>
    let accumulator := (accumulator <<< 8 ||| i.toNat) % uint32Size
    let flushed := flushBits accumulator (bitsCollected + 8)
    flushed.1 ++ encodeLoop accumulator flushed.2 is

/-- `numeric_limits<string::size_type>::max()`. -/
def maxSize : Nat := 2 ^ 64 - 1

/-- `base64_encode`: what is not written stays padding. -/
def base64Encode (bindata : Bytes) : Bytes :=
  if bindata.length > maxSize / 4 * 3 then []
  else
    let written := encodeLoop 0 0 bindata
    written ++ List.replicate ((bindata.length + 2) / 3 * 4 - written.length) pad

/-! ## `base64_decode` -/

/-- `isspace`, in the C locale. -/
def isspace (c : Nat) : Bool := c = 32 || (9 ≤ c && c ≤ 13)

/-- The loop. A byte from 128 on is a negative `char`. -/
def decodeLoop (accumulator bitsCollected : Nat) : Bytes → Option Bytes
  | [] => some []
  | c :: cs =>
    if isspace c.toNat || c = pad then decodeLoop accumulator bitsCollected cs
    else if c.toNat > 127 || reverseTable.getD c.toNat 64 > 63 then none
    else
      let accumulator := (accumulator <<< 6 ||| reverseTable.getD c.toNat 64) % uint32Size
      let bitsCollected := bitsCollected + 6
      if bitsCollected ≥ 8 then
        (decodeLoop accumulator (bitsCollected - 8) cs).map fun rest =>
          UInt8.ofNat (accumulator >>> (bitsCollected - 8) &&& 0xff) :: rest
      else decodeLoop accumulator bitsCollected cs

/-- `base64_decode`: nothing, when there is a character that is not in the table. -/
def base64Decode (ascdata : Bytes) : Bytes := (decodeLoop 0 0 ascdata).getD []

namespace Base64Aux

/-! ## Arithmetic -/

theorem and_3f (n : Nat) : n &&& 0x3f = n % 64 := Nat.and_two_pow_sub_one_eq_mod n 6

theorem and_ff (n : Nat) : n &&& 0xff = n % 256 := Nat.and_two_pow_sub_one_eq_mod n 8

theorem shift_or_8 {n b : Nat} (h : b < 256) : n <<< 8 ||| b = n * 256 + b := by
  rw [← Nat.shiftLeft_add_eq_or_of_lt h, Nat.shiftLeft_eq]

theorem shift_or_6 {n v : Nat} (h : v < 64) : n <<< 6 ||| v = n * 64 + v := by
  rw [← Nat.shiftLeft_add_eq_or_of_lt h, Nat.shiftLeft_eq]

/-- A byte, from its number modulo 256. -/
theorem ofNat_eq {n : Nat} {b : UInt8} (h : n % 256 = b.toNat) : UInt8.ofNat (n &&& 0xff) = b := by
  rw [and_ff, h, UInt8.ofNat_toNat]

/-! ## The tables -/

/-- A character of the table is read as its place in it. -/
theorem b64Char_reads (n : Nat) : (isspace (b64Char n).toNat || b64Char n = pad) = false ∧
    ((b64Char n).toNat > 127 || reverseTable.getD (b64Char n).toNat 64 > 63) = false ∧
      reverseTable.getD (b64Char n).toNat 64 = n % 64 := by
  have htable : ∀ v : Fin 64, (isspace (b64Char v).toNat || b64Char v = pad) = false ∧
      ((b64Char v).toNat > 127 || reverseTable.getD (b64Char v).toNat 64 > 63) = false ∧
        reverseTable.getD (b64Char v).toNat 64 = v := by
    decide
  have hsame : b64Char n = b64Char (n % 64) := by
    rw [b64Char, b64Char, and_3f, and_3f, Nat.mod_mod]
  have hv := htable ⟨n % 64, Nat.mod_lt n (by decide)⟩
  rw [hsame]
  exact hv

/-- A character is read: six bits more are collected. -/
theorem decodeLoop_b64Char (accumulator bitsCollected n : Nat) (cs : Bytes) :
    decodeLoop accumulator bitsCollected (b64Char n :: cs) =
      if bitsCollected + 6 ≥ 8 then
        (decodeLoop ((accumulator * 64 + n % 64) % uint32Size) (bitsCollected + 6 - 8) cs).map fun rest =>
          UInt8.ofNat (((accumulator * 64 + n % 64) % uint32Size) >>> (bitsCollected + 6 - 8) &&& 0xff) :: rest
      else decodeLoop ((accumulator * 64 + n % 64) % uint32Size) (bitsCollected + 6) cs := by
  obtain ⟨hskip, hknown, hvalue⟩ := b64Char_reads n
  rw [decodeLoop, if_neg (by rw [hskip]; exact Bool.false_ne_true), if_neg (by rw [hknown]; exact Bool.false_ne_true)]
  simp only [hvalue, shift_or_6 (Nat.mod_lt n (by decide : 64 > 0))]

/-- Padding is skipped. -/
theorem decodeLoop_pad (accumulator bitsCollected k : Nat) :
    decodeLoop accumulator bitsCollected (List.replicate k pad) = some [] := by
  induction k with
  | zero => rfl
  | succ k ih =>
    rw [List.replicate_succ, decodeLoop, if_pos (by simp)]
    exact ih

/-! ## Reading what was written -/

/-- What the two loops have in common once the decoder has read everything that the encoder has written: how many bits the
encoder still holds, what the decoder holds of the same byte, and the bytes that the decoder has not put out. -/
inductive Pending : Nat → Nat → Nat → Nat → Bytes → Prop where
  | none (ae ad : Nat) : Pending ae 0 ad 0 []
  | two {ae ad : Nat} {b : UInt8} (he : ae % 4 = b.toNat % 4) (hd : ad % 64 = b.toNat / 4) : Pending ae 2 ad 6 [b]
  | four {ae ad : Nat} {b : UInt8} (he : ae % 16 = b.toNat % 16) (hd : ad % 16 = b.toNat / 16) : Pending ae 4 ad 4 [b]

theorem flushBits_8 (acc : Nat) : flushBits acc 8 = ([b64Char (acc >>> 2)], 2) := by
  simp [flushBits]

theorem flushBits_10 (acc : Nat) : flushBits acc 10 = ([b64Char (acc >>> 4)], 4) := by
  simp [flushBits]

theorem flushBits_12 (acc : Nat) : flushBits acc 12 = ([b64Char (acc >>> 6), b64Char acc], 0) := by
  simp [flushBits]

/-- Six bits are not enough for a byte when none are there. -/
theorem decodeLoop_first (acc n : Nat) (cs : Bytes) :
    decodeLoop acc 0 (b64Char n :: cs) = decodeLoop ((acc * 64 + n % 64) % uint32Size) 6 cs := by
  rw [decodeLoop_b64Char, if_neg (by decide)]

/-- Six bits more complete a byte. -/
theorem decodeLoop_next {acc n bits : Nat} {b : UInt8} (hbits : 2 ≤ bits)
    (hb : (acc * 64 + n % 64) % uint32Size / 2 ^ (bits - 2) % 256 = b.toNat) (cs : Bytes) :
    decodeLoop acc bits (b64Char n :: cs) =
      (decodeLoop ((acc * 64 + n % 64) % uint32Size) (bits - 2) cs).map fun rest => b :: rest := by
  have hsub : bits + 6 - 8 = bits - 2 := by omega
  rw [decodeLoop_b64Char, if_pos (by omega), hsub, Nat.shiftRight_eq_div_pow, ofNat_eq hb]

/-- The decoder puts out what is pending, and then what the encoder reads. -/
theorem decodeLoop_encodeLoop (xs : Bytes) (k : Nat) {ae be ad bd : Nat} {p : Bytes} (h : Pending ae be ad bd p) :
    decodeLoop ad bd (encodeLoop ae be xs ++ List.replicate k pad) = some (p ++ xs) := by
  induction xs generalizing ae be ad bd p with
  | nil =>
    cases h with
    | none => exact decodeLoop_pad ad 0 k
    | two he hd =>
      rename_i b
      have hlast : encodeLoop ae 2 [] = [b64Char (ae <<< 4 % uint32Size)] := rfl
      have hb := b.toNat_lt
      rw [hlast, Nat.shiftLeft_eq, List.singleton_append, decodeLoop_next (b := b) (by decide), decodeLoop_pad]
      · rfl
      · simp only [uint32Size]
        omega
    | four he hd =>
      rename_i b
      have hlast : encodeLoop ae 4 [] = [b64Char (ae <<< 2 % uint32Size)] := rfl
      have hb := b.toNat_lt
      rw [hlast, Nat.shiftLeft_eq, List.singleton_append, decodeLoop_next (b := b) (by decide), decodeLoop_pad]
      · rfl
      · simp only [uint32Size]
        omega
  | cons b' xs ih =>
    have hb' := b'.toNat_lt
    cases h with
    | none =>
      rw [encodeLoop, flushBits_8, List.append_assoc, List.singleton_append, decodeLoop_first, ih (.two (b := b') _ _)]
      · rfl
      · rw [shift_or_8 hb']
        simp only [uint32Size]
        omega
      · rw [shift_or_8 hb', Nat.shiftRight_eq_div_pow]
        simp only [uint32Size]
        omega
    | two he hd =>
      rename_i b
      have hb := b.toNat_lt
      rw [encodeLoop, flushBits_10, List.append_assoc, List.singleton_append, decodeLoop_next (b := b) (by decide),
        ih (.four (b := b') _ _)]
      · rfl
      · rw [shift_or_8 hb']
        simp only [uint32Size]
        omega
      · rw [shift_or_8 hb', Nat.shiftRight_eq_div_pow]
        simp only [uint32Size]
        omega
      · rw [shift_or_8 hb', Nat.shiftRight_eq_div_pow]
        simp only [uint32Size]
        omega
    | four he hd =>
      rename_i b
      have hb := b.toNat_lt
      rw [encodeLoop, flushBits_12, List.append_assoc, List.cons_append, List.singleton_append,
        decodeLoop_next (b := b) (by decide), decodeLoop_next (b := b') (by decide), ih (.none _ _)]
      · rfl
      · rw [shift_or_8 hb', Nat.shiftRight_eq_div_pow]
        simp only [uint32Size]
        omega
      · rw [shift_or_8 hb', Nat.shiftRight_eq_div_pow]
        simp only [uint32Size]
        omega

/-! ## Lengths -/

theorem flushBits_spec (acc bits : Nat) : (flushBits acc bits).1.length = bits / 6 ∧ (flushBits acc bits).2 = bits % 6 := by
  induction bits using Nat.strongRecOn with
  | _ bits ih =>
    rw [flushBits]
    split
    · obtain ⟨hlen, hrest⟩ := ih (bits - 6) (by omega)
      rw [List.length_cons, hlen, hrest]
      omega
    · rw [List.length_nil]
      omega

/-- Six bits a character, and the last character is filled up. -/
theorem length_encodeLoop (xs : Bytes) (acc : Nat) {bits : Nat} (h : bits < 6) :
    (encodeLoop acc bits xs).length = (8 * xs.length + bits + 5) / 6 := by
  induction xs generalizing acc bits with
  | nil =>
    rw [encodeLoop]
    split <;> simp <;> omega
  | cons x xs ih =>
    rw [encodeLoop]
    obtain ⟨hlen, hrest⟩ := flushBits_spec ((acc <<< 8 ||| x.toNat) % uint32Size) (bits + 8)
    rw [List.length_append, hlen, hrest, ih _ (Nat.mod_lt _ (by decide)), List.length_cons]
    omega

/-- A byte for every eight bits at most. -/
theorem length_decodeLoop {cs : Bytes} {acc bits : Nat} {out : Bytes} (h : decodeLoop acc bits cs = some out) :
    8 * out.length ≤ 6 * cs.length + bits := by
  induction cs generalizing acc bits out with
  | nil =>
    cases h
    simp
  | cons c cs ih =>
    rw [decodeLoop] at h
    split at h
    · have := ih h
      rw [List.length_cons]
      omega
    · split at h
      · cases h
      · dsimp only at h
        split at h
        · obtain ⟨rest, hrest, rfl⟩ := Option.map_eq_some_iff.1 h
          have := ih hrest
          rw [List.length_cons, List.length_cons]
          omega
        · have := ih h
          rw [List.length_cons]
          omega

end Base64Aux

open Base64Aux

/-- What fits a string is encoded to four characters for every three bytes. -/
theorem length_base64Encode {xs : Bytes} (h : xs.length ≤ maxSize / 4 * 3) :
    (base64Encode xs).length = (xs.length + 2) / 3 * 4 := by
  rw [base64Encode, if_neg (Nat.not_lt.2 h), List.length_append, List.length_replicate,
    length_encodeLoop xs 0 (by decide)]
  omega

/-- Decoding gives back what was encoded. -/
theorem base64Decode_base64Encode {xs : Bytes} (h : xs.length ≤ maxSize / 4 * 3) : base64Decode (base64Encode xs) = xs := by
  rw [base64Encode, if_neg (Nat.not_lt.2 h), base64Decode, decodeLoop_encodeLoop xs _ (.none 0 0)]
  rfl

/-- What is decoded is no longer than three quarters of the text. -/
theorem length_base64Decode (cs : Bytes) : 8 * (base64Decode cs).length ≤ 6 * cs.length := by
  rw [base64Decode]
  cases h : decodeLoop 0 0 cs with
  | none => simp
  | some out => exact length_decodeLoop h

end TeamTalk.Base64
