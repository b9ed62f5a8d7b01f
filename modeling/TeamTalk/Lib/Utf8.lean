import Mathlib

/-!
# UTF-8

Byte sequences that encode characters: what may be put together, where a sequence may be cut, and what may be done with its bytes below
128 alone.
-/

namespace Utf8

/-- The sequence encodes characters. -/
def Valid (bs : List UInt8) : Prop := bs.toByteArray.IsValidUTF8

/-- The bytes of a text. -/
def bytes (text : String) : List UInt8 := text.toByteArray.data.toList

variable {as bs : List UInt8}

theorem valid_iff : Valid bs ↔ ∃ cs : List Char, bs = cs.flatMap String.utf8EncodeChar := by
  constructor
  · rintro ⟨cs, hcs⟩
    refine ⟨cs, ?_⟩
    have hlist := congrArg (fun b => b.data.toList) hcs
    simpa [List.utf8Encode] using hlist
  · rintro ⟨cs, rfl⟩
    exact ⟨cs, rfl⟩

theorem valid_nil : Valid [] := valid_iff.2 ⟨[], rfl⟩

theorem valid_bytes (text : String) : Valid (bytes text) := by
  have heq : (bytes text).toByteArray = text.toByteArray := by
    apply ByteArray.ext
    simp [bytes]
  rw [Valid, heq]
  exact text.isValidUTF8

theorem valid_encode (c : Char) : Valid (String.utf8EncodeChar c) := valid_iff.2 ⟨[c], by simp⟩

theorem Valid.append (ha : Valid as) (hb : Valid bs) : Valid (as ++ bs) := by
  obtain ⟨cs, rfl⟩ := valid_iff.1 ha
  obtain ⟨ds, rfl⟩ := valid_iff.1 hb
  exact valid_iff.2 ⟨cs ++ ds, by simp⟩

theorem valid_flatMap {α : Type*} {f : α → List UInt8} {xs : List α} (h : ∀ x ∈ xs, Valid (f x)) : Valid (xs.flatMap f) := by
  induction xs with
  | nil => exact valid_nil
  | cons x xs ih =>
    rw [List.flatMap_cons]
    exact (h x List.mem_cons_self).append (ih fun y hy => h y (List.mem_cons_of_mem x hy))

/-! ## Bytes below 128 -/

/-- A character of one byte, and its byte. -/
theorem encode_of_lt {b : UInt8} (h : b < 128) : String.utf8EncodeChar b.toChar = [b] := by
  have hsize : b.toChar.utf8Size = 1 := by
    rw [Char.utf8Size_eq_one_iff, UInt32.le_iff_toNat_le]
    exact Nat.le_of_lt_succ h
  rw [String.utf8EncodeChar_eq_singleton hsize]
  simp [UInt8.toChar]

theorem valid_of_ascii (h : ∀ b ∈ bs, b < 128) : Valid bs := by
  have hflat : bs = bs.flatMap fun b => [b] := by simp
  rw [hflat]
  exact valid_flatMap fun b hb => encode_of_lt (h b hb) ▸ valid_encode _

theorem le_or {x y : UInt8} (h : 128 ≤ y) : 128 ≤ x ||| y := by
  rw [UInt8.le_iff_toNat_le, UInt8.toNat_or]
  exact Nat.le_trans (UInt8.le_iff_toNat_le.1 h) Nat.right_le_or

/-- A character is one byte below 128, or has no such byte. -/
theorem encode_cases (c : Char) :
    (∃ b, b < 128 ∧ String.utf8EncodeChar c = [b]) ∨ ∀ b ∈ String.utf8EncodeChar c, 128 ≤ b := by
  have hpos := c.utf8Size_pos
  have hle := c.utf8Size_le_four
  obtain h | h | h | h : c.utf8Size = 1 ∨ c.utf8Size = 2 ∨ c.utf8Size = 3 ∨ c.utf8Size = 4 := by omega
  · refine .inl ⟨_, ?_, String.utf8EncodeChar_eq_singleton h⟩
    have hval : c.val.toNat ≤ 127 := UInt32.le_iff_toNat_le.1 (Char.utf8Size_eq_one_iff.1 h)
    rw [UInt8.lt_iff_toNat_lt, UInt32.toNat_toUInt8]
    exact Nat.lt_succ_of_le (Nat.le_trans (Nat.mod_le _ _) hval)
  · rw [String.utf8EncodeChar_eq_cons_cons h]
    exact .inr (by simp [le_or])
  · rw [String.utf8EncodeChar_eq_cons_cons_cons h]
    exact .inr (by simp [le_or])
  · rw [String.utf8EncodeChar_eq_cons_cons_cons_cons h]
    exact .inr (by simp [le_or])

/-- What is done with the bytes below 128 alone, and gives such bytes, keeps the characters. -/
theorem Valid.flatMap_ascii {f : UInt8 → List UInt8} (hascii : ∀ b < 128, ∀ x ∈ f b, x < 128) (hkeep : ∀ b, 128 ≤ b → f b = [b])
    (h : Valid bs) : Valid (bs.flatMap f) := by
  obtain ⟨cs, rfl⟩ := valid_iff.1 h
  rw [List.flatMap_assoc]
  refine valid_flatMap fun c _ => ?_
  rcases encode_cases c with ⟨b, hb, heq⟩ | hhigh
  · rw [heq, List.flatMap_singleton]
    exact valid_of_ascii (hascii b hb)
  · have hsame : (String.utf8EncodeChar c).flatMap f = String.utf8EncodeChar c := by
      rw [List.flatMap_congr fun b hb => hkeep b (hhigh b hb)]
      simp
    rw [hsame]
    exact valid_encode c

/-! ## Cuts -/

/-- A sequence may be cut before a byte exactly when the byte begins a character. -/
theorem valid_take_iff (h : Valid bs) {n : Nat} (hn : n < bs.length) : Valid (bs.take n) ↔ bs[n].IsUTF8FirstByte := by
  have hs := (String.Pos.Raw.isValid_iff_isValidUTF8_extract_zero (s := ⟨bs.toByteArray, h⟩) (p := ⟨n⟩)).symm.trans
    String.Pos.Raw.isValid_iff_isUTF8FirstByte
  have hext : bs.toByteArray.extract 0 n = (bs.take n).toByteArray := by
    apply ByteArray.ext
    simp
  have hsize : String.utf8ByteSize ⟨bs.toByteArray, h⟩ = bs.length := by simp [String.utf8ByteSize]
  have hend : (⟨n⟩ : String.Pos.Raw) < String.rawEndPos ⟨bs.toByteArray, h⟩ := by
    simpa [String.Pos.Raw.lt_iff, hsize] using hn
  have hle : (⟨n⟩ : String.Pos.Raw) ≤ String.rawEndPos ⟨bs.toByteArray, h⟩ := by
    simpa [String.Pos.Raw.le_iff, hsize] using Nat.le_of_lt hn
  have hne : (⟨n⟩ : String.Pos.Raw) ≠ String.rawEndPos ⟨bs.toByteArray, h⟩ := by
    simpa [String.Pos.Raw.ext_iff, hsize] using Nat.ne_of_lt hn
  have hbyte : String.getUTF8Byte ⟨bs.toByteArray, h⟩ ⟨n⟩ hend = bs[n] := by
    simp [String.getUTF8Byte, ByteArray.getElem_eq_getElem_data]
  simp only [hext, hle, hne, hend, hbyte, true_and, false_or, exists_true_left] at hs
  exact hs

/-- A byte below 128 begins a character. -/
theorem isUTF8FirstByte_of_lt {b : UInt8} (h : b < 128) : b.IsUTF8FirstByte := by
  have hfirst := UInt8.isUTF8FirstByte_getElem_zero_utf8EncodeChar (c := b.toChar)
  simpa only [encode_of_lt h, List.getElem_cons_zero] using hfirst

/-- The first character is known from the bytes. -/
theorem encode_append_inj {c d : Char} (h : String.utf8EncodeChar c ++ as = String.utf8EncodeChar d ++ bs) : c = d ∧ as = bs := by
  have hc : ((String.utf8EncodeChar c ++ as).toByteArray).utf8DecodeChar? 0 = some c := by
    rw [List.toByteArray_append]
    exact ByteArray.utf8DecodeChar?_utf8EncodeChar_append
  have hd : ((String.utf8EncodeChar d ++ bs).toByteArray).utf8DecodeChar? 0 = some d := by
    rw [List.toByteArray_append]
    exact ByteArray.utf8DecodeChar?_utf8EncodeChar_append
  rw [h, hd, Option.some.injEq] at hc
  subst hc
  exact ⟨rfl, List.append_cancel_left h⟩

/-- What is behind characters. -/
theorem valid_of_append (ha : Valid as) (h : Valid (as ++ bs)) : Valid bs := by
  obtain ⟨cs, rfl⟩ := valid_iff.1 ha
  induction cs with
  | nil => exact h
  | cons c cs ih =>
    obtain ⟨ds, hds⟩ := valid_iff.1 h
    cases ds with
    | nil => simp at hds
    | cons d ds =>
      rw [List.flatMap_cons, List.flatMap_cons, List.append_assoc] at hds
      exact ih (valid_iff.2 ⟨cs, rfl⟩) (valid_iff.2 ⟨ds, (encode_append_inj hds).2⟩)

/-- A byte below 128 is a character of its own. -/
theorem valid_append_cons {b : UInt8} (hb : b < 128) : Valid (as ++ b :: bs) ↔ Valid as ∧ Valid bs := by
  have hone : Valid [b] := valid_of_ascii fun x hx => List.mem_singleton.1 hx ▸ hb
  constructor
  · intro h
    have hn : as.length < (as ++ b :: bs).length := by simp
    have hbyte : (as ++ b :: bs)[as.length] = b := by simp
    have ha : Valid as := by
      have htake := (valid_take_iff h hn).2 (by rw [hbyte]; exact isUTF8FirstByte_of_lt hb)
      rwa [List.take_left' rfl] at htake
    exact ⟨ha, valid_of_append hone (valid_of_append ha h)⟩
  · rintro ⟨ha, hbs⟩
    exact ha.append (hone.append hbs)

end Utf8
