import TeamTalk.LibSecurity.Base64

/-!
# Base64 in both copies

Encoding and decoding undo each other, and the functions of libsecurity compute what those of the base library do. Those are written as
recursions that build the text from its end, these as loops over the members they change.
-/

namespace TeamTalk.LibSecurity

namespace Base64CopiesAux

theorem b64Table_eq : b64Table = Base64.b64Table := by decide

theorem reverseTable_eq : reverseTable = Base64.reverseTable := rfl

theorem put_eq (n : Nat) (retval : Bytes) : put n retval = retval ++ [Base64.b64Char n] := by
  rw [put, b64Table_eq]
  rfl

/-! ## Encoding -/

theorem flush_eq (accumulator bitsCollected : Nat) (retval : Bytes) :
    flush accumulator bitsCollected retval =
      ((Base64.flushBits accumulator bitsCollected).2, retval ++ (Base64.flushBits accumulator bitsCollected).1) := by
  induction bitsCollected using Nat.strong_induction_on generalizing retval with
  | _ n ih =>
    rw [flush, Base64.flushBits]
    split
    · rw [ih (n - 6) (by omega), put_eq, List.append_assoc]
      rfl
    · rw [List.append_nil]

/-- The trailing bits. -/
def Encoder.close (e : Encoder) : Bytes :=
  if e.bitsCollected > 0 then put (e.accumulator <<< (6 - e.bitsCollected) % uint32Size) e.retval else e.retval

/-- The loop writes what the recursion gives, behind what has been written. -/
theorem close_foldl (is : Bytes) (e : Encoder) :
    Encoder.close (is.foldl Encoder.step e) = e.retval ++ Base64.encodeLoop e.accumulator e.bitsCollected is := by
  induction is generalizing e with
  | nil =>
    rw [List.foldl_nil, Encoder.close, Base64.encodeLoop]
    split
    · exact put_eq _ _
    · rw [List.append_nil]
  | cons i is ih =>
    rw [List.foldl_cons, ih, Base64.encodeLoop]
    simp only [Encoder.step, flush_eq, List.append_assoc]

theorem base64Encode_eq (bindata : Bytes) : base64Encode bindata = Base64.base64Encode bindata := by
  have hclose := close_foldl bindata ⟨0, 0, []⟩
  rw [List.nil_append, Encoder.close] at hclose
  simp only [base64Encode, Base64.base64Encode, hclose]

/-! ## Decoding -/

theorem foldlM_step (cs : Bytes) (d : Decoder) :
    (cs.foldlM Decoder.step d).map Decoder.retval =
      (Base64.decodeLoop d.accumulator d.bitsCollected cs).map fun rest => d.retval ++ rest := by
  induction cs generalizing d with
  | nil => simp [Base64.decodeLoop]
  | cons c cs ih =>
    rw [List.foldlM_cons, Decoder.step, Base64.decodeLoop, reverseTable_eq]
    split
    · exact ih d
    · split
      · rfl
      · simp only
        split
        · refine (ih _).trans ?_
          simp [Option.map_map, Function.comp_def]
        · exact ih _

theorem base64Decode_eq (ascdata : Bytes) : base64Decode ascdata = Base64.base64Decode ascdata := by
  rw [base64Decode, Base64.base64Decode, foldlM_step]
  simp

end Base64CopiesAux

open Base64CopiesAux

/-- What is encoded is decoded to itself and encoded again to the same, in both copies. No string is longer than the bound, which the code
checks. -/
theorem base64_bijection (s : Bytes) (h : s.length ≤ Base64.maxSize / 4 * 3) :
    Base64.base64Decode (Base64.base64Encode s) = s ∧
    (∀ t, (∃ s, Base64.base64Encode s = t) → Base64.base64Encode (Base64.base64Decode t) = t) ∧
    ∀ t, base64Encode t = Base64.base64Encode t ∧ base64Decode t = Base64.base64Decode t := by
  refine ⟨Base64.base64Decode_base64Encode h, ?_, fun t => ⟨base64Encode_eq t, base64Decode_eq t⟩⟩
  rintro _ ⟨s, rfl⟩
  by_cases hs : s.length ≤ Base64.maxSize / 4 * 3
  · rw [Base64.base64Decode_base64Encode hs]
  · have hempty : Base64.base64Encode s = [] := by rw [Base64.base64Encode, if_pos (Nat.lt_of_not_le hs)]
    rw [hempty]
    decide

/-- Three bytes and one more. -/
theorem base64_bijection_four : Base64.base64Decode (Base64.base64Encode [77, 97, 110, 0]) = [77, 97, 110, 0] :=
  (base64_bijection [77, 97, 110, 0] (by decide)).1

end TeamTalk.LibSecurity
