import TeamTalk.Lib.Framing
import TeamTalk.Base.UtilPdu

/-!
# PDUs

A PDU is a 16-byte header and a body; the header's first field is the length of the whole. `CImPdu::ReadPdu` takes one off
the front of a buffer. As a format of byte sequences, PDUs are self-delimiting.
-/

namespace TeamTalk

/-- `IM_PDU_HEADER_LEN`. -/
abbrev pduHeaderLen : Nat := 16

/-- `PduHeader_t`. -/
structure PduHeader where
  length : Nat
  version : Nat
  flag : Nat
  serviceId : Nat
  commandId : Nat
  seqNum : Nat
  reversed : Nat
  deriving DecidableEq, Repr

/-- `CImPdu`: the header's fields beside the bytes of the whole PDU. -/
structure ImPdu where
  buf : SimpleBuffer
  pduHeader : PduHeader
  deriving DecidableEq, Repr

namespace ImPdu

open SimpleBuffer ByteStream

/-- `CImPdu::GetLength`. -/
def getLength (pdu : ImPdu) : Nat := pdu.buf.writeOffset

/-- The bytes of the PDU: `GetLength` many from `GetBuffer` on. -/
def bytes (pdu : ImPdu) : Bytes := pdu.buf.contents

/-- `CImPdu::GetCommandId`. -/
def getCommandId (pdu : ImPdu) : Nat := pdu.pduHeader.commandId

/-- `CImPdu::ReadPduHeader`. -/
def readPduHeader (buf : Bytes) : Exec PduHeader := do
  return {
    length := ← readUint32 buf 0
    version := ← readUint16 buf 4
    flag := ← readUint16 buf 6
    serviceId := ← readUint16 buf 8
    commandId := ← readUint16 buf 10
    seqNum := ← readUint16 buf 12
    reversed := ← readUint16 buf 14 }

/-- What `IsPduAvailable` throws. -/
def pduLenZero : PduException := { serviceId := 0, commandId := 0, errorCode := 1, errorMsg := "pdu_len is 0" }

/-- `CImPdu::IsPduAvailable`: the length of the first PDU, when all of it has arrived. -/
def isPduAvailable (buf : Bytes) (len : Nat) : Exec (Option Nat) := do
  if len < pduHeaderLen then return none
  let pduLen ← readUint32 buf 0
  if pduLen > len then return none
  if pduLen = 0 then throw (.pduException pduLenZero)
  return some pduLen

/-- `CImPdu::ReadPdu`: a copy of the first PDU, when all of it has arrived. -/
def readPdu (buf : Bytes) (len : Nat) : Exec (Option ImPdu) := do
  match ← isPduAvailable buf len with
  | none => return none
  | some pduLen =>
    let copy ← init.write (some buf) pduLen
    return some { buf := copy, pduHeader := ← readPduHeader buf }

/-! ### The format -/

/-- The length field of a header. -/
def lengthField : Bytes → Nat
  | b0 :: b1 :: b2 :: b3 :: _ => b0.toNat * 2 ^ 24 + b1.toNat * 2 ^ 16 + b2.toNat * 2 ^ 8 + b3.toNat
  | _ => 0

theorem lengthField_lt (xs : Bytes) : lengthField xs < uint32Size := by
  unfold lengthField
  split
  · rename_i b0 b1 b2 b3 _
    have h0 := b0.toNat_lt
    have h1 := b1.toNat_lt
    have h2 := b2.toNat_lt
    have h3 := b3.toNat_lt
    simp only [uint32Size]
    omega
  · exact Nat.two_pow_pos 32

/-- The length field is in the first four bytes. -/
theorem lengthField_append {xs : Bytes} (h : 4 ≤ xs.length) (ys : Bytes) : lengthField (xs ++ ys) = lengthField xs := by
  match xs, h with
  | _ :: _ :: _ :: _ :: _, _ => rfl

theorem lengthField_take {xs : Bytes} {n : Nat} (hn : 4 ≤ n) (hxs : 4 ≤ xs.length) :
    lengthField (xs.take n) = lengthField xs := by
  have happ := @lengthField_append (xs.take n) (by rw [List.length_take]; omega) (xs.drop n)
  rw [List.take_append_drop] at happ
  exact happ.symm

theorem readUint32_eq_lengthField {xs : Bytes} (h : 4 ≤ xs.length) : readUint32 xs 0 = .ok (lengthField xs) := by
  match xs, h with
  | b0 :: b1 :: b2 :: b3 :: rest, _ => exact readUint32_cons b0 b1 b2 b3 rest

/-- A header whose length field is zero is at the front. -/
def ZeroLength (xs : Bytes) : Prop := pduHeaderLen ≤ xs.length ∧ lengthField xs = 0

/-- The length of the PDU at the front, when all of it is there. -/
def frontLength (xs : Bytes) : Option Nat :=
  if pduHeaderLen ≤ xs.length ∧ 0 < lengthField xs ∧ lengthField xs ≤ xs.length then some (lengthField xs) else none

/-- The front PDU's length is the length field. -/
theorem frontLength_eq_some {xs : Bytes} {n : Nat} :
    frontLength xs = some n ↔ pduHeaderLen ≤ xs.length ∧ 0 < n ∧ n ≤ xs.length ∧ n = lengthField xs := by
  unfold frontLength
  split
  · rename_i h
    rw [Option.some.injEq]
    constructor
    · rintro rfl
      exact ⟨h.1, h.2.1, h.2.2, rfl⟩
    · exact fun hn => hn.2.2.2.symm
  · rename_i h
    constructor
    · intro hn
      cases hn
    · rintro ⟨h1, h2, h3, rfl⟩
      exact absurd ⟨h1, h2, h3⟩ h

/-- PDUs one after the other, as the read loops cut them off. -/
def format : Framing.Format UInt8 where
  next xs := (frontLength xs).map fun n => (xs.take n, xs.drop n)
  split := by
    intro xs f r h
    obtain ⟨n, _, hn⟩ := Option.map_eq_some_iff.1 h
    rw [Prod.mk.injEq] at hn
    rw [← hn.1, ← hn.2, List.take_append_drop]
  nonempty := by
    intro xs f r h hf
    obtain ⟨n, hfl, hn⟩ := Option.map_eq_some_iff.1 h
    obtain ⟨_, h0, hle, _⟩ := frontLength_eq_some.1 hfl
    rw [Prod.mk.injEq, hf] at hn
    have hlen := congrArg List.length hn.1
    rw [List.length_take, List.length_nil] at hlen
    omega
  extend := by
    intro xs f r h ys
    obtain ⟨n, hfl, hn⟩ := Option.map_eq_some_iff.1 h
    obtain ⟨h16, h0, hle, hlf⟩ := frontLength_eq_some.1 hfl
    rw [Prod.mk.injEq] at hn
    have hfl' : frontLength (xs ++ ys) = some n := by
      refine frontLength_eq_some.2 ⟨?_, h0, ?_, ?_⟩
      · rw [List.length_append]
        omega
      · rw [List.length_append]
        omega
      · rw [lengthField_append (Nat.le_trans (by decide) h16), hlf]
    rw [hfl', Option.map_some, List.take_append_of_le_length hle, List.drop_append_of_le_length hle, hn.1, hn.2]

/-- No frame is at the front exactly when no whole PDU is. -/
theorem incomplete_iff {xs : Bytes} : format.Incomplete xs ↔ frontLength xs = none := by
  simp only [Framing.Format.Incomplete, format, Option.map_eq_none_iff]

/-- A header of length zero is no frame. -/
theorem ZeroLength.incomplete {xs : Bytes} (h : ZeroLength xs) : format.Incomplete xs := by
  rw [incomplete_iff, frontLength, if_neg]
  rintro ⟨_, h0, _⟩
  have := h.2
  omega

/-- More data does not change the length field. -/
theorem ZeroLength.append {xs : Bytes} (h : ZeroLength xs) (ys : Bytes) : ZeroLength (xs ++ ys) := by
  refine ⟨?_, ?_⟩
  · rw [List.length_append]
    have := h.1
    omega
  · rw [lengthField_append (Nat.le_trans (by decide) h.1)]
    exact h.2

/-- Cutting off the first PDU, in terms of its length. -/
theorem next_eq_some {xs f r : Bytes} (h : format.next xs = some (f, r)) :
    frontLength xs = some f.length ∧ f = xs.take f.length ∧ r = xs.drop f.length := by
  obtain ⟨n, hfl, hn⟩ := Option.map_eq_some_iff.1 h
  have hle := (frontLength_eq_some.1 hfl).2.2.1
  rw [Prod.mk.injEq] at hn
  have hl : f.length = n := by
    rw [← hn.1, List.length_take]
    omega
  rw [hl]
  exact ⟨hfl, hn.1.symm, hn.2.symm⟩

/-- A well-formed PDU: it has a whole header, and its length field is its size. -/
def WellFormed (p : Bytes) : Prop := pduHeaderLen ≤ p.length ∧ lengthField p = p.length

instance (p : Bytes) : Decidable (WellFormed p) := inferInstanceAs (Decidable (_ ∧ _))

/-- A well-formed PDU is a frame. -/
theorem WellFormed.frame {p : Bytes} (h : WellFormed p) : format.Frame p := by
  have h0 : 0 < p.length := Nat.lt_of_lt_of_le (by decide) h.1
  have hfl : frontLength p = some p.length := frontLength_eq_some.2 ⟨h.1, h0, Nat.le_refl _, h.2.symm⟩
  simp only [Framing.Format.Frame, format, hfl, Option.map_some, List.take_length, List.drop_length]

/-- A proper prefix of a well-formed PDU has no complete frame, and no header of length zero. -/
theorem WellFormed.prefix_incomplete {q t : Bytes} (h : WellFormed q) (ht : t <+: q) (hne : t ≠ q) :
    format.Incomplete t ∧ ¬ZeroLength t := by
  obtain ⟨s, rfl⟩ := ht
  have hs : 0 < s.length := List.length_pos_of_ne_nil fun hs => hne (by rw [hs, List.append_nil])
  have hlen := h.2
  rw [List.length_append] at hlen
  by_cases h4 : 4 ≤ t.length
  · rw [lengthField_append h4] at hlen
    constructor
    · rw [incomplete_iff, frontLength, if_neg]
      omega
    · intro hz
      have := hz.2
      omega
  · constructor
    · rw [incomplete_iff, frontLength, if_neg]
      rintro ⟨h16, _⟩
      exact h4 (Nat.le_trans (by decide) h16)
    · rintro ⟨h16, _⟩
      exact h4 (Nat.le_trans (by decide) h16)

/-! ### The PDU at the front of a block of memory -/

/-- The header that a sequence of at least 16 bytes begins with. -/
def header : Bytes → PduHeader
  | b0 :: b1 :: b2 :: b3 :: b4 :: b5 :: b6 :: b7 :: b8 :: b9 :: b10 :: b11 :: b12 :: b13 :: b14 :: b15 :: _ =>
    { length := b0.toNat * 2 ^ 24 + b1.toNat * 2 ^ 16 + b2.toNat * 2 ^ 8 + b3.toNat
      version := b4.toNat * 2 ^ 8 + b5.toNat
      flag := b6.toNat * 2 ^ 8 + b7.toNat
      serviceId := b8.toNat * 2 ^ 8 + b9.toNat
      commandId := b10.toNat * 2 ^ 8 + b11.toNat
      seqNum := b12.toNat * 2 ^ 8 + b13.toNat
      reversed := b14.toNat * 2 ^ 8 + b15.toNat }
  | _ => { length := 0, version := 0, flag := 0, serviceId := 0, commandId := 0, seqNum := 0, reversed := 0 }

/-- The PDU that `ReadPdu` makes of these bytes. -/
def ofBytes (f : Bytes) : ImPdu :=
  { buf := ⟨f ++ List.replicate (f.length / 4) 0, f.length⟩, pduHeader := header f }

@[simp] theorem bytes_ofBytes (f : Bytes) : (ofBytes f).bytes = f := by
  simp only [bytes, ofBytes, contents]
  exact List.take_left' rfl

@[simp] theorem getLength_ofBytes (f : Bytes) : (ofBytes f).getLength = f.length := rfl

/-- The header of a sequence of at least 16 bytes can be read. -/
theorem readPduHeader_eq_header {xs : Bytes} (h : pduHeaderLen ≤ xs.length) : readPduHeader xs = .ok (header xs) := by
  match xs, h with
  | b0 :: b1 :: b2 :: b3 :: b4 :: b5 :: b6 :: b7 :: b8 :: b9 :: b10 :: b11 :: b12 :: b13 :: b14 :: b15 :: rest, _ =>
    rfl

/-- The header is in the first 16 bytes. -/
theorem header_append {xs : Bytes} (h : pduHeaderLen ≤ xs.length) (ys : Bytes) : header (xs ++ ys) = header xs := by
  match xs, h with
  | b0 :: b1 :: b2 :: b3 :: b4 :: b5 :: b6 :: b7 :: b8 :: b9 :: b10 :: b11 :: b12 :: b13 :: b14 :: b15 :: rest, _ =>
    rfl

/-- What `IsPduAvailable` says of data that lies within its block. -/
theorem isPduAvailable_eq {buf : Bytes} {len : Nat} (h : len ≤ buf.length) (hz : ¬ZeroLength (buf.take len)) :
    isPduAvailable buf len = .ok (frontLength (buf.take len)) := by
  have hl : (buf.take len).length = len := by
    rw [List.length_take]
    omega
  by_cases h16 : pduHeaderLen ≤ len
  · have h4 : 4 ≤ (buf.take len).length := by
      rw [hl]
      exact Nat.le_trans (by decide) h16
    have hlf : lengthField buf = lengthField (buf.take len) := by
      conv_lhs => rw [← List.take_append_drop len buf]
      exact lengthField_append h4 _
    have hr : readUint32 buf 0 = .ok (lengthField (buf.take len)) := by
      rw [← hlf]
      exact readUint32_eq_lengthField (Nat.le_trans h4 (by rw [hl]; exact h))
    have h0 : lengthField (buf.take len) ≠ 0 := fun h0 => hz ⟨by rw [hl]; exact h16, h0⟩
    have hn : ¬len < pduHeaderLen := Nat.not_lt.2 h16
    simp only [isPduAvailable, if_neg hn, hr, bind, Except.bind, pure, Except.pure, if_neg h0, frontLength, hl]
    by_cases hle : lengthField (buf.take len) ≤ len
    · rw [if_neg (Nat.not_lt.2 hle), if_pos ⟨h16, Nat.pos_of_ne_zero h0, hle⟩]
    · rw [if_pos (Nat.lt_of_not_le hle), if_neg fun hh => hle hh.2.2]
  · have hn : len < pduHeaderLen := Nat.lt_of_not_le h16
    have hfl : frontLength (buf.take len) = none := by
      rw [frontLength, if_neg fun hh => h16 (hl ▸ hh.1)]
    simp only [isPduAvailable, if_pos hn, pure, Except.pure, hfl]

/-- Without a whole PDU at the front, `ReadPdu` gives none. -/
theorem readPdu_none {buf : Bytes} {len : Nat} (h : len ≤ buf.length) (hz : ¬ZeroLength (buf.take len))
    (hf : frontLength (buf.take len) = none) : readPdu buf len = .ok none := by
  simp only [readPdu, isPduAvailable_eq h hz, hf, bind, Except.bind, pure, Except.pure]

/-- A whole PDU at the front is copied, unless its size and a quarter exceed a `uint32_t`: then the copy does not fit the
block allocated for it. -/
theorem readPdu_some {buf : Bytes} {len n : Nat} (h : len ≤ buf.length) (h16 : pduHeaderLen ≤ n)
    (hf : frontLength (buf.take len) = some n) :
    readPdu buf len = if ExtendFits 0 n then .ok (some (ofBytes (buf.take n))) else .error .undefinedBehaviour := by
  obtain ⟨_, h0, hle, hlf⟩ := frontLength_eq_some.1 hf
  have hl : (buf.take len).length = len := by
    rw [List.length_take]
    omega
  rw [hl] at hle
  have hz : ¬ZeroLength (buf.take len) := fun hz => by
    have := hz.2
    omega
  have hlt : n < uint32Size := by
    rw [hlf]
    exact lengthField_lt _
  have hhd : readPduHeader buf = .ok (header (buf.take n)) := by
    have hl' : pduHeaderLen ≤ (buf.take n).length := by
      rw [List.length_take]
      omega
    conv_lhs => rw [← List.take_append_drop n buf]
    rw [readPduHeader_eq_header (by rw [List.length_append]; omega), header_append hl']
  have hn : (buf.take n).length = n := by
    rw [List.length_take]
    omega
  simp only [readPdu, isPduAvailable_eq h hz, hf, bind, Except.bind, write_init buf n h0 (by omega) hlt]
  by_cases hfit : ExtendFits 0 n
  · simp only [if_pos hfit, hhd, pure, Except.pure, ofBytes, hn]
  · simp only [if_neg hfit]

end ImPdu

end TeamTalk
