import Mathlib

/-!
# Buffers and byte streams

`CSimpleBuffer` and the big-endian reads and writes of `CByteStream`. Offsets and sizes are `uint32_t`, so every sum of
them is taken modulo `2 ^ 32`. An access outside the allocated block has no defined result.
-/

namespace TeamTalk

/-- Bytes, as they stand in memory and on the wire. -/
abbrev Bytes := List UInt8

/-- What `CPduException` carries. -/
structure PduException where
  serviceId : Nat
  commandId : Nat
  errorCode : Nat
  errorMsg : String
  deriving DecidableEq, Repr

/-- How a computation can fail to return: it throws a `CPduException`, or it does what C++ leaves undefined (an access out
of bounds, a null dereference). `outOfFuel` belongs to the model: a loop that was given too few turns. -/
inductive Fault where
  | pduException (e : PduException)
  | undefinedBehaviour
  | outOfFuel
  deriving DecidableEq, Repr

/-- A computation that may fail. -/
abbrev Exec := Except Fault

/-- The modulus of `uint32_t`. -/
abbrev uint32Size : Nat := 2 ^ 32

/-- The first number that an `int` does not hold. -/
abbrev intSize : Nat := 2 ^ 31

/-! ## Memory -/

/-- `memcpy` from a block: `len` bytes from `offset` on. -/
def readAt (block : Bytes) (offset len : Nat) : Exec Bytes :=
  if offset + len ≤ block.length then .ok ((block.drop offset).take len) else .error .undefinedBehaviour

/-- `memcpy` into a block, at `offset`. -/
def copyAt (block : Bytes) (offset : Nat) (data : Bytes) : Exec Bytes :=
  if offset + data.length ≤ block.length then
    .ok (block.take offset ++ data ++ block.drop (offset + data.length))
  else .error .undefinedBehaviour

/-- `realloc`: the bytes that fit the new size stay. What the fresh bytes hold is not specified; the model fills them with
zeros. -/
def realloc (block : Bytes) (size : Nat) : Bytes :=
  block.take size ++ List.replicate (size - block.length) 0

@[simp] theorem length_realloc (block : Bytes) (size : Nat) : (realloc block size).length = size := by
  simp only [realloc, List.length_append, List.length_take, List.length_replicate]
  omega

/-- Growing a block keeps its front. -/
theorem take_realloc {block : Bytes} {size n : Nat} (hn : n ≤ block.length) (hs : n ≤ size) :
    (realloc block size).take n = block.take n := by
  rw [realloc, List.take_append_of_le_length (by simp only [List.length_take]; omega), List.take_take, Nat.min_eq_left hs]

/-! ## `CSimpleBuffer` -/

/-- `CSimpleBuffer`: `m_alloc_size` is the length of the allocated block, and the first `m_write_offset` bytes of it are
the data. -/
structure SimpleBuffer where
  buffer : Bytes
  writeOffset : Nat
  deriving DecidableEq, Repr

namespace SimpleBuffer

/-- A new buffer has no block. -/
def init : SimpleBuffer := ⟨[], 0⟩

/-- `m_alloc_size`. -/
def allocSize (b : SimpleBuffer) : Nat := b.buffer.length

/-- The data in the buffer. -/
def contents (b : SimpleBuffer) : Bytes := b.buffer.take b.writeOffset

/-- The size that `Extend` asks `realloc` for: what is needed and a quarter more, in `uint32_t`. -/
def extendedSize (writeOffset len : Nat) : Nat :=
  let allocSize := (writeOffset + len) % uint32Size
  (allocSize + allocSize / 4) % uint32Size

/-- `CSimpleBuffer::Extend`. -/
def extend (b : SimpleBuffer) (len : Nat) : SimpleBuffer :=
  { b with buffer := realloc b.buffer (extendedSize b.writeOffset len) }

/-- `CSimpleBuffer::Write`. The source is the memory behind `buf`, or `none` for a null pointer: then only the offset
moves. -/
def write (b : SimpleBuffer) (buf : Option Bytes) (len : Nat) : Exec SimpleBuffer := do
  let b := if (b.writeOffset + len) % uint32Size > b.allocSize then b.extend len else b
  let buffer ← match buf with
    | some block => do copyAt b.buffer b.writeOffset (← readAt block 0 len)
    | none => pure b.buffer
  return { buffer, writeOffset := (b.writeOffset + len) % uint32Size }

/-- `CSimpleBuffer::Read` with a null pointer for the destination: the first `len` bytes are dropped. -/
def readNull (b : SimpleBuffer) (len : Nat) : Exec SimpleBuffer := do
  let len := if len > b.writeOffset then b.writeOffset else len
  let writeOffset := b.writeOffset - len
  let moved ← readAt b.buffer len writeOffset
  return { buffer := ← copyAt b.buffer 0 moved, writeOffset }

/-! ### What holds of a buffer in use -/

/-- The data lies within the block, and the block's size is a `uint32_t`. -/
structure Valid (b : SimpleBuffer) : Prop where
  offset_le : b.writeOffset ≤ b.buffer.length
  alloc_lt : b.buffer.length < uint32Size

/-- `Extend` does not wrap around: the size it asks for is at least what is needed. -/
def ExtendFits (writeOffset len : Nat) : Prop :=
  writeOffset + len + (writeOffset + len) / 4 < uint32Size

instance (writeOffset len : Nat) : Decidable (ExtendFits writeOffset len) := inferInstanceAs (Decidable (_ < _))

/-- The block was made smaller than the data: some of it is lost. -/
def Torn (b : SimpleBuffer) : Prop := b.buffer.length < b.writeOffset ∧ b.writeOffset < uint32Size

theorem valid_init : init.Valid := ⟨Nat.le_refl 0, by decide⟩

theorem length_contents {b : SimpleBuffer} (h : b.Valid) : b.contents.length = b.writeOffset := by
  simp only [contents, List.length_take]
  exact Nat.min_eq_left h.offset_le

/-- The data of a torn buffer is too short. -/
theorem Torn.length_contents_lt {b : SimpleBuffer} (h : b.Torn) : b.contents.length < b.writeOffset := by
  simp only [contents, List.length_take]
  exact Nat.lt_of_le_of_lt (Nat.min_le_right _ _) h.1

/-- Without a wrap the size is the sum and a quarter. -/
theorem extendedSize_of_fits {writeOffset len : Nat} (h : ExtendFits writeOffset len) :
    extendedSize writeOffset len = writeOffset + len + (writeOffset + len) / 4 := by
  unfold ExtendFits at h
  have hlt : writeOffset + len < uint32Size := by omega
  simp only [extendedSize, Nat.mod_eq_of_lt hlt, Nat.mod_eq_of_lt h]

/-- After a wrap the size is less than a quarter of the sum, or a quarter more than what the sum exceeds `2 ^ 32` by. -/
theorem extendedSize_of_not_fits {writeOffset len : Nat} (h : ¬ExtendFits writeOffset len) (ho : writeOffset < uint32Size)
    (hl : len < uint32Size) :
    extendedSize writeOffset len < (writeOffset + len) / 4 ∨
      uint32Size ≤ writeOffset + len ∧
        extendedSize writeOffset len ≤ writeOffset + len - uint32Size + (writeOffset + len - uint32Size) / 4 := by
  unfold ExtendFits at h
  by_cases hs : writeOffset + len < uint32Size
  · left
    simp only [extendedSize, Nat.mod_eq_of_lt hs]
    simp only [uint32Size] at *
    omega
  · right
    have hm : (writeOffset + len) % uint32Size = writeOffset + len - uint32Size := by
      simp only [uint32Size] at *
      omega
    refine ⟨by omega, ?_⟩
    simp only [extendedSize, hm]
    exact Nat.mod_le _ _

/-- Growing without a wrap keeps the data. -/
theorem contents_extend {b : SimpleBuffer} (h : b.Valid) {len : Nat} (hf : ExtendFits b.writeOffset len) :
    (b.extend len).contents = b.contents := by
  simp only [extend, contents]
  exact take_realloc h.offset_le (by rw [extendedSize_of_fits hf]; omega)

theorem valid_extend {b : SimpleBuffer} {len : Nat} (hf : ExtendFits b.writeOffset len) : (b.extend len).Valid := by
  constructor
  · simp only [extend, length_realloc, extendedSize_of_fits hf]
    omega
  · simp only [extend, length_realloc, extendedSize_of_fits hf]
    exact hf

/-- The dropped bytes leave the front, the rest moves there. -/
theorem readNull_of_valid {b : SimpleBuffer} (h : b.Valid) {len : Nat} (hl : len ≤ b.writeOffset) :
    ∃ b' : SimpleBuffer, b.readNull len = .ok b' ∧ b'.Valid ∧ b'.contents = b.contents.drop len ∧
      b'.buffer.length = b.buffer.length := by
  have ho := h.offset_le
  have hlen : ((b.buffer.drop len).take (b.writeOffset - len)).length = b.writeOffset - len := by
    simp only [List.length_take, List.length_drop]
    omega
  have hr : readAt b.buffer len (b.writeOffset - len) = .ok ((b.buffer.drop len).take (b.writeOffset - len)) := by
    rw [readAt, if_pos (by omega)]
  have hc : copyAt b.buffer 0 ((b.buffer.drop len).take (b.writeOffset - len)) =
      .ok ((b.buffer.drop len).take (b.writeOffset - len) ++ b.buffer.drop (b.writeOffset - len)) := by
    rw [copyAt, if_pos (by rw [hlen]; omega), hlen]
    simp
  refine ⟨⟨(b.buffer.drop len).take (b.writeOffset - len) ++ b.buffer.drop (b.writeOffset - len), b.writeOffset - len⟩,
    ?_, ⟨?_, ?_⟩, ?_, ?_⟩
  · have hif : (if len > b.writeOffset then b.writeOffset else len) = len := if_neg (by omega)
    simp only [readNull, hif, hr, bind, Except.bind, hc, pure, Except.pure]
  · simp only [List.length_append, hlen, List.length_drop]
    omega
  · simp only [List.length_append, hlen, List.length_drop]
    have := h.alloc_lt
    omega
  · simp only [contents, List.drop_take]
    rw [List.take_append_of_le_length (by omega), List.take_of_length_le (by omega)]
  · simp only [List.length_append, hlen, List.length_drop]
    omega

/-- Bytes cannot be dropped from a torn buffer: moving the rest reads beyond the block. -/
theorem Torn.readNull {b : SimpleBuffer} (h : b.Torn) (len : Nat) : b.readNull len = .error .undefinedBehaviour := by
  have hif : (if len > b.writeOffset then b.writeOffset else len) ≤ b.writeOffset := by
    split <;> omega
  have hr : readAt b.buffer (if len > b.writeOffset then b.writeOffset else len)
      (b.writeOffset - (if len > b.writeOffset then b.writeOffset else len)) = .error .undefinedBehaviour := by
    rw [readAt, if_neg]
    have := h.1
    omega
  simp only [SimpleBuffer.readNull, hr, bind, Except.bind]

/-- Writing into a new buffer copies the bytes, unless the size wraps around: then the block is too small for them. -/
theorem write_init (block : Bytes) (len : Nat) (h0 : 0 < len) (hlen : len ≤ block.length) (hlt : len < uint32Size) :
    init.write (some block) len =
      if ExtendFits 0 len then .ok ⟨block.take len ++ List.replicate (len / 4) 0, len⟩ else .error .undefinedBehaviour := by
  have hb : (if (init.writeOffset + len) % uint32Size > init.allocSize then init.extend len else init) = init.extend len := by
    refine if_pos ?_
    simp only [init, allocSize, List.length_nil, Nat.zero_add, Nat.mod_eq_of_lt hlt]
    exact h0
  have hr : readAt block 0 len = .ok (block.take len) := by
    rw [readAt, if_pos (by omega), List.drop_zero]
  have htl : (block.take len).length = len := by
    rw [List.length_take]
    omega
  by_cases hf : ExtendFits 0 len
  · have hs := extendedSize_of_fits hf
    simp only [Nat.zero_add] at hs
    have hc : copyAt (init.extend len).buffer (init.extend len).writeOffset (block.take len) =
        .ok (block.take len ++ List.replicate (len / 4) 0) := by
      rw [copyAt, if_pos]
      · simp only [extend, init, Nat.zero_add, hs, realloc, htl, List.take_zero, List.take_nil, List.nil_append,
          List.length_nil, Nat.sub_zero, List.drop_replicate, Nat.add_sub_cancel_left]
      · simp only [extend, init, length_realloc, hs, htl]
        omega
    have hw : ((init.extend len).writeOffset + len) % uint32Size = len := by
      simp only [extend, init, Nat.zero_add, Nat.mod_eq_of_lt hlt]
    simp only [write, hb, hr, bind, Except.bind, pure, Except.pure, hc, hw, if_pos hf]
  · have hn : ¬((init.extend len).writeOffset + (block.take len).length ≤ (init.extend len).buffer.length) := by
      simp only [extend, init, length_realloc, htl, Nat.zero_add]
      rcases extendedSize_of_not_fits hf (by decide) hlt with h | h <;> simp only [Nat.zero_add] at h <;> omega
    have hc : copyAt (init.extend len).buffer (init.extend len).writeOffset (block.take len) =
        .error .undefinedBehaviour := by
      rw [copyAt, if_neg hn]
    simp only [write, hb, hr, bind, Except.bind, hc, if_neg hf]

end SimpleBuffer

/-! ## `CByteStream` -/

namespace ByteStream

/-- `CByteStream::ReadUint16`. -/
def readUint16 (buf : Bytes) (offset : Nat) : Exec Nat := do
  match ← readAt buf offset 2 with
  | [b0, b1] => return b0.toNat * 2 ^ 8 + b1.toNat
  | _ => throw .undefinedBehaviour

/-- `CByteStream::ReadUint32`. -/
def readUint32 (buf : Bytes) (offset : Nat) : Exec Nat := do
  match ← readAt buf offset 4 with
  | [b0, b1, b2, b3] => return b0.toNat * 2 ^ 24 + b1.toNat * 2 ^ 16 + b2.toNat * 2 ^ 8 + b3.toNat
  | _ => throw .undefinedBehaviour

/-- `CByteStream::WriteUint16`: the two bytes. -/
def writeUint16 (data : Nat) : Bytes := [UInt8.ofNat (data / 2 ^ 8), UInt8.ofNat data]

/-- `CByteStream::WriteUint32`: the four bytes. -/
def writeUint32 (data : Nat) : Bytes :=
  [UInt8.ofNat (data / 2 ^ 24), UInt8.ofNat (data / 2 ^ 16), UInt8.ofNat (data / 2 ^ 8), UInt8.ofNat data]

/-- The four bytes at the front. -/
theorem readUint32_cons (b0 b1 b2 b3 : UInt8) (rest : Bytes) :
    readUint32 (b0 :: b1 :: b2 :: b3 :: rest) 0 =
      .ok (b0.toNat * 2 ^ 24 + b1.toNat * 2 ^ 16 + b2.toNat * 2 ^ 8 + b3.toNat) := by
  have hr : readAt (b0 :: b1 :: b2 :: b3 :: rest) 0 4 = .ok [b0, b1, b2, b3] := by
    rw [readAt, if_pos (by simp only [List.length_cons]; omega)]
    rfl
  simp only [readUint32, hr, bind, Except.bind, pure, Except.pure]

/-- What was written is read back. -/
theorem readUint32_writeUint32 {data : Nat} (h : data < uint32Size) (rest : Bytes) :
    readUint32 (writeUint32 data ++ rest) 0 = .ok data := by
  simp only [writeUint32, List.cons_append, List.nil_append, readUint32_cons, UInt8.toNat_ofNat', Except.ok.injEq]
  simp only [uint32Size] at h
  omega

end ByteStream

end TeamTalk
