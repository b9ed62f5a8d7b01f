import TeamTalk.Base.UtilPdu

/-!
# `CByteStream`

A stream over a raw buffer, which is read, and a stream over a `CSimpleBuffer`, which is written. Positions are `uint32_t`, and so is
what the checks compare with the length.
-/

namespace TeamTalk

/-- A number from its bytes, the highest first. -/
def bigEndian (bytes : Bytes) : Nat := bytes.foldl (fun n byte => n * 2 ^ 8 + byte.toNat) 0

/-! ## Reading -/

/-- A `CByteStream` over a raw buffer: `m_pBuf`, `m_len` and `m_pos`. -/
structure InStream where
  buf : Bytes
  len : Nat
  pos : Nat
  deriving DecidableEq, Repr

/-- The integer types that have an operator `>>`, by their size. A signed one stores the same bytes. -/
inductive IntWidth where
  | one
  | two
  | four
  deriving DecidableEq, Repr

/-- `sizeof`. -/
def IntWidth.size : IntWidth → Nat
  | .one => 1
  | .two => 2
  | .four => 4

/-- What the checks of a stream throw. -/
def parseFailed : Fault := .pduException ⟨0, 0, 1, "parase packet failed!"⟩

namespace InStream

/-- The constructor, for a buffer and its length. -/
def new (buf : Bytes) : InStream := ⟨buf, buf.length, 0⟩

/-- `_ReadByte`. -/
def readByte (s : InStream) (len : Nat) : Exec (Bytes × InStream) := do
  if (s.pos + len) % uint32Size > s.len then throw parseFailed
  let bytes ← readAt s.buf s.pos len
  return (bytes, { s with pos := (s.pos + len) % uint32Size })

/-- `Skip`. -/
def skip (s : InStream) (len : Nat) : Exec InStream :=
  if (s.pos + len) % uint32Size > s.len then .error parseFailed else .ok { s with pos := (s.pos + len) % uint32Size }

/-- The operators `>>`. -/
def get (s : InStream) (width : IntWidth) : Exec (Nat × InStream) := do
  let read ← s.readByte width.size
  return (bigEndian read.1, read.2)

/-- Memory that a pointer and a length denote. -/
structure Range where
  start : Nat
  length : Nat
  deriving DecidableEq, Repr

/-- A length and as many bytes: where they are. -/
def readRange (s : InStream) : Exec (Range × InStream) := do
  let got ← s.get .four
  let s ← got.2.skip got.1
  return (⟨got.2.pos, got.1⟩, s)

/-- `ReadString`. -/
def readString (s : InStream) : Exec (Range × InStream) := s.readRange

/-- `ReadData`. -/
def readData (s : InStream) : Exec (Range × InStream) := s.readRange

/-! ### What holds of a stream in use -/

/-- The length is that of the buffer, and the position lies within. -/
structure Valid (s : InStream) : Prop where
  len_eq : s.len = s.buf.length
  len_lt : s.len < uint32Size
  pos_le : s.pos ≤ s.len

theorem valid_new {buf : Bytes} (h : buf.length < uint32Size) : (new buf).Valid := ⟨rfl, h, Nat.zero_le _⟩

variable {s : InStream} {len : Nat}

/-- The bytes at a position. -/
def bytesAt (s : InStream) (len : Nat) : Bytes := (s.buf.drop s.pos).take len

/-- Bytes that are there are read. -/
theorem readByte_ok (h : s.Valid) (hfits : s.pos + len ≤ s.len) : s.readByte len = .ok (s.bytesAt len, { s with pos := s.pos + len }) := by
  have hmod : (s.pos + len) % uint32Size = s.pos + len := Nat.mod_eq_of_lt (Nat.lt_of_le_of_lt hfits h.len_lt)
  have hread : readAt s.buf s.pos len = .ok (s.bytesAt len) := if_pos (h.len_eq ▸ hfits)
  rw [readByte, hmod, if_neg (Nat.not_lt.2 hfits), hread]
  rfl

/-- Bytes behind the end throw. -/
theorem readByte_throws (hbeyond : s.len < s.pos + len) (hnowrap : s.pos + len < uint32Size) : s.readByte len = .error parseFailed := by
  rw [readByte, Nat.mod_eq_of_lt hnowrap, if_pos hbeyond]
  rfl

/-- A sum that wraps around is less than the position. -/
theorem wrapped_le (h : s.Valid) (hlen : len < uint32Size) (hwrap : uint32Size ≤ s.pos + len) :
    (s.pos + len) % uint32Size = s.pos + len - uint32Size ∧ s.pos + len - uint32Size < s.pos := by
  have hlt := Nat.lt_of_le_of_lt h.pos_le h.len_lt
  refine ⟨?_, by omega⟩
  rw [Nat.mod_eq_sub_mod hwrap, Nat.mod_eq_of_lt (by omega)]

/-- After a wrap the check passes, and the bytes are not in the buffer. -/
theorem readByte_wraps (h : s.Valid) (hlen : len < uint32Size) (hwrap : uint32Size ≤ s.pos + len) :
    s.readByte len = .error .undefinedBehaviour := by
  obtain ⟨hmod, hlt⟩ := wrapped_le h hlen hwrap
  have hread : readAt s.buf s.pos len = .error .undefinedBehaviour := by
    refine if_neg (Nat.not_le.2 ?_)
    rw [← h.len_eq]
    exact Nat.lt_of_lt_of_le h.len_lt hwrap
  rw [readByte, hmod, if_neg (Nat.not_lt.2 (Nat.le_trans (Nat.le_of_lt hlt) h.pos_le)), hread]
  rfl

theorem skip_ok (h : s.Valid) (hfits : s.pos + len ≤ s.len) : s.skip len = .ok { s with pos := s.pos + len } := by
  have hmod : (s.pos + len) % uint32Size = s.pos + len := Nat.mod_eq_of_lt (Nat.lt_of_le_of_lt hfits h.len_lt)
  rw [skip, hmod, if_neg (Nat.not_lt.2 hfits)]

theorem skip_throws (hbeyond : s.len < s.pos + len) (hnowrap : s.pos + len < uint32Size) : s.skip len = .error parseFailed := by
  rw [skip, Nat.mod_eq_of_lt hnowrap, if_pos hbeyond]

/-- After a wrap the position is in front of where it was. -/
theorem skip_wraps (h : s.Valid) (hlen : len < uint32Size) (hwrap : uint32Size ≤ s.pos + len) :
    s.skip len = .ok { s with pos := s.pos + len - uint32Size } := by
  obtain ⟨hmod, hlt⟩ := wrapped_le h hlen hwrap
  rw [skip, hmod, if_neg (Nat.not_lt.2 (Nat.le_trans (Nat.le_of_lt hlt) h.pos_le))]

theorem get_ok (h : s.Valid) {width : IntWidth} (hfits : s.pos + width.size ≤ s.len) :
    s.get width = .ok (bigEndian (s.bytesAt width.size), { s with pos := s.pos + width.size }) := by
  rw [get, readByte_ok h hfits]
  rfl

theorem get_error {width : IntWidth} {fault : Fault} (h : s.readByte width.size = .error fault) : s.get width = .error fault := by
  rw [get, h]
  rfl

theorem get_four (h : s.Valid) (hfits : s.pos + 4 ≤ s.len) :
    s.get .four = .ok (bigEndian (s.bytesAt 4), { s with pos := s.pos + 4 }) := get_ok h hfits

/-- The stream behind a length. -/
theorem valid_behind (h : s.Valid) (hfits : s.pos + len ≤ s.len) : InStream.Valid { s with pos := s.pos + len } :=
  ⟨h.len_eq, h.len_lt, hfits⟩

/-- What is done with a length that is there. -/
theorem readRange_eq (h : s.Valid) (hfits : s.pos + 4 ≤ s.len) :
    s.readRange = (({ s with pos := s.pos + 4 } : InStream).skip (bigEndian (s.bytesAt 4))).map
      fun s' => (⟨s.pos + 4, bigEndian (s.bytesAt 4)⟩, s') := by
  simp only [readRange, get_four h hfits, bind, Except.bind]
  cases ({ s with pos := s.pos + 4 } : InStream).skip (bigEndian (s.bytesAt 4)) <;> rfl

/-- A length and the bytes, all in the buffer. -/
theorem readRange_ok (h : s.Valid) (hfits : s.pos + 4 + bigEndian (s.bytesAt 4) ≤ s.len) :
    s.readRange = .ok (⟨s.pos + 4, bigEndian (s.bytesAt 4)⟩, { s with pos := s.pos + 4 + bigEndian (s.bytesAt 4) }) := by
  have hfour : s.pos + 4 ≤ s.len := Nat.le_trans (Nat.le_add_right _ _) hfits
  rw [readRange_eq h hfour, skip_ok (valid_behind h hfour) hfits]
  rfl

end InStream

/-! ## Writing -/

/-- A `CByteStream` over a `CSimpleBuffer`. -/
structure OutStream where
  simpBuf : SimpleBuffer
  pos : Nat

namespace OutStream

/-- The constructor, over a new buffer. -/
def new : OutStream := ⟨SimpleBuffer.init, 0⟩

/-- `_WriteByte`. -/
def writeByte (s : OutStream) (data : Bytes) : Exec OutStream := do
  let simpBuf ← s.simpBuf.write (some data) data.length
  return ⟨simpBuf, (s.pos + data.length) % uint32Size⟩

/-- The operator `<<` of a `uint32_t`. -/
def putUint32 (s : OutStream) (data : Nat) : Exec OutStream := s.writeByte (ByteStream.writeUint32 data)

/-- `WriteData`. -/
def writeData (s : OutStream) (data : Bytes) : Exec OutStream := do
  let s ← s.putUint32 data.length
  s.writeByte data

end OutStream

end TeamTalk
