import TeamTalk.Base.Streams

/-!
# Reading stays in the buffer

When the reads and skips of a stream over a raw buffer stay in the buffer. The checks add a position and a length as `uint32_t`: a sum
that wraps around passes them.
-/

namespace TeamTalk.InStream

/-- The operations that move the position. -/
inductive Op where
  | get (width : IntWidth)
  | skip (len : UInt32)
  | readString
  | readData
  deriving DecidableEq, Repr

/-- What an operation gives. -/
inductive Got where
  | value (n : Nat)
  | nothing
  | range (r : Range)
  deriving DecidableEq, Repr

/-- An operation. -/
def perform (s : InStream) : Op → Exec (Got × InStream)
  | .get width => (s.get width).map fun got => (.value got.1, got.2)
  | .skip len => (s.skip len.toNat).map fun s' => (.nothing, s')
  | .readString => s.readString.map fun got => (.range got.1, got.2)
  | .readData => s.readData.map fun got => (.range got.1, got.2)

/-! ## The property -/

/-- The position moves by the number of bytes that were read or skipped, and a range that is returned is in the buffer. -/
def Moved (s : InStream) (op : Op) (got : Got) (s' : InStream) : Prop :=
  match op with
  | .get width => s'.pos = s.pos + width.size
  | .skip len => s'.pos = s.pos + len.toNat
  | .readString | .readData =>
    ∃ length, got = .range ⟨s.pos + 4, length⟩ ∧ s.pos + 4 + length ≤ s.len ∧ s'.pos = s.pos + 4 + length

/-- An operation throws a `CPduException`, or reads only what is in the buffer, and leaves the position where it should be. -/
def Right (s : InStream) (op : Op) : Prop :=
  (∀ fault, s.perform op = .error fault → ∃ e, fault = .pduException e) ∧
    ∀ got s', s.perform op = .ok (got, s') → s'.buf = s.buf ∧ s'.len = s.len ∧ s'.pos ≤ s.len ∧ Moved s op got s'

/-- What holds of each operation of a run, as long as none has thrown. -/
def Holds (P : InStream → Op → Prop) : InStream → List Op → Prop
  | _, [] => True
  | s, op :: ops => P s op ∧ ∀ got s', s.perform op = .ok (got, s') → Holds P s' ops

/-! ## The condition -/

/-- The sums that an operation checks do not wrap around. The length of a string or data is in the buffer. -/
def NoWrap (s : InStream) : Op → Prop
  | .get width => s.pos + width.size < uint32Size
  | .skip len => s.pos + len.toNat < uint32Size
  | .readString | .readData =>
    s.pos + 4 < uint32Size ∧ (s.pos + 4 ≤ s.len → s.pos + 4 + bigEndian (s.bytesAt 4) < uint32Size)

namespace StreamReadsAux

variable {s s' : InStream} {op : Op} {got : Got}

/-! ## Lengths -/

theorem bigEndian_append (bytes : Bytes) (byte : UInt8) : bigEndian (bytes ++ [byte]) = bigEndian bytes * 2 ^ 8 + byte.toNat := by
  simp [bigEndian]

/-- A number of so many bytes. -/
theorem bigEndian_lt (bytes : Bytes) : bigEndian bytes < 2 ^ (8 * bytes.length) := by
  induction bytes using List.reverseRecOn with
  | nil => exact Nat.one_pos
  | append_singleton bytes byte ih =>
    have hbyte := byte.toNat_lt
    rw [bigEndian_append, List.length_append, List.length_singleton, Nat.mul_add, Nat.pow_add]
    omega

theorem bigEndian_bytesAt_lt (s : InStream) : bigEndian (s.bytesAt 4) < uint32Size := by
  refine Nat.lt_of_lt_of_le (bigEndian_lt _) (Nat.pow_le_pow_right (by decide) ?_)
  have hlen : (s.bytesAt 4).length ≤ 4 := List.length_take_le _ _
  omega

/-! ## One operation -/

theorem right_of_ok (h : s.perform op = .ok (got, s')) (hright : s'.buf = s.buf ∧ s'.len = s.len ∧ s'.pos ≤ s.len ∧ Moved s op got s') :
    Right s op := by
  refine ⟨fun fault hfault => ?_, fun got' s1 hok => ?_⟩
  · rw [h] at hfault
    cases hfault
  · rw [h] at hok
    cases hok
    exact hright

theorem right_of_throws (h : s.perform op = .error parseFailed) : Right s op := by
  refine ⟨fun fault hfault => ?_, fun got s1 hok => ?_⟩
  · rw [h] at hfault
    cases hfault
    exact ⟨_, rfl⟩
  · rw [h] at hok
    cases hok

theorem not_right_of_undefined (h : s.perform op = .error .undefinedBehaviour) : ¬Right s op := by
  intro hright
  obtain ⟨e, he⟩ := hright.1 _ h
  cases he

theorem size_lt (width : IntWidth) : width.size < uint32Size := by cases width <;> decide

theorem right_get (h : s.Valid) (width : IntWidth) : Right s (.get width) ↔ NoWrap s (.get width) := by
  constructor
  · intro hright
    by_contra hwrap
    have herror : s.perform (.get width) = .error .undefinedBehaviour := by
      rw [perform, get_error (readByte_wraps h (size_lt width) (Nat.le_of_not_lt hwrap))]
      rfl
    exact not_right_of_undefined herror hright
  · intro hnowrap
    by_cases hfits : s.pos + width.size ≤ s.len
    · have hok : s.perform (.get width) = .ok (.value (bigEndian (s.bytesAt width.size)), { s with pos := s.pos + width.size }) := by
        rw [perform, get_ok h hfits]
        rfl
      exact right_of_ok hok ⟨rfl, rfl, hfits, rfl⟩
    · refine right_of_throws ?_
      rw [perform, get_error (readByte_throws (Nat.lt_of_not_le hfits) hnowrap)]
      rfl

theorem right_skip (h : s.Valid) (len : UInt32) : Right s (.skip len) ↔ NoWrap s (.skip len) := by
  have hlen : len.toNat < uint32Size := len.toNat_lt
  constructor
  · intro hright
    by_contra hwrap
    have hle := Nat.le_of_not_lt hwrap
    have hok : s.perform (.skip len) = .ok (.nothing, { s with pos := s.pos + len.toNat - uint32Size }) := by
      rw [perform, skip_wraps h hlen hle]
      rfl
    have hmoved : s.pos + len.toNat - uint32Size = s.pos + len.toNat := (hright.2 _ _ hok).2.2.2
    have hlt := (wrapped_le h hlen hle).2
    omega
  · intro hnowrap
    by_cases hfits : s.pos + len.toNat ≤ s.len
    · have hok : s.perform (.skip len) = .ok (.nothing, { s with pos := s.pos + len.toNat }) := by
        rw [perform, skip_ok h hfits]
        rfl
      exact right_of_ok hok ⟨rfl, rfl, hfits, rfl⟩
    · refine right_of_throws ?_
      rw [perform, skip_throws (Nat.lt_of_not_le hfits) hnowrap]
      rfl

/-- A length with its bytes, for either operation. -/
theorem right_range (h : s.Valid) (hop : op = .readString ∨ op = .readData) : Right s op ↔ NoWrap s op := by
  have hperform : s.perform op = s.readRange.map fun got => (.range got.1, got.2) := by rcases hop with rfl | rfl <;> rfl
  have hnowrap : NoWrap s op ↔ s.pos + 4 < uint32Size ∧ (s.pos + 4 ≤ s.len → s.pos + 4 + bigEndian (s.bytesAt 4) < uint32Size) := by
    rcases hop with rfl | rfl <;> rfl
  have hmoved : ∀ {got s'}, Moved s op got s' ↔
      ∃ length, got = .range ⟨s.pos + 4, length⟩ ∧ s.pos + 4 + length ≤ s.len ∧ s'.pos = s.pos + 4 + length := by
    rcases hop with rfl | rfl <;> exact Iff.rfl
  rw [hnowrap]
  by_cases hfour : s.pos + 4 < uint32Size
  swap
  · have herror : s.perform op = .error .undefinedBehaviour := by
      rw [hperform, readRange, get_error (readByte_wraps h (size_lt .four) (Nat.le_of_not_lt hfour))]
      rfl
    exact iff_of_false (not_right_of_undefined herror) fun hboth => hfour hboth.1
  by_cases hthere : s.pos + 4 ≤ s.len
  swap
  · have herror : s.perform op = .error parseFailed := by
      rw [hperform, readRange, get_error (readByte_throws (Nat.lt_of_not_le hthere) hfour)]
      rfl
    exact iff_of_true (right_of_throws herror) ⟨hfour, fun hle => absurd hle hthere⟩
  have hvalid := valid_behind h hthere
  by_cases hwrap : s.pos + 4 + bigEndian (s.bytesAt 4) < uint32Size
  · refine iff_of_true ?_ ⟨hfour, fun _ => hwrap⟩
    by_cases hfits : s.pos + 4 + bigEndian (s.bytesAt 4) ≤ s.len
    · have hok : s.perform op = .ok (.range ⟨s.pos + 4, bigEndian (s.bytesAt 4)⟩,
          { s with pos := s.pos + 4 + bigEndian (s.bytesAt 4) }) := by
        rw [hperform, readRange_ok h hfits]
        rfl
      exact right_of_ok hok ⟨rfl, rfl, hfits, hmoved.2 ⟨_, rfl, hfits, rfl⟩⟩
    · refine right_of_throws ?_
      rw [hperform, readRange_eq h hthere, skip_throws (Nat.lt_of_not_le hfits) hwrap]
      rfl
  · -- The skip goes back, and the range ends behind the buffer.
    refine iff_of_false (fun hright => ?_) fun hboth => hwrap (hboth.2 hthere)
    have hle := Nat.le_of_not_lt hwrap
    have hok : s.perform op = .ok (.range ⟨s.pos + 4, bigEndian (s.bytesAt 4)⟩,
        { s with pos := s.pos + 4 + bigEndian (s.bytesAt 4) - uint32Size }) := by
      rw [hperform, readRange_eq h hthere, skip_wraps hvalid (bigEndian_bytesAt_lt s) hle]
      rfl
    obtain ⟨length, hrange, hinside, -⟩ := hmoved.1 (hright.2 _ _ hok).2.2.2
    have hlength : bigEndian (s.bytesAt 4) = length := by
      injection hrange with hrange
      injection hrange
    have hlt := h.len_lt
    rw [hlength] at hle
    omega

/-- An operation is right exactly when its sums do not wrap around. -/
theorem right_iff (h : s.Valid) (op : Op) : Right s op ↔ NoWrap s op := by
  cases op with
  | get width => exact right_get h width
  | skip len => exact right_skip h len
  | readString => exact right_range h (.inl rfl)
  | readData => exact right_range h (.inr rfl)

/-- An operation that is right leaves a stream in use. -/
theorem valid_perform (h : s.Valid) (hright : Right s op) (hok : s.perform op = .ok (got, s')) : s'.Valid := by
  obtain ⟨hbuf, hlen, hpos, -⟩ := hright.2 got s' hok
  refine ⟨?_, ?_, ?_⟩
  · rw [hlen, hbuf, h.len_eq]
  · rw [hlen]
    exact h.len_lt
  · rw [hlen]
    exact hpos

/-! ## A run -/

theorem holds_iff (h : s.Valid) (ops : List Op) : Holds Right s ops ↔ Holds NoWrap s ops := by
  induction ops generalizing s with
  | nil => exact Iff.rfl
  | cons op ops ih =>
    simp only [Holds]
    rw [right_iff h op]
    refine and_congr_right fun hnowrap => ?_
    have hright := (right_iff h op).2 hnowrap
    exact forall_congr' fun got => forall_congr' fun s' => forall_congr' fun hok => ih (valid_perform h hright hok)

/-- A length that leads back to the start of the buffer. -/
theorem not_noWrap_readData : ¬NoWrap (new [255, 255, 255, 252]) .readData := by
  intro h
  exact absurd (h.2 (by decide)) (by decide)

end StreamReadsAux

open StreamReadsAux

/-- For any buffer and any operations: as long as none has thrown, each is right, exactly when no sum in them wraps around. -/
theorem reads_right_iff {buf : Bytes} (h : buf.length < uint32Size) (ops : List Op) :
    Holds Right (new buf) ops ↔ Holds NoWrap (new buf) ops := holds_iff (valid_new h) ops

/-- A number and a string of two bytes. -/
theorem reads_right_string : Holds Right (new [0, 7, 0, 0, 0, 2, 104, 105]) [.get .two, .readString] := by
  have hfirst : NoWrap (new [0, 7, 0, 0, 0, 2, 104, 105]) (.get .two) := show 0 + 2 < uint32Size by decide
  refine (reads_right_iff (by decide) _).2 ⟨hfirst, fun got s' hok => ?_⟩
  cases hok
  exact ⟨⟨by decide, fun _ => by decide⟩, fun _ _ _ => trivial⟩

/-- `ReadData` returns a pointer and a length that leave the buffer, if the length wraps around. -/
theorem not_reads_right : ¬∀ buf : Bytes, buf.length < uint32Size → ∀ ops, Holds Right (new buf) ops := by
  intro h
  have hright := (h [255, 255, 255, 252] (by decide) [.readData]).1
  exact not_noWrap_readData ((right_iff (valid_new (by decide)) _).1 hright)

end TeamTalk.InStream
