import TeamTalk.MsgServer.AttachData
import TeamTalk.Theorems.ImConnSends

/-!
# Attached data come back

When attached data are read as they were written, by the class that wrote them or by the other. The body of a PDU is written into a
buffer whose new size is computed as a `uint32_t`.
-/

namespace TeamTalk.AttachData

open OutConn OutConn.ImConnSendsAux SimpleBuffer ByteStream

/-! ## The property -/

/-- Each class reads what it wrote, and `CDbAttachData` reads the type and the handle that `CPduAttachData` wrote. -/
structure ComesBack (p : Prefix) (pdu : Bytes) : Prop where
  db : ∃ b, writeDb p = .ok b ∧ readDb b.contents = .ok p
  body : ∃ b range, writePdu p pdu = .ok b ∧ readPdu b.contents = .ok (p, range) ∧ range.length = pdu.length ∧
    bytesOf b.contents range = .ok pdu
  mixed : ∃ b q, writePdu p pdu = .ok b ∧ readDb b.contents = .ok q ∧ q.type = p.type ∧ q.handle = p.handle

/-- The fields are `uint32_t`. -/
structure Prefix.Fits (p : Prefix) : Prop where
  type_lt : p.type < uint32Size
  handle_lt : p.handle < uint32Size
  serviceType_lt : p.serviceType < uint32Size

namespace AttachDataAux

variable {p : Prefix} {pdu rest : Bytes} {s : InStream}

/-! ## Writing -/

/-- A buffer after a write that has extended it: a quarter is spare. -/
def grown (bytes : Bytes) : SimpleBuffer := ⟨bytes ++ List.replicate (bytes.length / 4) 0, bytes.length⟩

theorem valid_grown {bytes : Bytes} (h : ExtendFits bytes.length 0) : (grown bytes).Valid := by
  unfold ExtendFits at h
  constructor <;> simp only [grown, List.length_append, List.length_replicate] <;> omega

theorem contents_grown (bytes : Bytes) : (grown bytes).contents = bytes := List.take_left' rfl

/-- Where less than a number is spare, writing one extends the buffer. -/
theorem putUint32_grown (bytes : Bytes) (h : bytes.length < 16) (pos n : Nat) :
    OutStream.putUint32 ⟨grown bytes, pos⟩ n = .ok ⟨grown (bytes ++ writeUint32 n), (pos + 4) % uint32Size⟩ := by
  have hfour : (writeUint32 n).length = 4 := rfl
  have hfits : ExtendFits bytes.length 4 := by
    unfold ExtendFits
    simp only [uint32Size]
    omega
  have hmod : (bytes.length + 4) % uint32Size = bytes.length + 4 := by
    simp only [uint32Size]
    omega
  have hgrow : (bytes.length + 4) % uint32Size > (grown bytes).allocSize := by
    rw [hmod, allocSize, grown, List.length_append, List.length_replicate]
    omega
  have hread : readAt (writeUint32 n) 0 4 = .ok (writeUint32 n) := rfl
  have hblock : ((grown bytes).extend 4).buffer = bytes ++ List.replicate (4 + (bytes.length + 4) / 4) 0 := by
    simp only [extend, extendedSize_of_fits hfits, realloc, grown, List.length_append, List.length_replicate]
    rw [List.take_of_length_le (by simp only [List.length_append, List.length_replicate]; omega), List.append_assoc,
      List.replicate_append_replicate]
    congr 2
    omega
  have hcopy : copyAt ((grown bytes).extend 4).buffer bytes.length (writeUint32 n) =
      .ok (bytes ++ writeUint32 n ++ List.replicate ((bytes.length + 4) / 4) 0) := by
    rw [hblock, copyAt, if_pos (by simp only [hfour, List.length_append, List.length_replicate]; omega), hfour, List.take_left' rfl,
      ← List.drop_drop, List.drop_left' rfl, List.drop_replicate, Nat.add_sub_cancel_left]
  have hoffset : ((grown bytes).extend 4).writeOffset = bytes.length := rfl
  have hwrite : (grown bytes).write (some (writeUint32 n)) 4 = .ok (grown (bytes ++ writeUint32 n)) := by
    have hif : (if ((grown bytes).writeOffset + 4) % uint32Size > (grown bytes).allocSize then (grown bytes).extend 4 else grown bytes) =
        (grown bytes).extend 4 := if_pos hgrow
    simp only [SimpleBuffer.write, hif, hread, hoffset, hcopy, hmod, bind, Except.bind, pure, Except.pure]
    simp only [grown, List.length_append, hfour]
  rw [OutStream.putUint32, OutStream.writeByte, hfour, hwrite]
  rfl

/-- The prefix is written. -/
theorem writePrefix_eq (p : Prefix) :
    ∃ pos, writePrefix OutStream.new p = .ok ⟨grown (dbAttachData p.type p.handle p.serviceType), pos⟩ := by
  have hstart : OutStream.new = ⟨grown [], 0⟩ := rfl
  have h1 := putUint32_grown [] (by decide) 0 p.type
  have h2 := putUint32_grown ([] ++ writeUint32 p.type) (Nat.lt_of_sub_eq_succ rfl) ((0 + 4) % uint32Size) p.handle
  have h3 := putUint32_grown ([] ++ writeUint32 p.type ++ writeUint32 p.handle) (Nat.lt_of_sub_eq_succ rfl)
    (((0 + 4) % uint32Size + 4) % uint32Size) p.serviceType
  exact ⟨_, by simp only [writePrefix, hstart, h1, h2, h3, bind, Except.bind]; rfl⟩

theorem length_dbAttachData (type handle serviceType : Nat) : (dbAttachData type handle serviceType).length = 12 := rfl

/-- The buffer after the length of the body. -/
def headBuf (p : Prefix) (n : Nat) : SimpleBuffer := grown (dbAttachData p.type p.handle p.serviceType ++ writeUint32 n)

theorem offset_headBuf (p : Prefix) (n : Nat) : (headBuf p n).writeOffset = 16 := rfl

theorem allocSize_headBuf (p : Prefix) (n : Nat) : (headBuf p n).allocSize = 20 := by
  have hlen : (dbAttachData p.type p.handle p.serviceType ++ writeUint32 n).length = 16 := rfl
  rw [headBuf, grown, allocSize, List.length_append, List.length_replicate, hlen]

theorem valid_headBuf (p : Prefix) (n : Nat) : (headBuf p n).Valid :=
  valid_grown (by rw [show (dbAttachData p.type p.handle p.serviceType ++ writeUint32 n).length = 16 from rfl]; decide)

theorem writePdu_eq (p : Prefix) (pdu : Bytes) : writePdu p pdu = (headBuf p pdu.length).write (some pdu) pdu.length := by
  obtain ⟨pos, hpre⟩ := writePrefix_eq p
  have hhead := putUint32_grown (dbAttachData p.type p.handle p.serviceType) (Nat.lt_of_sub_eq_succ rfl) pos pdu.length
  simp only [writePdu, OutStream.writeData, hpre, hhead, OutStream.writeByte, bind, Except.bind, pure, Except.pure, headBuf]
  cases (grown (dbAttachData p.type p.handle p.serviceType ++ writeUint32 pdu.length)).write (some pdu) pdu.length <;> rfl

/-- There is room for the body exactly when the new size does not wrap around. -/
theorem roomFor_headBuf (p : Prefix) (n : Nat) : RoomFor (headBuf p n) n ↔ ExtendFits 16 n := by
  constructor
  · rintro (hroom | hfits)
    · rw [offset_headBuf, allocSize_headBuf] at hroom
      unfold ExtendFits
      simp only [uint32Size]
      omega
    · rwa [offset_headBuf] at hfits
  · intro hfits
    exact .inr (by rwa [offset_headBuf])

/-! ## Reading -/

theorem bigEndian_writeUint32 {n : Nat} (h : n < uint32Size) : bigEndian (writeUint32 n) = n := by
  simp only [bigEndian, writeUint32, List.foldl_cons, List.foldl_nil, UInt8.toNat_ofNat']
  simp only [uint32Size] at h
  omega

/-- A number is read where it was written. -/
theorem get_written (h : s.Valid) {n : Nat} (hn : n < uint32Size) (hat : s.buf.drop s.pos = writeUint32 n ++ rest) :
    s.get .four = .ok (n, { s with pos := s.pos + 4 }) ∧ s.pos + 4 ≤ s.len ∧ s.buf.drop (s.pos + 4) = rest := by
  have hlen := congrArg List.length hat
  rw [List.length_drop, List.length_append, ← h.len_eq] at hlen
  have hfour : (writeUint32 n).length = 4 := rfl
  have hfits : s.pos + 4 ≤ s.len := by omega
  have hbytes : s.bytesAt 4 = writeUint32 n := by
    rw [InStream.bytesAt, hat]
    exact List.take_left' hfour
  refine ⟨?_, hfits, ?_⟩
  · rw [InStream.get_four h hfits, hbytes, bigEndian_writeUint32 hn]
  · rw [← List.drop_drop, hat]
    exact List.drop_left' hfour

/-- The prefix is read, whatever is behind it. -/
theorem readPrefix_eq {buf : Bytes} (hlt : buf.length < uint32Size) (hp : p.Fits)
    (hbuf : buf = dbAttachData p.type p.handle p.serviceType ++ rest) :
    readPrefix (InStream.new buf) = .ok (p, ⟨buf, buf.length, 12⟩) ∧ buf.drop 12 = rest ∧ 12 ≤ buf.length := by
  have hat : buf.drop 0 = writeUint32 p.type ++ (writeUint32 p.handle ++ (writeUint32 p.serviceType ++ rest)) := by
    rw [hbuf]
    simp [dbAttachData]
  obtain ⟨h1, hle1, hat1⟩ := get_written (InStream.valid_new hlt) hp.type_lt hat
  obtain ⟨h2, hle2, hat2⟩ := get_written (InStream.valid_behind (InStream.valid_new hlt) hle1) hp.handle_lt hat1
  obtain ⟨h3, hle3, hat3⟩ := get_written (InStream.valid_behind (InStream.valid_behind (InStream.valid_new hlt) hle1) hle2)
    hp.serviceType_lt hat2
  refine ⟨?_, hat3, hle3⟩
  simp only [readPrefix, h1, h2, h3, bind, Except.bind]
  rfl

theorem readDb_eq {buf : Bytes} (hlt : buf.length < uint32Size) (hp : p.Fits)
    (hbuf : buf = dbAttachData p.type p.handle p.serviceType ++ rest) : readDb buf = .ok p := by
  simp only [readDb, (readPrefix_eq hlt hp hbuf).1, bind, Except.bind]
  rfl

/-- The body is found behind its length. -/
theorem readPdu_eq {buf : Bytes} (hlt : buf.length < uint32Size) (hp : p.Fits) (hpdu : pdu.length < uint32Size)
    (hbuf : buf = dbAttachData p.type p.handle p.serviceType ++ (writeUint32 pdu.length ++ pdu)) :
    readPdu buf = .ok (p, ⟨16, pdu.length⟩) ∧ bytesOf buf ⟨16, pdu.length⟩ = .ok pdu := by
  obtain ⟨hpre, hat, hle⟩ := readPrefix_eq hlt hp hbuf
  have hvalid : InStream.Valid ⟨buf, buf.length, 12⟩ := ⟨rfl, hlt, hle⟩
  obtain ⟨-, hfour, hbody⟩ := get_written (s := ⟨buf, buf.length, 12⟩) hvalid hpdu hat
  have hlength : bigEndian (InStream.bytesAt ⟨buf, buf.length, 12⟩ 4) = pdu.length := by
    rw [InStream.bytesAt, hat, List.take_left' (show (writeUint32 pdu.length).length = 4 from rfl)]
    exact bigEndian_writeUint32 hpdu
  have hend : 16 + pdu.length = buf.length := by
    have hlen := congrArg List.length hbody
    rw [List.length_drop] at hlen
    dsimp only at hlen hfour
    omega
  have hrange := InStream.readRange_ok hvalid (by rw [hlength]; exact Nat.le_of_eq hend)
  rw [hlength] at hrange
  constructor
  · simp only [readPdu, hpre, InStream.readData, hrange, bind, Except.bind]
    rfl
  · rw [bytesOf, readAt, if_pos (Nat.le_of_eq hend), hbody, List.take_length]

/-! ## Both -/

/-- The buffer that `CPduAttachData` leaves. -/
theorem writePdu_of_fits (h : ExtendFits 16 pdu.length) :
    ∃ b, writePdu p pdu = .ok b ∧ b.contents = dbAttachData p.type p.handle p.serviceType ++ (writeUint32 pdu.length ++ pdu) ∧
      b.contents.length < uint32Size := by
  obtain ⟨b, hwrite, hvalid, hcontents⟩ := write_of_room (valid_headBuf p pdu.length) ((roomFor_headBuf p pdu.length).2 h)
  refine ⟨b, (writePdu_eq p pdu).trans hwrite, ?_, ?_⟩
  · rw [hcontents, headBuf, contents_grown, List.append_assoc]
  · rw [length_contents hvalid]
    exact Nat.lt_of_le_of_lt hvalid.offset_le hvalid.alloc_lt

theorem writeDb_eq (p : Prefix) : writeDb p = .ok (grown (dbAttachData p.type p.handle p.serviceType)) := by
  obtain ⟨pos, hpre⟩ := writePrefix_eq p
  rw [writeDb, hpre]
  rfl

theorem comesBack_of_fits (hp : p.Fits) (hpdu : pdu.length < uint32Size) (h : ExtendFits 16 pdu.length) : ComesBack p pdu := by
  obtain ⟨b, hwrite, hcontents, hlt⟩ := writePdu_of_fits (p := p) h
  obtain ⟨hread, hbytes⟩ := readPdu_eq hlt hp hpdu hcontents
  refine ⟨⟨_, writeDb_eq p, ?_⟩, ⟨b, _, hwrite, hread, rfl, hbytes⟩, ⟨b, p, hwrite, readDb_eq hlt hp hcontents, rfl, rfl⟩⟩
  rw [contents_grown]
  exact readDb_eq (by rw [length_dbAttachData]; decide) hp (List.append_nil _).symm

/-- Without room the body is copied beyond the block. -/
theorem not_comesBack (hpdu : pdu.length < uint32Size) (h : ¬ExtendFits 16 pdu.length) : ¬ComesBack p pdu := by
  rintro ⟨-, ⟨b, range, hwrite, -⟩, -⟩
  have herror := write_of_not_room (valid_headBuf p pdu.length) hpdu fun hroom => h ((roomFor_headBuf p pdu.length).1 hroom)
  rw [writePdu_eq, herror] at hwrite
  cases hwrite

end AttachDataAux

open AttachDataAux

/-- Attached data come back exactly when the size that the buffer is extended to, with a quarter more, is a `uint32_t`. -/
theorem attachData_comesBack_iff {p : Prefix} (hp : p.Fits) {pdu : Bytes} (hpdu : pdu.length < uint32Size) :
    ComesBack p pdu ↔ ExtendFits 16 pdu.length := by
  refine ⟨fun h => ?_, comesBack_of_fits hp hpdu⟩
  by_contra hnot
  exact not_comesBack hpdu hnot h

/-- A short body. -/
theorem comesBack_short : ComesBack ⟨3, 7, 0⟩ [8, 1, 255] :=
  (attachData_comesBack_iff (p := ⟨3, 7, 0⟩) ⟨by decide, by decide, by decide⟩ (by decide)).2 (by decide)

/-- A body of almost 4 GiB does not. -/
theorem not_every_comesBack : ¬∀ (p : Prefix) (pdu : Bytes), p.Fits → pdu.length < uint32Size → ComesBack p pdu := by
  intro h
  have hlen : (List.replicate (uint32Size - 1) (0 : UInt8)).length = uint32Size - 1 := List.length_replicate
  have hlt : (List.replicate (uint32Size - 1) (0 : UInt8)).length < uint32Size := by
    rw [hlen]
    decide
  refine not_comesBack hlt ?_ (h ⟨3, 7, 0⟩ _ ⟨by decide, by decide, by decide⟩ hlt)
  rw [hlen]
  decide

end TeamTalk.AttachData
