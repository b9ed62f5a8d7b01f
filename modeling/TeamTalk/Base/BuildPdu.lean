import Mathlib
import TeamTalk.Base.ImPduBase
import TeamTalk.Protocol.BaseDefine

/-!
# Building PDUs

A PDU is built by `SetPBMsg`, which makes room for the header, appends the message and writes the header of a new `CImPdu`, and
by setters that overwrite one header field in the buffer. `SendMessageLite` does both and sends the bytes.
-/

namespace TeamTalk

/-- A protobuf message, as the bytes that `SerializeToArray` leaves; `ByteSize` is an `int`. -/
structure MessageLite where
  data : Bytes
  size_lt : data.length < 2 ^ 31

namespace ImPdu

open SimpleBuffer ByteStream

/-- `IM_PDU_VERSION`. -/
def imPduVersion : Nat := 1

/-- A new `CImPdu`. Its `length` is not initialised, and is not read before it is set. -/
def new : ImPdu :=
  { buf := init
    pduHeader := { length := 0, version := imPduVersion, flag := 0, serviceId := sidOther, commandId := 0, seqNum := 0,
                   reversed := 0 } }

/-- `CImPdu::GetBodyLength`. -/
def getBodyLength (pdu : ImPdu) : Nat := (pdu.buf.writeOffset + (uint32Size - pduHeaderLen)) % uint32Size

/-- What is read through `CImPdu::GetBodyData` when as many bytes are asked for as `GetBodyLength` says. -/
def readBody (pdu : ImPdu) : Exec Bytes := readAt pdu.buf.buffer pduHeaderLen pdu.getBodyLength

/-! ## The setters -/

/-- `CByteStream::WriteUint16` into the buffer. -/
def writeUint16At (pdu : ImPdu) (offset : Nat) (data : UInt16) : Exec ImPdu := do
  return { pdu with buf := { pdu.buf with buffer := ← copyAt pdu.buf.buffer offset (writeUint16 data.toNat) } }

/-- `CImPdu::SetVersion`. -/
def setVersion (pdu : ImPdu) (version : UInt16) : Exec ImPdu := pdu.writeUint16At 4 version

/-- `CImPdu::SetFlag`. -/
def setFlag (pdu : ImPdu) (flag : UInt16) : Exec ImPdu := pdu.writeUint16At 6 flag

/-- `CImPdu::SetServiceId`. -/
def setServiceId (pdu : ImPdu) (serviceId : UInt16) : Exec ImPdu := pdu.writeUint16At 8 serviceId

/-- `CImPdu::SetCommandId`. -/
def setCommandId (pdu : ImPdu) (commandId : UInt16) : Exec ImPdu := pdu.writeUint16At 10 commandId

/-- `CImPdu::SetError`. -/
def setError (pdu : ImPdu) (error : UInt16) : Exec ImPdu := pdu.writeUint16At 12 error

/-- `CImPdu::SetSeqNum`. -/
def setSeqNum (pdu : ImPdu) (seqNum : UInt16) : Exec ImPdu := pdu.writeUint16At 12 seqNum

/-- `CImPdu::SetReversed`. -/
def setReversed (pdu : ImPdu) (reversed : UInt32) : Exec ImPdu := pdu.writeUint16At 14 reversed.toUInt16

/-! ## `SetPBMsg` -/

/-- `CImPdu::WriteHeader`. -/
def writeHeader (pdu : ImPdu) : Exec ImPdu := do
  let buffer ← copyAt pdu.buf.buffer 0 (writeUint32 pdu.getLength)
  let buffer ← copyAt buffer 4 (writeUint16 pdu.pduHeader.version)
  let buffer ← copyAt buffer 6 (writeUint16 pdu.pduHeader.flag)
  let buffer ← copyAt buffer 8 (writeUint16 pdu.pduHeader.serviceId)
  let buffer ← copyAt buffer 10 (writeUint16 pdu.pduHeader.commandId)
  let buffer ← copyAt buffer 12 (writeUint16 pdu.pduHeader.seqNum)
  let buffer ← copyAt buffer 14 (writeUint16 pdu.pduHeader.reversed)
  return { pdu with buf := { pdu.buf with buffer } }

/-- `CImPdu::SetPBMsg`. -/
def setPBMsg (pdu : ImPdu) (msg : MessageLite) : Exec ImPdu := do
  let buf ← pdu.buf.readNull pdu.buf.writeOffset
  let buf ← buf.write none pduHeaderLen
  let buf ← buf.write (some msg.data) msg.data.length
  writeHeader { pdu with buf }

/-! ## Sequences of calls -/

/-- What can be called to build a PDU. -/
inductive Call where
  | setPBMsg (msg : MessageLite)
  | setVersion (version : UInt16)
  | setFlag (flag : UInt16)
  | setServiceId (serviceId : UInt16)
  | setCommandId (commandId : UInt16)
  | setError (error : UInt16)
  | setSeqNum (seqNum : UInt16)
  | setReversed (reversed : UInt32)

/-- One call. -/
def call (pdu : ImPdu) : Call → Exec ImPdu
  | .setPBMsg msg => pdu.setPBMsg msg
  | .setVersion version => pdu.setVersion version
  | .setFlag flag => pdu.setFlag flag
  | .setServiceId serviceId => pdu.setServiceId serviceId
  | .setCommandId commandId => pdu.setCommandId commandId
  | .setError error => pdu.setError error
  | .setSeqNum seqNum => pdu.setSeqNum seqNum
  | .setReversed reversed => pdu.setReversed reversed

/-- The calls one after the other, on a new PDU. -/
def build (calls : List Call) : Exec ImPdu := calls.foldlM call new

/-! ## `SendMessageLite` -/

/-- `SendMessageLite` without a sequence number: the PDU that goes to `SendPdu`. -/
def sendMessageLite (sid cid : UInt16) (message : MessageLite) : Exec ImPdu := do
  let pdu ← new.setPBMsg message
  let pdu ← pdu.setServiceId sid
  pdu.setCommandId cid

/-- `SendMessageLite` with a sequence number. -/
def sendMessageLiteSeq (sid cid seqNum : UInt16) (message : MessageLite) : Exec ImPdu := do
  let pdu ← new.setPBMsg message
  let pdu ← pdu.setServiceId sid
  let pdu ← pdu.setCommandId cid
  pdu.setSeqNum seqNum

/-- `SendMessageLite` with a sequence number and an error. -/
def sendMessageLiteError (sid cid seqNum error : UInt16) (message : MessageLite) : Exec ImPdu := do
  let pdu ← new.setPBMsg message
  let pdu ← pdu.setServiceId sid
  let pdu ← pdu.setCommandId cid
  let pdu ← pdu.setSeqNum seqNum
  pdu.setError error

/-- `SendMessageLite` builds a PDU like everybody else. -/
theorem sendMessageLite_eq (sid cid : UInt16) (message : MessageLite) :
    sendMessageLite sid cid message = build [.setPBMsg message, .setServiceId sid, .setCommandId cid] := by
  simp only [sendMessageLite, build, List.foldlM_cons, List.foldlM_nil, call, bind_pure]

theorem sendMessageLiteSeq_eq (sid cid seqNum : UInt16) (message : MessageLite) :
    sendMessageLiteSeq sid cid seqNum message =
      build [.setPBMsg message, .setServiceId sid, .setCommandId cid, .setSeqNum seqNum] := by
  simp only [sendMessageLiteSeq, build, List.foldlM_cons, List.foldlM_nil, call, bind_pure]

theorem sendMessageLiteError_eq (sid cid seqNum error : UInt16) (message : MessageLite) :
    sendMessageLiteError sid cid seqNum error message =
      build [.setPBMsg message, .setServiceId sid, .setCommandId cid, .setSeqNum seqNum, .setError error] := by
  simp only [sendMessageLiteError, build, List.foldlM_cons, List.foldlM_nil, call, bind_pure]

end ImPdu

/-! ## What stands in the buffer -/

/-- The header fields in the buffer, but for the length. -/
structure Written where
  version : UInt16
  flag : UInt16
  serviceId : UInt16
  commandId : UInt16
  seqNum : UInt16
  reversed : UInt16
  deriving DecidableEq, Repr

namespace Written

open SimpleBuffer ByteStream

/-- What `WriteHeader` writes of a new `CImPdu`. -/
def new : Written := { version := 1, flag := 0, serviceId := 7, commandId := 0, seqNum := 0, reversed := 0 }

/-- The 16 bytes of a header. -/
def encode (w : Written) (length : Nat) : Bytes :=
  writeUint32 length ++ writeUint16 w.version.toNat ++ writeUint16 w.flag.toNat ++ writeUint16 w.serviceId.toNat ++
    writeUint16 w.commandId.toNat ++ writeUint16 w.seqNum.toNat ++ writeUint16 w.reversed.toNat

/-- The header as it is read. -/
def header (w : Written) (length : Nat) : PduHeader :=
  { length
    version := w.version.toNat
    flag := w.flag.toNat
    serviceId := w.serviceId.toNat
    commandId := w.commandId.toNat
    seqNum := w.seqNum.toNat
    reversed := w.reversed.toNat }

/-- What a call makes of the fields. -/
def call (w : Written) : ImPdu.Call → Written
  | .setPBMsg _ => new
  | .setVersion version => { w with version }
  | .setFlag flag => { w with flag }
  | .setServiceId serviceId => { w with serviceId }
  | .setCommandId commandId => { w with commandId }
  | .setError error => { w with seqNum := error }
  | .setSeqNum seqNum => { w with seqNum }
  | .setReversed reversed => { w with reversed := reversed.toUInt16 }

@[simp] theorem length_encode (w : Written) (length : Nat) : (w.encode length).length = 16 := rfl

theorem writeUint16_read (v : UInt16) :
    (UInt8.ofNat (v.toNat / 2 ^ 8)).toNat * 2 ^ 8 + (UInt8.ofNat v.toNat).toNat = v.toNat := by
  have hlt := v.toNat_lt
  simp only [UInt8.toNat_ofNat']
  omega

/-- A header is read as it was written. -/
theorem header_encode (w : Written) {length : Nat} (hlt : length < uint32Size) (rest : Bytes) :
    ImPdu.header (w.encode length ++ rest) = w.header length := by
  have hlength : (UInt8.ofNat (length / 2 ^ 24)).toNat * 2 ^ 24 + (UInt8.ofNat (length / 2 ^ 16)).toNat * 2 ^ 16 +
      (UInt8.ofNat (length / 2 ^ 8)).toNat * 2 ^ 8 + (UInt8.ofNat length).toNat = length := by
    simp only [UInt8.toNat_ofNat']
    simp only [uint32Size] at hlt
    omega
  simp only [encode, writeUint32, writeUint16, List.cons_append, List.nil_append, ImPdu.header, hlength, writeUint16_read,
    header]

end Written

/-- The buffer holds the header's fields and the message. -/
structure ImPdu.Holds (pdu : ImPdu) (w : Written) (msg : MessageLite) : Prop where
  valid : pdu.buf.Valid
  contents : pdu.buf.contents = w.encode (pduHeaderLen + msg.data.length) ++ msg.data
  header : pdu.pduHeader = ImPdu.new.pduHeader

namespace BuildPduAux

open SimpleBuffer ByteStream

variable {pdu pdu' : ImPdu} {w : Written} {msg : MessageLite}

/-- Bytes in the middle of a block are replaced. -/
theorem copyAt_mid {a old b data : Bytes} {offset : Nat} (ha : a.length = offset) (hdata : data.length = old.length) :
    copyAt (a ++ old ++ b) offset data = .ok (a ++ data ++ b) := by
  subst ha
  have hfront : (a ++ old ++ b).take a.length = a := by rw [List.append_assoc, List.take_left]
  have hback : (a ++ old ++ b).drop (a.length + data.length) = b := by
    rw [hdata, ← List.length_append, List.drop_left]
  rw [copyAt, if_pos (by simp only [List.length_append]; omega), hfront, hback]

/-- Two bytes of the data are overwritten. -/
theorem writeUint16At_spec (hvalid : pdu.buf.Valid) {a old b : Bytes} (offset : Nat) (v : UInt16)
    (hc : pdu.buf.contents = a ++ old ++ b) (ha : a.length = offset) (hold : old.length = 2) :
    ∃ pdu', pdu.writeUint16At offset v = .ok pdu' ∧ pdu'.buf.Valid ∧ pdu'.buf.contents = a ++ writeUint16 v.toNat ++ b ∧
      pdu'.pduHeader = pdu.pduHeader := by
  generalize hrest : pdu.buf.buffer.drop pdu.buf.writeOffset = rest
  have hbuf : pdu.buf.buffer = a ++ old ++ (b ++ rest) := by
    rw [← List.append_assoc, ← hc, ← hrest]
    exact (List.take_append_drop _ _).symm
  have hlen : a.length + 2 + b.length = pdu.buf.writeOffset := by
    rw [← length_contents hvalid, hc, List.length_append, List.length_append, hold]
  have hblock : (a ++ writeUint16 v.toNat ++ (b ++ rest)).length = pdu.buf.buffer.length := by
    rw [hbuf]
    simp only [List.length_append, hold, writeUint16, List.length_cons, List.length_nil]
  have hcopy : copyAt pdu.buf.buffer offset (writeUint16 v.toNat) = .ok (a ++ writeUint16 v.toNat ++ (b ++ rest)) := by
    rw [hbuf]
    exact copyAt_mid ha hold.symm
  refine ⟨{ pdu with buf := { pdu.buf with buffer := a ++ writeUint16 v.toNat ++ (b ++ rest) } }, ?_, ⟨?_, ?_⟩, ?_, rfl⟩
  · simp only [ImPdu.writeUint16At, hcopy, bind, Except.bind, pure, Except.pure]
  · rw [hblock]
    exact hvalid.offset_le
  · rw [hblock]
    exact hvalid.alloc_lt
  · change (a ++ writeUint16 v.toNat ++ (b ++ rest)).take pdu.buf.writeOffset = _
    rw [← List.append_assoc]
    refine List.take_left' ?_
    rw [← hlen, List.length_append, List.length_append]
    rfl

/-- A setter changes its field, and nothing else. -/
theorem writeUint16At_holds (h : pdu.Holds w msg) {w' : Written} {offset : Nat} (v : UInt16) (hoffset : offset + 2 ≤ 16)
    (hw : ∀ length, w'.encode length = (w.encode length).take offset ++ writeUint16 v.toNat ++
      (w.encode length).drop (offset + 2)) :
    ∃ pdu', pdu.writeUint16At offset v = .ok pdu' ∧ pdu'.Holds w' msg := by
  generalize hlength : pduHeaderLen + msg.data.length = length
  have hc : pdu.buf.contents = (w.encode length).take offset ++ ((w.encode length).drop offset).take 2 ++
      ((w.encode length).drop (offset + 2) ++ msg.data) := by
    rw [h.contents, hlength, ← List.append_assoc, List.append_assoc _ _ (List.drop (offset + 2) _), ← List.drop_drop,
      List.take_append_drop, List.take_append_drop]
  obtain ⟨pdu', hok, hvalid, hc', hheader⟩ := writeUint16At_spec h.valid offset v hc
    (by rw [List.length_take, Written.length_encode]; omega)
    (by rw [List.length_take, List.length_drop, Written.length_encode]; omega)
  refine ⟨pdu', hok, hvalid, ?_, hheader.trans h.header⟩
  rw [hc', hlength, hw, ← List.append_assoc]

/-! ## `SetPBMsg` -/

/-- What a write makes room for. -/
theorem valid_room {b : SimpleBuffer} (h : b.Valid) {len : Nat} (hf : ExtendFits b.writeOffset len) :
    ∃ b' : SimpleBuffer, (if (b.writeOffset + len) % uint32Size > b.allocSize then b.extend len else b) = b' ∧ b'.Valid ∧
      b'.contents = b.contents ∧ b'.writeOffset = b.writeOffset ∧ b.writeOffset + len ≤ b'.buffer.length ∧
      (b.writeOffset + len) % uint32Size = b.writeOffset + len := by
  have hmod : (b.writeOffset + len) % uint32Size = b.writeOffset + len := by
    unfold ExtendFits at hf
    exact Nat.mod_eq_of_lt (by omega)
  by_cases hroom : (b.writeOffset + len) % uint32Size > b.allocSize
  · refine ⟨_, if_pos hroom, valid_extend hf, contents_extend h hf, rfl, ?_, hmod⟩
    simp only [extend, length_realloc, extendedSize_of_fits hf]
    omega
  · refine ⟨_, if_neg hroom, h, rfl, rfl, ?_, hmod⟩
    rw [hmod, allocSize] at hroom
    omega

/-- A null pointer moves the offset. -/
theorem write_none {b : SimpleBuffer} (h : b.Valid) (len : Nat) (hf : ExtendFits b.writeOffset len) :
    ∃ b', b.write none len = .ok b' ∧ b'.Valid ∧ b'.writeOffset = b.writeOffset + len := by
  obtain ⟨b1, heq, hvalid, -, hoffset, hroom, hmod⟩ := valid_room h hf
  refine ⟨⟨b1.buffer, b.writeOffset + len⟩, ?_, ⟨hroom, hvalid.alloc_lt⟩, rfl⟩
  simp only [SimpleBuffer.write, heq]
  simp only [hoffset, hmod, bind, Except.bind, pure, Except.pure]

/-- Data is appended. -/
theorem write_some {b : SimpleBuffer} (h : b.Valid) {data : Bytes} (hf : ExtendFits b.writeOffset data.length) :
    ∃ b', b.write (some data) data.length = .ok b' ∧ b'.Valid ∧ b'.contents = b.contents ++ data := by
  obtain ⟨b1, heq, hvalid, hcontents, hoffset, hroom, hmod⟩ := valid_room h hf
  have hread : readAt data 0 data.length = .ok data := by
    rw [readAt, if_pos (by omega), List.drop_zero, List.take_length]
  have hcopy : copyAt b1.buffer b.writeOffset data =
      .ok (b.contents ++ data ++ b1.buffer.drop (b.writeOffset + data.length)) := by
    rw [copyAt, if_pos hroom, ← hcontents, contents, hoffset]
  have hlen : b.contents.length = b.writeOffset := length_contents h
  have hsize : (b.contents ++ data ++ b1.buffer.drop (b.writeOffset + data.length)).length = b1.buffer.length := by
    simp only [List.length_append, List.length_drop]
    omega
  refine ⟨⟨b.contents ++ data ++ b1.buffer.drop (b.writeOffset + data.length), b.writeOffset + data.length⟩, ?_,
    ⟨?_, ?_⟩, ?_⟩
  · simp only [SimpleBuffer.write, heq, hread]
    simp only [hoffset, hmod, hcopy, bind, Except.bind, pure, Except.pure]
  · rw [hsize]
    exact hroom
  · rw [hsize]
    exact hvalid.alloc_lt
  · exact List.take_left' (by rw [List.length_append, hlen])

/-- The next bytes of a block are replaced, after those that are done. -/
theorem copyAt_next (done : Bytes) {todo data : Bytes} {offset : Nat} (hdone : done.length = offset)
    (hdata : data.length ≤ todo.length) :
    copyAt (done ++ todo) offset data = .ok (done ++ data ++ todo.drop data.length) := by
  have hlen : data.length = (todo.take data.length).length := by
    rw [List.length_take]
    omega
  have hsplit : done ++ todo = done ++ todo.take data.length ++ todo.drop data.length := by
    rw [List.append_assoc, List.take_append_drop]
  rw [hsplit, copyAt_mid hdone hlen]

/-- `WriteHeader` of a new `CImPdu`. -/
theorem writeHeader_holds (hvalid : pdu.buf.Valid) (hheader : pdu.pduHeader = ImPdu.new.pduHeader)
    (hlen : pdu.buf.writeOffset = pduHeaderLen + msg.data.length) (hdata : pdu.buf.contents.drop pduHeaderLen = msg.data) :
    ∃ pdu', pdu.writeHeader = .ok pdu' ∧ pdu'.Holds Written.new msg := by
  have hle : 16 + msg.data.length ≤ pdu.buf.buffer.length := hlen ▸ hvalid.offset_le
  have h0 : copyAt pdu.buf.buffer 0 (writeUint32 pdu.getLength) =
      .ok (writeUint32 pdu.getLength ++ pdu.buf.buffer.drop 4) :=
    copyAt_next [] rfl (show 4 ≤ pdu.buf.buffer.length by omega)
  -- the other fields follow, each at the end of those before
  have hnext : ∀ (done : Bytes) (n v : Nat), done.length = n → n + 2 ≤ 16 →
      copyAt (done ++ pdu.buf.buffer.drop n) n (writeUint16 v) =
        .ok (done ++ writeUint16 v ++ pdu.buf.buffer.drop (n + 2)) := by
    intro done n v hdone hn
    rw [copyAt_next _ hdone (by simp only [writeUint16, List.length_cons, List.length_nil, List.length_drop]; omega),
      List.drop_drop]
    rfl
  have h4 := hnext (writeUint32 pdu.getLength) 4 1 rfl (by decide)
  have h6 := hnext (writeUint32 pdu.getLength ++ writeUint16 1) 6 0 rfl (by decide)
  have h8 := hnext (writeUint32 pdu.getLength ++ writeUint16 1 ++ writeUint16 0) 8 7 rfl (by decide)
  have h10 := hnext (writeUint32 pdu.getLength ++ writeUint16 1 ++ writeUint16 0 ++ writeUint16 7) 10 0 rfl (by decide)
  have h12 := hnext (writeUint32 pdu.getLength ++ writeUint16 1 ++ writeUint16 0 ++ writeUint16 7 ++ writeUint16 0) 12 0 rfl
    (by decide)
  have h14 := hnext (writeUint32 pdu.getLength ++ writeUint16 1 ++ writeUint16 0 ++ writeUint16 7 ++ writeUint16 0 ++
    writeUint16 0) 14 0 rfl (by decide)
  have hcopies : pdu.writeHeader = .ok { pdu with buf := { pdu.buf with
      buffer := Written.new.encode pdu.getLength ++ pdu.buf.buffer.drop pduHeaderLen } } := by
    simp only [ImPdu.writeHeader, hheader, ImPdu.new, ImPdu.imPduVersion, bind, Except.bind, pure, Except.pure, h0, h4, h6,
      h8, h10, h12, h14]
    rfl
  have hsize : (Written.new.encode pdu.getLength ++ pdu.buf.buffer.drop pduHeaderLen).length = pdu.buf.buffer.length := by
    rw [List.length_append, Written.length_encode, List.length_drop]
    simp only [pduHeaderLen]
    omega
  refine ⟨_, hcopies, ⟨?_, ?_⟩, ?_, hheader⟩
  · rw [hsize]
    exact hvalid.offset_le
  · rw [hsize]
    exact hvalid.alloc_lt
  · -- after the header the data stands as before
    have hrest : (pdu.buf.buffer.drop pduHeaderLen).take msg.data.length = msg.data := by
      conv_rhs => rw [← hdata, contents, hlen, List.drop_take, Nat.add_sub_cancel_left]
    change (Written.new.encode pdu.getLength ++ pdu.buf.buffer.drop pduHeaderLen).take pdu.buf.writeOffset = _
    rw [hlen, List.take_append, Written.length_encode, List.take_of_length_le (by simp [pduHeaderLen]),
      ImPdu.getLength, hlen, Nat.add_sub_cancel_left, hrest]

/-- `SetPBMsg` begins anew. -/
theorem setPBMsg_holds (hvalid : pdu.buf.Valid) (hheader : pdu.pduHeader = ImPdu.new.pduHeader) (msg : MessageLite) :
    ∃ pdu', pdu.setPBMsg msg = .ok pdu' ∧ pdu'.Holds Written.new msg := by
  obtain ⟨b1, h1, hvalid1, hcontents1, -⟩ := readNull_of_valid hvalid (Nat.le_refl _)
  have hoffset1 : b1.writeOffset = 0 := by
    rw [← length_contents hvalid1, hcontents1, List.length_drop, length_contents hvalid, Nat.sub_self]
  obtain ⟨b2, h2, hvalid2, hoffset2⟩ := write_none hvalid1 pduHeaderLen (by rw [hoffset1]; decide)
  rw [hoffset1, Nat.zero_add] at hoffset2
  have hfits : ExtendFits b2.writeOffset msg.data.length := by
    have := msg.size_lt
    simp only [hoffset2, ExtendFits, pduHeaderLen, uint32Size]
    omega
  obtain ⟨b3, h3, hvalid3, hcontents3⟩ := write_some hvalid2 hfits
  have hlen2 : b2.contents.length = pduHeaderLen := by rw [length_contents hvalid2, hoffset2]
  obtain ⟨pdu', h4, hholds⟩ := @writeHeader_holds { pdu with buf := b3 } msg hvalid3 hheader
    (by rw [← length_contents hvalid3, hcontents3, List.length_append, hlen2])
    (by rw [hcontents3]; exact List.drop_left' hlen2)
  refine ⟨pdu', ?_, hholds⟩
  simp only [ImPdu.setPBMsg, h1, h2, h3, bind, Except.bind]
  exact h4

/-! ## Sequences of calls -/

/-- The message in the buffer, after a call. -/
def msgAfter (msg : MessageLite) : ImPdu.Call → MessageLite
  | .setPBMsg msg' => msg'
  | _ => msg

/-- A call changes the fields as `Written.call` says. -/
theorem call_holds (h : pdu.Holds w msg) (c : ImPdu.Call) :
    ∃ pdu', pdu.call c = .ok pdu' ∧ pdu'.Holds (w.call c) (msgAfter msg c) := by
  cases c with
  | setPBMsg msg' => exact setPBMsg_holds h.valid h.header msg'
  | setVersion version => exact writeUint16At_holds h version (by decide) fun _ => rfl
  | setFlag flag => exact writeUint16At_holds h flag (by decide) fun _ => rfl
  | setServiceId serviceId => exact writeUint16At_holds h serviceId (by decide) fun _ => rfl
  | setCommandId commandId => exact writeUint16At_holds h commandId (by decide) fun _ => rfl
  | setError error => exact writeUint16At_holds h error (by decide) fun _ => rfl
  | setSeqNum seqNum => exact writeUint16At_holds h seqNum (by decide) fun _ => rfl
  | setReversed reversed => exact writeUint16At_holds h reversed.toUInt16 (by decide) fun _ => rfl

theorem calls_hold (h : pdu.Holds w msg) (calls : List ImPdu.Call) :
    ∃ pdu', calls.foldlM ImPdu.call pdu = .ok pdu' ∧ pdu'.Holds (calls.foldl Written.call w) (calls.foldl msgAfter msg) := by
  induction calls generalizing pdu w msg with
  | nil => exact ⟨pdu, rfl, h⟩
  | cons c calls ih =>
    obtain ⟨pdu1, h1, hholds1⟩ := call_holds h c
    obtain ⟨pdu2, h2, hholds2⟩ := ih hholds1
    refine ⟨pdu2, ?_, hholds2⟩
    simp only [List.foldlM_cons, h1, bind, Except.bind]
    exact h2

/-- What is built once a message has been set. -/
theorem build_holds (msg : MessageLite) (calls : List ImPdu.Call) :
    ∃ pdu, ImPdu.build (.setPBMsg msg :: calls) = .ok pdu ∧
      pdu.Holds ((ImPdu.Call.setPBMsg msg :: calls).foldl Written.call Written.new) (calls.foldl msgAfter msg) := by
  obtain ⟨pdu1, h1, hholds1⟩ := @setPBMsg_holds ImPdu.new valid_init rfl msg
  obtain ⟨pdu2, h2, hholds2⟩ := calls_hold hholds1 calls
  refine ⟨pdu2, ?_, hholds2⟩
  have h1' : ImPdu.new.call (.setPBMsg msg) = .ok pdu1 := h1
  simp only [ImPdu.build, List.foldlM_cons, h1', bind, Except.bind]
  exact h2

/-- Before any message has been set, a setter writes through a null pointer. -/
theorem call_new {c : ImPdu.Call} (hc : ∀ msg, c ≠ .setPBMsg msg) : ImPdu.new.call c = .error .undefinedBehaviour := by
  cases c with
  | setPBMsg msg => exact absurd rfl (hc msg)
  | setVersion version => rfl
  | setFlag flag => rfl
  | setServiceId serviceId => rfl
  | setCommandId commandId => rfl
  | setError error => rfl
  | setSeqNum seqNum => rfl
  | setReversed reversed => rfl

/-! ## Reading it back -/

/-- The PDU is read back whole. -/
theorem readPdu_of_holds (h : pdu.Holds w msg) :
    ImPdu.readPdu pdu.bytes pdu.bytes.length = .ok (some (ImPdu.ofBytes pdu.bytes)) ∧
      (ImPdu.ofBytes pdu.bytes).pduHeader = w.header pdu.bytes.length ∧
      (ImPdu.ofBytes pdu.bytes).readBody = .ok msg.data := by
  have hbytes : pdu.bytes = w.encode (pduHeaderLen + msg.data.length) ++ msg.data := h.contents
  have hlen : pdu.bytes.length = pduHeaderLen + msg.data.length := by
    rw [hbytes, List.length_append, Written.length_encode]
  have hmsg := msg.size_lt
  have hlt : pduHeaderLen + msg.data.length < uint32Size := by
    simp only [pduHeaderLen, uint32Size]
    omega
  have hfield : ImPdu.lengthField pdu.bytes = pdu.bytes.length := by
    have hread := readUint32_writeUint32 hlt (writeUint16 w.version.toNat ++ writeUint16 w.flag.toNat ++
      writeUint16 w.serviceId.toNat ++ writeUint16 w.commandId.toNat ++ writeUint16 w.seqNum.toNat ++
      writeUint16 w.reversed.toNat ++ msg.data)
    simp only [← List.append_assoc] at hread
    rw [hlen]
    refine Except.ok.inj (Eq.trans ?_ hread)
    rw [hbytes]
    exact (ImPdu.readUint32_eq_lengthField (by simp [Written.encode, writeUint32])).symm
  have hfront : ImPdu.frontLength pdu.bytes = some pdu.bytes.length := by
    refine ImPdu.frontLength_eq_some.2 ⟨?_, ?_, Nat.le_refl _, hfield.symm⟩
    · rw [hlen]
      exact Nat.le_add_right _ _
    · rw [hlen]
      exact Nat.lt_of_lt_of_le (by decide) (Nat.le_add_right 16 _)
  have hfits : ExtendFits 0 pdu.bytes.length := by
    simp only [hlen, ExtendFits, pduHeaderLen, uint32Size]
    omega
  refine ⟨?_, ?_, ?_⟩
  · rw [ImPdu.readPdu_some (n := pdu.bytes.length) (Nat.le_refl _) (by rw [hlen]; exact Nat.le_add_right _ _)
      (by rw [List.take_length]; exact hfront), if_pos hfits, List.take_length]
  · change ImPdu.header pdu.bytes = _
    rw [hlen, hbytes]
    exact Written.header_encode w hlt msg.data
  · have hbody : (ImPdu.ofBytes pdu.bytes).getBodyLength = msg.data.length := by
      simp only [ImPdu.getBodyLength, ImPdu.ofBytes, hlen, pduHeaderLen, uint32Size]
      omega
    have hdrop : pdu.bytes.drop pduHeaderLen = msg.data := by
      rw [hbytes]
      exact List.drop_left' rfl
    rw [ImPdu.readBody, hbody, readAt, if_pos (by simp only [ImPdu.ofBytes, List.length_append, hlen]; omega)]
    simp only [ImPdu.ofBytes]
    rw [List.drop_append_of_le_length (by rw [hlen]; exact Nat.le_add_right _ _), hdrop, List.take_left]

end BuildPduAux

end TeamTalk
