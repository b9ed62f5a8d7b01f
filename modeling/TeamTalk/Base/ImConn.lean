import TeamTalk.Base.ImPduBase

/-!
# The read loop of a connection

`CImConn::OnRead` first receives all there is into `m_in_buf`, then hands one PDU after the other to `HandlePdu` and drops
it from the buffer. `CProxyConn::OnRead` is the same two loops with another body, so the loops take the body as a parameter.
-/

namespace TeamTalk

open SimpleBuffer ImPdu

/-- `READ_BUF_SIZE`. -/
abbrev readBufSize : Nat := 2048

/-! ## The loops -/

/-- The buffer is extended when fewer than `READ_BUF_SIZE` bytes are free. -/
def SimpleBuffer.makeRoom (b : SimpleBuffer) : SimpleBuffer :=
  let freeBufLen := (b.allocSize + uint32Size - b.writeOffset) % uint32Size
  if freeBufLen < readBufSize then b.extend readBufSize else b

/-- `netlib_recv` and `IncWriteOffset`: the received bytes go behind the data. -/
def SimpleBuffer.recv (b : SimpleBuffer) (c : Bytes) : Exec SimpleBuffer := do
  return { buffer := ← copyAt b.buffer b.writeOffset c, writeOffset := (b.writeOffset + c.length) % uint32Size }

/-- The receiving loop of `OnRead`. The list holds what the calls of `netlib_recv` return one after the other; the call
after them returns no data and ends the loop. -/
def recvLoop : List Bytes → SimpleBuffer → Exec SimpleBuffer
  | [], b => return b.makeRoom
  | c :: cs, b => do recvLoop cs (← b.makeRoom.recv c)

variable {σ : Type}

/-- One turn of the handling loop: no whole PDU is left, an exception was thrown, or a PDU of this length was handled. -/
inductive Turn (σ : Type) where
  | stop
  | thrown (s : σ) (e : PduException)
  | next (s : σ) (pduLen : Nat)

/-- The handling loop of `OnRead`, inside its `try`: each turn looks at the buffer, and the PDU it handled is dropped. -/
def pduLoop (turn : Bytes → Nat → σ → Exec (Turn σ)) :
    Nat → SimpleBuffer → σ → Exec (SimpleBuffer × σ × Option PduException)
  | 0, _, _ => throw .outOfFuel
  | fuel + 1, b, s => do
    match ← turn b.buffer b.writeOffset s with
    | .stop => return (b, s, none)
    | .thrown s e => return (b, s, some e)
    | .next s pduLen => pduLoop turn fuel (← b.readNull pduLen) s

/-- `OnRead`: receive, handle, and close the connection when an exception was thrown. -/
def onReadWith (turn : Bytes → Nat → σ → Exec (Turn σ)) (onClose : σ → σ) (chunks : List Bytes) (b : SimpleBuffer)
    (s : σ) : Exec (SimpleBuffer × σ) := do
  let b ← recvLoop chunks b
  match ← pduLoop turn (b.writeOffset + 1) b s with
  | (b, s, none) => return (b, s)
  | (b, s, some _) => return (b, onClose s)

/-- Several calls of `OnRead`, one after the other. -/
def onReadsWith (turn : Bytes → Nat → σ → Exec (Turn σ)) (onClose : σ → σ) :
    List (List Bytes) → SimpleBuffer → σ → Exec (SimpleBuffer × σ)
  | [], b, s => return (b, s)
  | chunks :: reads, b, s => do
    let (b, s) ← onReadWith turn onClose chunks b s
    onReadsWith turn onClose reads b s

/-- One turn of `CImConn::OnRead`: `ReadPdu`, then `HandlePdu`, which may throw after it has done something. -/
def imConnTurn (handlePdu : ImPdu → σ → Exec (σ × Option PduException)) (buf : Bytes) (len : Nat) (s : σ) :
    Exec (Turn σ) :=
  match readPdu buf len with
  | .error (.pduException e) => return .thrown s e
  | .error fault => throw fault
  | .ok none => return .stop
  | .ok (some pdu) => do
    match ← handlePdu pdu s with
    | (s, some e) => return .thrown s e
    | (s, none) => return .next s pdu.getLength

/-- `CImConn::OnRead`. -/
def onRead (handlePdu : ImPdu → σ → Exec (σ × Option PduException)) (onClose : σ → σ) (chunks : List Bytes)
    (b : SimpleBuffer) (s : σ) : Exec (SimpleBuffer × σ) :=
  onReadWith (imConnTurn handlePdu) onClose chunks b s

/-! ## What the loops need: no size wraps around -/

/-- The block's size after room was made. -/
def roomAfter (alloc offset : Nat) : Nat :=
  if alloc - offset < readBufSize then offset + readBufSize + (offset + readBufSize) / 4 else alloc

/-- Through the whole receiving loop, no size that the buffer is extended to wraps around. -/
def RecvFits : Nat → Nat → List Bytes → Prop
  | alloc, offset, [] => roomAfter alloc offset < uint32Size
  | alloc, offset, c :: cs =>
    roomAfter alloc offset < uint32Size ∧ RecvFits (roomAfter alloc offset) (offset + c.length) cs

/-- The block's size after the receiving loop. -/
def recvAlloc : Nat → Nat → List Bytes → Nat
  | alloc, offset, [] => roomAfter alloc offset
  | alloc, offset, c :: cs => recvAlloc (roomAfter alloc offset) (offset + c.length) cs

/-- In all reads, no size wraps around: not when the in-buffer is extended, and not when a PDU is copied out of it. -/
def BufferFits : Nat → Bytes → List (List Bytes) → Prop
  | _, _, [] => True
  | alloc, carry, r :: rs =>
    RecvFits alloc carry.length r ∧
      (∀ f ∈ (format.drain (carry ++ r.flatten)).1, ExtendFits 0 f.length) ∧
      BufferFits (recvAlloc alloc carry.length r) (format.drain (carry ++ r.flatten)).2 rs

/-- What `netlib_recv` can return: between one byte and `READ_BUF_SIZE` bytes. -/
def Received (chunks : List Bytes) : Prop := ∀ c ∈ chunks, c ≠ [] ∧ c.length ≤ readBufSize

instance (chunks : List Bytes) : Decidable (Received chunks) := inferInstanceAs (Decidable (∀ _ ∈ _, _))

/-! ## The receiving loop -/

/-- With a valid buffer, room is made without a wrap, or the buffer is torn. -/
theorem makeRoom_of_valid {b : SimpleBuffer} (h : b.Valid) :
    (roomAfter b.buffer.length b.writeOffset < uint32Size →
      b.makeRoom.Valid ∧ b.makeRoom.contents = b.contents ∧ b.makeRoom.writeOffset = b.writeOffset ∧
        b.makeRoom.buffer.length = roomAfter b.buffer.length b.writeOffset ∧
        b.writeOffset + readBufSize ≤ b.makeRoom.buffer.length) ∧
    (¬roomAfter b.buffer.length b.writeOffset < uint32Size → b.makeRoom.Torn) := by
  have ho := h.offset_le
  have ha := h.alloc_lt
  have hfree : (b.allocSize + uint32Size - b.writeOffset) % uint32Size = b.buffer.length - b.writeOffset := by
    simp only [allocSize, uint32Size] at *
    omega
  by_cases hf : b.buffer.length - b.writeOffset < readBufSize
  · have hroom : roomAfter b.buffer.length b.writeOffset =
        b.writeOffset + readBufSize + (b.writeOffset + readBufSize) / 4 := by
      rw [roomAfter, if_pos hf]
    have hmk : b.makeRoom = b.extend readBufSize := by
      simp only [makeRoom, hfree]
      rw [if_pos hf]
    rw [hroom, hmk]
    constructor
    · intro hfit
      have hs := extendedSize_of_fits (show ExtendFits b.writeOffset readBufSize from hfit)
      refine ⟨valid_extend hfit, contents_extend h hfit, rfl, ?_, ?_⟩
      · simp only [extend, length_realloc, hs]
      · simp only [extend, length_realloc, hs]
        omega
    · intro hfit
      have hlt : b.writeOffset < uint32Size := by omega
      refine ⟨?_, hlt⟩
      simp only [extend, length_realloc]
      rcases extendedSize_of_not_fits (show ¬ExtendFits b.writeOffset readBufSize from hfit) hlt (by decide)
        with hw | ⟨_, hw⟩ <;> simp only [uint32Size, readBufSize] at * <;> omega
  · have hroom : roomAfter b.buffer.length b.writeOffset = b.buffer.length := by
      rw [roomAfter, if_neg hf]
    have hmk : b.makeRoom = b := by
      simp only [makeRoom, hfree]
      rw [if_neg hf]
    rw [hroom, hmk]
    exact ⟨fun _ => ⟨h, rfl, rfl, rfl, by omega⟩, fun hn => absurd ha hn⟩

/-- A torn buffer stays torn when room is made. -/
theorem torn_makeRoom {b : SimpleBuffer} (h : b.Torn) : b.makeRoom.Torn := by
  obtain ⟨h1, h2⟩ := h
  simp only [SimpleBuffer.makeRoom]
  split
  · rename_i hfree
    refine ⟨?_, h2⟩
    -- fewer than `READ_BUF_SIZE` bytes seem free although none is: the offset is close to `2 ^ 32`
    have hbig : uint32Size ≤ b.writeOffset + readBufSize := by
      simp only [allocSize, uint32Size, readBufSize] at *
      omega
    simp only [extend, length_realloc]
    rcases extendedSize_of_not_fits (show ¬ExtendFits b.writeOffset readBufSize by unfold ExtendFits; omega) h2 (by decide)
      with hw | ⟨_, hw⟩ <;> simp only [uint32Size, readBufSize] at * <;> omega
  · exact ⟨h1, h2⟩

/-- Nothing can be received into a torn buffer. -/
theorem recv_torn {b : SimpleBuffer} (h : b.Torn) (c : Bytes) : b.recv c = .error .undefinedBehaviour := by
  have hcopy : copyAt b.buffer b.writeOffset c = .error .undefinedBehaviour := by
    have := h.1
    rw [copyAt, if_neg (by omega)]
  simp only [recv, hcopy, bind, Except.bind]

/-- With enough room, the received bytes are appended to the data. -/
theorem recv_of_room {b : SimpleBuffer} (h : b.Valid) {c : Bytes} (hc : c.length ≤ readBufSize)
    (hroom : b.writeOffset + readBufSize ≤ b.buffer.length) :
    ∃ b' : SimpleBuffer, b.recv c = .ok b' ∧ b'.Valid ∧ b'.contents = b.contents ++ c ∧
      b'.writeOffset = b.writeOffset + c.length ∧ b'.buffer.length = b.buffer.length := by
  have halloc := h.alloc_lt
  have hlc := length_contents h
  have hcopy : copyAt b.buffer b.writeOffset c =
      .ok (b.contents ++ c ++ b.buffer.drop (b.writeOffset + c.length)) := by
    rw [copyAt, if_pos (by omega)]
    rfl
  have hmod : (b.writeOffset + c.length) % uint32Size = b.writeOffset + c.length := Nat.mod_eq_of_lt (by omega)
  have hlen : (b.contents ++ c ++ b.buffer.drop (b.writeOffset + c.length)).length = b.buffer.length := by
    simp only [List.length_append, List.length_drop, hlc]
    omega
  refine ⟨⟨b.contents ++ c ++ b.buffer.drop (b.writeOffset + c.length), b.writeOffset + c.length⟩, ?_, ⟨?_, ?_⟩, ?_, rfl,
    hlen⟩
  · simp only [recv, hcopy, bind, Except.bind, hmod, pure, Except.pure]
  · simp only [hlen]
    omega
  · simp only [hlen]
    exact halloc
  · exact List.take_left' (by simp only [List.length_append, hlc])

/-- Room is made before the call that ends the loop. -/
theorem recvLoop_nil (b : SimpleBuffer) : recvLoop [] b = .ok b.makeRoom := by
  simp only [recvLoop, pure, Except.pure]

/-- After a call that returned data the loop goes on. -/
theorem recvLoop_cons {b b1 : SimpleBuffer} {c : Bytes} (h : b.makeRoom.recv c = .ok b1) (cs : List Bytes) :
    recvLoop (c :: cs) b = recvLoop cs b1 := by
  rw [recvLoop, h]
  rfl

/-- In a buffer that cannot be extended without a wrap, nothing is received; when nothing is, it ends torn. -/
theorem recvLoop_torn {b : SimpleBuffer} (h : b.makeRoom.Torn) (chunks : List Bytes) :
    (∃ fault, recvLoop chunks b = .error fault) ∨ ∃ b' : SimpleBuffer, recvLoop chunks b = .ok b' ∧ b'.Torn := by
  cases chunks with
  | nil => exact .inr ⟨b.makeRoom, recvLoop_nil b, h⟩
  | cons c cs =>
    have hcons : recvLoop (c :: cs) b = .error .undefinedBehaviour := by
      rw [recvLoop, recv_torn h]
      rfl
    exact .inl ⟨.undefinedBehaviour, hcons⟩

/-- When no size wraps around, the received bytes are appended to the data. -/
theorem recvLoop_fits {chunks : List Bytes} (hc : Received chunks) {b : SimpleBuffer} (h : b.Valid)
    (hf : RecvFits b.buffer.length b.writeOffset chunks) :
    ∃ b' : SimpleBuffer, recvLoop chunks b = .ok b' ∧ b'.Valid ∧ b'.contents = b.contents ++ chunks.flatten ∧
      b'.buffer.length = recvAlloc b.buffer.length b.writeOffset chunks := by
  induction chunks generalizing b with
  | nil =>
    obtain ⟨hv, hcont, _, hlen, _⟩ := (makeRoom_of_valid h).1 hf
    exact ⟨b.makeRoom, recvLoop_nil b, hv, by rw [hcont, List.flatten_nil, List.append_nil], hlen⟩
  | cons c cs ih =>
    obtain ⟨hv, hcont, hoff, hlen, hroom⟩ := (makeRoom_of_valid h).1 hf.1
    rw [← hoff] at hroom
    obtain ⟨b1, hb1, hv1, hcont1, hoff1, hlen1⟩ := recv_of_room hv (hc c List.mem_cons_self).2 hroom
    rw [hoff] at hoff1
    rw [hlen] at hlen1
    have hf1 : RecvFits b1.buffer.length b1.writeOffset cs := by
      rw [hlen1, hoff1]
      exact hf.2
    obtain ⟨b', hb', hv', hcont', hlen'⟩ := ih (fun d hd => hc d (List.mem_cons_of_mem c hd)) hv1 hf1
    refine ⟨b', ?_, hv', ?_, ?_⟩
    · rw [recvLoop_cons hb1]
      exact hb'
    · rw [hcont', hcont1, hcont, List.flatten_cons, List.append_assoc]
    · rw [hlen', hlen1, hoff1, recvAlloc]

/-- When a size wraps around, the loop fails or leaves the buffer torn. -/
theorem recvLoop_not_fits {chunks : List Bytes} (hc : Received chunks) {b : SimpleBuffer} (h : b.Valid)
    (hf : ¬RecvFits b.buffer.length b.writeOffset chunks) :
    (∃ fault, recvLoop chunks b = .error fault) ∨ ∃ b' : SimpleBuffer, recvLoop chunks b = .ok b' ∧ b'.Torn := by
  induction chunks generalizing b with
  | nil => exact recvLoop_torn ((makeRoom_of_valid h).2 hf) []
  | cons c cs ih =>
    by_cases hr : roomAfter b.buffer.length b.writeOffset < uint32Size
    · obtain ⟨hv, _, hoff, hlen, hroom⟩ := (makeRoom_of_valid h).1 hr
      rw [← hoff] at hroom
      obtain ⟨b1, hb1, hv1, _, hoff1, hlen1⟩ := recv_of_room hv (hc c List.mem_cons_self).2 hroom
      rw [hoff] at hoff1
      rw [hlen] at hlen1
      have hf1 : ¬RecvFits b1.buffer.length b1.writeOffset cs := by
        rw [hlen1, hoff1]
        exact fun hh => hf ⟨hr, hh⟩
      rw [recvLoop_cons hb1]
      exact ih (fun d hd => hc d (List.mem_cons_of_mem c hd)) hv1 hf1
    · exact recvLoop_torn ((makeRoom_of_valid h).2 hr) (c :: cs)

/-! ## The handling loop -/

/-- What a turn of the handling loop must do: stop without a whole PDU, and otherwise handle the bytes of the first one as
`h` says, unless its copy does not fit. -/
structure TurnMeets (turn : Bytes → Nat → σ → Exec (Turn σ)) (h : σ → Bytes → σ) : Prop where
  stop : ∀ {buf : Bytes} {len : Nat} (s : σ), len ≤ buf.length → ¬ZeroLength (buf.take len) →
    frontLength (buf.take len) = none → turn buf len s = .ok .stop
  next : ∀ {buf : Bytes} {len n : Nat} (s : σ), len ≤ buf.length → pduHeaderLen ≤ n →
    frontLength (buf.take len) = some n →
    turn buf len s = if ExtendFits 0 n then .ok (.next (h s (buf.take n)) n) else .error .undefinedBehaviour

/-- The turn of `CImConn::OnRead`, with a handler that does not throw. -/
theorem imConnTurn_meets {handlePdu : ImPdu → σ → Exec (σ × Option PduException)} {h : σ → Bytes → σ}
    (hh : ∀ f s, handlePdu (ofBytes f) s = .ok (h s f, none)) : TurnMeets (imConnTurn handlePdu) h where
  stop s hlen hz hf := by
    simp only [imConnTurn, readPdu_none hlen hz hf]
    rfl
  next {buf _ n} s hlen h16 hf := by
    have hl : (buf.take n).length = n := by
      have hle := (frontLength_eq_some.1 hf).2.2.1
      rw [List.length_take] at hle ⊢
      omega
    simp only [imConnTurn, readPdu_some hlen h16 hf]
    by_cases hfit : ExtendFits 0 n
    · simp only [if_pos hfit, hh, getLength_ofBytes, hl]
      rfl
    · simp only [if_neg hfit]
      rfl

/-- Every whole PDU of the data has a whole header, and what is left over has no header of length zero. -/
def Clean (xs : Bytes) : Prop := (∀ f ∈ (format.drain xs).1, pduHeaderLen ≤ f.length) ∧ ¬ZeroLength (format.drain xs).2

/-- More data cannot make the data so far clean. -/
theorem Clean.of_append {xs ys : Bytes} (h : Clean (xs ++ ys)) : Clean xs ∧ Clean ((format.drain xs).2 ++ ys) := by
  unfold Clean at h
  rw [format.drain_append] at h
  obtain ⟨h1, h2⟩ := h
  refine ⟨⟨fun f hf => h1 f (List.mem_append_left _ hf), fun hz => h2 ?_⟩,
    fun f hf => h1 f (List.mem_append_right _ hf), h2⟩
  have hz' := hz.append ys
  rw [format.drain_incomplete hz'.incomplete]
  exact hz'

/-- Well-formed PDUs and a proper prefix of another one are clean. -/
theorem clean_of_wellFormed {ps : List Bytes} {q t : Bytes} (hps : ∀ p ∈ ps, WellFormed p) (hq : WellFormed q)
    (ht : t <+: q) (hne : t ≠ q) : Clean (ps.flatten ++ t) := by
  obtain ⟨hinc, hz⟩ := hq.prefix_incomplete ht hne
  unfold Clean
  rw [format.drain_frames (fun p hp => (hps p hp).frame) hinc]
  exact ⟨fun p hp => (hps p hp).1, hz⟩

/-- On clean data whose PDUs can be copied, the loop handles exactly the whole PDUs, and leaves the rest in the buffer. -/
theorem pduLoop_ok {turn : Bytes → Nat → σ → Exec (Turn σ)} {h : σ → Bytes → σ} (ht : TurnMeets turn h) (xs : Bytes)
    {b : SimpleBuffer} (hv : b.Valid) (hxs : b.contents = xs) {fuel : Nat} (hfuel : xs.length < fuel) (hc : Clean xs)
    (hfit : ∀ f ∈ (format.drain xs).1, ExtendFits 0 f.length) (s : σ) :
    ∃ b' : SimpleBuffer, pduLoop turn fuel b s = .ok (b', (format.drain xs).1.foldl h s, none) ∧ b'.Valid ∧
      b'.contents = (format.drain xs).2 ∧ b'.buffer.length = b.buffer.length := by
  induction xs using format.drain_induction generalizing b fuel s with
  | incomplete xs hinc =>
    obtain ⟨fuel, rfl⟩ : ∃ n, fuel = n + 1 := ⟨fuel - 1, by omega⟩
    rw [Clean, format.drain_incomplete hinc] at hc
    rw [format.drain_incomplete hinc]
    have hfl : frontLength (b.buffer.take b.writeOffset) = none := by
      rw [show b.buffer.take b.writeOffset = xs from hxs]
      exact incomplete_iff.1 hinc
    have hz : ¬ZeroLength (b.buffer.take b.writeOffset) := by
      rw [show b.buffer.take b.writeOffset = xs from hxs]
      exact hc.2
    refine ⟨b, ?_, hv, hxs, rfl⟩
    rw [pduLoop, ht.stop s hv.offset_le hz hfl]
    rfl
  | next xs f r hnext ih =>
    obtain ⟨fuel, rfl⟩ : ∃ n, fuel = n + 1 := ⟨fuel - 1, by omega⟩
    obtain ⟨hfl, hf, hr⟩ := next_eq_some hnext
    have hle := (frontLength_eq_some.1 hfl).2.2.1
    have h0 := (frontLength_eq_some.1 hfl).2.1
    rw [Clean, format.drain_next hnext] at hc
    rw [format.drain_next hnext] at hfit ⊢
    have hlc := length_contents hv
    rw [hxs] at hlc
    have htake : b.buffer.take b.writeOffset = xs := hxs
    have hturn := ht.next s hv.offset_le (hc.1 f List.mem_cons_self) (by rw [htake]; exact hfl)
    rw [if_pos (hfit f List.mem_cons_self)] at hturn
    have hff : b.buffer.take f.length = f := by
      conv_rhs => rw [hf, ← htake, List.take_take, Nat.min_eq_left (by omega)]
    rw [hff] at hturn
    obtain ⟨b1, hb1, hv1, hcont1, hlen1⟩ := readNull_of_valid hv (show f.length ≤ b.writeOffset by omega)
    rw [hxs, ← hr] at hcont1
    have hrl : r.length < fuel := by
      rw [hr, List.length_drop]
      omega
    obtain ⟨b', hb', hv', hcont', hlen'⟩ := ih hv1 hcont1 hrl ⟨fun g hg => hc.1 g (List.mem_cons_of_mem f hg), hc.2⟩
      (fun g hg => hfit g (List.mem_cons_of_mem f hg)) (h s f)
    refine ⟨b', ?_, hv', hcont', hlen'.trans hlen1⟩
    rw [pduLoop, hturn]
    simp only [bind, Except.bind, hb1]
    exact hb'

/-- When the copy of one of the PDUs does not fit, the loop fails. -/
theorem pduLoop_not_fits {turn : Bytes → Nat → σ → Exec (Turn σ)} {h : σ → Bytes → σ} (ht : TurnMeets turn h) (xs : Bytes)
    {b : SimpleBuffer} (hv : b.Valid) (hxs : b.contents = xs) {fuel : Nat} (hfuel : xs.length < fuel) (hc : Clean xs)
    (hfit : ¬∀ f ∈ (format.drain xs).1, ExtendFits 0 f.length) (s : σ) :
    pduLoop turn fuel b s = .error .undefinedBehaviour := by
  induction xs using format.drain_induction generalizing b fuel s with
  | incomplete xs hinc =>
    rw [format.drain_incomplete hinc] at hfit
    exact absurd (fun f hf => absurd hf List.not_mem_nil) hfit
  | next xs f r hnext ih =>
    obtain ⟨fuel, rfl⟩ : ∃ n, fuel = n + 1 := ⟨fuel - 1, by omega⟩
    obtain ⟨hfl, hf, hr⟩ := next_eq_some hnext
    have hle := (frontLength_eq_some.1 hfl).2.2.1
    have h0 := (frontLength_eq_some.1 hfl).2.1
    rw [Clean, format.drain_next hnext] at hc
    rw [format.drain_next hnext] at hfit
    have hlc := length_contents hv
    rw [hxs] at hlc
    have htake : b.buffer.take b.writeOffset = xs := hxs
    have hturn := ht.next s hv.offset_le (hc.1 f List.mem_cons_self) (by rw [htake]; exact hfl)
    by_cases hff : ExtendFits 0 f.length
    · rw [if_pos hff] at hturn
      obtain ⟨b1, hb1, hv1, hcont1, _⟩ := readNull_of_valid hv (show f.length ≤ b.writeOffset by omega)
      rw [hxs, ← hr] at hcont1
      have hrl : r.length < fuel := by
        rw [hr, List.length_drop]
        omega
      rw [pduLoop, hturn]
      simp only [bind, Except.bind, hb1]
      refine ih hv1 hcont1 hrl ⟨fun g hg => hc.1 g (List.mem_cons_of_mem f hg), hc.2⟩ (fun hall => hfit ?_) _
      rintro g hg
      rcases List.mem_cons.1 hg with rfl | hg
      · exact hff
      · exact hall g hg
    · rw [if_neg hff] at hturn
      rw [pduLoop, hturn]
      rfl

/-- On a torn buffer the loop fails, or ends at once and leaves it torn. -/
theorem pduLoop_torn (turn : Bytes → Nat → σ → Exec (Turn σ)) {b : SimpleBuffer} (hb : b.Torn) (fuel : Nat) (s : σ) :
    (∃ fault, pduLoop turn fuel b s = .error fault) ∨
      ∃ (s' : σ) (e : Option PduException), pduLoop turn fuel b s = .ok (b, s', e) := by
  cases fuel with
  | zero => exact .inl ⟨.outOfFuel, rfl⟩
  | succ fuel =>
    rw [pduLoop]
    cases hturn : turn b.buffer b.writeOffset s with
    | error fault => exact .inl ⟨fault, rfl⟩
    | ok t =>
      cases t with
      | stop => exact .inr ⟨s, none, rfl⟩
      | thrown s' e => exact .inr ⟨s', some e, rfl⟩
      | next s' n =>
        refine .inl ⟨.undefinedBehaviour, ?_⟩
        simp only [bind, Except.bind, hb.readNull n]

/-! ## `OnRead` -/

/-- What several reads should do: the whole PDUs were handled, and the rest is the data in the buffer. -/
def Exact (result : Exec (SimpleBuffer × σ)) (rest : Bytes) (s : σ) : Prop :=
  ∃ b : SimpleBuffer, result = .ok (b, s) ∧ b.contents = rest ∧ b.writeOffset = rest.length

/-- A torn buffer stays torn, whatever is read afterwards. -/
theorem onReadsWith_torn (turn : Bytes → Nat → σ → Exec (Turn σ)) (onClose : σ → σ) (reads : List (List Bytes))
    {b : SimpleBuffer} (hb : b.Torn) (s : σ) :
    (∃ fault, onReadsWith turn onClose reads b s = .error fault) ∨
      ∃ (b' : SimpleBuffer) (s' : σ), onReadsWith turn onClose reads b s = .ok (b', s') ∧ b'.Torn := by
  induction reads generalizing b s with
  | nil => exact .inr ⟨b, s, rfl, hb⟩
  | cons chunks reads ih =>
    rw [onReadsWith, onReadWith]
    rcases recvLoop_torn (torn_makeRoom hb) chunks with ⟨fault, hr⟩ | ⟨b1, hr, hb1⟩
    · exact .inl ⟨fault, by rw [hr]; rfl⟩
    · rw [hr]
      simp only [bind, Except.bind]
      rcases pduLoop_torn turn hb1 (b1.writeOffset + 1) s with ⟨fault, hp⟩ | ⟨s', e, hp⟩
      · exact .inl ⟨fault, by rw [hp]⟩
      · rw [hp]
        cases e with
        | none => exact ih hb1 s'
        | some e => exact ih hb1 (onClose s')

/-- A torn buffer never holds the rest. -/
theorem not_exact_of_torn {result : Exec (SimpleBuffer × σ)} {rest : Bytes} {s : σ}
    (h : (∃ fault, result = .error fault) ∨ ∃ (b' : SimpleBuffer) (s' : σ), result = .ok (b', s') ∧ b'.Torn) :
    ¬Exact result rest s := by
  rintro ⟨b, hb, hcont, hoff⟩
  rcases h with ⟨fault, hf⟩ | ⟨b', s', hok, ht⟩
  · rw [hf] at hb
    cases hb
  · rw [hok, Except.ok.injEq, Prod.mk.injEq] at hb
    have := ht.length_contents_lt
    rw [hb.1, hcont, hoff] at this
    omega

/-- A read of clean data without a wrap. -/
theorem onReadWith_ok {turn : Bytes → Nat → σ → Exec (Turn σ)} {h : σ → Bytes → σ} (ht : TurnMeets turn h)
    (onClose : σ → σ) {chunks : List Bytes} (hchunks : Received chunks) {b : SimpleBuffer} (hv : b.Valid)
    (hc : Clean (b.contents ++ chunks.flatten)) (hrecv : RecvFits b.buffer.length b.writeOffset chunks)
    (hfit : ∀ f ∈ (format.drain (b.contents ++ chunks.flatten)).1, ExtendFits 0 f.length) (s : σ) :
    ∃ b' : SimpleBuffer,
      onReadWith turn onClose chunks b s = .ok (b', (format.drain (b.contents ++ chunks.flatten)).1.foldl h s) ∧
        b'.Valid ∧ b'.contents = (format.drain (b.contents ++ chunks.flatten)).2 ∧
        b'.buffer.length = recvAlloc b.buffer.length b.writeOffset chunks := by
  obtain ⟨b1, hr, hv1, hcont1, hlen1⟩ := recvLoop_fits hchunks hv hrecv
  have hfuel : (b.contents ++ chunks.flatten).length < b1.writeOffset + 1 := by
    rw [← hcont1, length_contents hv1]
    omega
  obtain ⟨b2, hp, hv2, hcont2, hlen2⟩ := pduLoop_ok ht _ hv1 hcont1 hfuel hc hfit s
  refine ⟨b2, ?_, hv2, hcont2, hlen2.trans hlen1⟩
  rw [onReadWith, hr]
  simp only [bind, Except.bind, hp, pure, Except.pure]

/-- For clean data, without a wrap the reads handle the whole PDUs and leave the rest in the buffer. -/
theorem onReadsWith_fits {turn : Bytes → Nat → σ → Exec (Turn σ)} {h : σ → Bytes → σ} (ht : TurnMeets turn h)
    (onClose : σ → σ) {reads : List (List Bytes)} (hreads : ∀ chunks ∈ reads, Received chunks) {b : SimpleBuffer}
    (hv : b.Valid) (hb : format.Incomplete b.contents) (hc : Clean (b.contents ++ reads.flatten.flatten))
    (hfits : BufferFits b.buffer.length b.contents reads) (s : σ) :
    Exact (onReadsWith turn onClose reads b s) (format.drain (b.contents ++ reads.flatten.flatten)).2
      ((format.drain (b.contents ++ reads.flatten.flatten)).1.foldl h s) := by
  induction reads generalizing b s with
  | nil =>
    rw [List.flatten_nil, List.flatten_nil, List.append_nil, format.drain_incomplete hb]
    exact ⟨b, rfl, rfl, (length_contents hv).symm⟩
  | cons chunks reads ih =>
    rw [List.flatten_cons, List.flatten_append, ← List.append_assoc] at hc ⊢
    obtain ⟨hc1, hc2⟩ := hc.of_append
    obtain ⟨hrecv, hfit, hrest⟩ := hfits
    rw [length_contents hv] at hrecv hrest
    obtain ⟨b2, hone, hv2, hcont2, hlen2⟩ :=
      onReadWith_ok ht onClose (hreads chunks List.mem_cons_self) hv hc1 hrecv hfit s
    have hinc2 : format.Incomplete b2.contents := by
      rw [hcont2]
      exact format.drain_rest_incomplete _
    have hnext := ih (fun c hcc => hreads c (List.mem_cons_of_mem chunks hcc)) hv2 hinc2 (by rw [hcont2]; exact hc2)
      (by rw [hcont2, hlen2]; exact hrest) ((format.drain (b.contents ++ chunks.flatten)).1.foldl h s)
    rw [hcont2] at hnext
    rw [format.drain_append, List.foldl_append, onReadsWith, hone]
    exact hnext

/-- For clean data, after a wrap the reads fail or leave the buffer torn. -/
theorem onReadsWith_not_fits {turn : Bytes → Nat → σ → Exec (Turn σ)} {h : σ → Bytes → σ} (ht : TurnMeets turn h)
    (onClose : σ → σ) {reads : List (List Bytes)} (hreads : ∀ chunks ∈ reads, Received chunks) {b : SimpleBuffer}
    (hv : b.Valid) (hc : Clean (b.contents ++ reads.flatten.flatten))
    (hfits : ¬BufferFits b.buffer.length b.contents reads) (s : σ) :
    (∃ fault, onReadsWith turn onClose reads b s = .error fault) ∨
      ∃ (b' : SimpleBuffer) (s' : σ), onReadsWith turn onClose reads b s = .ok (b', s') ∧ b'.Torn := by
  induction reads generalizing b s with
  | nil => exact absurd trivial hfits
  | cons chunks reads ih =>
    have hchunks := hreads chunks List.mem_cons_self
    rw [List.flatten_cons, List.flatten_append, ← List.append_assoc] at hc
    obtain ⟨hc1, hc2⟩ := hc.of_append
    rw [BufferFits, length_contents hv] at hfits
    by_cases hrecv : RecvFits b.buffer.length b.writeOffset chunks
    · by_cases hfit : ∀ f ∈ (format.drain (b.contents ++ chunks.flatten)).1, ExtendFits 0 f.length
      · obtain ⟨b2, hone, hv2, hcont2, hlen2⟩ := onReadWith_ok ht onClose hchunks hv hc1 hrecv hfit s
        rw [onReadsWith, hone]
        exact ih (fun c hcc => hreads c (List.mem_cons_of_mem chunks hcc)) hv2 (by rw [hcont2]; exact hc2)
          (by rw [hcont2, hlen2]; exact fun hh => hfits ⟨hrecv, hfit, hh⟩) _
      · obtain ⟨b1, hr, hv1, hcont1, _⟩ := recvLoop_fits hchunks hv hrecv
        have hfuel : (b.contents ++ chunks.flatten).length < b1.writeOffset + 1 := by
          rw [← hcont1, length_contents hv1]
          omega
        refine .inl ⟨.undefinedBehaviour, ?_⟩
        rw [onReadsWith, onReadWith, hr]
        simp only [bind, Except.bind, pduLoop_not_fits ht _ hv1 hcont1 hfuel hc1 hfit s]
    · rw [onReadsWith, onReadWith]
      rcases recvLoop_not_fits hchunks hv hrecv with ⟨fault, hr⟩ | ⟨b1, hr, hb1⟩
      · exact .inl ⟨fault, by rw [hr]; rfl⟩
      · rw [hr]
        simp only [bind, Except.bind]
        rcases pduLoop_torn turn hb1 (b1.writeOffset + 1) s with ⟨fault, hp⟩ | ⟨s', e, hp⟩
        · exact .inl ⟨fault, by rw [hp]⟩
        · rw [hp]
          cases e with
          | none => exact onReadsWith_torn turn onClose reads hb1 s'
          | some e => exact onReadsWith_torn turn onClose reads hb1 (onClose s')

/-! ## When no size wraps around -/

/-- A read fits when all the data there is, with the room for another read and a quarter more, is below `2 ^ 32`. -/
theorem recvFits_of_small {alloc offset : Nat} {chunks : List Bytes} (ha : alloc < uint32Size)
    (h : ExtendFits (offset + chunks.flatten.length) readBufSize) :
    RecvFits alloc offset chunks ∧ recvAlloc alloc offset chunks < uint32Size := by
  unfold ExtendFits at h
  induction chunks generalizing alloc offset with
  | nil =>
    rw [List.flatten_nil, List.length_nil] at h
    have hroom : roomAfter alloc offset < uint32Size := by
      rw [roomAfter]
      split <;> omega
    exact ⟨hroom, hroom⟩
  | cons c cs ih =>
    rw [List.flatten_cons, List.length_append] at h
    have hroom : roomAfter alloc offset < uint32Size := by
      rw [roomAfter]
      split <;> omega
    rw [← Nat.add_assoc] at h
    obtain ⟨hf, hlt⟩ := ih hroom h
    exact ⟨⟨hroom, hf⟩, hlt⟩

/-- Reads fit when all their bytes together are that few. -/
theorem bufferFits_of_small {alloc : Nat} {carry : Bytes} {reads : List (List Bytes)} (ha : alloc < uint32Size)
    (h : ExtendFits (carry ++ reads.flatten.flatten).length readBufSize) : BufferFits alloc carry reads := by
  unfold ExtendFits at h
  induction reads generalizing alloc carry with
  | nil => trivial
  | cons chunks reads ih =>
    rw [List.flatten_cons, List.flatten_append, ← List.append_assoc, List.length_append] at h
    obtain ⟨hf, hlt⟩ := recvFits_of_small ha
      (show ExtendFits (carry.length + chunks.flatten.length) readBufSize by
        unfold ExtendFits
        rw [List.length_append] at h
        omega)
    refine ⟨hf, fun f hfm => ?_, ih hlt ?_⟩
    · have hle := format.length_frame_add_rest_le hfm
      unfold ExtendFits
      omega
    · have hle := format.length_drain_rest_le (carry ++ chunks.flatten)
      rw [List.length_append]
      omega

end TeamTalk
