import Mathlib
import TeamTalk.Base.Dispatch
import TeamTalk.Theorems.Framing

/-!
# Every PDU that is dispatched has a whole header

For both `OnRead` loops, whatever bytes come in whatever chunks: the loop ends without a fault, and only PDUs with a whole header
are handed on, exactly when no length field from 1 to 15 comes to the front of the buffer and no size wraps around.
-/

namespace TeamTalk

open SimpleBuffer ImPdu

/-- What a peer sends: what each `netlib_recv` in each `OnRead` returns. -/
structure Chunked where
  reads : List (List Bytes)
  received : ∀ chunks ∈ reads, Received chunks

/-- A PDU with a whole header: `GetBodyLength` does not wrap, and `GetBodyData` stays inside. -/
structure WholeHeader (received : Nat) (pdu : ImPdu) : Prop where
  header_le : pduHeaderLen ≤ pdu.getLength
  length_le : pdu.getLength ≤ received
  body_length : pdu.getBodyLength = pdu.getLength - pduHeaderLen
  body_data : pdu.readBody = .ok (pdu.bytes.drop pduHeaderLen)

/-- A handler that notes what `HandlePdu` is given, and may then throw. -/
def noteOrThrow (throws : List ImPdu → ImPdu → Option PduException) (pdu : ImPdu) (handed : List ImPdu) :
    Exec (List ImPdu × Option PduException) := .ok (handed ++ [pdu], throws handed pdu)

/-- `CImConn::OnRead` ends and hands only PDUs with a whole header to `HandlePdu`, whatever that throws. -/
def Chunked.ImConnWhole (c : Chunked) : Prop :=
  ∀ throws, ∃ (b : SimpleBuffer) (handed : List ImPdu),
    connReads (imConnTurn (noteOrThrow throws)) c.reads init [] = .ok (b, handed) ∧
      ∀ pdu ∈ handed, WholeHeader c.reads.flatten.flatten.length pdu

/-- `CProxyConn::OnRead` ends and makes tasks only of PDUs with a whole header. -/
def Chunked.ProxyWhole (c : Chunked) (uuid : Nat) : Prop :=
  ∃ (b : SimpleBuffer) (s : ProxyReads), connReads (proxyTurn uuid) c.reads init ⟨[], []⟩ = .ok (b, s) ∧
    ∀ task ∈ s.tasks, WholeHeader c.reads.flatten.flatten.length task.pdu

/-- The condition on what a peer sends. -/
def Chunked.Meets (c : Chunked) : Prop := ReadsMeet 0 [] c.reads

namespace DispatchAux

/-! ## Reading a PDU off a block -/

/-- The PDU of bytes with a whole header. -/
theorem wholeHeader_ofBytes {f : Bytes} {bound : Nat} (h16 : pduHeaderLen ≤ f.length) (hbound : f.length ≤ bound)
    (hfit : ExtendFits 0 f.length) : WholeHeader bound (ofBytes f) := by
  have hbody : (ofBytes f).getBodyLength = f.length - pduHeaderLen := by
    unfold ExtendFits at hfit
    simp only [getBodyLength, ofBytes, pduHeaderLen, uint32Size] at *
    omega
  refine ⟨h16, hbound, hbody, ?_⟩
  rw [readBody, hbody, bytes_ofBytes, readAt, if_pos (by simp only [ofBytes, List.length_append]; omega)]
  simp only [ofBytes]
  rw [List.drop_append_of_le_length h16, List.take_left' (by rw [List.length_drop])]

/-- What `IsPduAvailable` says of a block with a length field. -/
theorem isPduAvailable_block {buf : Bytes} {len : Nat} (h4 : 4 ≤ buf.length) (h16 : pduHeaderLen ≤ len) :
    isPduAvailable buf len = if len < lengthField buf then .ok none
      else if lengthField buf = 0 then .error (.pduException pduLenZero) else .ok (some (lengthField buf)) := by
  simp only [isPduAvailable, if_neg (Nat.not_lt.2 h16), readUint32_eq_lengthField h4, bind, Except.bind, pure, Except.pure,
    gt_iff_lt, throw, throwThe, MonadExceptOf.throw]

/-- Without a length field the read goes beyond the block. -/
theorem isPduAvailable_small {buf : Bytes} {len : Nat} (h4 : ¬4 ≤ buf.length) (h16 : pduHeaderLen ≤ len) :
    isPduAvailable buf len = .error .undefinedBehaviour := by
  have hread : ByteStream.readUint32 buf 0 = .error .undefinedBehaviour := by
    simp only [ByteStream.readUint32, readAt, if_neg (show ¬0 + 4 ≤ buf.length by omega), bind, Except.bind]
  simp only [isPduAvailable, if_neg (Nat.not_lt.2 h16), hread, bind, Except.bind, pure, Except.pure]

/-- It fails, if at all, by undefined behaviour. -/
def NoThrow {α : Type} (x : Exec α) : Prop := ∀ e, x ≠ .error (.pduException e)

/-- A result is no exception. -/
theorem noThrow_ok {α : Type} (a : α) : NoThrow (Except.ok a : Exec α) := by
  intro e h
  cases h

/-- What is undefined is not one either. -/
theorem noThrow_undefined {α : Type} : NoThrow (Except.error .undefinedBehaviour : Exec α) := by
  intro e h
  cases h

/-- Two parts that do not throw. -/
theorem noThrow_bind {α β : Type} {x : Exec α} {f : α → Exec β} (hx : NoThrow x) (hf : ∀ a, NoThrow (f a)) :
    NoThrow (x >>= f) := by
  intro e h
  cases x with
  | error fault =>
    have herr : (Except.error fault : Exec β) = .error (.pduException e) := h
    rw [Except.error.injEq] at herr
    exact hx e (congrArg Except.error herr)
  | ok a => exact hf a e h

/-- Reading at an offset does not throw. -/
theorem noThrow_readAt (block : Bytes) (offset len : Nat) : NoThrow (readAt block offset len) := by
  rw [readAt]
  split
  · exact noThrow_ok _
  · exact noThrow_undefined

/-- Nor does copying. -/
theorem noThrow_copyAt (block : Bytes) (offset : Nat) (data : Bytes) : NoThrow (copyAt block offset data) := by
  rw [copyAt]
  split
  · exact noThrow_ok _
  · exact noThrow_undefined

/-- Nor reading two bytes. -/
theorem noThrow_readUint16 (buf : Bytes) (offset : Nat) : NoThrow (ByteStream.readUint16 buf offset) := by
  refine noThrow_bind (noThrow_readAt _ _ _) fun bytes => ?_
  split
  · exact noThrow_ok _
  · exact noThrow_undefined

/-- Nor four. -/
theorem noThrow_readUint32 (buf : Bytes) (offset : Nat) : NoThrow (ByteStream.readUint32 buf offset) := by
  refine noThrow_bind (noThrow_readAt _ _ _) fun bytes => ?_
  split
  · exact noThrow_ok _
  · exact noThrow_undefined

/-- Nor a header. -/
theorem noThrow_readPduHeader (buf : Bytes) : NoThrow (readPduHeader buf) := by
  refine noThrow_bind (noThrow_readUint32 _ _) fun _ => noThrow_bind (noThrow_readUint16 _ _) fun _ =>
    noThrow_bind (noThrow_readUint16 _ _) fun _ => noThrow_bind (noThrow_readUint16 _ _) fun _ =>
    noThrow_bind (noThrow_readUint16 _ _) fun _ => noThrow_bind (noThrow_readUint16 _ _) fun _ =>
    noThrow_bind (noThrow_readUint16 _ _) fun _ => noThrow_ok _

/-- And a buffer can always be written to. -/
theorem noThrow_write (b : SimpleBuffer) (block : Bytes) (len : Nat) : NoThrow (b.write (some block) len) := by
  exact noThrow_bind (noThrow_readAt _ _ _) fun _ => noThrow_bind (noThrow_copyAt _ _ _) fun _ => noThrow_ok _

/-- A PDU that is available is read, or a fault ends it. -/
theorem readPdu_available {buf : Bytes} {len n : Nat} (h : isPduAvailable buf len = .ok (some n)) :
    readPdu buf len = .error .undefinedBehaviour ∨ readPdu buf len = .error .outOfFuel ∨
      ∃ pdu, readPdu buf len = .ok (some pdu) := by
  have hread : readPdu buf len = (do
      let copy ← init.write (some buf) n
      return some { buf := copy, pduHeader := ← readPduHeader buf }) := by
    simp only [readPdu, h, bind, Except.bind]
  have hno : NoThrow (readPdu buf len) := by
    rw [hread]
    exact noThrow_bind (noThrow_write _ _ _) fun _ => noThrow_bind (noThrow_readPduHeader _) fun _ => noThrow_ok _
  cases hresult : readPdu buf len with
  | error fault =>
    cases fault with
    | pduException e => exact absurd hresult (hno e)
    | undefinedBehaviour => exact .inl rfl
    | outOfFuel => exact .inr (.inl rfl)
  | ok pdu? =>
    cases pdu? with
    | some pdu => exact .inr (.inr ⟨pdu, rfl⟩)
    | none =>
      -- a PDU that is available is never passed over
      rw [hread] at hresult
      cases hw : init.write (some buf) n with
      | error fault =>
        simp only [hw, bind, Except.bind] at hresult
        cases hresult
      | ok copy =>
        cases hh : readPduHeader buf with
        | error fault =>
          simp only [hw, hh, bind, Except.bind] at hresult
          cases hresult
        | ok header =>
          simp only [hw, hh, bind, Except.bind, pure, Except.pure] at hresult
          cases hresult

/-- A PDU whose length field is from 1 to 15 is copied as it is. -/
theorem readPdu_short {buf : Bytes} {len n : Nat} (hlen : len ≤ buf.length) (hn : n < pduHeaderLen)
    (hf : frontLength (buf.take len) = some n) : ∃ pdu, readPdu buf len = .ok (some pdu) ∧ pdu.getLength = n := by
  obtain ⟨h16, h0, hle, hlf⟩ := frontLength_eq_some.1 hf
  have hz : ¬ZeroLength (buf.take len) := fun hz => by
    have := hz.2
    omega
  rw [List.length_take, Nat.min_eq_left hlen] at h16 hle
  have hsmall : n < 16 := hn
  have hfits : ExtendFits 0 n := by
    simp only [ExtendFits, uint32Size]
    omega
  have hlt : n < uint32Size := by
    simp only [uint32Size]
    omega
  refine ⟨⟨⟨buf.take n ++ List.replicate (n / 4) 0, n⟩, header buf⟩, ?_, rfl⟩
  simp only [readPdu, isPduAvailable_eq hlen hz, hf, bind, Except.bind, write_init buf n h0 (Nat.le_trans hle hlen) hlt,
    if_pos hfits, readPduHeader_eq_header (Nat.le_trans h16 hlen), pure, Except.pure]

/-! ## `CImConn::OnRead` -/

section ImConn

variable {throws : List ImPdu → ImPdu → Option PduException}

/-- One turn, once the PDU has been read. -/
theorem imConnTurn_some (throws : List ImPdu → ImPdu → Option PduException) {buf : Bytes} {len : Nat} {pdu : ImPdu}
    (h : readPdu buf len = .ok (some pdu)) (handed : List ImPdu) :
    imConnTurn (noteOrThrow throws) buf len handed = match throws handed pdu with
      | some e => .ok (.thrown (handed ++ [pdu]) e)
      | none => .ok (.next (handed ++ [pdu]) pdu.getLength) := by
  simp only [imConnTurn, h, noteOrThrow, bind, Except.bind, pure, Except.pure]
  split
  · rename_i s e heq
    obtain ⟨rfl, he⟩ := Prod.mk.inj heq
    simp only [he]
  · rename_i s heq
    obtain ⟨rfl, he⟩ := Prod.mk.inj heq
    simp only [he]

/-- A turn of the connections' loop hands over whole PDUs. -/
theorem imConnTurn_keeps (throws : List ImPdu → ImPdu → Option PduException) (bound : Nat) :
    TurnKeeps (imConnTurn (noteOrThrow throws)) bound fun handed => ∀ pdu ∈ handed, WholeHeader bound pdu where
  stop handed hlen hz hf := by
    simp only [imConnTurn, readPdu_none hlen hz hf]
    rfl
  next {buf len n handed} hlen hgood h16 hbound hfit hf := by
    have hread := readPdu_some hlen h16 hf
    rw [if_pos hfit] at hread
    have hl : (buf.take n).length = n := by
      have hle := (frontLength_eq_some.1 hf).2.2.1
      rw [List.length_take] at hle ⊢
      omega
    refine ⟨handed ++ [ofBytes (buf.take n)], ?_, ?_⟩
    · intro pdu hpdu
      rcases List.mem_append.1 hpdu with hpdu | hpdu
      · exact hgood pdu hpdu
      · rw [List.mem_singleton.1 hpdu]
        exact wholeHeader_ofBytes (by rw [hl]; exact h16) (by rw [hl]; exact hbound) (by rw [hl]; exact hfit)
    · rw [imConnTurn_some throws hread, getLength_ofBytes, hl]
      cases throws handed (ofBytes (buf.take n)) with
      | none => exact .inl rfl
      | some e => exact .inr ⟨e, rfl⟩
  incomplete handed h4 h16 hlt := by
    simp only [imConnTurn, readPdu, isPduAvailable_block h4 h16, if_pos hlt, bind, Except.bind, pure, Except.pure]
  zero {buf len} handed h4 h16 h0 := by
    refine ⟨pduLenZero, ?_⟩
    simp only [imConnTurn, readPdu, isPduAvailable_block h4 h16, h0, if_neg (Nat.not_lt_zero len), if_pos, bind, Except.bind,
      pure, Except.pure]

/-- And one with a short length breaks it. -/
theorem imConnTurn_breaks : TurnBreaks (imConnTurn notePdu)
    fun handed : List ImPdu => ∃ pdu ∈ handed, pdu.getLength < pduHeaderLen where
  short {buf len n} handed hlen hn hf := by
    obtain ⟨pdu, hread, hl⟩ := readPdu_short hlen hn hf
    refine .inr ⟨handed ++ [pdu], ?_, pdu, List.mem_append_right _ List.mem_cons_self, by rw [hl]; exact hn⟩
    have hturn := imConnTurn_some (fun _ _ => none) hread handed
    rw [hl] at hturn
    exact hturn
  bad_next {buf len n handed handed'} hbad hturn := by
    cases hread : readPdu buf len with
    | error fault =>
      cases fault <;>
        simp only [imConnTurn, hread, throw, throwThe, MonadExceptOf.throw, pure, Except.pure] at hturn <;> cases hturn
    | ok pdu? =>
      cases pdu? with
      | none =>
        simp only [imConnTurn, hread, pure, Except.pure] at hturn
        cases hturn
      | some pdu =>
        have hsome := imConnTurn_some (fun _ _ => none) hread handed
        have heq := hsome.symm.trans hturn
        cases heq
        obtain ⟨pdu', hmem, hlt⟩ := hbad
        exact ⟨pdu', List.mem_append_left _ hmem, hlt⟩
  bad_thrown {buf len handed handed' e} hbad hturn := by
    cases hread : readPdu buf len with
    | error fault =>
      cases fault <;>
        simp only [imConnTurn, hread, throw, throwThe, MonadExceptOf.throw, pure, Except.pure] at hturn <;> cases hturn
      exact hbad
    | ok pdu? =>
      cases pdu? with
      | none =>
        simp only [imConnTurn, hread, pure, Except.pure] at hturn
        cases hturn
      | some pdu =>
        have hsome := imConnTurn_some (fun _ _ => none) hread handed
        have heq := hsome.symm.trans hturn
        cases heq
  otherwise {buf len} handed h16 hn := by
    by_cases h4 : 4 ≤ buf.length
    · have hfield : lengthField buf ≠ 0 ∧ ¬len < lengthField buf :=
        ⟨fun h => hn ⟨h4, .inl h⟩, fun h => hn ⟨h4, .inr h⟩⟩
      have havail : isPduAvailable buf len = .ok (some (lengthField buf)) := by
        rw [isPduAvailable_block h4 h16, if_neg hfield.2, if_neg hfield.1]
      rcases readPdu_available havail with hread | hread | ⟨pdu, hread⟩
      · exact .inl ⟨.undefinedBehaviour, by simp only [imConnTurn, hread]; rfl⟩
      · exact .inl ⟨.outOfFuel, by simp only [imConnTurn, hread]; rfl⟩
      · exact .inr ⟨_, _, imConnTurn_some (fun _ _ => none) hread handed⟩
    · refine .inl ⟨.undefinedBehaviour, ?_⟩
      simp only [imConnTurn, readPdu, isPduAvailable_small h4 h16, bind, Except.bind]
      rfl

end ImConn

/-! ## `CProxyConn::OnRead` -/

/-- A turn of the proxy's loop does so too. -/
theorem proxyTurn_keeps (uuid bound : Nat) :
    TurnKeeps (proxyTurn uuid) bound fun s => ∀ task ∈ s.tasks, WholeHeader bound task.pdu where
  stop s hlen hz hf := (proxyTurn_meets uuid).stop s hlen hz hf
  next {buf len n s} hlen hgood h16 hbound hfit hf := by
    have hturn := (proxyTurn_meets uuid).next s hlen h16 hf
    rw [if_pos hfit] at hturn
    have hl : (buf.take n).length = n := by
      have hle := (frontLength_eq_some.1 hf).2.2.1
      rw [List.length_take] at hle ⊢
      omega
    refine ⟨_, ?_, .inl hturn⟩
    intro task htask
    rcases List.mem_append.1 htask with htask | htask
    · exact hgood task htask
    · have hpdu : task.pdu = ofBytes (buf.take n) := by
        rw [Option.mem_toList, taskOf] at htask
        split at htask
        · cases htask
        · obtain ⟨handler, -, rfl⟩ := Option.map_eq_some_iff.1 htask
          rfl
      rw [hpdu]
      exact wholeHeader_ofBytes (by rw [hl]; exact h16) (by rw [hl]; exact hbound) (by rw [hl]; exact hfit)
  incomplete s h4 h16 hlt := by
    simp only [proxyTurn, isPduAvailable_block h4 h16, if_pos hlt, bind, Except.bind, pure, Except.pure]
  zero {buf len} s h4 h16 h0 := by
    refine ⟨pduLenZero, ?_⟩
    simp only [proxyTurn, isPduAvailable_block h4 h16, h0, if_neg (Nat.not_lt_zero len), if_pos, bind, Except.bind, pure,
      Except.pure]

/-! ## Both loops -/

/-- Without the condition, `CImConn::OnRead` does not end, or hands on a PDU without a whole header. -/
theorem not_imConnWhole {c : Chunked} (hmeets : ¬c.Meets) : ¬c.ImConnWhole := by
  intro himConn
  obtain ⟨b, handed, hok, hwhole⟩ := himConn fun _ _ => none
  have hbreaks := connReads_breaks FramingAux.notePdu_meets (imConnTurn_keeps (fun _ _ => none) 0) imConnTurn_breaks
    c.received valid_init hmeets []
  rcases hbreaks with ⟨fault, herr⟩ | ⟨b', handed', hok', pdu, hpdu, hlt⟩
  · have heq := hok.symm.trans herr
    cases heq
  · have heq := hok.symm.trans hok'
    cases heq
    exact absurd (hwhole pdu hpdu).header_le (Nat.not_le.2 hlt)

/-- A header whose length field is 1. -/
def shortHeader : Bytes := [0, 0, 0, 1, 0, 1, 0, 0, 0, 7, 7, 1, 0, 0, 0, 0]

/-- It comes in one piece. -/
def shortChunked : Chunked := ⟨[[shortHeader]], by decide⟩

/-- The short PDU in two reads is outside the condition. -/
theorem shortChunked_not_meets : ¬shortChunked.Meets := by
  rintro (⟨-, hframes, -⟩ | ⟨⟨-, hwraps⟩, -⟩)
  · have hnext : format.next shortHeader = some (shortHeader.take 1, shortHeader.drop 1) := by
      have hfl : frontLength shortHeader = some 1 := by decide
      simp only [format, hfl, Option.map_some]
    rw [show [] ++ [shortHeader].flatten = shortHeader from rfl, format.drain_next hnext] at hframes
    exact absurd (hframes _ List.mem_cons_self).1 (by decide)
  · exact hwraps (by decide)

end DispatchAux

open DispatchAux

/-- Both `OnRead` loops end for what a peer sends, and hand on only PDUs with a whole header, exactly when it meets the
condition. -/
theorem dispatch_whole_iff (c : Chunked) (uuid : Nat) : (c.ImConnWhole ∧ c.ProxyWhole uuid) ↔ c.Meets := by
  constructor
  · rintro ⟨himConn, -⟩
    by_contra hmeets
    exact not_imConnWhole hmeets himConn
  · intro hmeets
    refine ⟨fun throws => ?_, ?_⟩
    · exact connReads_keeps (imConnTurn_keeps throws _) c.received valid_init (Nat.le_refl _) hmeets (by simp)
    · exact connReads_keeps (proxyTurn_keeps uuid _) c.received valid_init (Nat.le_refl _) hmeets (by simp)

/-- A header with length field 1 is handed on as a PDU of one byte. -/
theorem dispatch_not_whole : ¬∀ (c : Chunked) (uuid : Nat), c.ImConnWhole ∧ c.ProxyWhole uuid := by
  intro hall
  exact not_imConnWhole shortChunked_not_meets (hall shortChunked 1).1

end TeamTalk
