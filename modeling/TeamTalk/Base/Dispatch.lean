import Mathlib
import TeamTalk.Base.BuildPdu
import TeamTalk.DbProxy.ProxyConn

/-!
# What the read loops hand on

Whatever a peer sends: which reads end without a fault, and whether every PDU that is handed on has a whole header. A length
field from 1 to 15 passes the checks of `IsPduAvailable`.
-/

namespace TeamTalk

open SimpleBuffer ImPdu

variable {σ : Type}

/-- The reads of a connection. An exception closes it, and nothing is read any more. -/
def connReads (turn : Bytes → Nat → σ → Exec (Turn σ)) : List (List Bytes) → SimpleBuffer → σ → Exec (SimpleBuffer × σ)
  | [], b, s => return (b, s)
  | chunks :: reads, b, s => do
    let b ← recvLoop chunks b
    match ← pduLoop turn (b.writeOffset + 1) b s with
    | (b, s, none) => connReads turn reads b s
    | (b, s, some _) => return (b, s)

/-- Of all the sizes that the buffer is extended to in a receiving loop, only the last one wraps around. -/
def LastWraps : Nat → Nat → List Bytes → Prop
  | alloc, offset, [] => ¬roomAfter alloc offset < uint32Size
  | alloc, offset, c :: cs => roomAfter alloc offset < uint32Size ∧ LastWraps (roomAfter alloc offset) (offset + c.length) cs

/-- A buffer that was made too small by the last extension does no harm: the length field is still there, it says that the
first PDU is not complete or that the connection is to be closed, and nothing more is received. -/
def TornMeets (xs : Bytes) (reads : List (List Bytes)) : Prop :=
  4 ≤ extendedSize xs.length readBufSize ∧
    (lengthField xs = 0 ∨ (xs.length < lengthField xs ∧ ∀ chunks ∈ reads, chunks = []))

/-- The condition on the reads: every PDU at the front of the buffer has a length field of at least 16, and its copy fits; and
no size that the in-buffer is extended to wraps around, or at least it does no harm. -/
def ReadsMeet : Nat → Bytes → List (List Bytes) → Prop
  | _, _, [] => True
  | alloc, carry, r :: rs =>
    (RecvFits alloc carry.length r ∧
      (∀ f ∈ (format.drain (carry ++ r.flatten)).1, pduHeaderLen ≤ f.length ∧ ExtendFits 0 f.length) ∧
      (¬ZeroLength (format.drain (carry ++ r.flatten)).2 →
        ReadsMeet (recvAlloc alloc carry.length r) (format.drain (carry ++ r.flatten)).2 rs)) ∨
    (LastWraps alloc carry.length r ∧ TornMeets (carry ++ r.flatten) rs)

/-! ## What a turn must do -/

/-- A turn with a handler that may throw: what is handed to it keeps `Good`. -/
structure TurnKeeps (turn : Bytes → Nat → σ → Exec (Turn σ)) (bound : Nat) (Good : σ → Prop) : Prop where
  stop : ∀ {buf : Bytes} {len : Nat} (s : σ), len ≤ buf.length → ¬ZeroLength (buf.take len) →
    frontLength (buf.take len) = none → turn buf len s = .ok .stop
  next : ∀ {buf : Bytes} {len n : Nat} {s : σ}, len ≤ buf.length → Good s → pduHeaderLen ≤ n → n ≤ bound → ExtendFits 0 n →
    frontLength (buf.take len) = some n →
    ∃ s', Good s' ∧ (turn buf len s = .ok (.next s' n) ∨ ∃ e, turn buf len s = .ok (.thrown s' e))
  incomplete : ∀ {buf : Bytes} {len : Nat} (s : σ), 4 ≤ buf.length → pduHeaderLen ≤ len → len < lengthField buf →
    turn buf len s = .ok .stop
  zero : ∀ {buf : Bytes} {len : Nat} (s : σ), 4 ≤ buf.length → pduHeaderLen ≤ len → lengthField buf = 0 →
    ∃ e, turn buf len s = .ok (.thrown s e)

/-- A turn with a handler that does not throw: what it does with a PDU that is too short leads to a fault or to `Bad`. -/
structure TurnBreaks (turn : Bytes → Nat → σ → Exec (Turn σ)) (Bad : σ → Prop) : Prop where
  short : ∀ {buf : Bytes} {len n : Nat} (s : σ), len ≤ buf.length → n < pduHeaderLen →
    frontLength (buf.take len) = some n → (∃ fault, turn buf len s = .error fault) ∨ ∃ s', turn buf len s = .ok (.next s' n) ∧ Bad s'
  bad_next : ∀ {buf : Bytes} {len n : Nat} {s s' : σ}, Bad s → turn buf len s = .ok (.next s' n) → Bad s'
  bad_thrown : ∀ {buf : Bytes} {len : Nat} {s s' : σ} {e : PduException}, Bad s → turn buf len s = .ok (.thrown s' e) → Bad s'
  otherwise : ∀ {buf : Bytes} {len : Nat} (s : σ), pduHeaderLen ≤ len →
    ¬(4 ≤ buf.length ∧ (lengthField buf = 0 ∨ len < lengthField buf)) →
    (∃ fault, turn buf len s = .error fault) ∨ ∃ s' n, turn buf len s = .ok (.next s' n)

namespace DispatchAux

/-- A header of length zero at the front of the data, as the block sees it. -/
theorem zeroLength_block {buf : Bytes} {len : Nat} (hlen : len ≤ buf.length) (hz : ZeroLength (buf.take len)) :
    4 ≤ buf.length ∧ pduHeaderLen ≤ len ∧ lengthField buf = 0 := by
  have h16 := hz.1
  rw [List.length_take, Nat.min_eq_left hlen] at h16
  refine ⟨Nat.le_trans (Nat.le_trans (by decide) h16) hlen, h16, ?_⟩
  have happ := @lengthField_append (buf.take len) (by
    rw [List.length_take, Nat.min_eq_left hlen]
    exact Nat.le_trans (by decide) h16) (buf.drop len)
  rw [List.take_append_drop, hz.2] at happ
  exact happ

/-! ## The handling loop -/

/-- On data whose PDUs have whole headers and can be copied, the loop keeps `Good`. When it does not throw, the rest is left in
the buffer and has no header of length zero. -/
theorem pduLoop_keeps {turn : Bytes → Nat → σ → Exec (Turn σ)} {bound : Nat} {Good : σ → Prop}
    (ht : TurnKeeps turn bound Good) (xs : Bytes) {b : SimpleBuffer} (hv : b.Valid) (hxs : b.contents = xs) {fuel : Nat}
    (hfuel : xs.length < fuel) (hbound : xs.length ≤ bound)
    (hc : ∀ f ∈ (format.drain xs).1, pduHeaderLen ≤ f.length ∧ ExtendFits 0 f.length) {s : σ} (hs : Good s) :
    ∃ (b' : SimpleBuffer) (s' : σ) (e : Option PduException), pduLoop turn fuel b s = .ok (b', s', e) ∧ Good s' ∧
      (e = none → b'.Valid ∧ b'.contents = (format.drain xs).2 ∧ b'.buffer.length = b.buffer.length ∧
        ¬ZeroLength (format.drain xs).2) := by
  induction xs using format.drain_induction generalizing b fuel s with
  | incomplete xs hinc =>
    obtain ⟨fuel, rfl⟩ : ∃ n, fuel = n + 1 := ⟨fuel - 1, by omega⟩
    rw [format.drain_incomplete hinc]
    have htake : b.buffer.take b.writeOffset = xs := hxs
    by_cases hz : ZeroLength xs
    · obtain ⟨h4, h16, h0⟩ := zeroLength_block hv.offset_le (htake ▸ hz)
      obtain ⟨e, hturn⟩ := ht.zero s h4 h16 h0
      refine ⟨b, s, some e, ?_, hs, fun h => by cases h⟩
      rw [pduLoop, hturn]
      rfl
    · have hturn := ht.stop s hv.offset_le (htake ▸ hz) (htake ▸ incomplete_iff.1 hinc)
      refine ⟨b, s, none, ?_, hs, fun _ => ⟨hv, hxs, rfl, hz⟩⟩
      rw [pduLoop, hturn]
      rfl
  | next xs f r hnext ih =>
    obtain ⟨fuel, rfl⟩ : ∃ n, fuel = n + 1 := ⟨fuel - 1, by omega⟩
    obtain ⟨hfl, hf, hr⟩ := next_eq_some hnext
    have hle := (frontLength_eq_some.1 hfl).2.2.1
    have h0 := (frontLength_eq_some.1 hfl).2.1
    rw [format.drain_next hnext] at hc ⊢
    have hlc := length_contents hv
    rw [hxs] at hlc
    have htake : b.buffer.take b.writeOffset = xs := hxs
    obtain ⟨h16, hfit⟩ := hc f List.mem_cons_self
    obtain ⟨s1, hs1, hturn⟩ := ht.next hv.offset_le hs h16 (by omega) hfit (htake ▸ hfl)
    rcases hturn with hturn | ⟨e, hturn⟩
    · obtain ⟨b1, hb1, hv1, hcont1, hlen1⟩ := readNull_of_valid hv (show f.length ≤ b.writeOffset by omega)
      rw [hxs, ← hr] at hcont1
      have hrl : r.length = xs.length - f.length := by rw [hr, List.length_drop]
      obtain ⟨b', s', e, hb', hs', hnone⟩ := ih hv1 hcont1 (show r.length < fuel by omega) (by omega)
        (fun g hg => hc g (List.mem_cons_of_mem f hg)) hs1
      refine ⟨b', s', e, ?_, hs', fun he => ?_⟩
      · rw [pduLoop, hturn]
        simp only [bind, Except.bind, hb1]
        exact hb'
      · obtain ⟨hv', hcont', hlen', hz'⟩ := hnone he
        exact ⟨hv', hcont', hlen'.trans hlen1, hz'⟩
    · refine ⟨b, s1, some e, ?_, hs1, fun h => by cases h⟩
      rw [pduLoop, hturn]
      rfl

/-- What is bad stays so, or a fault ends the loop. -/
theorem pduLoop_bad {turn : Bytes → Nat → σ → Exec (Turn σ)} {Bad : σ → Prop} (ht : TurnBreaks turn Bad) (fuel : Nat)
    (b : SimpleBuffer) {s : σ} (hs : Bad s) : (∃ fault, pduLoop turn fuel b s = .error fault) ∨
      ∃ (b' : SimpleBuffer) (s' : σ) (e : Option PduException), pduLoop turn fuel b s = .ok (b', s', e) ∧ Bad s' := by
  induction fuel generalizing b s with
  | zero => exact .inl ⟨.outOfFuel, rfl⟩
  | succ fuel ih =>
    rw [pduLoop]
    cases hturn : turn b.buffer b.writeOffset s with
    | error fault => exact .inl ⟨fault, rfl⟩
    | ok t =>
      cases t with
      | stop => exact .inr ⟨b, s, none, rfl, hs⟩
      | thrown s' e => exact .inr ⟨b, s', some e, rfl, ht.bad_thrown hs hturn⟩
      | next s' n =>
        simp only [bind, Except.bind]
        cases b.readNull n with
        | error fault => exact .inl ⟨fault, rfl⟩
        | ok b1 => exact ih b1 (ht.bad_next hs hturn)

/-- On data with a PDU that is too short, or whose copy does not fit, a fault ends the loop, or something bad has been done. -/
theorem pduLoop_breaks {turn : Bytes → Nat → σ → Exec (Turn σ)} {h : σ → Bytes → σ} {Bad : σ → Prop} (hm : TurnMeets turn h)
    (ht : TurnBreaks turn Bad) (xs : Bytes) {b : SimpleBuffer} (hv : b.Valid) (hxs : b.contents = xs) (fuel : Nat)
    (hc : ¬∀ f ∈ (format.drain xs).1, pduHeaderLen ≤ f.length ∧ ExtendFits 0 f.length) (s : σ) :
    (∃ fault, pduLoop turn fuel b s = .error fault) ∨
      ∃ (b' : SimpleBuffer) (s' : σ) (e : Option PduException), pduLoop turn fuel b s = .ok (b', s', e) ∧ Bad s' := by
  induction xs using format.drain_induction generalizing b fuel s with
  | incomplete xs hinc =>
    rw [format.drain_incomplete hinc] at hc
    exact absurd (fun f hf => absurd hf List.not_mem_nil) hc
  | next xs f r hnext ih =>
    cases fuel with
    | zero => exact .inl ⟨.outOfFuel, rfl⟩
    | succ fuel =>
      obtain ⟨hfl, hf, hr⟩ := next_eq_some hnext
      have hle := (frontLength_eq_some.1 hfl).2.2.1
      rw [format.drain_next hnext] at hc
      have hlc := length_contents hv
      rw [hxs] at hlc
      have htake : b.buffer.take b.writeOffset = xs := hxs
      obtain ⟨b1, hb1, hv1, hcont1, -⟩ := readNull_of_valid hv (show f.length ≤ b.writeOffset by omega)
      rw [hxs, ← hr] at hcont1
      by_cases h16 : pduHeaderLen ≤ f.length
      · have hturn := hm.next s hv.offset_le h16 (htake ▸ hfl)
        by_cases hfit : ExtendFits 0 f.length
        · rw [if_pos hfit] at hturn
          rw [pduLoop, hturn]
          simp only [bind, Except.bind, hb1]
          refine ih hv1 hcont1 fuel (fun hall => hc ?_) _
          intro g hg
          rcases List.mem_cons.1 hg with rfl | hg
          · exact ⟨h16, hfit⟩
          · exact hall g hg
        · rw [if_neg hfit] at hturn
          rw [pduLoop, hturn]
          exact .inl ⟨_, rfl⟩
      · rcases ht.short s hv.offset_le (Nat.lt_of_not_le h16) (htake ▸ hfl) with ⟨fault, hturn⟩ | ⟨s', hturn, hs'⟩
        · rw [pduLoop, hturn]
          exact .inl ⟨fault, rfl⟩
        · rw [pduLoop, hturn]
          simp only [bind, Except.bind, hb1]
          exact pduLoop_bad ht fuel b1 hs'

/-! ## A buffer that was made too small -/

/-- What is known of a buffer that the last extension has made too small for the data. -/
structure TornOf (b : SimpleBuffer) (xs : Bytes) : Prop where
  torn : b.Torn
  offset : b.writeOffset = xs.length
  alloc : b.buffer.length = extendedSize xs.length readBufSize
  field : 4 ≤ b.buffer.length → lengthField b.buffer = lengthField xs
  header : pduHeaderLen ≤ xs.length

/-- Room is made by an extension that wraps around. -/
theorem tornOf_makeRoom {b : SimpleBuffer} (h : b.Valid) (hroom : ¬roomAfter b.buffer.length b.writeOffset < uint32Size) :
    TornOf b.makeRoom b.contents := by
  have htorn := (makeRoom_of_valid h).2 hroom
  have hlc := length_contents h
  have ho := h.offset_le
  have ha := h.alloc_lt
  have hfree : b.buffer.length - b.writeOffset < readBufSize := by
    by_contra hn
    rw [roomAfter, if_neg hn] at hroom
    exact hroom ha
  have hmod : (b.allocSize + uint32Size - b.writeOffset) % uint32Size = b.buffer.length - b.writeOffset := by
    simp only [allocSize, uint32Size] at *
    omega
  have hmk : b.makeRoom = b.extend readBufSize := by
    simp only [makeRoom, hmod]
    rw [if_pos hfree]
  have hbig : pduHeaderLen ≤ b.writeOffset := by
    rw [roomAfter, if_pos hfree] at hroom
    simp only [uint32Size, readBufSize, pduHeaderLen] at *
    omega
  refine ⟨htorn, ?_, ?_, ?_, by rw [hlc]; exact hbig⟩
  · rw [hmk, hlc]
    rfl
  · rw [hmk, hlc]
    simp only [extend, length_realloc]
  · intro h4
    have h16 : 4 ≤ b.writeOffset := Nat.le_trans (by decide) hbig
    rw [hmk] at h4 ⊢
    simp only [extend, length_realloc] at h4 ⊢
    rw [realloc, lengthField_append (by rw [List.length_take]; omega), lengthField_take h4 (by omega), contents,
      lengthField_take h16 (by omega)]

/-- A buffer that is too small is not extended any more. -/
theorem makeRoom_tornOf {b : SimpleBuffer} {xs : Bytes} (h : TornOf b xs) : b.makeRoom = b := by
  simp only [makeRoom]
  split
  · have hsame : realloc b.buffer b.buffer.length = b.buffer := by
      rw [realloc, List.take_length, Nat.sub_self, List.replicate_zero, List.append_nil]
    simp only [extend, h.offset, ← h.alloc, hsame]
    rw [← h.offset]
  · rfl

/-- When only the last extension wraps around, everything is received, and the buffer is too small. -/
theorem recvLoop_lastWraps {chunks : List Bytes} (hc : Received chunks) {b : SimpleBuffer} (h : b.Valid)
    (hw : LastWraps b.buffer.length b.writeOffset chunks) :
    ∃ b' : SimpleBuffer, recvLoop chunks b = .ok b' ∧ TornOf b' (b.contents ++ chunks.flatten) := by
  induction chunks generalizing b with
  | nil =>
    rw [List.flatten_nil, List.append_nil]
    exact ⟨b.makeRoom, recvLoop_nil b, tornOf_makeRoom h hw⟩
  | cons c cs ih =>
    obtain ⟨hv, hcont, hoff, hlen, hroom⟩ := (makeRoom_of_valid h).1 hw.1
    rw [← hoff] at hroom
    obtain ⟨b1, hb1, hv1, hcont1, hoff1, hlen1⟩ := recv_of_room hv (hc c List.mem_cons_self).2 hroom
    rw [hoff] at hoff1
    rw [hlen] at hlen1
    obtain ⟨b', hb', htorn⟩ := ih (fun d hd => hc d (List.mem_cons_of_mem c hd)) hv1 (by rw [hlen1, hoff1]; exact hw.2)
    refine ⟨b', (recvLoop_cons hb1 cs).trans hb', ?_⟩
    rw [hcont1, hcont, List.append_assoc] at htorn
    rw [List.flatten_cons]
    exact htorn

/-- When another extension than the last one wraps around, what is received next does not fit the block. -/
theorem recvLoop_wraps {chunks : List Bytes} (hc : Received chunks) {b : SimpleBuffer} (h : b.Valid)
    (hf : ¬RecvFits b.buffer.length b.writeOffset chunks) (hw : ¬LastWraps b.buffer.length b.writeOffset chunks) :
    ∃ fault, recvLoop chunks b = .error fault := by
  induction chunks generalizing b with
  | nil => exact absurd hf hw
  | cons c cs ih =>
    by_cases hr : roomAfter b.buffer.length b.writeOffset < uint32Size
    · obtain ⟨hv, -, hoff, hlen, hroom⟩ := (makeRoom_of_valid h).1 hr
      rw [← hoff] at hroom
      obtain ⟨b1, hb1, hv1, -, hoff1, hlen1⟩ := recv_of_room hv (hc c List.mem_cons_self).2 hroom
      rw [hoff] at hoff1
      rw [hlen] at hlen1
      rw [recvLoop_cons hb1]
      refine ih (fun d hd => hc d (List.mem_cons_of_mem c hd)) hv1 ?_ ?_
      · rw [hlen1, hoff1]
        exact fun hh => hf ⟨hr, hh⟩
      · rw [hlen1, hoff1]
        exact fun hh => hw ⟨hr, hh⟩
    · refine ⟨.undefinedBehaviour, ?_⟩
      rw [recvLoop, recv_torn ((makeRoom_of_valid h).2 hr)]
      rfl

/-! ## The reads of a connection -/

/-- A read whose first PDU is not complete, or that is closed, ends although the buffer is too small. -/
theorem connReads_torn_keeps {turn : Bytes → Nat → σ → Exec (Turn σ)} {bound : Nat} {Good : σ → Prop}
    (ht : TurnKeeps turn bound Good) {b : SimpleBuffer} {xs : Bytes} (htorn : TornOf b xs) {reads : List (List Bytes)}
    (hmeets : TornMeets xs reads) (s : σ) : ∃ (b' : SimpleBuffer) (e : Option PduException),
      pduLoop turn (b.writeOffset + 1) b s = .ok (b', s, e) ∧ (e = none → connReads turn reads b' s = .ok (b', s)) := by
  obtain ⟨h4, hfield⟩ := hmeets
  rw [← htorn.alloc] at h4
  have h16 : pduHeaderLen ≤ b.writeOffset := htorn.offset ▸ htorn.header
  rw [pduLoop]
  rcases hfield with h0 | ⟨hlt, hempty⟩
  · obtain ⟨e, hturn⟩ := ht.zero s h4 h16 ((htorn.field h4).trans h0)
    refine ⟨b, some e, ?_, fun h => by cases h⟩
    rw [hturn]
    rfl
  · have hstop : turn b.buffer b.writeOffset s = .ok .stop :=
      ht.incomplete s h4 h16 (by rw [htorn.field h4, htorn.offset]; exact hlt)
    refine ⟨b, none, ?_, fun _ => ?_⟩
    · rw [hstop]
      rfl
    · -- nothing more is received, and each read ends like this one
      induction reads with
      | nil => rfl
      | cons chunks reads ih =>
        have hnil : chunks = [] := hempty chunks List.mem_cons_self
        rw [connReads, hnil, recvLoop_nil, makeRoom_tornOf htorn]
        simp only [bind, Except.bind, pduLoop, hstop, pure, Except.pure]
        exact ih fun c hc => hempty c (List.mem_cons_of_mem chunks hc)

/-- Reads that meet the condition end, and keep `Good`. -/
theorem connReads_keeps {turn : Bytes → Nat → σ → Exec (Turn σ)} {bound : Nat} {Good : σ → Prop}
    (ht : TurnKeeps turn bound Good) {reads : List (List Bytes)} (hreads : ∀ chunks ∈ reads, Received chunks)
    {b : SimpleBuffer} (hv : b.Valid) (hbound : (b.contents ++ reads.flatten.flatten).length ≤ bound)
    (hmeets : ReadsMeet b.buffer.length b.contents reads) {s : σ} (hs : Good s) :
    ∃ (b' : SimpleBuffer) (s' : σ), connReads turn reads b s = .ok (b', s') ∧ Good s' := by
  induction reads generalizing b s with
  | nil => exact ⟨b, s, rfl, hs⟩
  | cons chunks reads ih =>
    have hchunks := hreads chunks List.mem_cons_self
    rw [List.flatten_cons, List.flatten_append, ← List.append_assoc, List.length_append] at hbound
    rw [ReadsMeet, length_contents hv] at hmeets
    rw [connReads]
    rcases hmeets with ⟨hrecv, hframes, hrest⟩ | ⟨hwraps, htmeets⟩
    · obtain ⟨b1, hr, hv1, hcont1, hlen1⟩ := recvLoop_fits hchunks hv hrecv
      have hfuel : (b.contents ++ chunks.flatten).length < b1.writeOffset + 1 := by
        rw [← hcont1, length_contents hv1]
        omega
      obtain ⟨b2, s2, e, hp, hs2, hnone⟩ := pduLoop_keeps ht _ hv1 hcont1 hfuel (by omega) hframes hs
      rw [hr]
      simp only [bind, Except.bind, hp]
      cases e with
      | some e => exact ⟨b2, s2, rfl, hs2⟩
      | none =>
        obtain ⟨hv2, hcont2, hlen2, hz⟩ := hnone rfl
        refine ih (fun c hc => hreads c (List.mem_cons_of_mem chunks hc)) hv2 ?_ ?_ hs2
        · have hle := format.length_drain_rest_le (b.contents ++ chunks.flatten)
          rw [hcont2, List.length_append]
          omega
        · rw [hcont2, hlen2, hlen1]
          exact hrest hz
    · obtain ⟨b1, hr, htorn⟩ := recvLoop_lastWraps hchunks hv hwraps
      obtain ⟨b2, e, hp, hnone⟩ := connReads_torn_keeps ht htorn htmeets s
      rw [hr]
      simp only [bind, Except.bind, hp]
      cases e with
      | some e => exact ⟨b2, s, rfl, hs⟩
      | none => exact ⟨b2, s, hnone rfl, hs⟩

/-- What is bad stays so. -/
theorem connReads_bad {turn : Bytes → Nat → σ → Exec (Turn σ)} {Bad : σ → Prop} (ht : TurnBreaks turn Bad)
    (reads : List (List Bytes)) (b : SimpleBuffer) {s : σ} (hs : Bad s) :
    (∃ fault, connReads turn reads b s = .error fault) ∨
      ∃ (b' : SimpleBuffer) (s' : σ), connReads turn reads b s = .ok (b', s') ∧ Bad s' := by
  induction reads generalizing b s with
  | nil => exact .inr ⟨b, s, rfl, hs⟩
  | cons chunks reads ih =>
    rw [connReads]
    simp only [bind, Except.bind]
    cases recvLoop chunks b with
    | error fault => exact .inl ⟨fault, rfl⟩
    | ok b1 =>
      rcases pduLoop_bad ht (b1.writeOffset + 1) b1 hs with ⟨fault, hp⟩ | ⟨b2, s2, e, hp, hs2⟩
      · exact .inl ⟨fault, by simp only [hp]⟩
      · simp only [hp]
        cases e with
        | none => exact ih b2 hs2
        | some e => exact .inr ⟨b2, s2, rfl, hs2⟩

/-- A buffer that is too small leads to a fault, unless its first PDU is not complete or closes the connection, and nothing more
is received. -/
theorem connReads_torn_breaks {turn : Bytes → Nat → σ → Exec (Turn σ)} {bound : Nat} {Good Bad : σ → Prop}
    (hk : TurnKeeps turn bound Good) (ht : TurnBreaks turn Bad) {b : SimpleBuffer} {xs : Bytes} (htorn : TornOf b xs)
    {reads : List (List Bytes)} (hreads : ∀ chunks ∈ reads, Received chunks) (hmeets : ¬TornMeets xs reads) (s : σ) :
    (∃ fault, pduLoop turn (b.writeOffset + 1) b s = .error fault) ∨
      (pduLoop turn (b.writeOffset + 1) b s = .ok (b, s, none) ∧ ∃ fault, connReads turn reads b s = .error fault) := by
  have h16 : pduHeaderLen ≤ b.writeOffset := htorn.offset ▸ htorn.header
  rw [pduLoop]
  by_cases hother : 4 ≤ b.buffer.length ∧ (lengthField b.buffer = 0 ∨ b.writeOffset < lengthField b.buffer)
  · obtain ⟨h4, hfield⟩ := hother
    rw [htorn.field h4, htorn.offset] at hfield
    have hlt : lengthField xs ≠ 0 ∧ xs.length < lengthField xs ∧ ¬∀ chunks ∈ reads, chunks = [] := by
      rw [TornMeets, ← htorn.alloc] at hmeets
      by_cases h0 : lengthField xs = 0
      · exact absurd ⟨h4, .inl h0⟩ hmeets
      · have hlt := hfield.resolve_left h0
        exact ⟨h0, hlt, fun hempty => hmeets ⟨h4, .inr ⟨hlt, hempty⟩⟩⟩
    have hstop : turn b.buffer b.writeOffset s = .ok .stop :=
      hk.incomplete s h4 h16 (by rw [htorn.field h4, htorn.offset]; exact hlt.2.1)
    refine .inr ⟨by rw [hstop]; rfl, ?_⟩
    have hnonempty := hlt.2.2
    -- what is received next does not fit
    clear hmeets hlt hfield
    induction reads with
    | nil => exact absurd (fun c hc => absurd hc List.not_mem_nil) hnonempty
    | cons chunks reads ih =>
      rw [connReads]
      cases chunks with
      | nil =>
        rw [recvLoop_nil, makeRoom_tornOf htorn]
        simp only [bind, Except.bind, pduLoop, hstop, pure, Except.pure]
        refine ih (fun c hc => hreads c (List.mem_cons_of_mem _ hc)) fun hall => hnonempty fun c hc => ?_
        rcases List.mem_cons.1 hc with rfl | hc
        · rfl
        · exact hall c hc
      | cons c cs =>
        refine ⟨.undefinedBehaviour, ?_⟩
        rw [recvLoop, makeRoom_tornOf htorn, recv_torn htorn.torn]
        rfl
  · rcases ht.otherwise s h16 hother with ⟨fault, hturn⟩ | ⟨s', n, hturn⟩
    · exact .inl ⟨fault, by rw [hturn]; rfl⟩
    · refine .inl ⟨.undefinedBehaviour, ?_⟩
      rw [hturn]
      simp only [bind, Except.bind, htorn.torn.readNull n]

/-- Reads that do not meet the condition lead to a fault, or to something bad. -/
theorem connReads_breaks {turn : Bytes → Nat → σ → Exec (Turn σ)} {h : σ → Bytes → σ} {bound : Nat} {Good Bad : σ → Prop}
    (hm : TurnMeets turn h) (hk : TurnKeeps turn bound Good) (ht : TurnBreaks turn Bad) {reads : List (List Bytes)}
    (hreads : ∀ chunks ∈ reads, Received chunks) {b : SimpleBuffer} (hv : b.Valid)
    (hmeets : ¬ReadsMeet b.buffer.length b.contents reads) (s : σ) :
    (∃ fault, connReads turn reads b s = .error fault) ∨
      ∃ (b' : SimpleBuffer) (s' : σ), connReads turn reads b s = .ok (b', s') ∧ Bad s' := by
  induction reads generalizing b s with
  | nil => exact absurd trivial hmeets
  | cons chunks reads ih =>
    have hchunks := hreads chunks List.mem_cons_self
    rw [ReadsMeet, length_contents hv, not_or] at hmeets
    obtain ⟨hfits, hwraps⟩ := hmeets
    rw [connReads]
    by_cases hrecv : RecvFits b.buffer.length b.writeOffset chunks
    · obtain ⟨b1, hr, hv1, hcont1, hlen1⟩ := recvLoop_fits hchunks hv hrecv
      rw [hr]
      simp only [bind, Except.bind]
      by_cases hframes : ∀ f ∈ (format.drain (b.contents ++ chunks.flatten)).1, pduHeaderLen ≤ f.length ∧ ExtendFits 0 f.length
      · have hz : ¬ZeroLength (format.drain (b.contents ++ chunks.flatten)).2 := fun hz =>
          hfits ⟨hrecv, hframes, fun hn => absurd hz hn⟩
        have hfuel : (b.contents ++ chunks.flatten).length < b1.writeOffset + 1 := by
          rw [← hcont1, length_contents hv1]
          omega
        obtain ⟨b2, hp, hv2, hcont2, hlen2⟩ := pduLoop_ok hm _ hv1 hcont1 hfuel ⟨fun f hf => (hframes f hf).1, hz⟩
          (fun f hf => (hframes f hf).2) s
        simp only [hp]
        refine ih (fun c hc => hreads c (List.mem_cons_of_mem chunks hc)) hv2 ?_ _
        rw [hcont2, hlen2, hlen1]
        exact fun hrest => hfits ⟨hrecv, hframes, fun _ => hrest⟩
      · rcases pduLoop_breaks hm ht _ hv1 hcont1 (b1.writeOffset + 1) hframes s with ⟨fault, hp⟩ | ⟨b2, s2, e, hp, hs2⟩
        · exact .inl ⟨fault, by simp only [hp]⟩
        · simp only [hp]
          cases e with
          | none => exact connReads_bad ht reads b2 hs2
          | some e => exact .inr ⟨b2, s2, rfl, hs2⟩
    · by_cases hlast : LastWraps b.buffer.length b.writeOffset chunks
      · obtain ⟨b1, hr, htorn⟩ := recvLoop_lastWraps hchunks hv hlast
        rw [hr]
        simp only [bind, Except.bind]
        rcases connReads_torn_breaks hk ht htorn (fun c hc => hreads c (List.mem_cons_of_mem chunks hc))
          (fun htmeets => hwraps ⟨hlast, htmeets⟩) s with ⟨fault, hp⟩ | ⟨hp, fault, hrest⟩
        · exact .inl ⟨fault, by simp only [hp]⟩
        · exact .inl ⟨fault, by simp only [hp, hrest]⟩
      · obtain ⟨fault, hr⟩ := recvLoop_wraps hchunks hv hrecv hlast
        exact .inl ⟨fault, by simp only [hr, bind, Except.bind]⟩

end DispatchAux

end TeamTalk
