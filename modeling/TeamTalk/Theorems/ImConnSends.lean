import TeamTalk.Base.BuildPdu
import TeamTalk.Base.ImConnSend

/-!
# Bytes to send are kept in order

What a connection has been given to send is what the socket has accepted and what stands in `m_out_buf` behind that. The sizes of the
buffer are `uint32_t`: a write that does not fit, and for which the size of the new block wraps around, copies beyond the block.
-/

namespace TeamTalk

open SimpleBuffer

namespace OutConn

/-! ## The property -/

/-- What the socket has accepted and the buffer are together what was passed to `Send`, and the connection is busy exactly when the
buffer is not empty. -/
def InOrder (c : OutConn) : Prop :=
  c.undefinedBehaviour = false ∧ c.accepted ++ c.outBuf.contents = c.passed ∧ (c.busy = true ↔ c.outBuf.contents ≠ [])

/-! ## The condition -/

/-- There is room for so many bytes: the block has it, or it can be extended. -/
def RoomFor (b : SimpleBuffer) (len : Nat) : Prop := b.writeOffset + len ≤ b.allocSize ∨ ExtendFits b.writeOffset len

/-- The condition on a step: when something is still to be sent, there is room for what comes behind it. -/
def SendMeets (c : OutConn) : OutEvent → Prop
  | .send data _ => c.busy = true → data.length < intSize → RoomFor c.outBuf data.length
  | .onWrite _ => True

namespace ImConnSendsAux

variable {c c' : OutConn} {e : OutEvent} {b : SimpleBuffer} {data : Bytes} {answers : List Int} {out : List Unit}

/-! ## The buffer -/

/-- Where the block has room, data is appended in place. -/
theorem write_in_place (h : b.Valid) (hroom : b.writeOffset + data.length ≤ b.allocSize) :
    ∃ b', b.write (some data) data.length = .ok b' ∧ b'.Valid ∧ b'.contents = b.contents ++ data := by
  have hlt := h.alloc_lt
  rw [allocSize] at hroom
  have hmod : (b.writeOffset + data.length) % uint32Size = b.writeOffset + data.length := Nat.mod_eq_of_lt (by omega)
  have hread : readAt data 0 data.length = .ok data := by
    rw [readAt, if_pos (by omega), List.drop_zero, List.take_length]
  have hcopy : copyAt b.buffer b.writeOffset data =
      .ok (b.contents ++ data ++ b.buffer.drop (b.writeOffset + data.length)) := by
    rw [copyAt, if_pos hroom, contents]
  have hlen : b.contents.length = b.writeOffset := length_contents h
  have hsize : (b.contents ++ data ++ b.buffer.drop (b.writeOffset + data.length)).length = b.buffer.length := by
    simp only [List.length_append, List.length_drop]
    omega
  refine ⟨⟨b.contents ++ data ++ b.buffer.drop (b.writeOffset + data.length), b.writeOffset + data.length⟩, ?_, ⟨?_, ?_⟩, ?_⟩
  · have hsame : (if (b.writeOffset + data.length) % uint32Size > b.allocSize then b.extend data.length else b) = b := by
      refine if_neg ?_
      rw [hmod, allocSize]
      omega
    simp only [SimpleBuffer.write, hsame, hread]
    simp only [hcopy, hmod, bind, Except.bind, pure, Except.pure]
  · rw [hsize]
    exact hroom
  · rw [hsize]
    exact hlt
  · exact List.take_left' (by rw [List.length_append, hlen])

theorem write_of_room (h : b.Valid) (hroom : RoomFor b data.length) :
    ∃ b', b.write (some data) data.length = .ok b' ∧ b'.Valid ∧ b'.contents = b.contents ++ data := by
  rcases hroom with hroom | hfits
  · exact write_in_place h hroom
  · exact BuildPduAux.write_some h hfits

/-- Without room, data is copied beyond the block. -/
theorem write_of_not_room (h : b.Valid) (hdata : data.length < uint32Size) (hroom : ¬RoomFor b data.length) :
    b.write (some data) data.length = .error .undefinedBehaviour := by
  have hread : readAt data 0 data.length = .ok data := by
    rw [readAt, if_pos (by omega), List.drop_zero, List.take_length]
  have hoffset := h.offset_le
  have halloc := h.alloc_lt
  have hfull : b.allocSize < b.writeOffset + data.length := lt_of_not_ge fun hle => hroom (.inl hle)
  have hnot : ¬ExtendFits b.writeOffset data.length := fun hfits => hroom (.inr hfits)
  rw [allocSize] at hfull
  by_cases hgrow : (b.writeOffset + data.length) % uint32Size > b.allocSize
  · have hsmall : ¬b.writeOffset + data.length ≤ (b.extend data.length).buffer.length := by
      simp only [SimpleBuffer.extend, length_realloc]
      rcases extendedSize_of_not_fits hnot (by omega) hdata with hlt | ⟨hge, hle⟩
      · omega
      · simp only [uint32Size] at *
        omega
    have hcopy : copyAt (b.extend data.length).buffer (b.extend data.length).writeOffset data = .error .undefinedBehaviour :=
      if_neg hsmall
    simp only [SimpleBuffer.write, if_pos hgrow, hread, hcopy, bind, Except.bind]
  · have hcopy : copyAt b.buffer b.writeOffset data = .error .undefinedBehaviour := by
      rw [copyAt, if_neg (by omega)]
    simp only [SimpleBuffer.write, if_neg hgrow, hread, hcopy, bind, Except.bind]

/-- A new block for fewer bytes than an `int` counts does not wrap around. -/
theorem roomFor_of_empty (hempty : b.writeOffset = 0) {len : Nat} (hlen : len < intSize) : RoomFor b len := by
  refine .inr ?_
  unfold ExtendFits
  rw [hempty, intSize] at *
  norm_num at *
  omega

/-! ## The invariant -/

/-- The property, with a block that holds the buffer. -/
structure Inv (c : OutConn) : Prop where
  valid : c.outBuf.Valid
  inOrder : c.InOrder

theorem inv_init : Inv init := by
  refine ⟨valid_init, rfl, rfl, ?_⟩
  simp [init, contents, SimpleBuffer.init]

theorem contents_eq_nil (h : b.Valid) : b.contents = [] ↔ b.writeOffset = 0 := by
  rw [← length_contents h, List.length_eq_zero_iff]

/-- What `Send` puts behind the buffer leaves the connection busy. -/
theorem inv_writeOut (hvalid : c.outBuf.Valid) (hdefined : c.undefinedBehaviour = false) (hbusy : c.busy = true)
    (hstream : c.accepted ++ c.outBuf.contents ++ data = c.passed) (hne : c.outBuf.contents ++ data ≠ [])
    (hroom : RoomFor c.outBuf data.length) : Inv (c.writeOut data) := by
  obtain ⟨b', hwrite, hvalid', hcontents⟩ := write_of_room hvalid hroom
  unfold writeOut
  rw [hwrite]
  refine ⟨hvalid', hdefined, ?_, ?_⟩
  · rw [hcontents, ← List.append_assoc]
    exact hstream
  · rw [hcontents]
    exact iff_of_true hbusy hne

/-- The loop of `Send` sends no more than there is. -/
theorem sendLoop_le {offset remain sent : Nat} (h : sendLoop answers offset remain = some sent) : sent ≤ offset + remain := by
  induction answers generalizing offset remain with
  | nil =>
    cases h
    exact Nat.le_add_right _ _
  | cons ret answers ih =>
    unfold sendLoop at h
    split at h
    · cases h
      exact Nat.le_add_right _ _
    · split at h
      next hle =>
        have hremain : ret.toNat ≤ remain ∨ intSize ≤ remain := by
          unfold offered at hle
          split at hle <;> omega
        have hsent := ih h
        rcases hremain with hremain | hlarge
        · omega
        · unfold offered at hle
          rw [if_neg (by omega)] at hle
          omega
      next => cases h

/-! ## `Send` -/

theorem send_iff (h : Inv c) (hsend : c.send data answers = some c') : (InOrder c' ↔ SendMeets c (.send data answers)) ∧
    (SendMeets c (.send data answers) → Inv c') := by
  obtain ⟨hvalid, hdefined, hstream, hbusyIff⟩ := h
  unfold OutConn.send at hsend
  split at hsend
  next hlen =>
    by_cases hbusy : c.busy = true
    · rw [if_pos hbusy] at hsend
      cases hsend
      have hne : c.outBuf.contents ++ data ≠ [] := by
        have := hbusyIff.1 hbusy
        simp [this]
      by_cases hroom : RoomFor c.outBuf data.length
      · have hinv : Inv ({ c with passed := c.passed ++ data }.writeOut data) := by
          refine inv_writeOut hvalid hdefined hbusy ?_ hne hroom
          rw [hstream]
        exact ⟨iff_of_true hinv.inOrder fun _ _ => hroom, fun _ => hinv⟩
      · have hlost : ({ c with passed := c.passed ++ data }.writeOut data).undefinedBehaviour = true := by
          have hlt : data.length < uint32Size := hlen.trans (by norm_num [intSize])
          unfold writeOut
          rw [write_of_not_room hvalid hlt hroom]
        have hnot : ¬SendMeets c (.send data answers) := fun hmeets => hroom (hmeets hbusy hlen)
        refine ⟨iff_of_false ?_ hnot, fun hmeets => absurd hmeets hnot⟩
        rintro ⟨hdefined', -⟩
        rw [hlost] at hdefined'
        cases hdefined'
    · rw [if_neg hbusy] at hsend
      obtain ⟨offset, hloop, rfl⟩ := Option.map_eq_some_iff.1 hsend
      have hle := sendLoop_le hloop
      have hempty : c.outBuf.contents = [] := by
        by_contra hne
        exact hbusy (hbusyIff.2 hne)
      rw [hempty, List.append_nil] at hstream
      suffices hinv : Inv _ from ⟨iff_of_true hinv.inOrder fun hset => absurd hset hbusy, fun _ => hinv⟩
      by_cases hrest : offset < data.length
      · rw [if_pos hrest]
        have hrest' : data.drop offset ≠ [] := by
          rw [ne_eq, List.drop_eq_nil_iff]
          omega
        refine inv_writeOut hvalid hdefined rfl ?_ ?_ (roomFor_of_empty ((contents_eq_nil hvalid).1 hempty) ?_)
        · dsimp only
          rw [hempty, hstream, List.append_nil, List.append_assoc, List.take_append_drop]
        · dsimp only
          rw [hempty, List.nil_append]
          exact hrest'
        · rw [List.length_drop]
          omega
      · rw [if_neg hrest]
        refine ⟨hvalid, hdefined, ?_, ?_⟩
        · dsimp only
          rw [hempty, hstream, List.append_nil, List.take_of_length_le (by omega)]
        · dsimp only
          simp [hbusy, hempty]
  next => cases hsend

/-! ## `OnWrite` -/

theorem offered_le (remain : Nat) : offered remain ≤ remain := by
  unfold offered
  split <;> omega

/-- The loop of `OnWrite` moves bytes from the buffer to the socket. -/
theorem writeLoop_moves (hvalid : c.outBuf.Valid) (h : writeLoop answers c = some c') : c'.outBuf.Valid ∧
    c'.accepted ++ c'.outBuf.contents = c.accepted ++ c.outBuf.contents ∧ c'.passed = c.passed ∧ c'.busy = c.busy ∧
      c'.undefinedBehaviour = c.undefinedBehaviour := by
  induction answers generalizing c with
  | nil =>
    cases h
    exact ⟨hvalid, rfl, rfl, rfl, rfl⟩
  | cons ret answers ih =>
    unfold writeLoop at h
    split at h
    · cases h
      exact ⟨hvalid, rfl, rfl, rfl, rfl⟩
    · split at h
      next hle =>
        have hret : ret.toNat ≤ c.outBuf.writeOffset := by
          have := offered_le c.outBuf.writeOffset
          omega
        obtain ⟨b', hread, hvalid', hcontents, -⟩ := readNull_of_valid hvalid hret
        rw [hread] at h
        obtain ⟨hvalid'', hstream, hpassed, hbusy, hdefined⟩ := ih hvalid' h
        refine ⟨hvalid'', ?_, hpassed, hbusy, hdefined⟩
        rw [hstream]
        dsimp only
        rw [hcontents, List.append_assoc, List.take_append_drop]
      next => cases h

theorem inv_onWrite (h : Inv c) (hwrite : c.onWrite answers = some c') : Inv c' := by
  obtain ⟨hvalid, hdefined, hstream, hbusyIff⟩ := h
  unfold onWrite at hwrite
  cases hbusy : c.busy with
  | false =>
    rw [hbusy] at hwrite
    cases hwrite
    exact ⟨hvalid, hdefined, hstream, hbusyIff⟩
  | true =>
    rw [hbusy, if_pos rfl] at hwrite
    obtain ⟨c1, hloop, rfl⟩ := Option.map_eq_some_iff.1 hwrite
    obtain ⟨hvalid1, hstream1, hpassed, hbusy1, hdefined1⟩ := writeLoop_moves hvalid hloop
    by_cases hzero : c1.outBuf.writeOffset = 0
    · rw [if_pos hzero]
      refine ⟨hvalid1, hdefined1.trans hdefined, ?_, ?_⟩
      · dsimp only
        rw [hstream1, hstream, hpassed]
      · dsimp only
        simp [(contents_eq_nil hvalid1).2 hzero]
    · rw [if_neg hzero]
      refine ⟨hvalid1, hdefined1.trans hdefined, ?_, ?_⟩
      · rw [hstream1, hstream, hpassed]
      · exact iff_of_true (hbusy1.trans hbusy) (mt (contents_eq_nil hvalid1).1 hzero)

/-! ## Steps -/

theorem step_iff (h : Inv c) (hstep : c.step e = some (c', out)) : (InOrder c' ↔ SendMeets c e) ∧ (SendMeets c e → Inv c') := by
  unfold step at hstep
  rw [h.inOrder.1] at hstep
  cases e with
  | send data answers =>
    obtain ⟨c1, hsend, heq⟩ := Option.map_eq_some_iff.1 hstep
    cases heq
    exact send_iff h hsend
  | onWrite answers =>
    obtain ⟨c1, hwrite, heq⟩ := Option.map_eq_some_iff.1 hstep
    cases heq
    have hinv := inv_onWrite h hwrite
    exact ⟨iff_of_true hinv.inOrder trivial, fun _ => hinv⟩

end ImConnSendsAux

open ImConnSendsAux

/-- Along every list of calls and events, in every state the bytes are in order, if and only if every step meets the condition. -/
theorem inOrder_along_iff (es : List OutEvent) :
    Machine.Along step (fun _ _ c => InOrder c) init es ↔ Machine.Along step (fun c e _ => SendMeets c e) init es := by
  refine Machine.along_iff (I := Inv) ?_ ?_ inv_init
  · exact fun hinv hstep => (step_iff hinv hstep).1
  · exact fun hinv hstep hmeets => (step_iff hinv hstep).2 hmeets

/-! ## A buffer that wraps around -/

/-- So many zeros have been passed to `Send`, and the socket has accepted none. -/
def backlog (n : Nat) : OutConn :=
  { busy := true
    outBuf := ⟨List.replicate n 0 ++ List.replicate (n / 4) 0, n⟩
    passed := List.replicate n 0
    accepted := []
    undefinedBehaviour := false }

namespace ImConnSendsAux

theorem step_backlog {n : Nat} (hpos : 0 < n) (hn : n < intSize) (hfits : ExtendFits 0 n) :
    init.step (.send (List.replicate n 0) []) = some (backlog n, []) := by
  have hlen : (List.replicate n (0 : UInt8)).length = n := List.length_replicate
  have hwrite := write_init (List.replicate n 0) n hpos hlen.ge (hn.trans (by norm_num [intSize]))
  rw [if_pos hfits, List.take_of_length_le hlen.le] at hwrite
  have hsend : init.send (List.replicate n 0) [] = some (backlog n) := by
    unfold OutConn.send
    rw [hlen, if_pos hn]
    simp only [init, sendLoop, Option.map_some, if_pos hpos, writeOut, List.drop_zero, hlen, hwrite, List.take_zero, List.nil_append,
      Bool.false_eq_true, if_false]
    rfl
  unfold step
  rw [if_neg (by simp [init])]
  dsimp only
  rw [hsend, Option.map_some]

/-- There is no room for as much again when twice as much and a quarter wrap around. -/
theorem not_sendMeets_backlog {n : Nat} (hn : n < intSize) (hwraps : ¬ExtendFits n n) (hquarter : n / 4 < n) :
    ¬SendMeets (backlog n) (.send (List.replicate n 0) []) := by
  intro hmeets
  have hlen : (List.replicate n (0 : UInt8)).length = n := List.length_replicate
  have hroom := hmeets rfl (hlen.symm ▸ hn)
  rw [hlen] at hroom
  rcases hroom with hroom | hfits
  · simp only [backlog, allocSize, List.length_append, List.length_replicate] at hroom
    omega
  · exact hwraps hfits

theorem not_inOrder_twice {n : Nat} (hpos : 0 < n) (hn : n < intSize) (hfits : ExtendFits 0 n) (hwraps : ¬ExtendFits n n) :
    ¬Machine.Along step (fun _ _ c => InOrder c) init [.send (List.replicate n 0) [], .send (List.replicate n 0) []] := by
  have hfirst := step_backlog hpos hn hfits
  have hinv : Inv (backlog n) := (step_iff inv_init hfirst).2 fun hbusy => by cases hbusy
  have hnot := not_sendMeets_backlog hn hwraps (Nat.div_lt_self hpos (by decide))
  intro halong
  rw [Machine.Along, hfirst] at halong
  have hsecond := halong.2
  rw [Machine.Along] at hsecond
  cases hstep : (backlog n).step (.send (List.replicate n 0) []) with
  | none =>
    unfold step OutConn.send at hstep
    rw [if_neg (by simp [backlog])] at hstep
    simp [backlog, hn] at hstep
  | some next =>
    obtain ⟨c, out⟩ := next
    rw [hstep] at hsecond
    exact hnot ((step_iff hinv hstep).1.1 hsecond.1)

end ImConnSendsAux

/-- Two calls of `Send` with 2147483647 bytes each, while the socket accepts nothing: the second one writes beyond the block. -/
theorem not_inOrder_along : ¬∀ es, Machine.Along step (fun _ _ c => InOrder c) init es := by
  intro hall
  obtain ⟨n, hpos, hn, hfits, hwraps⟩ : ∃ n, 0 < n ∧ n < intSize ∧ ExtendFits 0 n ∧ ¬ExtendFits n n := by
    refine ⟨2147483647, ?_, ?_, ?_, ?_⟩
    · norm_num
    · norm_num [intSize]
    · norm_num [ExtendFits]
    · norm_num [ExtendFits]
  exact not_inOrder_twice hpos hn hfits hwraps (hall _)

end OutConn

end TeamTalk
