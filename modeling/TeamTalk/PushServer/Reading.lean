import Mathlib
import TeamTalk.PushServer.PushSession

/-!
# What the reader of push_server does with a buffer

One turn of the loop by what is at the front of the buffer, then the loop by induction on the PDUs it cuts off, then all chunks.
-/

namespace TeamTalk.PushServer

open SimpleBuffer ByteStream
open ImPdu (lengthField lengthField_append lengthField_take header)

/-! ## The buffer -/

/-- The data lies within the block, and the block's size is an `int`. -/
structure IntValid (b : SimpleBuffer) : Prop where
  offset_le : b.writeOffset ≤ b.buffer.length
  alloc_lt : b.buffer.length < intSize

/-- What is written has room, or the size that the block is extended to is an `int`. -/
def WriteFits (alloc offset n : Nat) : Prop := offset + n ≤ alloc ∨ offset + n + (offset + n) / 4 < intSize

/-- The block's size after a write. -/
def allocAfter (alloc offset n : Nat) : Nat := if offset + n ≤ alloc then alloc else offset + n + (offset + n) / 4

theorem IntValid.valid {b : SimpleBuffer} (h : IntValid b) : b.Valid :=
  ⟨h.offset_le, Nat.lt_of_lt_of_le h.alloc_lt (by decide)⟩

theorem intValid_init : IntValid init := ⟨Nat.le_refl 0, by decide⟩

/-- Room for what is written. -/
theorem makeRoom_ok {b : SimpleBuffer} (h : IntValid b) {n : Nat} (hfits : WriteFits b.buffer.length b.writeOffset n) :
    ∃ b', makeRoom b n = .ok b' ∧ IntValid b' ∧ b'.contents = b.contents ∧ b'.writeOffset = b.writeOffset ∧
      b.writeOffset + n ≤ b'.buffer.length ∧ b'.buffer.length = allocAfter b.buffer.length b.writeOffset n := by
  by_cases hroom : b.writeOffset + n ≤ b.buffer.length
  · refine ⟨b, if_neg (Nat.not_lt.2 hroom), h, rfl, rfl, hroom, ?_⟩
    rw [allocAfter, if_pos hroom]
  · have hsize := hfits.resolve_left hroom
    have hlen : (realloc b.buffer (b.writeOffset + n + (b.writeOffset + n) / 4)).length =
        b.writeOffset + n + (b.writeOffset + n) / 4 := length_realloc _ _
    have hmake : makeRoom b n = extend b n := if_pos (Nat.lt_of_not_le hroom)
    refine ⟨⟨realloc b.buffer (b.writeOffset + n + (b.writeOffset + n) / 4), b.writeOffset⟩, ?_, ⟨?_, ?_⟩, ?_, rfl, ?_, ?_⟩
    · rw [hmake, extend]
      exact if_pos hsize
    · dsimp only
      omega
    · dsimp only
      omega
    · change (realloc b.buffer (b.writeOffset + n + (b.writeOffset + n) / 4)).take b.writeOffset = _
      exact take_realloc h.offset_le (by omega)
    · dsimp only
      omega
    · rw [allocAfter, if_neg hroom]
      exact hlen

/-- What is written is appended to the data. -/
theorem write_ok {b : SimpleBuffer} (h : IntValid b) {data : Bytes}
    (hfits : WriteFits b.buffer.length b.writeOffset data.length) :
    ∃ b', write b data = .ok b' ∧ IntValid b' ∧ b'.contents = b.contents ++ data ∧
      b'.buffer.length = allocAfter b.buffer.length b.writeOffset data.length := by
  obtain ⟨b1, heq, h1, hcontents, hoffset, hroom, halloc⟩ := makeRoom_ok h hfits
  have hcopy : copyAt b1.buffer b.writeOffset data =
      .ok (b.contents ++ data ++ b1.buffer.drop (b.writeOffset + data.length)) := by
    rw [copyAt, if_pos hroom, ← hcontents, contents, hoffset]
  have hlen : b.contents.length = b.writeOffset := length_contents h.valid
  have hsize : (b.contents ++ data ++ b1.buffer.drop (b.writeOffset + data.length)).length = b1.buffer.length := by
    simp only [List.length_append, List.length_drop]
    omega
  refine ⟨⟨b.contents ++ data ++ b1.buffer.drop (b.writeOffset + data.length), b.writeOffset + data.length⟩, ?_, ⟨?_, ?_⟩,
    ?_, ?_⟩
  · simp only [write, heq, bind, Except.bind, hoffset, hcopy, pure, Except.pure]
  · rw [hsize]
    exact hroom
  · rw [hsize]
    exact h1.alloc_lt
  · exact List.take_left' (by rw [List.length_append, hlen])
  · rw [hsize, halloc]

/-- A size that is no `int`. -/
theorem write_error {b : SimpleBuffer} {data : Bytes} (hfits : ¬WriteFits b.buffer.length b.writeOffset data.length) :
    write b data = .error .undefinedBehaviour := by
  rw [WriteFits, not_or] at hfits
  have hextend : extend b data.length = .error .undefinedBehaviour := by
    rw [extend]
    exact if_neg hfits.2
  have hmake : makeRoom b data.length = extend b data.length := if_pos (Nat.lt_of_not_le hfits.1)
  simp only [write, hmake, hextend, bind, Except.bind]

/-- The first bytes are dropped. -/
theorem remove_ok {b : SimpleBuffer} (h : IntValid b) {n : Nat} (hn : n ≤ b.writeOffset) :
    ∃ b', remove b n = .ok b' ∧ IntValid b' ∧ b'.contents = b.contents.drop n ∧ b'.buffer.length = b.buffer.length := by
  have hlt : n < intSize := Nat.lt_of_le_of_lt (Nat.le_trans hn h.offset_le) h.alloc_lt
  obtain ⟨b', hok, hvalid, hcontents, hlen⟩ := readNull_of_valid h.valid hn
  refine ⟨b', by rw [remove, if_pos hlt, hok], ⟨hvalid.offset_le, by rw [hlen]; exact h.alloc_lt⟩, hcontents, hlen⟩

/-! ## The header -/

/-- The header that a sequence of at least 16 bytes begins with. -/
def stHead (xs : Bytes) : StHead :=
  { length := (header xs).length
    version := (header xs).version
    flag := (header xs).flag
    serviceId := (header xs).serviceId
    commandId := (header xs).commandId
    error := (header xs).seqNum
    seqNo := (header xs).reversed }

theorem readHead_eq {xs : Bytes} (h : headLength ≤ xs.length) : readHead xs = .ok (stHead xs) := by
  match xs, h with
  | b0 :: b1 :: b2 :: b3 :: b4 :: b5 :: b6 :: b7 :: b8 :: b9 :: b10 :: b11 :: b12 :: b13 :: b14 :: b15 :: rest, _ =>
    rfl

theorem stHead_length {xs : Bytes} (h : headLength ≤ xs.length) : (stHead xs).length = lengthField xs := by
  match xs, h with
  | b0 :: b1 :: b2 :: b3 :: b4 :: b5 :: b6 :: b7 :: b8 :: b9 :: b10 :: b11 :: b12 :: b13 :: b14 :: b15 :: rest, _ =>
    rfl

/-- A PDU as it is handled, when it has a whole header. -/
def handledOf (f : Bytes) : Handled := ⟨handlerOf (header f).commandId, f⟩

/-! ## One turn -/

/-- The session has this data in its buffer, and is open. -/
structure Session.Has (s : Session) (xs : Bytes) : Prop where
  valid : IntValid s.msg.databuffer
  contents : s.msg.databuffer.contents = xs
  opened : s.closed = false

/-- The header of the data, as the block has it. -/
theorem block_head {b : SimpleBuffer} (h : IntValid b) (h16 : headLength < b.writeOffset) :
    readHead b.buffer = .ok (stHead b.buffer) ∧ (stHead b.buffer).length = lengthField b.contents := by
  have hblock : headLength ≤ b.buffer.length := Nat.le_trans (Nat.le_of_lt h16) h.offset_le
  have h4 : 4 ≤ b.buffer.length := Nat.le_trans (by decide) hblock
  refine ⟨readHead_eq hblock, ?_⟩
  rw [stHead_length hblock, contents, lengthField_take (Nat.le_trans (by decide) (Nat.le_of_lt h16)) h4]

/-- `CheckMsgAvailable`, by the data. -/
theorem check_eq {m : PduMsg} {xs : Bytes} (h : IntValid m.databuffer) (hxs : m.databuffer.contents = xs) :
    m.checkMsgAvailable = if headLength < xs.length then
      .ok ({ m with sthead := stHead m.databuffer.buffer }, decide (lengthField xs ≤ xs.length)) else .ok (m, false) := by
  have hlen : xs.length = m.databuffer.writeOffset := by rw [← hxs, length_contents h.valid]
  by_cases h16 : headLength < xs.length
  · obtain ⟨hread, hfield⟩ := block_head h (hlen ▸ h16)
    have hgt : m.databuffer.writeOffset > headLength := hlen ▸ h16
    rw [if_pos h16]
    simp only [PduMsg.checkMsgAvailable, if_pos hgt, hread, bind, Except.bind, pure, Except.pure, hfield, hxs, hlen]
  · have hgt : ¬m.databuffer.writeOffset > headLength := hlen ▸ h16
    simp only [PduMsg.checkMsgAvailable, if_neg hgt, pure, Except.pure, if_neg h16]

/-- Nothing to handle: the loop ends. -/
theorem loop_stop (closes : Closes) {s : Session} {xs : Bytes} (h : s.Has xs) (hfl : frontLength xs = none)
    (hz : ¬ZeroLength xs) (fuel : Nat) :
    ∃ s', recvDataLoop closes (fuel + 1) s = .ok s' ∧ s'.Has xs ∧ s'.handled = s.handled ∧
      s'.msg.databuffer = s.msg.databuffer := by
  by_cases h16 : headLength < xs.length
  · have hnot : ¬lengthField xs ≤ xs.length := by
      intro hle
      rcases Nat.eq_zero_or_pos (lengthField xs) with h0 | hpos
      · exact hz ⟨h16, h0⟩
      · rw [frontLength, if_pos ⟨h16, hpos, hle⟩] at hfl
        cases hfl
    refine ⟨{ s with msg := { s.msg with sthead := stHead s.msg.databuffer.buffer } }, ?_, ⟨h.valid, h.contents, h.opened⟩,
      rfl, rfl⟩
    simp only [recvDataLoop, check_eq h.valid h.contents, if_pos h16, hnot, decide_false, bind, Except.bind]
    rfl
  · refine ⟨s, ?_, h, rfl, rfl⟩
    simp only [recvDataLoop, check_eq h.valid h.contents, if_neg h16, bind, Except.bind]
    rfl

/-- Nothing is left to be removed. -/
theorem remove_empty {b : SimpleBuffer} (h : IntValid b) (hempty : b.contents = []) {n : Nat} (hn : n < intSize) :
    ∃ b', remove b n = .ok b' ∧ IntValid b' ∧ b'.contents = [] := by
  have hoffset : b.writeOffset = 0 := by rw [← length_contents h.valid, hempty, List.length_nil]
  have hsame : b.readNull n = b.readNull 0 := by
    have hclamp : (if n > b.writeOffset then b.writeOffset else n) = 0 := by
      split <;> omega
    have hclamp0 : (if 0 > b.writeOffset then b.writeOffset else 0) = 0 := if_neg (Nat.not_lt_zero _)
    simp only [readNull, hclamp, hclamp0]
  obtain ⟨b', hok, hvalid, hcontents, hlen⟩ := readNull_of_valid h.valid (Nat.zero_le _)
  refine ⟨b', by rw [remove, if_pos hn, hsame, hok], ⟨hvalid.offset_le, by rw [hlen]; exact h.alloc_lt⟩, ?_⟩
  rw [hcontents, hempty, List.drop_nil]

/-- A PDU is handled: the session is closed, or the PDU is dropped from the buffer. -/
theorem loop_next (closes : Closes) {s : Session} {xs : Bytes} (h : s.Has xs) (h16 : headLength < xs.length)
    (hle : lengthField xs ≤ xs.length) :
    ∃ handled, handled.pdu = xs.take (lengthField xs) ∧
      (headLength ≤ lengthField xs → handled = handledOf (xs.take (lengthField xs))) ∧
      ∃ s', (∀ fuel, recvDataLoop closes (fuel + 1) s = recvDataLoop closes fuel s') ∧ s'.handled = s.handled ++ [handled] ∧
        (closes s.handled handled = true → s'.closed = true ∧ IntValid s'.msg.databuffer ∧ s'.msg.databuffer.contents = []) ∧
        (closes s.handled handled = false → s'.Has (xs.drop (lengthField xs)) ∧
          s'.msg.databuffer.buffer.length = s.msg.databuffer.buffer.length) := by
  have hlen : xs.length = s.msg.databuffer.writeOffset := by rw [← h.contents, length_contents h.valid.valid]
  have hoffset : lengthField xs ≤ s.msg.databuffer.writeOffset := hlen ▸ hle
  obtain ⟨-, hfield⟩ := block_head h.valid (hlen ▸ h16)
  rw [h.contents] at hfield
  -- the bytes that the handler is given
  have htake : s.msg.databuffer.buffer.take (lengthField xs) = xs.take (lengthField xs) := by
    rw [← h.contents, contents, List.take_take, Nat.min_eq_left (by rw [← contents, h.contents]; exact hoffset)]
  have hread : readAt s.msg.databuffer.buffer 0 (lengthField xs) = .ok (xs.take (lengthField xs)) := by
    rw [readAt, if_pos (by rw [Nat.zero_add]; exact Nat.le_trans hoffset h.valid.offset_le), List.drop_zero, htake]
  refine ⟨⟨handlerOf (stHead s.msg.databuffer.buffer).commandId, xs.take (lengthField xs)⟩, rfl, ?_, ?_⟩
  · intro h16'
    have hhead : header s.msg.databuffer.buffer = header (xs.take (lengthField xs)) := by
      conv_lhs => rw [← List.take_append_drop (lengthField xs) s.msg.databuffer.buffer, htake]
      exact ImPdu.header_append (by rw [List.length_take, Nat.min_eq_left hle]; exact h16') _
    rw [handledOf, stHead, hhead]
  · generalize hhandled : Handled.mk (handlerOf (stHead s.msg.databuffer.buffer).commandId) (xs.take (lengthField xs)) = handled
    have hturn : ∀ fuel, recvDataLoop closes (fuel + 1) s =
        (do
          let s ← Session.handle closes { s with msg := { s.msg with sthead := stHead s.msg.databuffer.buffer } } handled
          let databuffer ← remove s.msg.databuffer s.msg.sthead.length
          recvDataLoop closes fuel { s with msg := { s.msg with databuffer } }) := by
      intro fuel
      simp only [recvDataLoop, check_eq h.valid h.contents, if_pos h16, hle, decide_true, bind, Except.bind, if_true, hfield,
        hread, hhandled]
    cases hcloses : closes s.handled handled with
    | false =>
      obtain ⟨b', hb', hvalid', hcontents', halloc'⟩ := remove_ok h.valid hoffset
      refine ⟨⟨⟨b', stHead s.msg.databuffer.buffer⟩, s.handled ++ [handled], s.closed⟩, ?_, rfl, ?_, ?_⟩
      · intro fuel
        rw [hturn]
        simp only [Session.handle, hcloses, bind, Except.bind, pure, Except.pure, hfield, hb', Bool.false_eq_true, if_false]
      · intro hfalse
        cases hfalse
      · exact fun _ => ⟨⟨hvalid', hcontents'.trans (by rw [h.contents]), h.opened⟩, halloc'⟩
    | true =>
      obtain ⟨b1, hb1, hvalid1, hcontents1, hlen1⟩ := readNull_of_valid h.valid.valid (Nat.le_refl _)
      have hempty : b1.contents = [] := by
        rw [hcontents1]
        exact List.drop_of_length_le (by rw [length_contents h.valid.valid])
      have hlt : lengthField xs < intSize :=
        Nat.lt_of_le_of_lt (Nat.le_trans hoffset h.valid.offset_le) h.valid.alloc_lt
      obtain ⟨b2, hb2, hvalid2, hcontents2⟩ := remove_empty
        ⟨hvalid1.offset_le, by rw [hlen1]; exact h.valid.alloc_lt⟩ hempty hlt
      refine ⟨⟨⟨b2, stHead s.msg.databuffer.buffer⟩, s.handled ++ [handled], true⟩, ?_, rfl, ?_, ?_⟩
      · intro fuel
        rw [hturn]
        simp only [Session.handle, hcloses, PduMsg.clear, hb1, bind, Except.bind, pure, Except.pure, hfield, hb2, if_true]
      · exact fun _ => ⟨rfl, hvalid2, hcontents2⟩
      · intro hfalse
        cases hfalse

/-! ## All turns -/

/-- With an empty buffer the loop ends. -/
theorem loop_empty (closes : Closes) {s : Session} (h : IntValid s.msg.databuffer) (hempty : s.msg.databuffer.contents = [])
    (fuel : Nat) : recvDataLoop closes (fuel + 1) s = .ok s := by
  simp only [recvDataLoop, check_eq h hempty, List.length_nil, Nat.not_lt_zero, if_false, bind, Except.bind,
    Bool.false_eq_true, pure, Except.pure]

/-- The PDUs that are handled, one after the other until the session is closed, and whether it is. -/
def dispatched (closes : Closes) (handled : List Handled) : List Handled → List Handled × Bool
  | [] => (handled, false)
  | h :: hs => if closes handled h then (handled ++ [h], true) else dispatched closes (handled ++ [h]) hs

theorem dispatched_append (closes : Closes) (handled xs ys : List Handled) :
    dispatched closes handled (xs ++ ys) = if (dispatched closes handled xs).2 then dispatched closes handled xs
      else dispatched closes (dispatched closes handled xs).1 ys := by
  induction xs generalizing handled with
  | nil => rfl
  | cons h hs ih =>
    simp only [List.cons_append, dispatched]
    by_cases hcloses : closes handled h = true
    · simp only [hcloses, if_true]
    · simp only [hcloses, if_false, Bool.false_eq_true, ih]

/-- No handler closes the session. -/
def neverCloses : Closes := fun _ _ => false

@[simp] theorem dispatched_neverCloses (handled xs : List Handled) :
    dispatched neverCloses handled xs = (handled ++ xs, false) := by
  induction xs generalizing handled with
  | nil => rw [dispatched, List.append_nil]
  | cons h hs ih =>
    have hopen : neverCloses handled h = false := rfl
    simp only [dispatched, hopen, Bool.false_eq_true, if_false, ih, List.append_assoc, List.singleton_append]

/-- What the loop leaves behind, by what is in the buffer before. -/
structure LoopEnds (closes : Closes) (s : Session) (xs : Bytes) (s' : Session) : Prop where
  rest : s'.closed = false → s'.Has (format.drain xs).2 ∧
    s'.msg.databuffer.buffer.length = s.msg.databuffer.buffer.length
  handled : (∀ f ∈ (format.drain xs).1, headLength ≤ f.length) →
    (s'.handled, s'.closed) = dispatched closes s.handled ((format.drain xs).1.map handledOf)

/-- Unless a length field is zero, the loop ends: with every turn the buffer gets shorter. -/
theorem loop_ok (closes : Closes) (xs : Bytes) {s : Session} (h : s.Has xs) (hz : ¬ZeroLength (format.drain xs).2)
    {fuel : Nat} (hfuel : xs.length < fuel) :
    ∃ s', recvDataLoop closes fuel s = .ok s' ∧ LoopEnds closes s xs s' := by
  induction xs using format.drain_induction generalizing s fuel with
  | incomplete xs hinc =>
    obtain ⟨fuel, rfl⟩ : ∃ k, fuel = k + 1 := ⟨fuel - 1, by omega⟩
    rw [format.drain_incomplete hinc] at hz
    obtain ⟨s', hok, hhas, hhandled, hbuffer⟩ := loop_stop closes h (incomplete_iff.1 hinc) hz fuel
    refine ⟨s', hok, ?_, ?_⟩
    · intro _
      rw [format.drain_incomplete hinc]
      exact ⟨hhas, by rw [hbuffer]⟩
    · intro _
      rw [format.drain_incomplete hinc, List.map_nil, dispatched, hhandled, hhas.opened]
  | next xs f r hnext ih =>
    obtain ⟨fuel, rfl⟩ : ∃ k, fuel = k + 1 := ⟨fuel - 1, by omega⟩
    have hr := format.length_rest_lt hnext
    obtain ⟨hfl, hf, hdrop⟩ := next_eq_some hnext
    obtain ⟨h16, -, hle, hlf⟩ := frontLength_eq_some.1 hfl
    rw [hlf] at hle hf hdrop
    rw [format.drain_next hnext] at hz
    obtain ⟨handled, hpdu, hhandledOf, s1, hturn, hs1, hclosed, hopen⟩ := loop_next closes h h16 hle
    rw [← hf, ← hlf] at hhandledOf
    rw [← hdrop] at hopen
    rw [hturn]
    cases hcloses : closes s.handled handled with
    | true =>
      obtain ⟨hc, hvalid, hempty⟩ := hclosed hcloses
      obtain ⟨fuel, rfl⟩ : ∃ k, fuel = k + 1 := ⟨fuel - 1, by omega⟩
      refine ⟨s1, loop_empty closes hvalid hempty fuel, ?_, ?_⟩
      · intro hfalse
        rw [hc] at hfalse
        cases hfalse
      · intro hframes
        rw [format.drain_next hnext] at hframes ⊢
        rw [hs1, hc, List.map_cons, dispatched, ← hhandledOf (hframes f List.mem_cons_self), if_pos hcloses]
    | false =>
      obtain ⟨hhas, halloc⟩ := hopen hcloses
      obtain ⟨s', hok, hrest, hhandled⟩ := ih hhas hz (show r.length < fuel by omega)
      refine ⟨s', hok, ?_, ?_⟩
      · intro hs'
        rw [format.drain_next hnext]
        obtain ⟨hhas', halloc'⟩ := hrest hs'
        exact ⟨hhas', halloc'.trans halloc⟩
      · intro hframes
        rw [format.drain_next hnext] at hframes ⊢
        rw [hhandled fun g hg => hframes g (List.mem_cons_of_mem f hg), hs1, List.map_cons, dispatched,
          ← hhandledOf (hframes f List.mem_cons_self), if_neg (by rw [hcloses]; exact Bool.false_ne_true)]

/-- A PDU whose length field is zero stays at the front: every turn handles it again. -/
theorem loop_zero {xs : Bytes} (hz : ZeroLength xs) (fuel : Nat) {s : Session} (h : s.Has xs) (s' : Session) :
    recvDataLoop neverCloses fuel s ≠ .ok s' := by
  induction fuel generalizing s with
  | zero =>
    intro hok
    cases hok
  | succ fuel ih =>
    obtain ⟨handled, -, -, s1, hturn, -, -, hopen⟩ := loop_next neverCloses h hz.1 (by rw [hz.2]; exact Nat.zero_le _)
    rw [hturn]
    obtain ⟨hhas, -⟩ := hopen rfl
    rw [hz.2, List.drop_zero] at hhas
    exact ih hhas

/-- The loop does not end when it comes to a length field of zero. -/
theorem loop_diverges (xs : Bytes) {s : Session} (h : s.Has xs) (hz : ZeroLength (format.drain xs).2) (fuel : Nat)
    (s' : Session) : recvDataLoop neverCloses fuel s ≠ .ok s' := by
  induction xs using format.drain_induction generalizing s fuel with
  | incomplete xs hinc =>
    rw [format.drain_incomplete hinc] at hz
    exact loop_zero hz fuel h s'
  | next xs f r hnext ih =>
    obtain ⟨hfl, hf, hdrop⟩ := next_eq_some hnext
    obtain ⟨h16, -, hle, hlf⟩ := frontLength_eq_some.1 hfl
    rw [hlf] at hle hdrop
    rw [format.drain_next hnext] at hz
    cases fuel with
    | zero =>
      intro hok
      cases hok
    | succ fuel =>
      obtain ⟨handled, -, -, s1, hturn, -, -, hopen⟩ := loop_next neverCloses h h16 hle
      obtain ⟨hhas, -⟩ := hopen rfl
      rw [← hdrop] at hhas
      rw [hturn]
      exact ih hhas hz fuel

/-- When no handler closes the session and the loop has ended, what was not cut off is in the buffer. -/
theorem loop_open (xs : Bytes) {s s' : Session} (h : s.Has xs) {fuel : Nat} (hok : recvDataLoop neverCloses fuel s = .ok s') :
    s'.Has (format.drain xs).2 ∧ s'.msg.databuffer.buffer.length = s.msg.databuffer.buffer.length := by
  induction xs using format.drain_induction generalizing s fuel with
  | incomplete xs hinc =>
    rw [format.drain_incomplete hinc]
    have hz : ¬ZeroLength xs := fun hz => loop_zero hz fuel h s' hok
    cases fuel with
    | zero => cases hok
    | succ fuel =>
      obtain ⟨s1, hs1, hhas, -, hbuffer⟩ := loop_stop neverCloses h (incomplete_iff.1 hinc) hz fuel
      rw [hs1] at hok
      cases hok
      exact ⟨hhas, by rw [hbuffer]⟩
  | next xs f r hnext ih =>
    obtain ⟨hfl, -, hdrop⟩ := next_eq_some hnext
    obtain ⟨h16, -, hle, hlf⟩ := frontLength_eq_some.1 hfl
    rw [hlf] at hle hdrop
    rw [format.drain_next hnext]
    cases fuel with
    | zero => cases hok
    | succ fuel =>
      obtain ⟨handled, -, -, s1, hturn, -, -, hopen⟩ := loop_next neverCloses h h16 hle
      obtain ⟨hhas, halloc⟩ := hopen rfl
      rw [← hdrop] at hhas
      rw [hturn] at hok
      obtain ⟨hhas', halloc'⟩ := ih hhas hok
      exact ⟨hhas', halloc'.trans halloc⟩

/-- More turns than are needed change nothing. -/
theorem loop_fuel {closes : Closes} {fuel fuel' : Nat} (hle : fuel ≤ fuel') {s s' : Session}
    (hok : recvDataLoop closes fuel s = .ok s') : recvDataLoop closes fuel' s = .ok s' := by
  induction fuel generalizing fuel' s with
  | zero => cases hok
  | succ fuel ih =>
    obtain ⟨fuel', rfl⟩ : ∃ k, fuel' = k + 1 := ⟨fuel' - 1, by omega⟩
    cases hcheck : s.msg.checkMsgAvailable with
    | error e =>
      simp only [recvDataLoop, hcheck, bind, Except.bind] at hok
      cases hok
    | ok checked =>
      obtain ⟨msg, available⟩ := checked
      cases available with
      | false =>
        simp only [recvDataLoop, hcheck, bind, Except.bind, Bool.false_eq_true, if_false] at hok ⊢
        exact hok
      | true =>
        simp only [recvDataLoop, hcheck, bind, Except.bind, if_true] at hok ⊢
        cases hread : readAt msg.databuffer.buffer 0 msg.sthead.length with
        | error e =>
          rw [hread] at hok
          cases hok
        | ok pdu =>
          simp only [hread] at hok ⊢
          cases hhandle : Session.handle closes { s with msg } ⟨handlerOf msg.sthead.commandId, pdu⟩ with
          | error e =>
            rw [hhandle] at hok
            cases hok
          | ok s1 =>
            simp only [hhandle] at hok ⊢
            cases hremove : remove s1.msg.databuffer s1.msg.sthead.length with
            | error e =>
              rw [hremove] at hok
              cases hok
            | ok databuffer =>
              simp only [hremove] at hok ⊢
              exact ih (by omega) hok

end TeamTalk.PushServer
