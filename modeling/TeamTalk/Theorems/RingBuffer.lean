import TeamTalk.PushServer.BufferLoop

/-!
# The ring buffer keeps the order

What was appended is what was taken out and what is in the buffer, unless bytes are taken out of a full buffer over the end of the block.
`append_buffer` says of all bytes that they did not fit.
-/

namespace TeamTalk.PushServer.BufferLoop

/-! ## The property -/

/-- The bytes that a call has taken out. -/
def Output.removed : Output → Bytes
  | .got removes _ _ _ _ bytes => if removes then bytes else []
  | .appended _ _ => []

/-- A call that gets bytes returns the oldest ones, as many as there are. -/
def Output.Right : Output → Prop
  | .got _ requested present answer realSize bytes =>
    answer = true ∧ realSize = min requested present.length ∧ bytes = present.take requested
  | .appended _ _ => True

/-- No copy has left the block, and the bytes that fitted when they were appended are what was taken out and what is there. -/
structure IsFifo (log : List Output) (s : State) : Prop where
  inside : s.outside = false
  content : log.flatMap Output.removed ++ s.loop.contents = s.put
  gets : ∀ o ∈ log, o.Right

/-- `append_buffer` returned whether the bytes fitted. -/
def Output.Answered : Output → Prop
  | .appended fits answer => answer = fits
  | .got _ _ _ _ _ _ => True

/-- Bytes that were appended fitted. -/
def Output.Fitted : Output → Prop
  | .appended fits _ => fits = true
  | .got _ _ _ _ _ _ => False

/-! ## The condition -/

/-- The condition on a call: sums have room in an `int`, and a full buffer is not read over the end of the block. -/
def Meets (s : State) : Event → Prop
  | .append data => data.length ≤ s.loop.restSize → s.loop.tailPos + data.length < 2 ^ 31
  | .get size => s.loop.headPos + min size s.loop.usedSize < 2 ^ 31 ∧
      (s.loop.usedSize = s.loop.bufferSize → s.loop.headPos + min size s.loop.usedSize ≤ s.loop.bufferSize)
  | .getTmp size => s.loop.usedSize = s.loop.bufferSize → s.loop.headPos + min size s.loop.usedSize ≤ s.loop.bufferSize

instance (s : State) : (e : Event) → Decidable (Meets s e)
  | .append _ => inferInstanceAs (Decidable (_ → _))
  | .get _ => inferInstanceAs (Decidable (_ ∧ (_ → _)))
  | .getTmp _ => inferInstanceAs (Decidable (_ → _))

namespace RingBufferAux

variable {b b' : BufferLoop} {data bytes block : Bytes} {size head i n offset : Nat} {log out : List Output} {s s' : State} {e : Event}

/-! ## Places -/

theorem place_lt (hhead : head < size) (hi : i ≤ size) : place size head i < size := by
  unfold place
  split <;> omega

/-- Places are counted on from another place. -/
theorem place_place (hhead : head < size) (h : n + i ≤ size) : place size (place size head n) i = place size head (n + i) := by
  unfold place
  split <;> split <;> split <;> omega

theorem mod_eq_place (hhead : head < size) (hn : n ≤ size) : (head + n) % size = place size head n := by
  unfold place
  split
  · exact Nat.mod_eq_of_lt ‹_›
  · rw [Nat.mod_eq_sub_mod (by omega), Nat.mod_eq_of_lt (by omega)]

theorem readAt_eq (block : Bytes) (offset n : Nat) (h : offset + n ≤ block.length) :
    readAt block offset n = .ok ((List.range n).map fun i => block.getD (offset + i) 0) := by
  rw [readAt, if_pos h]
  congr 1
  refine List.ext_getElem (by simp; omega) fun i hi _ => ?_
  rw [List.length_take, List.length_drop] at hi
  simp [List.getD_eq_getElem?_getD, List.getElem?_eq_getElem (show offset + i < block.length by omega)]

/-- A copy changes the places it is made to. -/
theorem copyAt_eq (block : Bytes) (offset : Nat) (data : Bytes) (h : offset + data.length ≤ block.length) :
    ∃ block', copyAt block offset data = .ok block' ∧ block'.length = block.length ∧
      ∀ j, block'.getD j 0 = if offset ≤ j ∧ j < offset + data.length then data.getD (j - offset) 0 else block.getD j 0 := by
  have hfront : (block.take offset ++ data).length = offset + data.length := by simp; omega
  refine ⟨_, if_pos h, by simp; omega, fun j => ?_⟩
  simp only [List.getD_eq_getElem?_getD]
  rcases Nat.lt_or_ge j offset with hlt | hge
  · rw [if_neg (by omega), List.append_assoc, List.getElem?_append_left (by simp; omega), List.getElem?_take_of_lt hlt]
  · rcases Nat.lt_or_ge j (offset + data.length) with hlt | hge'
    · rw [if_pos ⟨hge, hlt⟩, List.getElem?_append_left (by omega), List.getElem?_append_right (by simp; omega), List.length_take,
        Nat.min_eq_left (by omega)]
    · rw [if_neg (by omega), List.getElem?_append_right (by omega), List.getElem?_drop, hfront, Nat.add_sub_cancel' hge']

theorem getD_take {l : Bytes} (h : i < n) : (l.take n).getD i 0 = l.getD i 0 := by
  simp only [List.getD_eq_getElem?_getD, List.getElem?_take_of_lt h]

theorem getD_drop (l : Bytes) (n i : Nat) : (l.drop n).getD i 0 = l.getD (n + i) 0 := by
  simp only [List.getD_eq_getElem?_getD, List.getElem?_drop]

theorem map_getD (l : Bytes) : ((List.range l.length).map fun i => l.getD i 0) = l := by
  refine List.ext_getElem (by simp) fun i hi _ => ?_
  simp [List.getD_eq_getElem?_getD, List.getElem?_eq_getElem (show i < l.length by simpa using hi)]

theorem take_append_drop_min (l : Bytes) (n : Nat) : l.take n ++ l.drop (min n l.length) = l := by
  rcases Nat.le_total n l.length with h | h
  · rw [Nat.min_eq_left h, List.take_append_drop]
  · rw [Nat.min_eq_right h, List.take_of_length_le h, List.drop_length, List.append_nil]

/-- The places are in order: the tail is as many bytes behind the head as are used. -/
structure Ordered (b : BufferLoop) : Prop where
  head : b.headPos < b.bufferSize
  used : b.usedSize ≤ b.bufferSize
  tail : b.tailPos = place b.bufferSize b.headPos b.usedSize

theorem length_contents : b.contents.length = b.usedSize := by simp [contents]

/-! ## Getting bytes -/

/-- The oldest bytes are copied, unless a full buffer is read over the end. -/
theorem copyOut_eq (h : Ordered b) (hfull : b.usedSize = b.bufferSize → b.headPos + min n b.usedSize ≤ b.bufferSize) :
    b.copyOut n = .ok (min n b.usedSize, b.contents.take n) := by
  obtain ⟨hhead, hused, htail⟩ := h
  have hmin : (if n < b.usedSize then n else b.usedSize) = min n b.usedSize := by
    split <;> omega
  have hbytes : b.contents.take n = (List.range (min n b.usedSize)).map fun i => b.buffer.getD (place b.bufferSize b.headPos i) 0 := by
    rw [contents, ← List.map_take, List.take_range]
  have hsize : b.bufferSize = b.buffer.length := rfl
  have hle : min n b.usedSize ≤ b.usedSize := Nat.min_le_right _ _
  rw [hbytes]
  unfold place at htail
  simp only [copyOut, hmin]
  generalize min n b.usedSize = m at *
  by_cases hend : b.headPos + m ≤ b.bufferSize
  · -- what is copied stands in one piece
    have hread := readAt_eq b.buffer b.headPos m (by omega)
    have hsame : ((List.range m).map fun i => b.buffer.getD (b.headPos + i) 0) =
        (List.range m).map fun i => b.buffer.getD (place b.bufferSize b.headPos i) 0 := by
      refine List.map_congr_left fun i hi => ?_
      have := List.mem_range.1 hi
      rw [place, if_pos (by omega)]
    rw [hread, hsame, if_pos (show m ≤ b.bufferSize - b.headPos by omega)]
    split <;> rfl
  · -- it goes on at the beginning of the block
    have hwrap : ¬b.headPos ≤ b.tailPos := by
      split at htail <;> omega
    obtain ⟨k, rfl⟩ : ∃ k, m = b.bufferSize - b.headPos + k := ⟨m - (b.bufferSize - b.headPos), by omega⟩
    have hfirst := readAt_eq b.buffer b.headPos (b.bufferSize - b.headPos) (by omega)
    have hsecond := readAt_eq b.buffer 0 k (by omega)
    rw [if_neg hwrap, if_neg (by omega), hfirst, Nat.add_sub_cancel_left, hsecond]
    simp only [bind, Except.bind, pure, Except.pure, List.range_add, List.map_append, List.map_map]
    congr 3
    · refine List.map_congr_left fun i hi => ?_
      have := List.mem_range.1 hi
      rw [place, if_pos (by omega)]
    · refine List.map_congr_left fun i hi => ?_
      rw [Function.comp_apply, place, if_neg (by omega)]
      congr 1
      omega

/-- What is taken out leaves the other bytes in order. -/
theorem contents_getBuffer (h : Ordered b) (hn : n ≤ b.usedSize) :
    Ordered { b with usedSize := b.usedSize - n, headPos := (b.headPos + n) % b.bufferSize } ∧
      contents { b with usedSize := b.usedSize - n, headPos := (b.headPos + n) % b.bufferSize } = b.contents.drop n := by
  obtain ⟨hhead, hused, htail⟩ := h
  rw [mod_eq_place hhead (by omega)]
  refine ⟨⟨place_lt hhead (by omega), (Nat.sub_le _ _).trans hused, ?_⟩, ?_⟩
  · simp only [bufferSize] at *
    rw [place_place hhead (by omega), htail]
    congr 1
    omega
  · refine List.ext_getElem (by simp [contents]) fun i hi _ => ?_
    rw [length_contents] at hi
    simp only [contents, List.getElem_map, List.getElem_range, List.getElem_drop, bufferSize] at *
    rw [place_place hhead (by omega)]

/-! ## Appending bytes -/

/-- What is appended goes behind the bytes that are there, and these stay. -/
theorem copyIn_eq (h : Ordered b) (hroom : data.length ≤ b.restSize) : ∃ block, b.copyIn data = .ok block ∧
    block.length = b.buffer.length ∧
      (∀ i < b.usedSize, block.getD (place b.bufferSize b.headPos i) 0 = b.buffer.getD (place b.bufferSize b.headPos i) 0) ∧
        ∀ i < data.length, block.getD (place b.bufferSize b.headPos (b.usedSize + i)) 0 = data.getD i 0 := by
  obtain ⟨hhead, hused, htail⟩ := h
  have hsize : b.bufferSize = b.buffer.length := rfl
  rw [restSize] at hroom
  unfold place at htail
  rw [copyIn]
  by_cases hend : b.tailPos + data.length ≤ b.bufferSize
  · -- the bytes go in one piece
    obtain ⟨block, hcopy, hlen, hget⟩ := copyAt_eq b.buffer b.tailPos data (by omega)
    refine ⟨block, ?_, hlen, fun i hi => ?_, fun i hi => ?_⟩
    · rw [hcopy, if_pos (show b.bufferSize - b.tailPos ≥ data.length by omega)]
      split <;> rfl
    · rw [hget, if_neg]
      unfold place
      split at htail <;> split <;> omega
    · have htailPlace : place b.bufferSize b.headPos (b.usedSize + i) = b.tailPos + i := by
        unfold place
        split at htail <;> split <;> omega
      rw [hget, htailPlace, if_pos (by omega), Nat.add_sub_cancel_left]
  · -- they go on at the beginning of the block, before the head
    have hbehind : b.tailPos = b.headPos + b.usedSize ∧ b.tailPos < b.bufferSize := by
      split at htail <;> omega
    have hwrap : ¬b.tailPos < b.headPos := by omega
    obtain ⟨rest, hrest⟩ : ∃ rest, rest = b.bufferSize - b.tailPos := ⟨_, rfl⟩
    have htake : (data.take rest).length = rest := List.length_take_of_le (by omega)
    have hdrop : (data.drop rest).length = data.length - rest := List.length_drop
    obtain ⟨block₁, hcopy₁, hlen₁, hget₁⟩ := copyAt_eq b.buffer b.tailPos (data.take rest) (by omega)
    obtain ⟨block, hcopy, hlen, hget⟩ := copyAt_eq block₁ 0 (data.drop rest) (by omega)
    refine ⟨block, ?_, hlen.trans hlen₁, fun i hi => ?_, fun i hi => ?_⟩
    · rw [if_neg hwrap, ← hrest, if_neg (by omega), hcopy₁]
      exact hcopy
    · rw [hget, hget₁, if_neg, if_neg]
      · unfold place
        split at htail <;> split <;> omega
      · unfold place
        split at htail <;> split <;> omega
    · rw [hget, hget₁]
      rcases Nat.lt_or_ge i rest with hlt | hge
      · have htailPlace : place b.bufferSize b.headPos (b.usedSize + i) = b.tailPos + i := by
          unfold place
          split at htail <;> split <;> omega
        rw [htailPlace, if_neg (by omega), if_pos (by omega), Nat.add_sub_cancel_left, getD_take hlt]
      · have hstartPlace : place b.bufferSize b.headPos (b.usedSize + i) = i - rest := by
          unfold place
          split at htail <;> split <;> omega
        rw [hstartPlace, if_pos (by omega), Nat.sub_zero, getD_drop, Nat.add_sub_cancel' hge]

/-- What `append_buffer` leaves. -/
theorem contents_appendBuffer {block : Bytes} (h : Ordered b) (hroom : data.length ≤ b.restSize) (hlen : block.length = b.buffer.length)
    (hold : ∀ i < b.usedSize, block.getD (place b.bufferSize b.headPos i) 0 = b.buffer.getD (place b.bufferSize b.headPos i) 0)
    (hnew : ∀ i < data.length, block.getD (place b.bufferSize b.headPos (b.usedSize + i)) 0 = data.getD i 0) :
    Ordered ⟨block, b.headPos, (b.tailPos + data.length) % b.bufferSize, b.usedSize + data.length⟩ ∧
      contents ⟨block, b.headPos, (b.tailPos + data.length) % b.bufferSize, b.usedSize + data.length⟩ = b.contents ++ data := by
  obtain ⟨hhead, hused, htail⟩ := h
  rw [restSize] at hroom
  simp only [bufferSize] at *
  rw [htail, mod_eq_place (place_lt hhead hused) (by omega), place_place hhead (by omega)]
  refine ⟨⟨by simpa [bufferSize, hlen] using hhead, by simp only [bufferSize]; omega, by simp only [bufferSize, hlen]⟩, ?_⟩
  simp only [contents, bufferSize, hlen, List.range_add, List.map_append, List.map_map]
  congr 1
  · exact List.map_congr_left fun i hi => hold i (List.mem_range.1 hi)
  · refine (List.map_congr_left fun i hi => ?_).trans (map_getD data)
    exact hnew i (List.mem_range.1 hi)

/-! ## Calls -/

/-- Bytes that fit are appended. -/
theorem appendBuffer_fits (h : Ordered b) (hroom : data.length ≤ b.restSize) (hint : b.tailPos + data.length < 2 ^ 31) :
    ∃ b', b.appendBuffer data = .ok (b', false) ∧ Ordered b' ∧ b'.contents = b.contents ++ data ∧ b'.bufferSize = b.bufferSize := by
  obtain ⟨block, hcopy, hlen, hold, hnew⟩ := copyIn_eq h hroom
  obtain ⟨hordered, hcontents⟩ := contents_appendBuffer h hroom hlen hold hnew
  refine ⟨_, ?_, hordered, hcontents, hlen⟩
  simp only [appendBuffer, if_neg (Nat.not_lt.2 hroom), hcopy, addInt, if_pos hint]
  rfl

/-- Others are not. -/
theorem appendBuffer_full (hroom : b.restSize < data.length) : b.appendBuffer data = .ok (b, false) := by
  simp only [appendBuffer, if_pos hroom]
  rfl

/-- The oldest bytes are taken out. -/
theorem getBuffer_eq (h : Ordered b) (hint : b.headPos + min n b.usedSize < 2 ^ 31)
    (hfull : b.usedSize = b.bufferSize → b.headPos + min n b.usedSize ≤ b.bufferSize) :
    ∃ b', b.getBuffer n = .ok (b', true, min n b.usedSize, b.contents.take n) ∧ Ordered b' ∧
      b'.contents = b.contents.drop (min n b.usedSize) ∧ b'.bufferSize = b.bufferSize := by
  obtain ⟨hordered, hcontents⟩ := contents_getBuffer h (Nat.min_le_right n b.usedSize)
  refine ⟨_, ?_, hordered, hcontents, rfl⟩
  simp only [getBuffer, copyOut_eq h hfull, addInt, if_pos hint, bind, Except.bind, pure, Except.pure]

/-! ## Runs -/

/-- The property, with places that are in order. -/
structure Inv (log : List Output) (s : State) : Prop where
  ordered : Ordered s.loop
  fifo : IsFifo log s
  answers : ∀ fits answer, Output.appended fits answer ∈ log → answer = false

theorem inv_init (h : createBuffer size = .ok b) : Inv [] (State.init b) := by
  rw [createBuffer] at h
  split at h
  · obtain rfl := Except.ok.inj h
    refine ⟨⟨?_, Nat.zero_le _, ?_⟩, ⟨rfl, rfl, (fun o ho => by cases ho)⟩, fun _ _ ho => by cases ho⟩
    · simp [State.init, bufferSize]
    · simp [State.init, bufferSize, place]
  · cases h

/-- What a call keeps that meets the condition. -/
theorem inv_step (h : Inv log s) (hmeets : Meets s e) (hstep : step s e = some (s', out)) : Inv (log ++ out) s' := by
  obtain ⟨⟨loop, put, outside⟩, hs⟩ : ∃ t, t = s := ⟨s, rfl⟩
  subst hs
  obtain ⟨hordered, ⟨hinside, hcontent, hgets⟩, hanswers⟩ := h
  simp only at hordered hinside hcontent
  subst hinside
  rw [step, if_neg (by simp)] at hstep
  have hget : ∀ o, o.Right → ∀ o' ∈ log ++ [o], o'.Right := fun o ho o' ho' =>
    (List.mem_append.1 ho').elim (hgets o') fun hlast => List.mem_singleton.1 hlast ▸ ho
  cases e with
  | append data =>
    have hanswer : ∀ fits' fits answer, Output.appended fits answer ∈ log ++ [.appended fits' false] → answer = false := by
      intro fits' fits answer ho
      rcases List.mem_append.1 ho with ho | ho
      · exact hanswers fits answer ho
      · cases List.mem_singleton.1 ho
        rfl
    by_cases hroom : data.length ≤ loop.restSize
    · obtain ⟨loop', happend, hordered', hcontents, -⟩ := appendBuffer_fits hordered hroom (hmeets hroom)
      simp only [call, happend, bind, Except.bind, pure, Except.pure, hroom, decide_true, if_true] at hstep
      obtain ⟨rfl, rfl⟩ := Prod.mk.inj (Option.some.inj hstep)
      refine ⟨hordered', ⟨rfl, ?_, hget _ trivial⟩, hanswer true⟩
      rw [List.flatMap_append, hcontents, ← hcontent]
      simp [Output.removed]
    · simp only [call, appendBuffer_full (Nat.lt_of_not_le hroom), bind, Except.bind, pure, Except.pure, hroom, decide_false] at hstep
      obtain ⟨rfl, rfl⟩ := Prod.mk.inj (Option.some.inj hstep)
      refine ⟨hordered, ⟨rfl, ?_, hget _ trivial⟩, hanswer false⟩
      rw [List.flatMap_append, ← hcontent]
      simp [Output.removed]
  | get size =>
    obtain ⟨loop', hgot, hordered', hcontents, -⟩ := getBuffer_eq hordered hmeets.1 hmeets.2
    simp only [call, hgot, bind, Except.bind, pure, Except.pure] at hstep
    obtain ⟨rfl, rfl⟩ := Prod.mk.inj (Option.some.inj hstep)
    refine ⟨hordered', ⟨rfl, ?_, hget _ ⟨rfl, by rw [length_contents], rfl⟩⟩, fun fits answer ho => ?_⟩
    · rw [List.flatMap_append, hcontents, ← hcontent, ← length_contents]
      simp [Output.removed, take_append_drop_min]
    · exact hanswers fits answer (by simpa using ho)
  | getTmp size =>
    simp only [call, getBufferTmp, copyOut_eq hordered hmeets, bind, Except.bind, pure, Except.pure] at hstep
    obtain ⟨rfl, rfl⟩ := Prod.mk.inj (Option.some.inj hstep)
    refine ⟨hordered, ⟨rfl, ?_, hget _ ⟨rfl, by rw [length_contents], rfl⟩⟩, fun fits answer ho => ?_⟩
    · rw [List.flatMap_append, ← hcontent]
      simp [Output.removed]
    · exact hanswers fits answer (by simpa using ho)

end RingBufferAux

open RingBufferAux

/-- In every run whose calls meet the condition, the buffer keeps the order and no copy leaves the block; and `append_buffer` answers as it
should exactly for bytes that do not fit. -/
theorem ring_fifo (size : Nat) (b : BufferLoop) (hcreate : createBuffer size = .ok b) (log : List Output) (s : State)
    (h : Machine.Run step Meets (State.init b) log s) : IsFifo log s ∧ ∀ o ∈ log, o.Answered ↔ ¬o.Fitted := by
  have hinv := h.invariant (I := Inv) (inv_init hcreate) inv_step
  refine ⟨hinv.fifo, fun o ho => ?_⟩
  cases o with
  | appended fits answer =>
    obtain rfl := hinv.answers fits answer ho
    cases fits <;> simp [Output.Answered, Output.Fitted]
  | got removes requested present answer realSize bytes => exact iff_of_true trivial id

/-- A buffer of four bytes. -/
def four : BufferLoop := ⟨[0, 0, 0, 0], 0, 0, 0⟩

/-- Three bytes are appended, and two are taken out. -/
theorem ring_fifo_three : ∃ log s, Machine.Run step Meets (State.init four) log s ∧ log.length = 2 ∧ IsFifo log s := by
  have happend : Machine.Run step Meets (State.init four) _ _ :=
    .step .start (by decide : Meets (State.init four) (.append [1, 2, 3])) rfl
  have hget := happend.step (e := .get 2) (by decide) rfl
  exact ⟨_, _, hget, rfl, (ring_fifo 0 four rfl _ _ hget).1⟩

/-- A byte is appended, taken out, and followed by four more: they fill the buffer from its second place on, and taking them out reads behind
the block. `append_buffer` has answered that the first byte does not fit. -/
theorem full_buffer_left : (¬ ∀ log s, Machine.Run step (fun _ _ => True) (State.init four) log s → s.outside = false) ∧
    ¬ ∀ log s, Machine.Run step (fun _ _ => True) (State.init four) log s → ∀ o ∈ log, o.Answered := by
  have hrun {es : List Event} {s : State} {log : List Output} (h : Machine.steps step (State.init four) es = some (s, log)) :
      Machine.Run step (fun _ _ => True) (State.init four) log s := .of_steps (fun _ _ => trivial) .start h
  refine ⟨fun h => ?_, fun h => ?_⟩
  · have := h _ _ (@hrun [.append [1], .get 1, .append [2, 3, 4, 5], .get 4] _ _ rfl)
    cases this
  · have := h _ _ (@hrun [.append [1]] _ _ rfl) (.appended true false) List.mem_cons_self
    cases this

end TeamTalk.PushServer.BufferLoop
