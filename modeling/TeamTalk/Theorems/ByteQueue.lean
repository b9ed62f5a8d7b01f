import TeamTalk.Base.ByteQueue
import TeamTalk.Theorems.ImConnSends

/-!
# A buffer is a queue of bytes

What was put into a buffer is what was read from it and what stands in it. A buffer whose size wraps around may be smaller than its data,
and a write may then leave its block.
-/

namespace TeamTalk.ByteQueue

open SimpleBuffer OutConn ImConnSendsAux

/-! ## The property -/

/-- `Read` returns as many bytes as it should, and copies those in front. -/
structure Output.Right (o : Output) : Prop where
  returned : o.returned = min o.requested o.present.length
  copied : ∀ data, o.copied = some data → data = o.removed

/-- No copy has left the block, what was put in is what was read and what is there, and the offset is in the block. -/
structure IsQueue (log : List Output) (s : State) : Prop where
  inside : s.outside = false
  content : log.flatMap Output.removed ++ s.buffer.contents = s.written
  reads : ∀ o ∈ log, o.Right
  offset : s.buffer.writeOffset ≤ s.buffer.allocSize

/-! ## The condition -/

/-- The condition on a call: a write has room in the block or in one whose size does not wrap around, and `Extend` does not make the block
smaller than the data. -/
def Meets (s : State) : Event → Prop
  | .extend len => s.buffer.writeOffset ≤ extendedSize s.buffer.writeOffset len
  | .write data => RoomFor s.buffer data.length
  | .writeNull len => RoomFor s.buffer len
  | .fill _ => True
  | .read _ _ => True

/-- The sum of the lengths stays below 2 ^ 31. -/
def Small (s : State) (e : Event) : Prop := s.total + e.len < 2 ^ 31

instance (s : State) (e : Event) : Decidable (Small s e) := inferInstanceAs (Decidable (_ < _))

namespace ByteQueueAux

variable {b : SimpleBuffer} {data : Bytes} {len : Nat} {log : List Output} {s s' : State} {e : Event} {out : List Output}

/-! ## The calls -/

/-- A call with a length that keeps the buffer in order: the data is what was there without what was read, and what was put in. -/
structure Keeps (b : SimpleBuffer) (len : Nat) (r : SimpleBuffer × Bytes × List Output) : Prop where
  valid : r.1.Valid
  offset : r.1.writeOffset ≤ b.writeOffset + len
  content : r.2.2.flatMap Output.removed ++ r.1.contents = b.contents ++ r.2.1
  reads : ∀ o ∈ r.2.2, o.Right

theorem keeps_extend (h : b.Valid) (hsize : b.writeOffset ≤ extendedSize b.writeOffset len) : Keeps b len (b.extend len, [], []) := by
  refine ⟨⟨?_, ?_⟩, Nat.le_add_right _ _, ?_, fun o ho => by cases ho⟩
  · simpa [SimpleBuffer.extend] using hsize
  · rw [SimpleBuffer.extend, length_realloc]
    exact Nat.mod_lt _ (by decide)
  · rw [List.flatMap_nil, List.nil_append, List.append_nil]
    exact take_realloc h.offset_le hsize

theorem keeps_write (h : b.Valid) (hroom : RoomFor b data.length) :
    ∃ b', b.write (some data) data.length = .ok b' ∧ Keeps b data.length (b', data, []) := by
  obtain ⟨b', hwrite, hvalid, hcontents⟩ := write_of_room h hroom
  have hlen : b'.writeOffset = b.writeOffset + data.length := by
    rw [← length_contents hvalid, hcontents, List.length_append, length_contents h]
  exact ⟨b', hwrite, hvalid, hlen.le, hcontents, fun o ho => by cases ho⟩

/-- With room, the block that is written to holds the data and what comes behind it. -/
theorem valid_block (h : b.Valid) (hroom : RoomFor b len) :
    ∃ b₁ : SimpleBuffer, (if (b.writeOffset + len) % uint32Size > b.allocSize then b.extend len else b) = b₁ ∧ b₁.Valid ∧
      b₁.contents = b.contents ∧ b₁.writeOffset = b.writeOffset ∧ b.writeOffset + len ≤ b₁.buffer.length ∧
        (b.writeOffset + len) % uint32Size = b.writeOffset + len := by
  rcases hroom with hroom | hfits
  · have hlt := h.alloc_lt
    rw [allocSize] at hroom
    have hmod : (b.writeOffset + len) % uint32Size = b.writeOffset + len := Nat.mod_eq_of_lt (by omega)
    exact ⟨b, if_neg (by rw [hmod, allocSize]; omega), h, rfl, rfl, hroom, hmod⟩
  · exact BuildPduAux.valid_room h hfits

/-- With a null pointer only the offset moves. -/
theorem keeps_writeNull (h : b.Valid) (hroom : RoomFor b len) :
    ∃ b', b.write none len = .ok b' ∧ Keeps b len (b', b'.contents.drop b.writeOffset, []) := by
  obtain ⟨b₁, hblock, hvalid, hcontents, hoffset, hspace, hmod⟩ := valid_block h hroom
  refine ⟨⟨b₁.buffer, b.writeOffset + len⟩, ?_, ⟨⟨hspace, hvalid.alloc_lt⟩, Nat.le_refl _, ?_, fun o ho => by cases ho⟩⟩
  · simp only [SimpleBuffer.write, hblock]
    simp only [hoffset, hmod, bind, Except.bind, pure, Except.pure]
  · have hfront : (b₁.buffer.take (b.writeOffset + len)).take b.writeOffset = b.contents := by
      rw [List.take_take, Nat.min_eq_left (Nat.le_add_right _ _), ← hoffset]
      exact hcontents
    rw [List.flatMap_nil, List.nil_append, ← hfront]
    exact (List.take_append_drop _ _).symm

theorem keeps_fill (h : b.Valid) (hroom : b.writeOffset + data.length ≤ b.allocSize) :
    ∃ buffer, copyAt b.buffer b.writeOffset data = .ok buffer ∧
      Keeps b data.length (⟨buffer, (b.writeOffset + data.length) % uint32Size⟩, data, []) := by
  have hlt := h.alloc_lt
  have hlen := length_contents h
  rw [allocSize] at hroom
  have hmod : (b.writeOffset + data.length) % uint32Size = b.writeOffset + data.length := Nat.mod_eq_of_lt (by omega)
  refine ⟨b.contents ++ data ++ b.buffer.drop (b.writeOffset + data.length), if_pos hroom, ⟨⟨?_, ?_⟩, Nat.mod_le _ _, ?_, fun o ho => by cases ho⟩⟩
  · simp only [hmod, List.length_append, hlen]
    omega
  · simp only [List.length_append, List.length_drop, hlen]
    omega
  · simp only [List.flatMap_nil, List.nil_append, hmod, contents]
    exact List.take_left' (by rw [List.length_append, ← contents, hlen])

/-- What is in front is copied, and the rest moves there. -/
theorem keeps_read (h : b.Valid) (toBuf : Bool) (len : Nat) :
    ∃ r, b.read toBuf len = .ok r ∧ Keeps b len (r.1, [], [⟨len, b.contents, r.2.1, r.2.2⟩]) := by
  have hlen := length_contents h
  have hle : (if len > b.writeOffset then b.writeOffset else len) ≤ b.writeOffset := by
    split <;> omega
  have hmin : (if len > b.writeOffset then b.writeOffset else len) = min len b.contents.length := by
    rw [hlen]
    split <;> omega
  generalize hn : (if len > b.writeOffset then b.writeOffset else len) = n at hle hmin
  obtain ⟨b', hdrop, hvalid, hcontents, -⟩ := readNull_of_valid h hle
  have hread : readAt b.buffer 0 n = .ok (b.contents.take n) := by
    have hoffset := h.offset_le
    rw [readAt, if_pos (by omega), List.drop_zero, contents, List.take_take, Nat.min_eq_left hle]
  have hresult : b.read toBuf len = .ok (b', n, if toBuf then some (b.contents.take n) else none) := by
    cases toBuf <;> simp [SimpleBuffer.read, hn, hread, hdrop, bind, Except.bind, Except.map, pure, Except.pure]
  refine ⟨_, hresult, hvalid, ?_, ?_, fun o ho => ?_⟩
  · have := congrArg List.length hcontents
    rw [List.length_drop, length_contents hvalid, hlen] at this
    simp only
    omega
  · simp [Output.removed, hcontents]
  · rw [List.mem_singleton.1 ho]
    refine ⟨hmin, fun data hdata => ?_⟩
    simp only at hdata
    split at hdata
    · exact (Option.some.inj hdata).symm
    · cases hdata

/-- A call that meets the condition stays in the block. -/
theorem call_keeps {result : Exec (SimpleBuffer × Bytes × List Output)} (h : s.buffer.Valid) (hmeets : Meets s e)
    (hcall : call s.buffer e = some result) : ∃ r, result = .ok r ∧ Keeps s.buffer e.len r := by
  cases e with
  | extend len =>
    obtain rfl := Option.some.inj hcall
    exact ⟨_, rfl, keeps_extend h hmeets⟩
  | write data =>
    obtain rfl := Option.some.inj hcall
    obtain ⟨b', hwrite, hkeeps⟩ := keeps_write h hmeets
    exact ⟨_, by rw [hwrite]; rfl, hkeeps⟩
  | writeNull len =>
    obtain rfl := Option.some.inj hcall
    obtain ⟨b', hwrite, hkeeps⟩ := keeps_writeNull h hmeets
    exact ⟨_, by rw [hwrite]; rfl, hkeeps⟩
  | fill data =>
    rw [call] at hcall
    split at hcall
    · rename_i hroom
      obtain rfl := Option.some.inj hcall
      obtain ⟨buffer, hcopy, hkeeps⟩ := keeps_fill h hroom
      exact ⟨_, by rw [hcopy]; rfl, hkeeps⟩
    · cases hcall
  | read toBuf len =>
    obtain rfl := Option.some.inj hcall
    obtain ⟨r, hread, hkeeps⟩ := keeps_read h toBuf len
    exact ⟨_, by rw [hread]; rfl, hkeeps⟩

/-- Lengths that stay small together meet the condition. -/
theorem meets_of_small (hoffset : s.buffer.writeOffset ≤ s.total) (hsmall : Small s e) : Meets s e := by
  have hfits : ∀ len ≤ e.len, ExtendFits s.buffer.writeOffset len := by
    intro len hlen
    unfold Small at hsmall
    unfold ExtendFits uint32Size
    omega
  cases e with
  | extend len =>
    rw [Meets, extendedSize_of_fits (hfits len (Nat.le_refl _)), Nat.add_assoc]
    exact Nat.le_add_right _ _
  | write data => exact .inr (hfits data.length (Nat.le_refl _))
  | writeNull len => exact .inr (hfits len (Nat.le_refl _))
  | fill data => trivial
  | read toBuf len => trivial

/-! ## Runs -/

/-- The property, with a block that holds the data, which is no longer than all lengths together. -/
structure Inv (log : List Output) (s : State) : Prop where
  valid : s.buffer.Valid
  total : s.buffer.writeOffset ≤ s.total
  queue : IsQueue log s

theorem inv_init : Inv [] init := ⟨valid_init, Nat.le_refl 0, rfl, rfl, (fun o ho => by cases ho), Nat.le_refl 0⟩

/-- What a call keeps. -/
theorem inv_step (h : Inv log s) (hmeets : Meets s e) (hstep : step s e = some (s', out)) : Inv (log ++ out) s' := by
  rw [step, if_neg (by simp [h.queue.inside])] at hstep
  obtain ⟨result, hcall, hresult⟩ := Option.map_eq_some_iff.1 hstep
  obtain ⟨⟨b', data, out'⟩, rfl, hkeeps⟩ := call_keeps h.valid hmeets hcall
  obtain ⟨rfl, rfl⟩ := Prod.mk.inj hresult
  refine ⟨hkeeps.valid, hkeeps.offset.trans (Nat.add_le_add_right h.total _), rfl, ?_, fun o ho => ?_, hkeeps.valid.offset_le⟩
  · rw [List.flatMap_append, List.append_assoc, hkeeps.content, ← List.append_assoc, h.queue.content]
  · exact (List.mem_append.1 ho).elim (h.queue.reads o) (hkeeps.reads o)

/-- What a run keeps, whose calls meet the condition or have small lengths. -/
theorem inv_run (h : Machine.Run step (fun s e => Small s e ∨ Meets s e) init log s) : Inv log s :=
  h.invariant (I := Inv) inv_init fun hinv hok hstep =>
    inv_step hinv (hok.elim (meets_of_small hinv.total) id) hstep

end ByteQueueAux

open ByteQueueAux

/-- A buffer is a queue of bytes in every run in which each call meets the condition, or keeps the sum of the lengths below 2 ^ 31. -/
theorem byte_queue (log : List Output) (s : State) (h : Machine.Run step (fun s e => Small s e ∨ Meets s e) init log s) : IsQueue log s :=
  (inv_run h).queue

/-- Two bytes are written, and one is read. -/
theorem byte_queue_two : ∃ log s, Machine.Run step (fun s e => Small s e ∨ Meets s e) init log s ∧ log.length = 1 ∧ IsQueue log s := by
  have hwrite : Machine.Run step (fun s e => Small s e ∨ Meets s e) init _ _ :=
    .step .start (.inl (by decide : Small init (.write [1, 2]))) rfl
  have hread := hwrite.step (e := .read true 1) (.inl (by decide)) rfl
  exact ⟨_, _, hread, rfl, byte_queue _ _ hread⟩

/-- 7 · 2 ^ 29 bytes are written into a new buffer, whose size wraps around: the copy leaves the block. -/
theorem wrapped_block : ¬ ∀ log s, Machine.Run step (fun _ _ => True) init log s → s.outside = false := by
  intro h
  obtain ⟨data, hdata⟩ : ∃ data : Bytes, data.length = 7 * 2 ^ 29 := ⟨List.replicate (7 * 2 ^ 29) 0, List.length_replicate⟩
  have hroom : ¬RoomFor SimpleBuffer.init data.length := by
    rw [hdata]
    unfold RoomFor ExtendFits uint32Size
    simp [SimpleBuffer.init, allocSize]
  have hwrite := write_of_not_room valid_init (by rw [hdata]; norm_num) hroom
  have hstep : step init (.write data) = some (⟨.init, [], 0, true⟩, []) := by
    rw [step, if_neg (by simp [init]), call]
    simp only [init, hwrite]
    rfl
  cases h _ _ (.step .start trivial hstep)

end TeamTalk.ByteQueue
