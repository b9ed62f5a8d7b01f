import Mathlib

/-!
# Self-delimiting formats

A format cuts complete frames off the front of a sequence. A reader that keeps what is left over between reads and cuts
all complete frames after each of them gets the same frames for every way of cutting the sequence into reads.
-/

namespace Framing

universe u

/-- A self-delimiting format: `next` gives the first complete frame of a sequence and what follows it. Later input does
not change a frame that is complete. -/
structure Format (α : Type u) where
  next : List α → Option (List α × List α)
  split : ∀ {xs f r : List α}, next xs = some (f, r) → xs = f ++ r
  nonempty : ∀ {xs f r : List α}, next xs = some (f, r) → f ≠ []
  extend : ∀ {xs f r : List α}, next xs = some (f, r) → ∀ ys, next (xs ++ ys) = some (f, r ++ ys)

variable {α : Type u} (F : Format α)

/-- The sequence is one complete frame. -/
def Format.Frame (f : List α) : Prop := F.next f = some (f, [])

/-- No complete frame is at the front of the sequence. -/
def Format.Incomplete (t : List α) : Prop := F.next t = none

/-- What follows a frame is shorter than the whole. -/
theorem Format.length_rest_lt {xs f r : List α} (h : F.next xs = some (f, r)) : r.length < xs.length := by
  have hf := List.length_pos_of_ne_nil (F.nonempty h)
  rw [F.split h, List.length_append]
  omega

/-- All complete frames of a sequence, in order, and what is left over. -/
def Format.drain {α : Type u} (F : Format α) (xs : List α) : List (List α) × List α :=
  match _h : F.next xs with
  | none => ([], xs)
  | some (f, r) => (f :: (F.drain r).1, (F.drain r).2)
termination_by xs.length
decreasing_by all_goals exact F.length_rest_lt _h

/-- The reads one after the other: each is appended to what is left over, and the complete frames are cut off. -/
def Format.feed {α : Type u} (F : Format α) : List α → List (List α) → List (List α) × List α
  | carry, [] => ([], carry)
  | carry, c :: cs =>
    ((F.drain (carry ++ c)).1 ++ (F.feed (F.drain (carry ++ c)).2 cs).1, (F.feed (F.drain (carry ++ c)).2 cs).2)

/-- Without a complete frame nothing is cut off. -/
theorem Format.drain_incomplete {xs : List α} (h : F.Incomplete xs) : F.drain xs = ([], xs) := by
  unfold Format.drain
  split
  · rfl
  · rename_i f r hs
    rw [Format.Incomplete, hs] at h
    cases h

/-- A complete frame is cut off first. -/
theorem Format.drain_next {xs f r : List α} (h : F.next xs = some (f, r)) :
    F.drain xs = (f :: (F.drain r).1, (F.drain r).2) := by
  rw [Format.drain]
  split
  · rename_i hn
    rw [h] at hn
    cases hn
  · rename_i f' r' hs
    rw [h, Option.some.injEq, Prod.mk.injEq] at hs
    obtain ⟨rfl, rfl⟩ := hs
    rfl

/-- The induction that follows the cutting of frames. -/
theorem Format.drain_induction {motive : List α → Prop} (incomplete : ∀ xs, F.Incomplete xs → motive xs)
    (next : ∀ xs f r, F.next xs = some (f, r) → motive r → motive xs) (xs : List α) : motive xs := by
  induction hn : xs.length using Nat.strongRecOn generalizing xs with
  | _ n ih =>
    cases h : F.next xs with
    | none => exact incomplete xs h
    | some p =>
      obtain ⟨f, r⟩ := p
      have hlt := F.length_rest_lt h
      exact next xs f r h (ih r.length (by omega) r rfl)

/-- What is left over has no complete frame. -/
theorem Format.drain_rest_incomplete (xs : List α) : F.Incomplete (F.drain xs).2 := by
  induction xs using F.drain_induction with
  | incomplete xs h => rw [F.drain_incomplete h]; exact h
  | next xs f r h ih => rw [F.drain_next h]; exact ih

/-- The frames and what is left over are the sequence again. -/
theorem Format.drain_flatten (xs : List α) : (F.drain xs).1.flatten ++ (F.drain xs).2 = xs := by
  induction xs using F.drain_induction with
  | incomplete xs h => rw [F.drain_incomplete h]; rfl
  | next xs f r h ih =>
    rw [F.drain_next h, List.flatten_cons, List.append_assoc, ih]
    exact (F.split h).symm

/-- A frame that was cut off, together with what is left over, is no longer than the whole. -/
theorem Format.length_frame_add_rest_le {xs f : List α} (hf : f ∈ (F.drain xs).1) :
    f.length + (F.drain xs).2.length ≤ xs.length := by
  have hlen := congrArg List.length (F.drain_flatten xs)
  obtain ⟨pre, post, heq⟩ := List.append_of_mem hf
  rw [heq] at hlen
  simp only [List.flatten_append, List.flatten_cons, List.length_append] at hlen
  omega

/-- What is left over is no longer than the whole. -/
theorem Format.length_drain_rest_le (xs : List α) : (F.drain xs).2.length ≤ xs.length := by
  have hlen := congrArg List.length (F.drain_flatten xs)
  rw [List.length_append] at hlen
  omega

/-- Cutting the frames off before more input arrives, or after, is the same. -/
theorem Format.drain_append (xs ys : List α) :
    F.drain (xs ++ ys) =
      ((F.drain xs).1 ++ (F.drain ((F.drain xs).2 ++ ys)).1, (F.drain ((F.drain xs).2 ++ ys)).2) := by
  induction xs using F.drain_induction with
  | incomplete xs h => rw [F.drain_incomplete h]; rfl
  | next xs f r h ih => rw [F.drain_next (F.extend h ys), F.drain_next h, ih]; rfl

/-- A frame followed by anything is cut off. -/
theorem Format.next_frame_append {f : List α} (h : F.Frame f) (ys : List α) : F.next (f ++ ys) = some (f, ys) :=
  F.extend h ys

/-- Frames followed by an incomplete one give exactly these frames. -/
theorem Format.drain_frames {fs : List (List α)} {t : List α} (hfs : ∀ f ∈ fs, F.Frame f) (ht : F.Incomplete t) :
    F.drain (fs.flatten ++ t) = (fs, t) := by
  induction fs with
  | nil => exact F.drain_incomplete ht
  | cons f fs ih =>
    have hf := F.next_frame_append (hfs f List.mem_cons_self) (fs.flatten ++ t)
    rw [List.flatten_cons, List.append_assoc, F.drain_next hf, ih (fun g hg => hfs g (List.mem_cons_of_mem f hg))]

end Framing
