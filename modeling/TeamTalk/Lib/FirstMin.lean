import Mathlib

/-!
# The first of the least

A loop over a list keeps the best element so far and its key: an element that qualifies, and whose key is below the best one,
becomes the best. The keys begin with a bound.
-/

namespace FirstMin

variable {α κ ρ : Type}

/-- One turn: the best so far, and its key. -/
def turn [LT κ] [DecidableLT κ] (ok : α → Prop) [DecidablePred ok] (key : α → κ) (best : Option α × κ) (a : α) : Option α × κ :=
  if ok a ∧ key a < best.2 then (some a, key a) else best

/-- The loop. -/
def firstMin [LT κ] [DecidableLT κ] (ok : α → Prop) [DecidablePred ok] (key : α → κ) (bound : κ) (l : List α) : Option α :=
  (l.foldl (turn ok key) (none, bound)).1

section

variable [LinearOrder ρ] {ok : α → Prop} {key : α → κ} {rank : κ → ρ} {l : List α} {a : α}

/-- The element stands in the list, qualifies, and is the first of those with the least key. -/
structure First (ok : α → Prop) (key : α → κ) (rank : κ → ρ) (l : List α) (a : α) : Prop where
  qualifies : ok a
  split : ∃ before after, l = before ++ a :: after ∧ (∀ b ∈ before, ok b → rank (key a) < rank (key b)) ∧
    ∀ b ∈ after, ok b → rank (key a) ≤ rank (key b)

theorem First.mem (h : First ok key rank l a) : a ∈ l := by
  obtain ⟨before, after, rfl, -, -⟩ := h.split
  simp

theorem First.le (h : First ok key rank l a) : ∀ b ∈ l, ok b → rank (key a) ≤ rank (key b) := by
  obtain ⟨before, after, rfl, hbefore, hafter⟩ := h.split
  intro b hb hok
  rcases List.mem_append.1 hb with hb | hb
  · exact (hbefore b hb hok).le
  · rcases List.mem_cons.1 hb with rfl | hb
    · exact le_rfl
    · exact hafter b hb hok

theorem First.head (hok : ok a) (h : ∀ b ∈ l, ok b → rank (key a) ≤ rank (key b)) : First ok key rank (a :: l) a := by
  refine ⟨hok, [], l, rfl, ?_, h⟩
  intro b hb
  cases hb

theorem First.tail {first : α} (h : First ok key rank l a) (hfirst : ok first → rank (key a) < rank (key first)) :
    First ok key rank (first :: l) a := by
  obtain ⟨before, after, rfl, hbefore, hafter⟩ := h.split
  refine ⟨h.qualifies, first :: before, after, rfl, ?_, hafter⟩
  intro b hb hok
  rcases List.mem_cons.1 hb with rfl | hb
  · exact hfirst hok
  · exact hbefore b hb hok

variable [LT κ] [DecidableLT κ]

/-- What the loop ends with is the best from before, when nothing is below its key; or the first of the least. The keys are compared
as their ranks. -/
theorem foldl_turn (hrank : ∀ x y : κ, x < y ↔ rank x < rank y) (ok : α → Prop) [DecidablePred ok] (key : α → κ)
    (best : Option α × κ) (l : List α) :
    (l.foldl (turn ok key) best = best ∧ ∀ b ∈ l, ok b → rank best.2 ≤ rank (key b)) ∨
      ∃ a, l.foldl (turn ok key) best = (some a, key a) ∧ rank (key a) < rank best.2 ∧ First ok key rank l a := by
  induction l generalizing best with
  | nil =>
    refine .inl ⟨rfl, ?_⟩
    intro b hb
    cases hb
  | cons first rest ih =>
    rw [List.foldl_cons]
    by_cases hbetter : ok first ∧ key first < best.2
    · rw [turn, if_pos hbetter]
      have hlt := (hrank _ _).1 hbetter.2
      rcases ih (some first, key first) with ⟨heq, hle⟩ | ⟨a, heq, hlt', hfirst⟩
      · exact .inr ⟨first, heq, hlt, .head hbetter.1 hle⟩
      · exact .inr ⟨a, heq, hlt'.trans hlt, hfirst.tail fun _ => hlt'⟩
    · rw [turn, if_neg hbetter]
      have hge : ok first → rank best.2 ≤ rank (key first) := by
        intro hok
        exact le_of_not_gt fun hlt => hbetter ⟨hok, (hrank _ _).2 hlt⟩
      rcases ih best with ⟨heq, hle⟩ | ⟨a, heq, hlt, hfirst⟩
      · refine .inl ⟨heq, ?_⟩
        intro b hb hok
        rcases List.mem_cons.1 hb with rfl | hb
        · exact hge hok
        · exact hle b hb hok
      · exact .inr ⟨a, heq, hlt, hfirst.tail fun hok => hlt.trans_le (hge hok)⟩

/-- Nothing is found, and nothing that qualifies is below the bound; or the first of the least is found. -/
theorem firstMin_cases (hrank : ∀ x y : κ, x < y ↔ rank x < rank y) (ok : α → Prop) [DecidablePred ok] (key : α → κ) (bound : κ)
    (l : List α) : (firstMin ok key bound l = none ∧ ∀ b ∈ l, ok b → rank bound ≤ rank (key b)) ∨
      ∃ a, firstMin ok key bound l = some a ∧ First ok key rank l a := by
  rcases foldl_turn hrank ok key (none, bound) l with ⟨heq, hle⟩ | ⟨a, heq, -, hfirst⟩
  · exact .inl ⟨by rw [firstMin, heq], hle⟩
  · exact .inr ⟨a, by rw [firstMin, heq], hfirst⟩

end

end FirstMin
