import Mathlib

/-!
# The first place of a text

Where a list first stands in another one, and what is known about it when the other one is put together from parts.
-/

namespace Search

variable {α : Type} {src sub : List α} {i j : Nat}

/-- The list stands at the place, and at none before it. -/
structure First (src sub : List α) (i : Nat) : Prop where
  here : sub <+: src.drop i
  before : ∀ j < i, ¬sub <+: src.drop j

/-- The list stands at the place, and at none behind it. -/
structure Last (src sub : List α) (i : Nat) : Prop where
  here : sub <+: src.drop i
  after : ∀ j > i, ¬sub <+: src.drop j

/-- Where a list stands there is room for it. -/
theorem add_length_le (h : sub <+: src.drop i) (hsub : sub ≠ []) : i + sub.length ≤ src.length := by
  have hlen := h.length_le
  have hpos := List.length_pos_iff.2 hsub
  rw [List.length_drop] at hlen
  omega

theorem First.le_length (h : First src sub i) (hsub : sub ≠ []) : i + sub.length ≤ src.length := add_length_le h.here hsub

/-- A list that stands somewhere has a first place. -/
theorem exists_first (h : sub <+: src.drop i) : ∃ j, First src sub j := by
  classical
  have hex : ∃ j, sub <+: src.drop j := ⟨i, h⟩
  exact ⟨Nat.find hex, Nat.find_spec hex, fun j hj => Nat.find_min hex hj⟩

/-- There is one first place. -/
theorem First.unique (h : First src sub i) (h' : First src sub j) : i = j := by
  rcases lt_trichotomy i j with hlt | heq | hlt
  · exact absurd h.here (h'.before i hlt)
  · exact heq
  · exact absurd h'.here (h.before j hlt)

/-- What comes behind does not matter. -/
theorem First.append (h : First src sub i) (hsub : sub ≠ []) (rest : List α) : First (src ++ rest) sub i := by
  have hle := h.le_length hsub
  refine ⟨?_, fun j hj hfront => h.before j hj ?_⟩
  · rw [List.drop_append_of_le_length (by omega)]
    exact h.here.trans (List.prefix_append _ rest)
  · rw [List.drop_append_of_le_length (by omega)] at hfront
    refine List.prefix_of_prefix_length_le hfront (List.prefix_append _ rest) ?_
    rw [List.length_drop]
    omega

/-- An element that is not in the list keeps it away. -/
theorem not_prefix_of_notMem {c : α} {n : Nat} (hc : c ∉ sub) (hn : n < sub.length) (hat : src[j + n]? = some c) :
    ¬sub <+: src.drop j := by
  rintro ⟨rest, hrest⟩
  have heq : (sub ++ rest)[n]? = some c := by
    rw [hrest, List.getElem?_drop]
    exact hat
  rw [List.getElem?_append_left hn] at heq
  exact hc (List.mem_of_getElem? heq)

/-- The first place behind data that does not hold the list: before the data and right behind it are elements that the list has not. -/
theorem first_behind {pre data guard : List α} (post : List α) (hpre : ∀ c ∈ pre, c ∉ sub) (hguard : ∀ c ∈ guard, c ∉ sub)
    (hne : guard ≠ []) (hdata : ¬sub <:+: data) (hsub : sub ≠ []) :
    First (pre ++ (data ++ (guard ++ (sub ++ post)))) sub (pre.length + data.length + guard.length) := by
  have hpos := List.length_pos_iff.2 hsub
  constructor
  · have hdrop : (pre ++ (data ++ (guard ++ (sub ++ post)))).drop (pre.length + data.length + guard.length) = sub ++ post := by
      rw [← List.append_assoc, ← List.append_assoc]
      exact List.drop_left' (by simp only [List.length_append])
    rw [hdrop]
    exact List.prefix_append sub post
  · intro j hj
    rcases lt_or_ge j pre.length with hlt | hge
    · -- it would begin with an element before the data
      refine not_prefix_of_notMem (hpre _ (List.getElem_mem hlt)) hpos ?_
      rw [Nat.add_zero, List.getElem?_append_left hlt, List.getElem?_eq_getElem hlt]
    · obtain ⟨k, rfl⟩ := Nat.exists_eq_add_of_le hge
      rcases lt_or_ge k data.length with hlt | hge'
      · rcases le_or_gt (k + sub.length) data.length with hin | hout
        · -- it would lie within the data
          rw [List.drop_append, List.drop_of_length_le (by omega), List.nil_append, Nat.add_sub_cancel_left,
            List.drop_append_of_le_length (by omega)]
          intro hfront
          refine hdata (List.IsInfix.trans (List.IsPrefix.isInfix ?_) (List.drop_suffix k data).isInfix)
          refine List.prefix_of_prefix_length_le hfront (List.prefix_append _ _) ?_
          rw [List.length_drop]
          omega
        · -- it would reach the first element behind the data
          obtain ⟨c, guard, rfl⟩ := List.exists_cons_of_ne_nil hne
          have hbehind : (pre ++ (data ++ (c :: guard ++ (sub ++ post))))[pre.length + k + (data.length - k)]? = some c := by
            rw [List.getElem?_append_right (by omega), List.getElem?_append_right (by omega)]
            have hzero : pre.length + k + (data.length - k) - pre.length - data.length = 0 := by omega
            rw [hzero]
            rfl
          exact not_prefix_of_notMem (hguard c List.mem_cons_self) (by omega) hbehind
      · -- it would begin with an element behind the data
        have hlt : k - data.length < guard.length := by omega
        refine not_prefix_of_notMem (hguard _ (List.getElem_mem hlt)) hpos ?_
        rw [Nat.add_zero, List.getElem?_append_right (by omega), List.getElem?_append_right (by omega), Nat.add_sub_cancel_left,
          List.getElem?_append_left hlt, List.getElem?_eq_getElem hlt]

variable [BEq α] [LawfulBEq α]

/-- Trying the places in turn gives the first place. -/
theorem find?_range_eq_some {n : Nat} :
    (List.range n).find? (fun i => sub.isPrefixOf (src.drop i)) = some i ↔ i < n ∧ First src sub i := by
  rw [List.find?_range_eq_some]
  constructor
  · rintro ⟨hfront, hmem, hbefore⟩
    refine ⟨List.mem_range.1 hmem, List.isPrefixOf_iff_prefix.1 hfront, fun j hj hat => ?_⟩
    have := hbefore j hj
    rw [List.isPrefixOf_iff_prefix.2 hat] at this
    cases this
  · rintro ⟨hlt, hfirst⟩
    refine ⟨List.isPrefixOf_iff_prefix.2 hfirst.here, List.mem_range.2 hlt, fun j hj => ?_⟩
    rw [Bool.not_eq_true', Bool.eq_false_iff]
    intro hfront
    exact hfirst.before j hj (List.isPrefixOf_iff_prefix.1 hfront)

end Search
