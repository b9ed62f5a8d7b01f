import Mathlib

/-!
# Totals of a map

A number is given to every value of a map, and summed. A change at one key changes the total by the difference at that key.
-/

namespace Totals

open Std (TreeMap)

variable {α β : Type} [Ord α] [Std.TransOrd α] [Std.LawfulEqOrd α]

/-- The sum over all entries. -/
def total (f : β → Nat) (m : TreeMap α β) : Nat := (m.toList.map fun entry => f entry.2).sum

/-- What a key contributes. -/
def part (f : β → Nat) (m : TreeMap α β) (k : α) : Nat := (m[k]?.map f).getD 0

variable (f : β → Nat) {m m' : TreeMap α β} {k : α}

omit [Std.LawfulEqOrd α] in
theorem nodup_toList (m : TreeMap α β) : m.toList.Nodup := by
  have h := m.nodup_keys
  rw [← TreeMap.map_fst_toList_eq_keys] at h
  exact h.of_map

/-- An entry comes first. -/
theorem toList_perm_of_some {v : β} (h : m[k]? = some v) : m.toList.Perm ((k, v) :: (m.erase k).toList) := by
  have hnot : (k, v) ∉ (m.erase k).toList := by
    rw [TreeMap.mem_toList_iff_getElem?_eq_some]
    simp
  refine (List.perm_ext_iff_of_nodup (nodup_toList m) (List.nodup_cons.2 ⟨hnot, nodup_toList _⟩)).2 ?_
  rintro ⟨k', v'⟩
  rw [List.mem_cons, TreeMap.mem_toList_iff_getElem?_eq_some, TreeMap.mem_toList_iff_getElem?_eq_some,
    TreeMap.getElem?_erase, Prod.mk.injEq]
  by_cases hk : k = k'
  · subst hk
    simp [h, eq_comm]
  · simp [hk, Ne.symm hk]

/-- Without an entry nothing is erased. -/
theorem toList_perm_of_none (h : m[k]? = none) : m.toList.Perm (m.erase k).toList := by
  refine (List.perm_ext_iff_of_nodup (nodup_toList m) (nodup_toList _)).2 ?_
  rintro ⟨k', v'⟩
  rw [TreeMap.mem_toList_iff_getElem?_eq_some, TreeMap.mem_toList_iff_getElem?_eq_some, TreeMap.getElem?_erase]
  by_cases hk : k = k'
  · subst hk
    simp [h]
  · simp [hk]

/-- The total is the rest and the part of a key. -/
theorem total_eq (m : TreeMap α β) (k : α) : total f m = total f (m.erase k) + part f m k := by
  simp only [total, part]
  cases h : m[k]? with
  | none => rw [((toList_perm_of_none h).map fun entry => f entry.2).sum_eq, Option.map_none, Option.getD_none, Nat.add_zero]
  | some v =>
    rw [((toList_perm_of_some h).map fun entry => f entry.2).sum_eq, List.map_cons, List.sum_cons, Option.map_some,
      Option.getD_some, Nat.add_comm]

theorem part_le (m : TreeMap α β) (k : α) : part f m k ≤ total f m := by
  rw [total_eq f m k]
  exact Nat.le_add_left _ _

/-- A change at one key changes the total by the difference of the parts. -/
theorem total_change (m m' : TreeMap α β) (k : α) (h : ∀ k', k' ≠ k → m'[k']? = m[k']?) :
    total f m' + part f m k = total f m + part f m' k := by
  have hrest : (m'.erase k).toList.Perm (m.erase k).toList := by
    refine (List.perm_ext_iff_of_nodup (nodup_toList _) (nodup_toList _)).2 ?_
    rintro ⟨k', v⟩
    rw [TreeMap.mem_toList_iff_getElem?_eq_some, TreeMap.mem_toList_iff_getElem?_eq_some, TreeMap.getElem?_erase,
      TreeMap.getElem?_erase]
    by_cases hk : k = k'
    · simp [hk]
    · rw [h k' (Ne.symm hk)]
  have heq : total f (m'.erase k) = total f (m.erase k) := (hrest.map fun entry : α × β => f entry.2).sum_eq
  have h1 := total_eq f m k
  have h2 := total_eq f m' k
  omega

theorem total_insert (m : TreeMap α β) (k : α) (v : β) : total f (m.insert k v) + part f m k = total f m + f v := by
  have h := total_change f m (m.insert k v) k fun k' hk => by
    rw [TreeMap.getElem?_insert, if_neg]
    rw [Std.LawfulEqCmp.compare_eq_iff_eq]
    exact Ne.symm hk
  simpa [part] using h

omit [Std.TransOrd α] [Std.LawfulEqOrd α] in
theorem total_empty : total f (∅ : TreeMap α β) = 0 := by
  have hnil : (∅ : TreeMap α β).toList = [] := by
    rw [← List.length_eq_zero_iff, TreeMap.length_toList]
    rfl
  rw [total, hnil, List.map_nil, List.sum_nil]

end Totals
