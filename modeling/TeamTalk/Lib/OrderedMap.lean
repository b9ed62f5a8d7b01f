import Mathlib

/-!
# Maps in the order of their keys

A map as the list of its entries, each in front of those with greater keys. An entry that is put in goes to its place; what becomes of a
value that is there already is a parameter.
-/

/-- The entries of a map, in the order of their keys. -/
structure OrderedMap (α β : Type*) [LinearOrder α] where
  entries : List (α × β)
  ordered : entries.Pairwise fun a b => a.1 < b.1

namespace OrderedMap

variable {α β : Type*} [LinearOrder α] {f : β → β → β} {key : α} {value : β} {entries : List (α × β)}

@[ext]
theorem ext {m m' : OrderedMap α β} (h : m.entries = m'.entries) : m = m' := by
  cases m
  cases m'
  simpa using h

/-- A map without entries. -/
def empty : OrderedMap α β := ⟨[], .nil⟩

/-- Put an entry in its place. -/
def putList (f : β → β → β) (key : α) (value : β) : List (α × β) → List (α × β)
  | [] => [(key, value)]
  | e :: rest =>
    if key = e.1 then (key, f e.2 value) :: rest
    else if key < e.1 then (key, value) :: e :: rest
    else e :: putList f key value rest

theorem mem_putList {x : α × β} (h : x ∈ putList f key value entries) : x.1 = key ∨ x ∈ entries := by
  induction entries with
  | nil => exact .inl (List.mem_singleton.1 h ▸ rfl)
  | cons e rest ih =>
    rw [putList] at h
    split at h
    · rcases List.mem_cons.1 h with rfl | hx
      · exact .inl rfl
      · exact .inr (List.mem_cons_of_mem e hx)
    · split at h
      · rcases List.mem_cons.1 h with rfl | hx
        · exact .inl rfl
        · exact .inr hx
      · rcases List.mem_cons.1 h with rfl | hx
        · exact .inr List.mem_cons_self
        · exact (ih hx).imp_right (List.mem_cons_of_mem e)

theorem ordered_putList (h : entries.Pairwise fun a b => a.1 < b.1) :
    (putList f key value entries).Pairwise fun a b => a.1 < b.1 := by
  induction entries with
  | nil => exact List.pairwise_singleton _ _
  | cons e rest ih =>
    obtain ⟨hhead, hrest⟩ := List.pairwise_cons.1 h
    rw [putList]
    split
    · rename_i heq
      exact List.pairwise_cons.2 ⟨fun x hx => heq ▸ hhead x hx, hrest⟩
    · rename_i hne
      split
      · rename_i hlt
        refine List.pairwise_cons.2 ⟨fun x hx => ?_, h⟩
        rcases List.mem_cons.1 hx with rfl | hx
        · exact hlt
        · exact hlt.trans (hhead x hx)
      · rename_i hnot
        have hgt : e.1 < key := lt_of_le_of_ne (not_lt.1 hnot) fun heq => hne heq.symm
        refine List.pairwise_cons.2 ⟨fun x hx => ?_, ih hrest⟩
        rcases mem_putList hx with heq | hx
        · exact heq ▸ hgt
        · exact hhead x hx

/-- A map grows by one entry at most. -/
theorem length_putList_le : (putList f key value entries).length ≤ entries.length + 1 := by
  induction entries with
  | nil => exact Nat.le_refl 1
  | cons e rest ih =>
    rw [putList]
    split
    · exact Nat.le_succ _
    · split
      · exact Nat.le_refl _
      · exact Nat.succ_le_succ ih

/-- A key behind all others goes to the end. -/
theorem putList_of_last (h : ∀ e ∈ entries, e.1 < key) : putList f key value entries = entries ++ [(key, value)] := by
  induction entries with
  | nil => rfl
  | cons e rest ih =>
    have he := h e List.mem_cons_self
    rw [putList, if_neg he.ne', if_neg (not_lt.2 he.le), ih fun x hx => h x (List.mem_cons_of_mem e hx)]
    rfl

/-- An entry is put in; a value that is there is kept. -/
def insertNew (m : OrderedMap α β) (key : α) (value : β) : OrderedMap α β :=
  ⟨putList (fun old _ => old) key value m.entries, ordered_putList m.ordered⟩

/-- A value is set. -/
def assign (m : OrderedMap α β) (key : α) (value : β) : OrderedMap α β :=
  ⟨putList (fun _ new => new) key value m.entries, ordered_putList m.ordered⟩

/-- The value of a key. -/
def find (m : OrderedMap α β) (key : α) : Option β := (m.entries.find? fun e => e.1 = key).map Prod.snd

/-- An entry that is found after another was put in, where one was kept. -/
theorem mem_insertNew {m : OrderedMap α β} {x : α × β} (h : x ∈ (m.insertNew key value).entries) :
    x = (key, value) ∨ x ∈ m.entries := by
  simp only [insertNew] at h
  generalize m.entries = entries at h ⊢
  induction entries with
  | nil => exact .inl (List.mem_singleton.1 h)
  | cons e rest ih =>
    rw [putList] at h
    split at h
    · rename_i heq
      rcases List.mem_cons.1 h with rfl | hx
      · exact .inr (by simp [heq])
      · exact .inr (List.mem_cons_of_mem e hx)
    · split at h
      · exact (List.mem_cons.1 h).imp_right id
      · rcases List.mem_cons.1 h with rfl | hx
        · exact .inr List.mem_cons_self
        · exact (ih hx).imp_right (List.mem_cons_of_mem e)

end OrderedMap
