import TeamTalk.Lib.Machine

/-!
# Potentials

The parts of a list are given weights, which are summed. A change of one part changes the total by the difference at that part. A
machine whose steps of a kind all lower a potential takes no more of them than the potential says, in whatever order.
-/

namespace Potential

variable {α : Type} {l : List α} {i : Nat} {a b : α}

/-- The weight of all parts. -/
def total (f : α → Nat) (l : List α) : Nat := (l.map f).sum

@[simp] theorem total_nil (f : α → Nat) : total f [] = 0 := rfl

theorem total_cons (f : α → Nat) (a : α) (l : List α) : total f (a :: l) = f a + total f l := by
  rw [total, List.map_cons, List.sum_cons, total]

@[simp] theorem total_append (f : α → Nat) (l m : List α) : total f (l ++ m) = total f l + total f m := by
  simp [total]

@[simp] theorem total_singleton (f : α → Nat) (a : α) : total f [a] = f a := by
  simp [total]

/-- One part is replaced. -/
theorem total_set (f : α → Nat) (h : l[i]? = some a) (b : α) : total f (l.set i b) + f a = total f l + f b := by
  induction l generalizing i with
  | nil => simp at h
  | cons x l ih =>
    cases i with
    | zero =>
      obtain rfl : x = a := by simpa using h
      simp only [total, List.set_cons_zero, List.map_cons, List.sum_cons]
      omega
    | succ i =>
      have hrest := ih (i := i) (by simpa using h)
      simp only [total, List.set_cons_succ, List.map_cons, List.sum_cons] at hrest ⊢
      omega

/-- Nothing weighs anything. -/
theorem total_eq_zero (f : α → Nat) (h : ∀ a ∈ l, f a = 0) : total f l = 0 := by
  rw [total, List.sum_eq_zero_iff]
  intro n hn
  obtain ⟨a, ha, rfl⟩ := List.mem_map.1 hn
  exact h a ha

/-- The number of parts of a kind is what they weigh, when each of them weighs one. -/
theorem countP_eq_total (p : α → Bool) (l : List α) : l.countP p = total (fun a => if p a then 1 else 0) l := by
  induction l with
  | nil => rfl
  | cons a l ih =>
    rw [total_cons, ← ih, List.countP_cons]
    exact Nat.add_comm _ _

/-- One part is taken away. -/
theorem total_eraseIdx (f : α → Nat) (h : l[i]? = some a) : total f (l.eraseIdx i) + f a = total f l := by
  induction l generalizing i with
  | nil => simp at h
  | cons x l ih =>
    cases i with
    | zero =>
      obtain rfl : x = a := by simpa using h
      exact Nat.add_comm _ _
    | succ i =>
      have hrest := ih (i := i) (by simpa using h)
      simp only [total, List.eraseIdx_cons_succ, List.map_cons, List.sum_cons] at hrest ⊢
      omega

/-- Only one place of a list counts, and it is there once at most. -/
theorem total_of_only [DecidableEq α] (f : α → Nat) (hnodup : l.Nodup) (hf : ∀ b, b ≠ a → f b = 0) :
    total f l = if a ∈ l then f a else 0 := by
  induction l with
  | nil => rfl
  | cons b l ih =>
    obtain ⟨hb, hl⟩ := List.nodup_cons.1 hnodup
    have hrest := ih hl
    rw [total, List.map_cons, List.sum_cons]
    change f b + total f l = _
    rw [hrest]
    by_cases hab : b = a
    · subst hab
      rw [if_neg hb, if_pos List.mem_cons_self, Nat.add_zero]
    · rw [hf b hab, Nat.zero_add]
      simp only [List.mem_cons, Ne.symm hab, false_or]

/-- What stands in a list of which one place was set. -/
theorem getElem?_set_some {j : Nat} {x : α} (h : (l.set i b)[j]? = some x) : (j = i ∧ x = b) ∨ (j ≠ i ∧ l[j]? = some x) := by
  rw [List.getElem?_set] at h
  split at h
  · rename_i hij
    split at h
    · exact .inl ⟨hij.symm, (Option.some.inj h).symm⟩
    · cases h
  · rename_i hij
    exact .inr ⟨Ne.symm hij, h⟩

/-- The place that was set. -/
theorem getElem?_set_self_of_some (h : l[i]? = some a) (b : α) : (l.set i b)[i]? = some b := by
  obtain ⟨hi, -⟩ := List.getElem?_eq_some_iff.1 h
  exact List.getElem?_set_self hi

/-- What was not at a place that was set is still there. -/
theorem getElem?_set_of_ne {j : Nat} (h : j ≠ i) (b : α) : (l.set i b)[j]? = l[j]? := List.getElem?_set_ne (Ne.symm h)

end Potential

namespace Machine

variable {S E O : Type} {step : S → E → Option (S × List O)}

/-- Where every step with an event of a kind keeps an invariant and lowers a potential, a list of such events is no longer than the
potential is lowered. -/
theorem length_add_le {I : S → Prop} {P : E → Prop} {potential : S → Nat}
    (hkeep : ∀ {s e s' out}, I s → step s e = some (s', out) → I s')
    (hlower : ∀ {s e s' out}, I s → P e → step s e = some (s', out) → potential s' < potential s) {es : List E} {s s' : S}
    {log : List O} (h : I s) (hes : ∀ e ∈ es, P e) (hsteps : steps step s es = some (s', log)) :
    es.length + potential s' ≤ potential s := by
  induction es generalizing s log with
  | nil =>
    cases hsteps
    simp
  | cons e es ih =>
    rw [steps] at hsteps
    cases hfirst : step s e with
    | none =>
      rw [hfirst] at hsteps
      cases hsteps
    | some next =>
      obtain ⟨s1, out⟩ := next
      simp only [hfirst] at hsteps
      cases hrest : steps step s1 es with
      | none =>
        rw [hrest] at hsteps
        cases hsteps
      | some last =>
        obtain ⟨s2, log'⟩ := last
        rw [hrest] at hsteps
        cases hsteps
        have hlt := hlower h (hes e List.mem_cons_self) hfirst
        have hle := ih (hkeep h hfirst) (fun e' he' => hes e' (List.mem_cons_of_mem e he')) hrest
        rw [List.length_cons]
        omega

/-- Where a potential pays for every event of a kind, and an output of a kind adds a fixed amount to it, a list of events has no more of
the first kind than the potential and the outputs pay for. -/
theorem countP_add_le {I : S → Prop} {pays : E → Bool} {adds : O → Bool} {amount : Nat} (potential : S → Nat)
    (hkeep : ∀ {s e s' out}, I s → step s e = some (s', out) → I s')
    (hpays : ∀ {s e s' out}, I s → step s e = some (s', out) →
      (pays e).toNat + potential s' ≤ potential s + amount * out.countP adds)
    {es : List E} {s s' : S} {log : List O} (h : I s) (hsteps : steps step s es = some (s', log)) :
    es.countP pays + potential s' ≤ potential s + amount * log.countP adds := by
  induction es generalizing s log with
  | nil =>
    cases hsteps
    simp
  | cons e es ih =>
    rw [steps] at hsteps
    cases hfirst : step s e with
    | none =>
      rw [hfirst] at hsteps
      cases hsteps
    | some next =>
      obtain ⟨s1, out⟩ := next
      simp only [hfirst] at hsteps
      cases hrest : steps step s1 es with
      | none =>
        rw [hrest] at hsteps
        cases hsteps
      | some last =>
        obtain ⟨s2, log'⟩ := last
        rw [hrest] at hsteps
        cases hsteps
        have hfirstPays := hpays h hfirst
        have hrestPays := ih (hkeep h hfirst) hrest
        have hone : (e :: es).countP pays = (pays e).toNat + es.countP pays := by
          rw [List.countP_cons]
          cases pays e <;> simp [Nat.add_comm]
        rw [hone, List.countP_append, Nat.mul_add]
        omega

end Machine
