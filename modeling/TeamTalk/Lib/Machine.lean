import Mathlib

/-!
# State machines

A machine takes steps on events; a step may be impossible, and puts out values. A run keeps the log of all that was put out.
The steps of a guarded run all meet a condition on the state before the step and the event.
-/

namespace Machine

variable {S E O : Type}

/-- The runs from a state whose steps all meet `ok`: the log so far, and the state. -/
inductive Run (step : S → E → Option (S × List O)) (ok : S → E → Prop) (start : S) : List O → S → Prop where
  | start : Run step ok start [] start
  | step {log out : List O} {s s' : S} {e : E} (run : Run step ok start log s) (meets : ok s e)
      (steps : step s e = some (s', out)) : Run step ok start (log ++ out) s'

variable {step : S → E → Option (S × List O)} {ok : S → E → Prop} {start : S}

/-- What holds at the start, and what every step keeps, holds in every state of a run. -/
theorem Run.invariant {I : List O → S → Prop} (h0 : I [] start)
    (hstep : ∀ {log out s s' e}, I log s → ok s e → step s e = some (s', out) → I (log ++ out) s') {log : List O} {s : S}
    (h : Run step ok start log s) : I log s := by
  induction h with
  | start => exact h0
  | step _ meets steps ih => exact hstep ih meets steps

/-- Take the steps of a list of events: the state at the end, and what was put out. -/
def steps (step : S → E → Option (S × List O)) : S → List E → Option (S × List O)
  | s, [] => some (s, [])
  | s, e :: es =>
    match step s e with
    | none => none
    | some (s', out) =>
      match steps step s' es with
      | none => none
      | some (s'', out') => some (s'', out ++ out')

/-- A list of events that all meet the condition, and whose steps are all possible, is a run. -/
theorem Run.of_steps_mem {es : List E} (hok : ∀ e ∈ es, ∀ s, ok s e) {log out : List O} {s s' : S}
    (hrun : Run step ok start log s) (h : steps step s es = some (s', out)) : Run step ok start (log ++ out) s' := by
  induction es generalizing log out s with
  | nil =>
    obtain ⟨rfl, rfl⟩ := Prod.mk.inj (Option.some.inj h)
    rw [List.append_nil]
    exact hrun
  | cons e es ih =>
    rw [steps] at h
    split at h
    · cases h
    · rename_i s1 out1 h1
      split at h
      · cases h
      · rename_i s2 out2 h2
        obtain ⟨rfl, rfl⟩ := Prod.mk.inj (Option.some.inj h)
        rw [← List.append_assoc]
        exact ih (fun e' he' => hok e' (List.mem_cons_of_mem e he')) (.step hrun (hok e List.mem_cons_self s) h1) h2

/-- The same, when every event meets the condition. -/
theorem Run.of_steps (hok : ∀ s e, ok s e) {es : List E} {log out : List O} {s s' : S} (hrun : Run step ok start log s)
    (h : steps step s es = some (s', out)) : Run step ok start (log ++ out) s' :=
  hrun.of_steps_mem (fun e _ s => hok s e) h

/-- What every step with an event of a kind keeps, a list of such events keeps. -/
theorem steps_invariant {I : S → Prop} {P : E → Prop}
    (hstep : ∀ {s s' e out}, I s → P e → step s e = some (s', out) → I s') {es : List E} {s s' : S} {log : List O} (h : I s)
    (hes : ∀ e ∈ es, P e) (hsteps : steps step s es = some (s', log)) : I s' := by
  induction es generalizing s log with
  | nil =>
    cases hsteps
    exact h
  | cons e es ih =>
    rw [steps] at hsteps
    cases hfirst : step s e with
    | none =>
      rw [hfirst] at hsteps
      cases hsteps
    | some next =>
      obtain ⟨s1, out⟩ := next
      simp only [hfirst] at hsteps
      cases hrest : steps step s1 es with
      | none =>
        rw [hrest] at hsteps
        cases hsteps
      | some last =>
        obtain ⟨s2, log'⟩ := last
        rw [hrest] at hsteps
        cases hsteps
        exact ih (hstep h (hes e List.mem_cons_self) hfirst) (fun e' he' => hes e' (List.mem_cons_of_mem e he')) hrest

/-- An invariant of the log, the events that are left and the state. -/
theorem steps_invariant_rest {I : List O → List E → S → Prop}
    (hstep : ∀ {log es s s' e out}, I log (e :: es) s → step s e = some (s', out) → I (log ++ out) es s') {es : List E}
    {log out : List O} {s s' : S} (h : I log es s) (hsteps : steps step s es = some (s', out)) : I (log ++ out) [] s' := by
  induction es generalizing s log out with
  | nil =>
    cases hsteps
    rw [List.append_nil]
    exact h
  | cons e es ih =>
    rw [steps] at hsteps
    cases hfirst : step s e with
    | none =>
      rw [hfirst] at hsteps
      cases hsteps
    | some next =>
      obtain ⟨s1, out1⟩ := next
      simp only [hfirst] at hsteps
      cases hrest : steps step s1 es with
      | none =>
        rw [hrest] at hsteps
        cases hsteps
      | some last =>
        obtain ⟨s2, out2⟩ := last
        rw [hrest] at hsteps
        cases hsteps
        rw [← List.append_assoc]
        exact ih (hstep h hfirst) hrest

/-- What every step with an event of a kind keeps of the state and the log, a list of such events keeps. -/
theorem steps_invariant_log {I : List O → S → Prop} {P : E → Prop}
    (hstep : ∀ {log s s' e out}, I log s → P e → step s e = some (s', out) → I (log ++ out) s') {es : List E} {log out : List O}
    {s s' : S} (h : I log s) (hes : ∀ e ∈ es, P e) (hsteps : steps step s es = some (s', out)) : I (log ++ out) s' := by
  refine (steps_invariant_rest (I := fun log es s => I log s ∧ ∀ e ∈ es, P e) ?_ ⟨h, hes⟩ hsteps).1
  intro log es s s' e out hinv hs
  exact ⟨hstep hinv.1 (hinv.2 e List.mem_cons_self) hs, fun e' he' => hinv.2 e' (List.mem_cons_of_mem e he')⟩

/-! ## Along a list of events -/

/-- Every step that a list of events takes has the property: it relates the state before, the event and the state after. An
event whose step is impossible is passed over. -/
def Along (step : S → E → Option (S × List O)) (P : S → E → S → Prop) : S → List E → Prop
  | _, [] => True
  | s, e :: es =>
    match step s e with
    | none => Along step P s es
    | some (s', _) => P s e s' ∧ Along step P s' es

/-- Where an invariant tells two properties of a step equivalent, and a step with one of them keeps the invariant, they hold
along the same lists of events. -/
theorem along_iff {I : S → Prop} {P Q : S → E → S → Prop}
    (hiff : ∀ {s e s' out}, I s → step s e = some (s', out) → (P s e s' ↔ Q s e s'))
    (hkeep : ∀ {s e s' out}, I s → step s e = some (s', out) → Q s e s' → I s') {es : List E} {s : S} (h : I s) :
    Along step P s es ↔ Along step Q s es := by
  induction es generalizing s with
  | nil => exact Iff.rfl
  | cons e es ih =>
    rw [Along, Along]
    cases hstep : step s e with
    | none => exact ih h
    | some next =>
      obtain ⟨s', out⟩ := next
      dsimp only
      rw [hiff h hstep]
      exact and_congr_right fun hq => ih (hkeep h hstep hq)

/-- Where a step with one property keeps an invariant and has another property, so does a list of events. -/
theorem Along.of_invariant {I : S → Prop} {P Q : S → E → S → Prop}
    (hkeep : ∀ {s e s' out}, I s → step s e = some (s', out) → Q s e s' → I s' ∧ P s e s') {es : List E} {s : S} (h : I s)
    (hq : Along step Q s es) : Along step P s es := by
  induction es generalizing s with
  | nil => trivial
  | cons e es ih =>
    rw [Along] at hq ⊢
    cases hstep : step s e with
    | none =>
      rw [hstep] at hq
      exact ih h hq
    | some next =>
      obtain ⟨s', out⟩ := next
      simp only [hstep] at hq ⊢
      obtain ⟨hinv, hp⟩ := hkeep h hstep hq.1
      exact ⟨hp, ih hinv hq.2⟩

/-- What every step along a list leads to holds at its end. -/
theorem Along.last {Q : S → Prop} {es : List E} {s s' : S} {log : List O} (h : Along step (fun _ _ s' => Q s') s es) (hs : Q s)
    (hsteps : steps step s es = some (s', log)) : Q s' := by
  induction es generalizing s log with
  | nil =>
    cases hsteps
    exact hs
  | cons e es ih =>
    rw [steps] at hsteps
    rw [Along] at h
    cases hstep : step s e with
    | none =>
      rw [hstep] at hsteps
      cases hsteps
    | some next =>
      obtain ⟨s1, out⟩ := next
      simp only [hstep] at hsteps h
      cases hrest : steps step s1 es with
      | none =>
        rw [hrest] at hsteps
        cases hsteps
      | some last =>
        obtain ⟨s2, log'⟩ := last
        rw [hrest] at hsteps
        cases hsteps
        exact ih h.2 h.1 hrest

end Machine
