import Mathlib

/-!
# Actions

An action changes a state, puts out values one after the other, and may stop early. The rules below say what an action built
from smaller ones does to the state, and what it puts out, from what the smaller ones do.
-/

namespace Action

/-- What running an action gives: a result or the reason why it stopped, the state, and what was put out. -/
structure Outcome (S E X α : Type) where
  result : Except X α
  state : S
  out : List E

/-- An action on a state `S`, putting out values of `E`, that may stop with a reason in `X`. -/
def Act (S E X α : Type) : Type := S → Outcome S E X α

variable {S E X α β : Type}

/-- Run an action from a state. -/
def Act.run (a : Act S E X α) (s : S) : Outcome S E X α := a s

/-- Run `a`, then `f` on its result. When `a` stops, so does the whole. -/
def Act.bind (a : Act S E X α) (f : α → Act S E X β) : Act S E X β := fun s =>
  match a s with
  | ⟨.ok x, s', out⟩ => ⟨(f x s').result, (f x s').state, out ++ (f x s').out⟩
  | ⟨.error e, s', out⟩ => ⟨.error e, s', out⟩

instance : Monad (Act S E X) where
  pure x := fun s => ⟨.ok x, s, []⟩
  bind := Act.bind

/-- Read the state. -/
def read : Act S E X S := fun s => ⟨.ok s, s, []⟩

/-- Change the state. -/
def modify (f : S → S) : Act S E X Unit := fun s => ⟨.ok (), f s, []⟩

/-- Put out a value. -/
def emit (e : E) : Act S E X Unit := fun s => ⟨.ok (), s, [e]⟩

/-- Stop. -/
def stop (x : X) : Act S E X α := fun s => ⟨.error x, s, []⟩

/-- Do the same for every element of a list. -/
def each (f : β → Act S E X Unit) : List β → Act S E X Unit
  | [] => pure ()
  | b :: bs => do
    f b
    each f bs

/-! ## Running -/

/-- A plain value changes and says nothing. -/
@[simp] theorem run_pure (x : α) (s : S) : (pure x : Act S E X α).run s = ⟨.ok x, s, []⟩ := rfl

/-- A read returns the state. -/
@[simp] theorem run_read (s : S) : (read : Act S E X S).run s = ⟨.ok s, s, []⟩ := rfl

/-- A change is made. -/
@[simp] theorem run_modify (f : S → S) (s : S) : (modify f : Act S E X Unit).run s = ⟨.ok (), f s, []⟩ := rfl

/-- An effect is said. -/
@[simp] theorem run_emit (e : E) (s : S) : (emit e : Act S E X Unit).run s = ⟨.ok (), s, [e]⟩ := rfl

/-- A stop ends with its reason. -/
@[simp] theorem run_stop (x : X) (s : S) : (stop x : Act S E X α).run s = ⟨.error x, s, []⟩ := rfl

/-- Running a sequence whose first part ends with a result. -/
theorem run_bind_ok {a : Act S E X α} {f : α → Act S E X β} {s s' : S} {x : α} {out : List E}
    (h : a.run s = ⟨.ok x, s', out⟩) :
    (a >>= f).run s = ⟨((f x).run s').result, ((f x).run s').state, out ++ ((f x).run s').out⟩ := by
  change Act.bind a f s = _
  rw [Act.bind, show a s = ⟨.ok x, s', out⟩ from h]
  rfl

/-- The same, when nothing was put out. -/
theorem run_bind_nil {a : Act S E X α} {f : α → Act S E X β} {s s' : S} {x : α} (h : a.run s = ⟨.ok x, s', []⟩) :
    (a >>= f).run s = (f x).run s' := by
  rw [run_bind_ok h]
  rfl

/-- Running a sequence whose first part stops. -/
theorem run_bind_error {a : Act S E X α} {f : α → Act S E X β} {s s' : S} {e : X} {out : List E}
    (h : a.run s = ⟨.error e, s', out⟩) : (a >>= f).run s = ⟨.error e, s', out⟩ := by
  change Act.bind a f s = _
  rw [Act.bind, show a s = ⟨.error e, s', out⟩ from h]

/-- What follows a read runs on the state read. -/
@[simp] theorem run_read_bind (f : S → Act S E X β) (s : S) : ((read : Act S E X S) >>= f).run s = (f s).run s := by
  rw [run_bind_nil (run_read s)]

/-- What follows a plain value runs on it. -/
@[simp] theorem run_pure_bind (x : α) (f : α → Act S E X β) (s : S) :
    ((pure x : Act S E X α) >>= f).run s = (f x).run s := by
  rw [run_bind_nil (run_pure x s)]

/-- What follows a change runs after it. -/
@[simp] theorem run_modify_bind (g : S → S) (f : Unit → Act S E X β) (s : S) :
    ((modify g : Act S E X Unit) >>= f).run s = (f ()).run (g s) := by
  rw [run_bind_nil (run_modify g s)]

/-- What follows an effect speaks behind it. -/
@[simp] theorem run_emit_bind (e : E) (f : Unit → Act S E X β) (s : S) :
    ((emit e : Act S E X Unit) >>= f).run s =
      ⟨((f ()).run s).result, ((f ()).run s).state, e :: ((f ()).run s).out⟩ := by
  rw [run_bind_ok (run_emit e s)]
  rfl

/-- Nothing follows a stop. -/
@[simp] theorem run_stop_bind (x : X) (f : α → Act S E X β) (s : S) :
    ((stop x : Act S E X α) >>= f).run s = ⟨.error x, s, []⟩ :=
  run_bind_error (run_stop x s)

/-- A loop over nothing does nothing. -/
@[simp] theorem each_nil (f : β → Act S E X Unit) : each f [] = (pure () : Act S E X Unit) := rfl

/-- A loop is its first turn and then the others. -/
theorem each_cons (f : β → Act S E X Unit) (b : β) (bs : List β) : each f (b :: bs) = (f b >>= fun _ => each f bs) := rfl

/-- Putting out a value for every element of a list. -/
theorem run_each_emit (g : β → E) (bs : List β) (s : S) :
    (each (fun b => emit (g b)) bs : Act S E X Unit).run s = ⟨.ok (), s, bs.map g⟩ := by
  induction bs with
  | nil => rfl
  | cons b bs ih => rw [each_cons, run_emit_bind, ih, List.map_cons]

/-- The same, where some elements are left out. -/
theorem run_each_unless (p : β → Prop) [DecidablePred p] (g : β → E) (bs : List β) (s : S) :
    (each (fun b => if p b then pure () else emit (g b)) bs : Act S E X Unit).run s =
      ⟨.ok (), s, (bs.filter fun b => ¬p b).map g⟩ := by
  induction bs with
  | nil => rfl
  | cons b bs ih =>
    rw [each_cons]
    by_cases hb : p b
    · rw [if_pos hb, run_pure_bind, ih, List.filter_cons_of_neg (by simpa using hb)]
    · rw [if_neg hb, run_emit_bind, ih, List.filter_cons_of_pos (by simpa using hb), List.map_cons]

/-- A sequence that ends with a result did both of its parts. -/
theorem run_bind_eq_ok {a : Act S E X α} {f : α → Act S E X β} {s s' : S} {y : β} {out : List E}
    (h : (a >>= f).run s = ⟨.ok y, s', out⟩) :
    ∃ (x : α) (s1 : S) (out1 out2 : List E), a.run s = ⟨.ok x, s1, out1⟩ ∧ (f x).run s1 = ⟨.ok y, s', out2⟩ ∧
      out = out1 ++ out2 := by
  cases ha : a.run s with
  | mk result s1 out1 =>
    cases result with
    | ok x =>
      rw [run_bind_ok ha, Outcome.mk.injEq] at h
      obtain ⟨h1, h2, h3⟩ := h
      refine ⟨x, s1, out1, ((f x).run s1).out, rfl, ?_, h3.symm⟩
      rw [← h1, ← h2]
    | error e =>
      rw [run_bind_error ha, Outcome.mk.injEq] at h
      cases h.1

/-- The same, where the first part puts out one value. -/
theorem run_emit_bind_eq_ok {e : E} {f : Unit → Act S E X β} {s s' : S} {y : β} {out : List E}
    (h : ((emit e : Act S E X Unit) >>= f).run s = ⟨.ok y, s', out⟩) :
    ∃ out', (f ()).run s = ⟨.ok y, s', out'⟩ ∧ out = e :: out' := by
  rw [run_emit_bind, Outcome.mk.injEq] at h
  obtain ⟨h1, h2, h3⟩ := h
  exact ⟨((f ()).run s).out, by rw [← h1, ← h2], h3.symm⟩

/-! ## What an action puts out -/

/-- Every value that is put out from the state satisfies `P`. -/
def Act.Emits (P : E → Prop) (s : S) (a : Act S E X α) : Prop := ∀ e ∈ (a.run s).out, P e

section Emits

variable {P : E → Prop} {s : S}

/-- A plain value says nothing. -/
theorem Emits.pure (x : α) : (pure x : Act S E X α).Emits P s := by
  intro e he
  cases he

/-- A change says nothing. -/
theorem Emits.modify (f : S → S) : (modify f : Act S E X Unit).Emits P s := by
  intro e he
  cases he

/-- A stop says nothing. -/
theorem Emits.stop (x : X) : (stop x : Act S E X α).Emits P s := by
  intro e he
  cases he

/-- An effect says itself. -/
theorem Emits.emit {e : E} (h : P e) : (emit e : Act S E X Unit).Emits P s := by
  intro e' he
  rw [List.mem_singleton.1 he]
  exact h

/-- The second part may use what the first one did. -/
theorem Emits.bind {a : Act S E X α} {f : α → Act S E X β} (ha : a.Emits P s)
    (hf : ∀ x s' out, a.run s = ⟨.ok x, s', out⟩ → (f x).Emits P s') : (a >>= f).Emits P s := by
  intro e he
  cases h : a.run s with
  | mk result s' out =>
    rw [Act.Emits, h] at ha
    cases result with
    | ok x =>
      rw [run_bind_ok h] at he
      rcases List.mem_append.1 he with he | he
      · exact ha e he
      · exact hf x s' out h e he
    | error x =>
      rw [run_bind_error h] at he
      exact ha e he

/-- A read before says nothing more. -/
theorem Emits.read_bind {f : S → Act S E X β} (h : (f s).Emits P s) : (Action.read >>= f).Emits P s := by
  intro e he
  rw [run_read_bind] at he
  exact h e he

/-- Nor does a change. -/
theorem Emits.modify_bind {g : S → S} {f : Unit → Act S E X β} (h : (f ()).Emits P (g s)) :
    (Action.modify g >>= f).Emits P s := by
  intro e he
  rw [run_modify_bind] at he
  exact h e he

/-- An effect before is one more to answer for. -/
theorem Emits.emit_bind {e : E} {f : Unit → Act S E X β} (he : P e) (h : (f ()).Emits P s) :
    (Action.emit e >>= f).Emits P s := by
  intro e' he'
  rw [run_emit_bind] at he'
  rcases List.mem_cons.1 he' with rfl | he'
  · exact he
  · exact h e' he'

/-- A loop says what its turns say. -/
theorem Emits.each {f : β → Act S E X Unit} {bs : List β} (h : ∀ b ∈ bs, ∀ s, (f b).Emits P s) :
    (each f bs).Emits P s := by
  induction bs generalizing s with
  | nil => exact Emits.pure ()
  | cons b bs ih =>
    refine Emits.bind (h b List.mem_cons_self s) fun _ s' _ _ => ?_
    exact ih fun b' hb' => h b' (List.mem_cons_of_mem b hb')

end Emits

/-! ## What an action does

`a.Does R s` says that `R` relates the state `s`, what `a` puts out from it, and the state it reaches, also when it stops.
`R` has to relate what is done in two parts when it relates both parts. -/

/-- A relation between a state, what is put out, and a later state, that composes. -/
structure Composes (R : S → List E → S → Prop) : Prop where
  refl : ∀ s, R s [] s
  trans : ∀ {s s' s'' out out'}, R s out s' → R s' out' s'' → R s (out ++ out') s''

/-- A first part that puts out nothing. -/
theorem Composes.nil_trans {R : S → List E → S → Prop} (hR : Composes R) {s s' s'' : S} {out : List E} (h : R s [] s')
    (h' : R s' out s'') : R s out s'' := by
  have := hR.trans h h'
  rwa [List.nil_append] at this

/-- What running `a` from `s` does. -/
def Act.Does (R : S → List E → S → Prop) (s : S) (a : Act S E X α) : Prop := R s (a.run s).out (a.run s).state

section Does

variable {R : S → List E → S → Prop} {s : S}

/-- A plain value does what any composing relation allows. -/
theorem Does.pure (hR : Composes R) (x : α) : (pure x : Act S E X α).Does R s := hR.refl s

/-- So does a stop. -/
theorem Does.stop (hR : Composes R) (x : X) : (stop x : Act S E X α).Does R s := hR.refl s

/-- One action and then another, each on the state it runs in. -/
theorem Does.bind (hR : Composes R) {a : Act S E X α} {f : α → Act S E X β} (ha : a.Does R s)
    (hf : ∀ x s' out, a.run s = ⟨.ok x, s', out⟩ → (f x).Does R s') : (a >>= f).Does R s := by
  unfold Act.Does at *
  cases h : a.run s with
  | mk result s' out =>
    rw [h] at ha
    cases result with
    | ok x =>
      rw [run_bind_ok h]
      exact hR.trans ha (hf x s' out h)
    | error e =>
      rw [run_bind_error h]
      exact ha

/-- A read before changes nothing. -/
theorem Does.read_bind {f : S → Act S E X β} (h : (f s).Does R s) : (Action.read >>= f).Does R s := by
  unfold Act.Does at *
  rw [run_read_bind]
  exact h

/-- A change that is noted at once. -/
theorem Does.modify_emit_bind (hR : Composes R) {g : S → S} {e : E} {f : Unit → Act S E X β} (h : R s [e] (g s))
    (hf : (f ()).Does R (g s)) : (Action.modify g >>= fun _ => Action.emit e >>= f).Does R s := by
  unfold Act.Does at *
  rw [run_modify_bind, run_emit_bind]
  exact hR.trans h hf

/-- A loop does what its turns do. -/
theorem Does.each (hR : Composes R) {f : β → Act S E X Unit} {bs : List β} (h : ∀ b ∈ bs, ∀ s, (f b).Does R s) :
    (each f bs).Does R s := by
  induction bs generalizing s with
  | nil => exact Does.pure hR ()
  | cons b bs ih =>
    refine Does.bind hR (h b List.mem_cons_self s) fun _ s' _ _ => ?_
    exact ih fun b' hb' => h b' (List.mem_cons_of_mem b hb')

end Does

/-! ## Why an action stops -/

/-- Wherever it starts, `a` stops for no other reasons than those in `P`. -/
def Act.StopsOnly (P : X → Prop) (a : Act S E X α) : Prop := ∀ s e, (a.run s).result = .error e → P e

section StopsOnly

variable {P : X → Prop}

/-- A plain value does not stop. -/
theorem StopsOnly.pure (x : α) : (pure x : Act S E X α).StopsOnly P := fun _ _ h => by cases h

/-- Nor does a change. -/
theorem StopsOnly.modify (f : S → S) : (modify f : Act S E X Unit).StopsOnly P := fun _ _ h => by cases h

/-- Nor an effect. -/
theorem StopsOnly.emit (e : E) : (emit e : Act S E X Unit).StopsOnly P := fun _ _ h => by cases h

/-- A stop stops for its own reason. -/
theorem StopsOnly.stop {x : X} (h : P x) : (stop x : Act S E X α).StopsOnly P := fun _ _ he => Except.error.inj he ▸ h

/-- Two actions stop for the reasons of either. -/
theorem StopsOnly.bind {a : Act S E X α} {f : α → Act S E X β} (ha : a.StopsOnly P) (hf : ∀ x, (f x).StopsOnly P) :
    (a >>= f).StopsOnly P := by
  intro s e he
  cases h : a.run s with
  | mk result s' out =>
    cases result with
    | ok x =>
      rw [run_bind_ok h] at he
      exact hf x s' e he
    | error x =>
      rw [run_bind_error h] at he
      exact ha s e (by rw [h, ← Except.error.inj he])

/-- A read adds no reason. -/
theorem StopsOnly.read_bind {f : S → Act S E X β} (h : ∀ s, (f s).StopsOnly P) : (Action.read >>= f).StopsOnly P := by
  intro s e he
  rw [run_read_bind] at he
  exact h s s e he

/-- A loop stops for the reasons of its turns. -/
theorem StopsOnly.each {f : β → Act S E X Unit} (h : ∀ b, (f b).StopsOnly P) (bs : List β) : (each f bs).StopsOnly P := by
  induction bs with
  | nil => exact StopsOnly.pure ()
  | cons b bs ih => exact StopsOnly.bind (h b) fun _ => ih

end StopsOnly

/-! ## Postconditions

`a.Wp Q F s log` says what holds after `a` has run from `s`, when `log` was put out before: `Q` of the result, the state and
everything put out so far, or `F` when it stopped. -/

/-- The weakest condition before `a` for `Q` to hold when it ends with a result, and `F` when it stops. -/
def Act.Wp (a : Act S E X α) (Q : α → S → List E → Prop) (F : X → S → List E → Prop) (s : S) (log : List E) : Prop :=
  match (a.run s).result with
  | .ok x => Q x (a.run s).state (log ++ (a.run s).out)
  | .error e => F e (a.run s).state (log ++ (a.run s).out)

variable {Q : α → S → List E → Prop} {F : X → S → List E → Prop} {s : S} {log : List E}

/-- The condition, from what running the action gives. -/
theorem wp_of_run {a : Act S E X α} {x : α} {s' : S} {out : List E} (h : a.run s = ⟨.ok x, s', out⟩) :
    a.Wp Q F s log ↔ Q x s' (log ++ out) := by
  rw [Act.Wp, h]

/-- What has to hold before a plain value. -/
@[simp] theorem wp_pure (x : α) : (pure x : Act S E X α).Wp Q F s log ↔ Q x s log := by
  rw [wp_of_run (run_pure x s), List.append_nil]

/-- Before a read. -/
@[simp] theorem wp_read {Q : S → S → List E → Prop} : (read : Act S E X S).Wp Q F s log ↔ Q s s log := by
  rw [wp_of_run (run_read s), List.append_nil]

/-- Before a change. -/
@[simp] theorem wp_modify {Q : Unit → S → List E → Prop} (f : S → S) :
    (modify f : Act S E X Unit).Wp Q F s log ↔ Q () (f s) log := by
  rw [wp_of_run (run_modify f s), List.append_nil]

/-- Before an effect. -/
@[simp] theorem wp_emit {Q : Unit → S → List E → Prop} (e : E) :
    (emit e : Act S E X Unit).Wp Q F s log ↔ Q () s (log ++ [e]) :=
  wp_of_run (run_emit e s)

/-- Before a stop. -/
@[simp] theorem wp_stop (x : X) : (stop x : Act S E X α).Wp Q F s log ↔ F x s log := by
  change F x s (log ++ []) ↔ _
  rw [List.append_nil]

/-- A sequence: the first part has to reach a state from which the second does it. -/
@[simp] theorem wp_bind {Q : β → S → List E → Prop} (a : Act S E X α) (f : α → Act S E X β) :
    (a >>= f).Wp Q F s log ↔ a.Wp (fun x s' log' => (f x).Wp Q F s' log') F s log := by
  unfold Act.Wp
  cases h : a.run s with
  | mk result s' out =>
    cases result with
    | ok x =>
      rw [run_bind_ok h]
      dsimp only
      rw [← List.append_assoc]
    | error e => rw [run_bind_error h]

/-- Weaker postconditions. -/
theorem Act.Wp.mono {a : Act S E X α} {Q' : α → S → List E → Prop} {F' : X → S → List E → Prop} (h : a.Wp Q F s log)
    (hQ : ∀ x s' log', Q x s' log' → Q' x s' log') (hF : ∀ e s' log', F e s' log' → F' e s' log') : a.Wp Q' F' s log := by
  unfold Act.Wp at *
  cases hr : (a.run s).result with
  | ok x =>
    rw [hr] at h
    exact hQ _ _ _ h
  | error e =>
    rw [hr] at h
    exact hF _ _ _ h

end Action
