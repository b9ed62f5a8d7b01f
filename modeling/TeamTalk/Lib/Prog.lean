import Mathlib

/-!
# Programs that make calls

A program computes, and makes calls that somebody else answers. Which calls there are, and what answers them, is a signature. A
monitor watches the calls and answers of a program, and says which calls are allowed. A program is safe when it makes no call that
is not allowed, whatever the answers.
-/

/-- Calls, and the type of the answer to each. -/
structure Signature where
  Op : Type
  Reply : Op → Type

/-- A program: it is done, or makes a call and goes on with the answer. -/
inductive Prog (C : Signature) (α : Type) where
  | done (a : α)
  | call (o : C.Op) (k : C.Reply o → Prog C α)

namespace Prog

variable {C : Signature} {α β γ : Type}

/-- One program after another. -/
def bind : Prog C α → (α → Prog C β) → Prog C β
  | done a, f => f a
  | call o k, f => call o fun r => (k r).bind f

instance : Monad (Prog C) where
  pure := done
  bind := bind

/-- One call. -/
def ask (o : C.Op) : Prog C (C.Reply o) := call o done

/-- Run a program if a condition holds. -/
def when (c : Prop) [Decidable c] (p : Prog C Unit) : Prog C Unit := if c then p else pure ()

/-- Run a program a number of times. -/
def times : Nat → Prog C Unit → Prog C Unit
  | 0, _ => pure ()
  | n + 1, p => do
    p
    times n p

/-- Run a program a number of times, and count how often it says yes. -/
def count : Nat → Prog C Bool → Prog C Nat
  | 0, _ => pure 0
  | n + 1, p => do
    let yes ← p
    let m ← count n p
    return if yes then m + 1 else m

/-- The next call of a program, unless it is done. -/
def next : Prog C α → Option C.Op
  | done _ => none
  | call o _ => some o

/-- What a program ends with, if it is done. -/
def result : Prog C α → Option α
  | done a => some a
  | call _ _ => none

/-- Go on with an answer to the next call. -/
def give [DecidableEq C.Op] : Prog C α → (o : C.Op) → C.Reply o → Option (Prog C α)
  | done _, _, _ => none
  | call o k, o', r => if h : o' = o then some (k (h ▸ r)) else none

/-- Only the next call can be answered. -/
theorem give_eq_some [DecidableEq C.Op] {p q : Prog C α} {o : C.Op} {r : C.Reply o} (h : give p o r = some q) :
    ∃ k, p = call o k ∧ q = k r := by
  cases p with
  | done a => cases h
  | call o' k =>
    rw [give] at h
    split at h
    · rename_i heq
      subst heq
      exact ⟨k, rfl, (Option.some.inj h).symm⟩
    · cases h

/-! ## Safety -/

/-- What is watched, how a call and its answer change it, and which calls are allowed. -/
structure Monitor (C : Signature) where
  State : Type
  next : State → (o : C.Op) → C.Reply o → State
  allows : State → C.Op → Prop

variable {M : Monitor C}

/-- Every call is allowed, and what the program ends with meets `post`. -/
def Safe (M : Monitor C) (s : M.State) : Prog C α → (α → M.State → Prop) → Prop
  | done a, post => post a s
  | call o k, post => M.allows s o ∧ ∀ r, Safe M (M.next s o r) (k r) post

theorem safe_pure {s : M.State} {a : α} {post : α → M.State → Prop} (h : post a s) : Safe M s (pure a) post := h

theorem safe_ask {s : M.State} {o : C.Op} {post : C.Reply o → M.State → Prop} (hallows : M.allows s o)
    (hpost : ∀ r, post r (M.next s o r)) : Safe M s (ask o) post := ⟨hallows, hpost⟩

theorem Safe.bind {s : M.State} {p : Prog C α} {f : α → Prog C β} {Q : α → M.State → Prop} {post : β → M.State → Prop}
    (hp : Safe M s p Q) (hf : ∀ a s', Q a s' → Safe M s' (f a) post) : Safe M s (p >>= f) post := by
  induction p generalizing s with
  | done a => exact hf a s hp
  | call o k ih => exact ⟨hp.1, fun r => ih r (hp.2 r)⟩

theorem Safe.mono {s : M.State} {p : Prog C α} {post post' : α → M.State → Prop} (hp : Safe M s p post)
    (h : ∀ a s', post a s' → post' a s') : Safe M s p post' := by
  induction p generalizing s with
  | done a => exact h a s hp
  | call o k ih => exact ⟨hp.1, fun r => ih r (hp.2 r)⟩

/-- A body that keeps a property of the state can be repeated. -/
theorem safe_times {I : M.State → Prop} {p : Prog C Unit} (hp : ∀ s, I s → Safe M s p fun _ s' => I s') {s : M.State} (h : I s)
    (n : Nat) : Safe M s (times n p) fun _ s' => I s' := by
  induction n generalizing s with
  | zero => exact safe_pure h
  | succ n ih => exact (hp s h).bind fun _ s' hs => ih hs

theorem safe_count {I : M.State → Prop} {p : Prog C Bool} (hp : ∀ s, I s → Safe M s p fun _ s' => I s') {s : M.State} (h : I s)
    (n : Nat) : Safe M s (count n p) fun _ s' => I s' := by
  induction n generalizing s with
  | zero => exact safe_pure h
  | succ n ih =>
    refine (hp s h).bind fun _ s1 hs1 => ?_
    refine (ih hs1).bind fun _ s2 hs2 => ?_
    exact safe_pure hs2

/-! ## Runs -/

/-- A call that was made, with its answer. -/
abbrev Entry (C : Signature) : Type := (o : C.Op) × C.Reply o

/-- A run of a program to its end, or to a call that has no answer. -/
inductive Exec : Prog C α → List (Entry C) → Option α → Prop where
  | done (a : α) : Exec (done a) [] (some a)
  | stuck {o : C.Op} {k : C.Reply o → Prog C α} (h : IsEmpty (C.Reply o)) : Exec (call o k) [] none
  | call {o : C.Op} {k : C.Reply o → Prog C α} (r : C.Reply o) {tr : List (Entry C)} {res : Option α} (h : Exec (k r) tr res) :
    Exec (call o k) (⟨o, r⟩ :: tr) res

/-- Go on with the answers to the next calls. -/
def gives [DecidableEq C.Op] : Prog C α → List (Entry C) → Option (Prog C α)
  | p, [] => some p
  | p, e :: tr =>
    match give p e.1 e.2 with
    | none => none
    | some q => gives q tr

theorem gives_cons [DecidableEq C.Op] {p : Prog C α} {e : Entry C} {tr : List (Entry C)} {q : Prog C α}
    (h : gives p (e :: tr) = some q) : ∃ p', give p e.1 e.2 = some p' ∧ gives p' tr = some q := by
  unfold gives at h
  split at h
  · cases h
  · rename_i p' hp'
    exact ⟨p', hp', h⟩

/-- A program that has been given all its answers has run to its end. -/
theorem Exec.of_result [DecidableEq C.Op] {p q : Prog C α} {tr : List (Entry C)} {a : α} (h : gives p tr = some q)
    (ha : q.result = some a) : Exec p tr (some a) := by
  induction tr generalizing p with
  | nil =>
    obtain rfl := Option.some.inj h
    cases p with
    | done b =>
      obtain rfl := Option.some.inj ha
      exact .done b
    | call o k => cases ha
  | cons e tr ih =>
    obtain ⟨p', hp', hq⟩ := gives_cons h
    obtain ⟨k, rfl, rfl⟩ := give_eq_some hp'
    exact .call e.2 (ih hq)

/-- A program whose next call has no answer has run to that call. -/
theorem Exec.of_next [DecidableEq C.Op] {p q : Prog C α} {tr : List (Entry C)} {o : C.Op} (h : gives p tr = some q)
    (ho : q.next = some o) (hempty : IsEmpty (C.Reply o)) : Exec p tr none := by
  induction tr generalizing p with
  | nil =>
    obtain rfl := Option.some.inj h
    cases p with
    | done b => cases ho
    | call o' k =>
      obtain rfl := Option.some.inj ho
      exact .stuck hempty
  | cons e tr ih =>
    obtain ⟨p', hp', hq⟩ := gives_cons h
    obtain ⟨k, rfl, rfl⟩ := give_eq_some hp'
    exact .call e.2 (ih hq)

/-- The state of a monitor after a run. -/
def Monitor.after (M : Monitor C) (s : M.State) (tr : List (Entry C)) : M.State :=
  tr.foldl (fun s e => M.next s e.1 e.2) s

/-- A safe program ends as it should, or with an allowed call. -/
theorem Safe.exec {s : M.State} {p : Prog C α} {post : α → M.State → Prop} (h : Safe M s p post) {tr : List (Entry C)}
    {res : Option α} (hexec : Exec p tr res) :
    (∃ a, res = some a ∧ post a (M.after s tr)) ∨
      (res = none ∧ ∃ o, IsEmpty (C.Reply o) ∧ M.allows (M.after s tr) o) := by
  induction hexec generalizing s with
  | done a => exact .inl ⟨a, rfl, h⟩
  | stuck hempty => exact .inr ⟨rfl, _, hempty, h.1⟩
  | call r _ ih => exact ih (h.2 r)

end Prog
