import TeamTalk.Lib.Machine
import TeamTalk.Lib.Prog

/-!
# Programs on a store

A store answers the calls of programs, one at a time. A program that is alone is run to its end; the programs of several threads
take turns, call by call. What threads do is watched by a monitor for each of them; what is known of the store and of all monitors,
and is kept by every allowed call, holds in every state.
-/

namespace Prog

variable {C : Signature} {S α β ι J : Type}

/-- Run a program for each element of a list. -/
def each (f : ι → Prog C Unit) : List ι → Prog C Unit
  | [] => pure ()
  | a :: as => do
    f a
    each f as

/-- Keep the elements for which a program says yes. -/
def filter (p : ι → Prog C Bool) : List ι → Prog C (List ι)
  | [] => pure []
  | a :: as => do
    let yes ← p a
    let rest ← filter p as
    return if yes then a :: rest else rest

theorem safe_each {M : Monitor C} {I : M.State → Prop} {f : ι → Prog C Unit} {as : List ι}
    (hf : ∀ a ∈ as, ∀ s, I s → Safe M s (f a) fun _ s' => I s') {s : M.State} (h : I s) : Safe M s (each f as) fun _ s' => I s' := by
  induction as generalizing s with
  | nil => exact safe_pure h
  | cons a as ih =>
    refine (hf a List.mem_cons_self s h).bind fun _ s1 hs1 => ?_
    exact ih (fun b hb => hf b (List.mem_cons_of_mem a hb)) hs1

theorem safe_filter {M : Monitor C} {I : M.State → Prop} {p : ι → Prog C Bool} {as : List ι}
    (hp : ∀ a ∈ as, ∀ s, I s → Safe M s (p a) fun _ s' => I s') {s : M.State} (h : I s) :
    Safe M s (filter p as) fun _ s' => I s' := by
  induction as generalizing s with
  | nil => exact safe_pure h
  | cons a as ih =>
    refine (hp a List.mem_cons_self s h).bind fun _ s1 hs1 => ?_
    refine (ih (fun b hb => hp b (List.mem_cons_of_mem a hb)) hs1).bind fun _ s2 hs2 => ?_
    exact safe_pure hs2

theorem safe_when {M : Monitor C} {s : M.State} {c : Prop} [Decidable c] {p : Prog C Unit} {post : Unit → M.State → Prop}
    (hp : c → Safe M s p post) (hnot : ¬c → post () s) : Safe M s (when c p) post := by
  unfold when
  split
  · exact hp ‹_›
  · exact safe_pure (hnot ‹_›)

/-! ## A program that is alone -/

section Run

variable (serve : S → (o : C.Op) → S × C.Reply o)

/-- Run a program to its end: the store, and what the program ends with. -/
def run : S → Prog C α → S × α
  | s, done a => (s, a)
  | s, call o k => run (serve s o).1 (k (serve s o).2)

@[simp] theorem run_pure (s : S) (a : α) : run serve s (pure a : Prog C α) = (s, a) := rfl

@[simp] theorem run_ask (s : S) (o : C.Op) : run serve s (ask o) = serve s o := rfl

@[simp] theorem run_bind (s : S) (p : Prog C α) (f : α → Prog C β) :
    run serve s (p >>= f) = run serve (run serve s p).1 (f (run serve s p).2) := by
  induction p generalizing s with
  | done a => rfl
  | call o k ih => exact ih _ _

@[simp] theorem run_when (s : S) (c : Prop) [Decidable c] (p : Prog C Unit) :
    run serve s (when c p) = if c then run serve s p else (s, ()) := by
  unfold when
  split <;> rfl

@[simp] theorem run_each_nil (s : S) (f : ι → Prog C Unit) : run serve s (each f []) = (s, ()) := rfl

/-- A program that only reads leaves the store alone, and so does the filter. -/
theorem run_filter {s : S} {p : ι → Prog C Bool} {yes : ι → Bool} (hp : ∀ a, run serve s (p a) = (s, yes a)) (as : List ι) :
    run serve s (filter p as) = (s, as.filter yes) := by
  induction as with
  | nil => rfl
  | cons a as ih =>
    rw [filter, run_bind, hp a, run_bind, ih, List.filter_cons]
    rfl

end Run

/-! ## Answers of a kind -/

/-- Whatever answers of a kind a program gets, it ends, and what it ends with meets `post`. -/
def Ends (ok : (o : C.Op) → C.Reply o → Prop) : Prog C α → (α → Prop) → Prop
  | done a, post => post a
  | call o k, post => ∀ r, ok o r → Ends ok (k r) post

theorem ends_pure {ok : (o : C.Op) → C.Reply o → Prop} {a : α} {post : α → Prop} (h : post a) : Ends ok (pure a) post := h

theorem Ends.bind {ok : (o : C.Op) → C.Reply o → Prop} {p : Prog C α} {f : α → Prog C β} {Q : α → Prop} {post : β → Prop}
    (hp : Ends ok p Q) (hf : ∀ a, Q a → Ends ok (f a) post) : Ends ok (p >>= f) post := by
  induction p with
  | done a => exact hf a hp
  | call o k ih => exact fun r hr => ih r (hp r hr)

theorem Ends.mono {ok : (o : C.Op) → C.Reply o → Prop} {p : Prog C α} {post post' : α → Prop} (hp : Ends ok p post)
    (h : ∀ a, post a → post' a) : Ends ok p post' := by
  induction p with
  | done a => exact h a hp
  | call o k ih => exact fun r hr => ih r (hp r hr)

/-! ## Threads -/

/-- What a thread is doing: its job, the calls made so far with their answers, and what is left. -/
structure Runner (C : Signature) (J : Type) where
  job : J
  trace : List (Entry C)
  prog : Prog C Unit

/-- A store, the threads, and the calls of all of them, the latest first. -/
structure Threads (C : Signature) (S J : Type) where
  store : S
  threads : Nat → Option (Runner C J)
  history : List (Nat × Entry C)

/-- A thread that has nothing to do takes a job, or a thread makes its next call. -/
inductive Sched (J : Type) where
  | start (i : Nat) (job : J)
  | go (i : Nat)

namespace Threads

/-- No thread has a job yet. -/
def init (store : S) : Threads C S J := { store, threads := fun _ => none, history := [] }

/-- Change a thread. -/
def setThread (s : Threads C S J) (i : Nat) (t : Runner C J) : Threads C S J :=
  { s with threads := fun j => if j = i then some t else s.threads j }

/-- The state after a call. -/
def called (serve : S → (o : C.Op) → S × C.Reply o) (s : Threads C S J) (i : Nat) (t : Runner C J) (o : C.Op)
    (k : C.Reply o → Prog C Unit) : Threads C S J :=
  let e : Entry C := ⟨o, (serve s.store o).2⟩
  { s with store := (serve s.store o).1, history := (i, e) :: s.history }.setThread i
    { t with trace := t.trace ++ [e], prog := k (serve s.store o).2 }

/-- A thread has a job, and is not done with it. -/
def busy (s : Threads C S J) (i : Nat) (t : Runner C J) : Prop := s.threads i = some t ∧ t.prog.next ≠ none

/-- One turn. -/
def step (serve : S → (o : C.Op) → S × C.Reply o) (body : J → Prog C Unit) (s : Threads C S J) :
    Sched J → Option (Threads C S J × List Empty)
  | .start i job =>
    match s.threads i with
    | some { prog := .call _ _, .. } => none
    | _ => some (s.setThread i { job, trace := [], prog := body job }, [])
  | .go i =>
    match s.threads i with
    | none => none
    | some t =>
      match t.prog with
      | .done _ => none
      | .call o k => some (s.called serve i t o k, [])

/-- The thread whose turn it is. -/
def turnOf : Sched J → Nat
  | .start i _ => i
  | .go i => i

/-- The other threads stay as they are. -/
theorem threads_step {serve : S → (o : C.Op) → S × C.Reply o} {body : J → Prog C Unit} {s s' : Threads C S J} {e : Sched J}
    {out : List Empty} (h : step serve body s e = some (s', out)) {i : Nat} (hi : i ≠ turnOf e) : s'.threads i = s.threads i := by
  cases e with
  | start j job =>
    rw [step] at h
    split at h
    · cases h
    · obtain ⟨rfl, -⟩ := Prod.mk.inj (Option.some.inj h)
      exact if_neg hi
  | go j =>
    rw [step] at h
    split at h
    · cases h
    · split at h
      · cases h
      · obtain ⟨rfl, -⟩ := Prod.mk.inj (Option.some.inj h)
        exact if_neg hi

/-- A thread that has no turn has no job. -/
theorem threads_steps {serve : S → (o : C.Op) → S × C.Reply o} {body : J → Prog C Unit} {s s' : Threads C S J}
    {es : List (Sched J)} {out : List Empty} (h : Machine.steps (step serve body) s es = some (s', out)) {i : Nat}
    (hi : ∀ e ∈ es, i ≠ turnOf e) : s'.threads i = s.threads i := by
  induction es generalizing s out with
  | nil =>
    obtain ⟨rfl, -⟩ := Prod.mk.inj (Option.some.inj h)
    rfl
  | cons e es ih =>
    rw [Machine.steps] at h
    split at h
    · cases h
    · rename_i s1 out1 h1
      split at h
      · cases h
      · rename_i s2 out2 h2
        obtain ⟨rfl, -⟩ := Prod.mk.inj (Option.some.inj h)
        rw [ih h2 fun e' he' => hi e' (List.mem_cons_of_mem e he'), threads_step h1 (hi e List.mem_cons_self)]

section Invariant

variable {M : Monitor C} {m0 : M.State}

/-- The monitor of a thread. -/
def monitor (m0 : M.State) (s : Threads C S J) (i : Nat) : M.State :=
  match s.threads i with
  | none => m0
  | some t => M.after m0 t.trace

theorem monitor_setThread (s : Threads C S J) (i j : Nat) (t : Runner C J) :
    (s.setThread i t).monitor m0 j = if j = i then M.after m0 t.trace else s.monitor m0 j := by
  unfold monitor setThread
  dsimp only
  split
  · rename_i heq
    split at heq
    · cases heq
    · rw [if_neg ‹_›, heq]
  · rename_i heq
    split at heq
    · rw [if_pos ‹_›, Option.some.inj heq]
    · rw [if_neg ‹_›, heq]

theorem monitor_eq {s : Threads C S J} {i : Nat} {t : Runner C J} (ht : s.threads i = some t) :
    s.monitor m0 i = M.after m0 t.trace := by
  rw [monitor, ht]

theorem after_append (tr : List (Entry C)) (e : Entry C) : M.after m0 (tr ++ [e]) = M.next (M.after m0 tr) e.1 e.2 := by
  rw [Monitor.after, List.foldl_append]
  rfl

/-- The monitor of a thread sees its call; the others see nothing. -/
theorem monitor_called {serve : S → (o : C.Op) → S × C.Reply o} {s : Threads C S J} {i : Nat} {t : Runner C J}
    (ht : s.threads i = some t) (o : C.Op) (k : C.Reply o → Prog C Unit) (j : Nat) :
    (s.called serve i t o k).monitor m0 j =
      if j = i then M.next (s.monitor m0 i) o (serve s.store o).2 else s.monitor m0 j := by
  refine (monitor_setThread _ i j _).trans ?_
  rw [after_append, ← monitor_eq ht]
  rfl

/-- What is left of every job is safe. -/
def AllSafe (M : Monitor C) (m0 : M.State) (post : J → M.State → Prop) (s : Threads C S J) : Prop :=
  ∀ i t, s.threads i = some t → Safe M (M.after m0 t.trace) t.prog fun _ m => post t.job m

theorem allSafe_init {post : J → M.State → Prop} {store : S} : AllSafe M m0 post (init store) :=
  fun _ _ ht => absurd ht.symm (Option.some_ne_none _)

/-- What every job that begins and every allowed call keep holds in every state. -/
theorem run_invariant {serve : S → (o : C.Op) → S × C.Reply o} {body : J → Prog C Unit} {s0 : Threads C S J}
    {ok : Threads C S J → Sched J → Prop} {post : J → M.State → Prop} {I : Threads C S J → Prop}
    (hbody : ∀ job, Safe M m0 (body job) fun _ m => post job m) (h0 : AllSafe M m0 post s0) (hI0 : I s0)
    (hstart : ∀ (s : Threads C S J) (i : Nat) (job : J), I s → ok s (.start i job) →
      (∀ t, s.threads i = some t → t.prog.next = none ∧ post t.job (s.monitor m0 i)) →
      I (s.setThread i { job, trace := [], prog := body job }))
    (hcall : ∀ (s : Threads C S J) (i : Nat) (t : Runner C J) (o : C.Op) (k : C.Reply o → Prog C Unit), I s → ok s (.go i) →
      s.threads i = some t → t.prog = call o k → M.allows (s.monitor m0 i) o → I (s.called serve i t o k))
    {log : List Empty} {s : Threads C S J} (hrun : Machine.Run (step serve body) ok s0 log s) : AllSafe M m0 post s ∧ I s := by
  refine hrun.invariant (I := fun _ s => AllSafe M m0 post s ∧ I s) ⟨h0, hI0⟩ ?_
  rintro log out s s' e ⟨hsafe, hI⟩ hok hstep
  cases e with
  | start i job =>
    rw [step] at hstep
    split at hstep
    · cases hstep
    · rename_i hidle
      obtain ⟨rfl, -⟩ := Prod.mk.inj (Option.some.inj hstep)
      refine ⟨fun j t ht => ?_, hstart s i job hI hok fun t ht => ?_⟩
      · simp only [setThread] at ht
        split at ht
        · rw [← Option.some.inj ht]
          exact hbody job
        · exact hsafe j t ht
      · have hs := hsafe i t ht
        obtain ⟨tjob, trace, prog⟩ := t
        cases prog with
        | done a =>
          rw [monitor_eq ht]
          exact ⟨rfl, hs⟩
        | call o k => exact absurd ht (hidle _ _ _ _)
  | go i =>
    rw [step] at hstep
    split at hstep
    · cases hstep
    · rename_i t ht
      split at hstep
      · cases hstep
      · rename_i o k hprog
        obtain ⟨rfl, -⟩ := Prod.mk.inj (Option.some.inj hstep)
        have hs := hsafe i t ht
        rw [hprog] at hs
        refine ⟨fun j t' ht' => ?_, hcall s i t o k hI hok ht hprog ?_⟩
        · simp only [called, setThread] at ht'
          split at ht'
          · rw [← Option.some.inj ht', after_append]
            exact hs.2 _
          · exact hsafe j t' ht'
        · rw [monitor_eq ht]
          exact hs.1

end Invariant

end Threads

end Prog
