import TeamTalk.Base.ThreadPool
import TeamTalk.Lib.Potential

/-!
# Every task runs once, in its turn

A worker runs the tasks that were pushed to it, each once and in the order of the pushes, and does not sleep on a task. Without further
calls the threads come to rest, in whatever order they take their steps, and then every task that was added has been run.
-/

namespace TeamTalk.ThreadPool

open Potential

/-! ## The properties -/

/-- The tasks that were added for a worker. -/
def addedTo (i : Nat) (log : List Output) : List Task :=
  log.filterMap fun
    | .added j task => if j = i then some task else none
    | _ => none

/-- The tasks that were pushed to a worker. -/
def pushedTo (i : Nat) (log : List Output) : List Task :=
  log.filterMap fun
    | .pushed j task => if j = i then some task else none
    | _ => none

/-- A call of `AddTask` has pushed the task to the worker. -/
def Call.hasPushed (i : Nat) (task : Task) (call : Call) : Bool :=
  call.threadIdx = i ∧ call.task = task ∧ call.stage ≠ .begun ∧ call.stage ≠ .locked

/-- The tasks that a worker has run. -/
def ranBy (i : Nat) (log : List Output) : List Task :=
  log.filterMap fun
    | .ran j task => if j = i then some task else none
    | _ => none

/-- The task that was taken off the list and has not been run to its end. -/
def Worker.inHand (w : Worker) : List Task :=
  match w.place with
  | .holding task | .running task => [task]
  | .unlocked | .locked | .waiting | .woken => []

/-- What a place of `Execute` is away from the next wait, when there is no task. -/
def Place.work : Place → Nat
  | .waiting => 0
  | .locked => 1
  | .unlocked | .woken => 2
  | .running _ => 3
  | .holding _ => 4

/-- What is left to do of a call: a task that is pushed gives work to its worker, and so may a signal. -/
def Stage.work : Stage → Nat
  | .done => 0
  | .signalled => 1
  | .pushed => 4
  | .locked => 9
  | .begun => 10

/-- What a worker has left to do. -/
def Worker.work (w : Worker) : Nat := 4 * w.taskList.length + w.place.work

/-- What all threads have left to do. -/
def Pool.work (s : Pool) : Nat := total Worker.work s.workerList + total (fun call => call.stage.work) s.calls

namespace ThreadPoolAux

variable {s s' : Pool} {e : Event} {log out : List Output} {w w' : Worker} {i k n : Nat} {task : Task} {stage stage' : Stage}
variable {ran : Option Task}

/-! ## What a step does -/

/-- Every step: a call begins, takes its next step on its worker, or a worker takes its own or wakes up. -/
theorem step_cases (h : s.step e = some (s', out)) :
    (∃ task i, i < s.workerList.length ∧ ¬e.Own ∧ s' = { s with calls := s.calls ++ [⟨task, i, .begun⟩] } ∧
      out = [.added i task]) ∨
    (∃ k call w w' stage, s.calls[k]? = some call ∧ s.workerList[call.threadIdx]? = some w ∧
      w.pushTask k call.task call.stage = some (w', stage) ∧
      s' = ⟨s.workerList.set call.threadIdx w', s.calls.set k { call with stage }⟩ ∧
      out = if stage = .pushed then [.pushed call.threadIdx call.task] else []) ∨
    (∃ i w w' ran, s.workerList[i]? = some w ∧ w.execute = some (w', ran) ∧
      s' = { s with workerList := s.workerList.set i w' } ∧ out = (ran.map (Output.ran i)).toList) ∨
    (∃ i w, s.workerList[i]? = some w ∧ w.place = .waiting ∧ ¬e.Own ∧
      s' = { s with workerList := s.workerList.set i { w with place := .woken } } ∧ out = []) := by
  cases e with
  | add task random =>
    simp only [Pool.step, Pool.addTask] at h
    split at h
    · cases h
    · rename_i hsize
      cases h
      exact .inl ⟨task, _, Nat.mod_lt _ (Nat.pos_of_ne_zero hsize), id, rfl, rfl⟩
  | call k =>
    simp only [Pool.step, Option.bind_eq_bind, Option.bind_eq_some_iff] at h
    obtain ⟨call, hcall, w, hw, ⟨w', stage⟩, hpush, hnext⟩ := h
    cases hnext
    exact .inr (.inl ⟨k, call, w, w', stage, hcall, hw, hpush, rfl, rfl⟩)
  | worker i =>
    simp only [Pool.step, Option.bind_eq_bind, Option.bind_eq_some_iff] at h
    obtain ⟨w, hw, ⟨w', ran⟩, hexec, hnext⟩ := h
    cases hnext
    exact .inr (.inr (.inl ⟨i, w, w', ran, hw, hexec, rfl, rfl⟩))
  | spurious i =>
    simp only [Pool.step, Option.bind_eq_bind, Option.bind_eq_some_iff] at h
    obtain ⟨w, hw, hnext⟩ := h
    split at hnext
    · rename_i hwait
      cases hnext
      exact .inr (.inr (.inr ⟨i, w, hw, hwait, id, rfl, rfl⟩))
    · cases hnext

/-- A step of `PushTask`, stage by stage. -/
theorem pushTask_cases (h : w.pushTask k task stage = some (w', stage')) :
    (stage = .begun ∧ stage' = .locked ∧ w.owner = none ∧ w' = { w with owner := some (.call k) }) ∨
    (stage = .locked ∧ stage' = .pushed ∧ w' = { w with taskList := w.taskList ++ [task] }) ∨
    (stage = .pushed ∧ stage' = .signalled ∧ w' = w.signal) ∨
    (stage = .signalled ∧ stage' = .done ∧ w' = { w with owner := none }) := by
  cases stage with
  | begun =>
    rw [Worker.pushTask] at h
    split at h
    · rename_i hfree
      cases h
      exact .inl ⟨rfl, rfl, hfree, rfl⟩
    · cases h
  | locked =>
    cases h
    exact .inr (.inl ⟨rfl, rfl, rfl⟩)
  | pushed =>
    cases h
    exact .inr (.inr (.inl ⟨rfl, rfl, rfl⟩))
  | signalled =>
    cases h
    exact .inr (.inr (.inr ⟨rfl, rfl, rfl⟩))
  | done => cases h

/-- A step of `Execute`, place by place. -/
theorem execute_cases (h : w.execute = some (w', ran)) :
    ((w.place = .unlocked ∨ w.place = .woken) ∧ w.owner = none ∧ w' = { w with place := .locked, owner := some .worker } ∧
      ran = none) ∨
    (w.place = .locked ∧ w.taskList = [] ∧ w' = { w with place := .waiting, owner := none } ∧ ran = none) ∨
    (∃ task rest, w.place = .locked ∧ w.taskList = task :: rest ∧ w' = { w with place := .holding task, taskList := rest } ∧
      ran = none) ∨
    (∃ task, w.place = .holding task ∧ w' = { w with place := .running task, owner := none } ∧ ran = none) ∨
    (∃ task, w.place = .running task ∧ w' = { w with place := .unlocked, taskCnt := (w.taskCnt + 1) % uint32Size } ∧
      ran = some task) := by
  unfold Worker.execute at h
  split at h
  · rename_i hplace
    split at h
    · cases h
      exact .inl ⟨.inl hplace, ‹_›, rfl, rfl⟩
    · cases h
  · rename_i hplace
    split at h
    · cases h
      exact .inl ⟨.inr hplace, ‹_›, rfl, rfl⟩
    · cases h
  · rename_i hplace
    split at h
    · cases h
      exact .inr (.inl ⟨hplace, ‹_›, rfl, rfl⟩)
    · cases h
      exact .inr (.inr (.inl ⟨_, _, hplace, ‹_›, rfl, rfl⟩))
  · cases h
  · rename_i task hplace
    cases h
    exact .inr (.inr (.inr (.inl ⟨task, hplace, rfl, rfl⟩)))
  · rename_i task hplace
    cases h
    exact .inr (.inr (.inr (.inr ⟨task, hplace, rfl, rfl⟩)))

/-! ## The order of the tasks -/

/-- What a worker was given, step by step. -/
theorem addedTo_append : addedTo i (log ++ out) = addedTo i log ++ addedTo i out := List.filterMap_append

/-- What was pushed to it, step by step. -/
theorem pushedTo_append : pushedTo i (log ++ out) = pushedTo i log ++ pushedTo i out := List.filterMap_append

/-- What it ran, step by step. -/
theorem ranBy_append : ranBy i (log ++ out) = ranBy i log ++ ranBy i out := List.filterMap_append

/-- The tasks of a worker that have not been run to their end. -/
def unrun (w : Worker) : List Task := w.inHand ++ w.taskList

/-- A worker that wakes up has the same tasks left. -/
theorem unrun_woken (h : w.place = .waiting) : unrun { w with place := .woken } = unrun w := by
  simp [unrun, Worker.inHand, h]

/-- A signal leaves the tasks alone. -/
theorem unrun_signal : unrun w.signal = unrun w := by
  unfold Worker.signal
  split
  · exact unrun_woken ‹_›
  · rfl

/-- A push adds its task at the end, when it gets that far. -/
theorem unrun_pushTask (h : w.pushTask k task stage = some (w', stage')) :
    unrun w' = unrun w ++ if stage' = .pushed then [task] else [] := by
  rcases pushTask_cases h with ⟨-, rfl, -, rfl⟩ | ⟨-, rfl, rfl⟩ | ⟨-, rfl, rfl⟩ | ⟨-, rfl, rfl⟩
  · simp [unrun, Worker.inHand]
  · simp [unrun, Worker.inHand]
  · simp [unrun_signal]
  · simp [unrun, Worker.inHand]

/-- A worker's step takes the task it runs from the front. -/
theorem unrun_execute (h : w.execute = some (w', ran)) : unrun w = ran.toList ++ unrun w' := by
  rcases execute_cases h with ⟨hplace | hplace, -, rfl, rfl⟩ | ⟨hplace, htasks, rfl, rfl⟩ | ⟨task, rest, hplace, htasks, rfl, rfl⟩ |
    ⟨task, hplace, rfl, rfl⟩ | ⟨task, hplace, rfl, rfl⟩
  · simp [unrun, Worker.inHand, hplace]
  · simp [unrun, Worker.inHand, hplace]
  · simp [unrun, Worker.inHand, hplace, htasks]
  · simp [unrun, Worker.inHand, hplace, htasks]
  · simp [unrun, Worker.inHand, hplace]
  · simp [unrun, Worker.inHand, hplace]

/-- What was pushed to a worker has been run, in this order, or has not been run yet. -/
def Ordered (log : List Output) (s : Pool) : Prop :=
  ∀ i w, s.workerList[i]? = some w → pushedTo i log = ranBy i log ++ unrun w

/-- The order holds in a new pool. -/
theorem ordered_init (n : Nat) : Ordered [] (Pool.init n) := by
  intro i w hw
  obtain rfl := List.eq_of_mem_replicate (List.mem_of_getElem? hw)
  rfl

/-- Each step keeps it. -/
theorem ordered_step (h : Ordered log s) (hs : s.step e = some (s', out)) : Ordered (log ++ out) s' := by
  intro j w hw
  rcases step_cases hs with ⟨task, i, -, -, rfl, rfl⟩ | ⟨k, call, v, v', stage, -, hv, hpush, rfl, rfl⟩ |
    ⟨i, v, v', ran, hv, hexec, rfl, rfl⟩ | ⟨i, v, hv, hwait, -, rfl, rfl⟩
  · simpa [pushedTo, ranBy] using h j w hw
  · rcases getElem?_set_some hw with ⟨rfl, rfl⟩ | ⟨hj, hw⟩
    · have hbefore := h _ _ hv
      rw [unrun_pushTask hpush, pushedTo_append, ranBy_append, hbefore]
      by_cases hpushed : stage = .pushed
      · simp [pushedTo, ranBy, hpushed]
      · simp [pushedTo, ranBy, hpushed]
    · have hbefore := h j w hw
      split <;> simpa [pushedTo, ranBy, Ne.symm hj] using hbefore
  · rcases getElem?_set_some hw with ⟨rfl, rfl⟩ | ⟨hj, hw⟩
    · have hbefore := h _ _ hv
      rw [unrun_execute hexec] at hbefore
      cases ran <;> simpa [pushedTo, ranBy] using hbefore
    · have hbefore := h j w hw
      cases ran <;> simpa [pushedTo, ranBy, Ne.symm hj] using hbefore
  · rw [List.append_nil]
    rcases getElem?_set_some hw with ⟨rfl, rfl⟩ | ⟨-, hw⟩
    · rw [unrun_woken hwait]
      exact h _ _ hv
    · exact h j w hw

/-! ## Who has the lock -/

/-- The places at which a worker has the lock. -/
def Place.Locked : Place → Prop
  | .locked | .holding _ => True
  | .unlocked | .waiting | .woken | .running _ => False

/-- The stages at which a call has the lock. -/
def Stage.Locked : Stage → Prop
  | .locked | .pushed | .signalled => True
  | .begun | .done => False

/-- A call that stands in its worker's lock. -/
def Holds (s : Pool) (i k : Nat) : Prop := ∃ call, s.calls[k]? = some call ∧ call.threadIdx = i ∧ Stage.Locked call.stage

/-- The owner of a mutex is the thread that stands behind its `Lock`. -/
structure Locks (s : Pool) : Prop where
  idx : ∀ (k : Nat) (call : Call), s.calls[k]? = some call → call.threadIdx < s.workerList.length
  worker : ∀ (i : Nat) (w : Worker), s.workerList[i]? = some w → (w.owner = some .worker ↔ Place.Locked w.place)
  call : ∀ (i : Nat) (w : Worker) (k : Nat), s.workerList[i]? = some w → (w.owner = some (.call k) ↔ Holds s i k)

/-- No lock is held in a new pool. -/
theorem locks_init (n : Nat) : Locks (Pool.init n) := by
  refine ⟨fun k call hcall => ?_, fun i w hw => ?_, fun i w k hw => ?_⟩
  · cases hcall
  · obtain rfl := List.eq_of_mem_replicate (List.mem_of_getElem? hw)
    exact ⟨(fun h => by cases h), fun h => False.elim h⟩
  · obtain rfl := List.eq_of_mem_replicate (List.mem_of_getElem? hw)
    constructor
    · intro howner
      cases howner
    · rintro ⟨call, hcall, -⟩
      cases hcall

/-- Another call stands where it stood. -/
theorem holds_set {ws : List Worker} {call : Call} {j : Nat} (hk : j ≠ k) :
    Holds ⟨ws, s.calls.set k call⟩ i j ↔ Holds s i j := by
  simp only [Holds, getElem?_set_of_ne hk]

/-- The call that has taken a step stands where its stage says. -/
theorem holds_set_self {ws : List Worker} {call : Call} (hcall : s.calls[k]? = some call) :
    Holds ⟨ws, s.calls.set k { call with stage }⟩ i k ↔ call.threadIdx = i ∧ Stage.Locked stage := by
  simp only [Holds, getElem?_set_self_of_some hcall]
  constructor
  · rintro ⟨call', hcall', hidx, hlocked⟩
    cases hcall'
    exact ⟨hidx, hlocked⟩
  · rintro ⟨hidx, hlocked⟩
    exact ⟨_, rfl, hidx, hlocked⟩

/-- A call holds its own worker's lock exactly in its locked stages. -/
theorem holds_self {call : Call} (hcall : s.calls[k]? = some call) : Holds s i k ↔ call.threadIdx = i ∧ Stage.Locked call.stage := by
  constructor
  · rintro ⟨call', hcall', hidx, hlocked⟩
    obtain rfl := Option.some.inj (hcall.symm.trans hcall')
    exact ⟨hidx, hlocked⟩
  · rintro ⟨hidx, hlocked⟩
    exact ⟨call, hcall, hidx, hlocked⟩

/-- A new call stands before the lock. -/
theorem holds_append {call : Call} (hcall : call.stage = .begun) : Holds { s with calls := s.calls ++ [call] } i k ↔ Holds s i k := by
  constructor
  · rintro ⟨call', hcall', hidx, hlocked⟩
    rcases lt_or_ge k s.calls.length with hk | hk
    · rw [List.getElem?_append_left hk] at hcall'
      exact ⟨call', hcall', hidx, hlocked⟩
    · rw [List.getElem?_append_right hk] at hcall'
      obtain rfl := List.mem_singleton.1 (List.mem_of_getElem? hcall')
      rw [hcall] at hlocked
      exact False.elim hlocked
  · rintro ⟨call', hcall', hidx, hlocked⟩
    obtain ⟨hk, -⟩ := List.getElem?_eq_some_iff.1 hcall'
    exact ⟨call', by rw [List.getElem?_append_left hk]; exact hcall', hidx, hlocked⟩

/-- A signal takes no lock. -/
theorem locked_signal : Place.Locked w.signal.place ↔ Place.Locked w.place := by
  unfold Worker.signal
  split
  · rename_i hwait
    rw [hwait]
    exact Iff.rfl
  · exact Iff.rfl

/-- And gives none away. -/
theorem owner_signal : w.signal.owner = w.owner := by
  unfold Worker.signal
  split <;> rfl

/-- A call does not move its worker into or out of the lock. -/
theorem locked_pushTask (h : w.pushTask k task stage = some (w', stage')) : Place.Locked w'.place ↔ Place.Locked w.place := by
  rcases pushTask_cases h with ⟨-, -, -, rfl⟩ | ⟨-, -, rfl⟩ | ⟨-, -, rfl⟩ | ⟨-, -, rfl⟩
  · exact Iff.rfl
  · exact Iff.rfl
  · exact locked_signal
  · exact Iff.rfl

/-- A call takes the lock when it is free, keeps it, or gives it back. -/
theorem owner_pushTask (h : w.pushTask k task stage = some (w', stage')) :
    (¬Stage.Locked stage ∧ Stage.Locked stage' ∧ w.owner = none ∧ w'.owner = some (.call k)) ∨
    (Stage.Locked stage ∧ Stage.Locked stage' ∧ w'.owner = w.owner) ∨
    (Stage.Locked stage ∧ ¬Stage.Locked stage' ∧ w'.owner = none) := by
  rcases pushTask_cases h with ⟨rfl, rfl, hfree, rfl⟩ | ⟨rfl, rfl, rfl⟩ | ⟨rfl, rfl, rfl⟩ | ⟨rfl, rfl, rfl⟩
  · exact .inl ⟨id, trivial, hfree, rfl⟩
  · exact .inr (.inl ⟨trivial, trivial, rfl⟩)
  · exact .inr (.inl ⟨trivial, trivial, owner_signal⟩)
  · exact .inr (.inr ⟨trivial, id, rfl⟩)

/-- A worker takes the lock when it is free, keeps it, gives it back, or goes on without it. -/
theorem owner_execute (h : w.execute = some (w', ran)) :
    (¬Place.Locked w.place ∧ Place.Locked w'.place ∧ w.owner = none ∧ w'.owner = some .worker) ∨
    (Place.Locked w.place ∧ ¬Place.Locked w'.place ∧ w'.owner = none) ∨
    ((Place.Locked w'.place ↔ Place.Locked w.place) ∧ w'.owner = w.owner) := by
  rcases execute_cases h with ⟨hplace | hplace, hfree, rfl, -⟩ | ⟨hplace, -, rfl, -⟩ | ⟨task, rest, hplace, -, rfl, -⟩ |
    ⟨task, hplace, rfl, -⟩ | ⟨task, hplace, rfl, -⟩
  · exact .inl ⟨by rw [hplace]; exact id, trivial, hfree, rfl⟩
  · exact .inl ⟨by rw [hplace]; exact id, trivial, hfree, rfl⟩
  · exact .inr (.inl ⟨by rw [hplace]; trivial, id, rfl⟩)
  · exact .inr (.inr ⟨by rw [hplace]; exact Iff.rfl, rfl⟩)
  · exact .inr (.inl ⟨by rw [hplace]; trivial, id, rfl⟩)
  · exact .inr (.inr ⟨by rw [hplace]; exact Iff.rfl, rfl⟩)

/-- Each step keeps every lock with one owner. -/
theorem locks_step (h : Locks s) (hs : s.step e = some (s', out)) : Locks s' := by
  obtain ⟨hidx, hworker, hcall⟩ := h
  rcases step_cases hs with ⟨task, i, hi, -, rfl, -⟩ | ⟨k, call, v, v', stage, hk, hv, hpush, rfl, -⟩ |
    ⟨i, v, v', ran, hv, hexec, rfl, -⟩ | ⟨i, v, hv, hwait, -, rfl, -⟩
  · refine ⟨fun j c hc => ?_, hworker, fun j w k hw => (hcall j w k hw).trans (holds_append rfl).symm⟩
    rcases List.mem_append.1 (List.mem_of_getElem? hc) with hc | hc
    · obtain ⟨j', hj'⟩ := List.mem_iff_getElem?.1 hc
      exact hidx j' c hj'
    · obtain rfl := List.mem_singleton.1 hc
      exact hi
  · have howner := owner_pushTask hpush
    have hself := (hcall _ _ k hv).trans (holds_self hk)
    simp only [true_and] at hself
    refine ⟨fun j c hc => ?_, fun j w hw => ?_, fun j w k' hw => ?_⟩
    · rw [List.length_set]
      rcases getElem?_set_some hc with ⟨-, rfl⟩ | ⟨-, hc⟩
      · exact hidx k call hk
      · exact hidx j c hc
    · rcases getElem?_set_some hw with ⟨rfl, rfl⟩ | ⟨-, hw⟩
      · have hbefore := hworker _ _ hv
        rw [locked_pushTask hpush, ← hbefore]
        rcases howner with ⟨-, -, hfree, htaken⟩ | ⟨-, -, hkept⟩ | ⟨hlocked, -, hback⟩
        · simp [hfree, htaken]
        · rw [hkept]
        · simp [hback, hself.2 hlocked]
      · exact hworker j w hw
    · by_cases hkk : k' = k
      · subst hkk
        rw [holds_set_self hk]
        rcases getElem?_set_some hw with ⟨rfl, rfl⟩ | ⟨hj, hw⟩
        · rcases howner with ⟨-, hlocked', -, htaken⟩ | ⟨hlocked, hlocked', hkept⟩ | ⟨-, hlocked', hback⟩
          · simp [htaken, hlocked']
          · simp [hkept, hself.2 hlocked, hlocked']
          · simp [hback, hlocked']
        · rw [hcall j w k' hw, holds_self hk]
          simp [Ne.symm hj]
      · rw [holds_set hkk]
        rcases getElem?_set_some hw with ⟨rfl, rfl⟩ | ⟨-, hw⟩
        · rw [← hcall _ _ k' hv]
          rcases howner with ⟨-, -, hfree, htaken⟩ | ⟨-, -, hkept⟩ | ⟨hlocked, -, hback⟩
          · simp [hfree, htaken, Ne.symm hkk]
          · rw [hkept]
          · simp [hback, hself.2 hlocked, Ne.symm hkk]
        · exact hcall j w k' hw
  · refine ⟨fun j c hc => by rw [List.length_set]; exact hidx j c hc, fun j w hw => ?_, fun j w k' hw => ?_⟩
    · rcases getElem?_set_some hw with ⟨rfl, rfl⟩ | ⟨-, hw⟩
      · have hbefore := hworker _ _ hv
        rcases owner_execute hexec with ⟨-, hlocked, -, htaken⟩ | ⟨-, hlocked, hback⟩ | ⟨hsame, hkept⟩
        · simp [htaken, hlocked]
        · simp [hback, hlocked]
        · rw [hsame, hkept]
          exact hbefore
      · exact hworker j w hw
    · show _ ↔ Holds s j k'
      rcases getElem?_set_some hw with ⟨rfl, rfl⟩ | ⟨-, hw⟩
      · rw [← hcall _ _ k' hv]
        rcases owner_execute hexec with ⟨-, -, hfree, htaken⟩ | ⟨hlocked, -, hback⟩ | ⟨-, hkept⟩
        · simp [hfree, htaken]
        · simp [hback, (hworker _ _ hv).2 hlocked]
        · rw [hkept]
      · exact hcall j w k' hw
  · refine ⟨fun j c hc => by rw [List.length_set]; exact hidx j c hc, fun j w hw => ?_, fun j w k' hw => ?_⟩
    · rcases getElem?_set_some hw with ⟨rfl, rfl⟩ | ⟨-, hw⟩
      · rw [hworker _ _ hv, hwait]
        exact Iff.rfl
      · exact hworker j w hw
    · rcases getElem?_set_some hw with ⟨rfl, rfl⟩ | ⟨-, hw⟩
      · exact hcall _ v k' hv
      · exact hcall j w k' hw

/-! ## Who sleeps -/

/-- A call that has pushed its task and not signalled yet. -/
def Signals (s : Pool) (i : Nat) : Prop :=
  ∃ (k : Nat) (call : Call), s.calls[k]? = some call ∧ call.threadIdx = i ∧ call.stage = .pushed

/-- A worker that sleeps has nothing to do, or is about to be woken. -/
def Awake (s : Pool) : Prop :=
  ∀ (i : Nat) (w : Worker), s.workerList[i]? = some w → w.place = .waiting → w.taskList = [] ∨ Signals s i

/-- No worker of a new pool sleeps on a task. -/
theorem awake_init (n : Nat) : Awake (Pool.init n) := by
  intro i w hw hwait
  obtain rfl := List.eq_of_mem_replicate (List.mem_of_getElem? hw)
  cases hwait

/-- The calls that a step leaves alone signal as before. -/
theorem signals_set {ws : List Worker} {call : Call} (hcall : s.calls[k]? = some call) (hi : call.threadIdx ≠ i) (h : Signals s i) :
    Signals ⟨ws, s.calls.set k { call with stage }⟩ i := by
  obtain ⟨j, c, hc, hidx, hstage⟩ := h
  have hj : j ≠ k := by
    rintro rfl
    obtain rfl := Option.some.inj (hcall.symm.trans hc)
    exact hi hidx
  exact ⟨j, c, (getElem?_set_of_ne hj _).trans hc, hidx, hstage⟩

/-- After a signal nobody sleeps. -/
theorem place_signal : w.signal.place ≠ .waiting := by
  unfold Worker.signal
  split
  · intro h
    cases h
  · assumption

/-- Each step keeps a worker with a task awake. -/
theorem awake_step (hlocks : Locks s) (h : Awake s) (hs : s.step e = some (s', out)) : Awake s' := by
  intro j w hw hwait
  rcases step_cases hs with ⟨task, i, -, -, rfl, -⟩ | ⟨k, call, v, v', stage, hk, hv, hpush, rfl, -⟩ |
    ⟨i, v, v', ran, hv, hexec, rfl, -⟩ | ⟨i, v, hv, -, -, rfl, -⟩
  · refine (h j w hw hwait).imp_right ?_
    rintro ⟨k, c, hc, hidx, hstage⟩
    obtain ⟨hk, -⟩ := List.getElem?_eq_some_iff.1 hc
    exact ⟨k, c, (List.getElem?_append_left hk).trans hc, hidx, hstage⟩
  · rcases getElem?_set_some hw with ⟨rfl, rfl⟩ | ⟨hj, hw⟩
    · rcases pushTask_cases hpush with ⟨hstage, -, hfree, rfl⟩ | ⟨-, rfl, -⟩ | ⟨-, -, rfl⟩ | ⟨hstage, -, rfl⟩
      · -- the lock was free, so no other call stood between its push and its signal
        refine (h _ v hv hwait).imp_right fun ⟨j, c, hc, hidx, hpushed⟩ => ?_
        have howner := (hlocks.call _ v j hv).2 ⟨c, hc, hidx, by rw [hpushed]; trivial⟩
        rw [hfree] at howner
        cases howner
      · exact .inr ⟨k, _, getElem?_set_self_of_some hk _, rfl, rfl⟩
      · exact absurd hwait place_signal
      · refine (h _ v hv hwait).imp_right fun ⟨j, c, hc, hidx, hpushed⟩ => ?_
        -- the lock has one owner, and it has signalled
        have hother := (hlocks.call _ v j hv).2 ⟨c, hc, hidx, by rw [hpushed]; trivial⟩
        have hself := (hlocks.call _ v k hv).2 ⟨call, hk, rfl, by rw [hstage]; trivial⟩
        obtain rfl : k = j := Owner.call.inj (Option.some.inj (hself.symm.trans hother))
        obtain rfl := Option.some.inj (hk.symm.trans hc)
        rw [hstage] at hpushed
        cases hpushed
    · exact (h j w hw hwait).imp_right (signals_set hk (Ne.symm hj))
  · show _ ∨ Signals s j
    rcases getElem?_set_some hw with ⟨rfl, rfl⟩ | ⟨-, hw⟩
    · rcases execute_cases hexec with ⟨-, -, rfl, -⟩ | ⟨-, htasks, rfl, -⟩ | ⟨task, rest, -, -, rfl, -⟩ | ⟨task, -, rfl, -⟩ |
        ⟨task, -, rfl, -⟩
      · cases hwait
      · exact .inl htasks
      · cases hwait
      · cases hwait
      · cases hwait
    · exact h j w hw hwait
  · show _ ∨ Signals s j
    rcases getElem?_set_some hw with ⟨rfl, rfl⟩ | ⟨-, hw⟩
    · cases hwait
    · exact h j w hw hwait

/-! ## The tasks that are on their way -/

/-- Whether a call has still to push a task to a worker. -/
def yet (i : Nat) (task : Task) (call : Call) : Nat :=
  if call.threadIdx = i ∧ call.task = task ∧ (call.stage = .begun ∨ call.stage = .locked) then 1 else 0

/-- What was added was pushed, or has still to be. -/
def Counted (log : List Output) (s : Pool) : Prop :=
  ∀ i task, (addedTo i log).count task = (pushedTo i log).count task + total (yet i task) s.calls

/-- Each step keeps the count of tasks. -/
theorem counted_step (h : Counted log s) (hs : s.step e = some (s', out)) : Counted (log ++ out) s' := by
  intro j task
  have hbefore := h j task
  rw [addedTo_append, pushedTo_append, List.count_append, List.count_append, hbefore]
  rcases step_cases hs with ⟨t, i, -, -, rfl, rfl⟩ | ⟨k, call, v, v', stage, hk, -, hpush, rfl, rfl⟩ |
    ⟨i, v, v', ran, -, -, rfl, rfl⟩ | ⟨i, v, -, -, -, rfl, rfl⟩
  · simp only [total_append, total_singleton, yet]
    by_cases hi : i = j
    · by_cases ht : t = task
      · simp [addedTo, pushedTo, hi, ht, Nat.add_assoc]
      · simp [addedTo, pushedTo, hi, ht]
    · simp [addedTo, pushedTo, hi]
  · have htotal := total_set (yet j task) hk { call with stage }
    simp only [yet] at htotal
    rcases pushTask_cases hpush with ⟨hstage, rfl, -, -⟩ | ⟨hstage, rfl, -⟩ | ⟨hstage, rfl, -⟩ | ⟨hstage, rfl, -⟩
    · simp only [hstage, reduceCtorEq, or_true, or_false] at htotal
      simp only [reduceCtorEq, if_false, addedTo, pushedTo, List.filterMap_nil, List.count_nil]
      omega
    · simp only [hstage, reduceCtorEq, or_true, or_self, and_false, and_true, if_false] at htotal
      by_cases hi : call.threadIdx = j
      · by_cases ht : call.task = task
        · simp [addedTo, pushedTo, hi, ht] at htotal ⊢
          omega
        · simp [addedTo, pushedTo, hi, ht] at htotal ⊢
          omega
      · simp [addedTo, pushedTo, hi] at htotal ⊢
        omega
    · simp only [hstage, reduceCtorEq, or_self, and_false, if_false] at htotal
      simp only [reduceCtorEq, if_false, addedTo, pushedTo, List.filterMap_nil, List.count_nil]
      omega
    · simp only [hstage, reduceCtorEq, or_self, and_false, if_false] at htotal
      simp only [reduceCtorEq, if_false, addedTo, pushedTo, List.filterMap_nil, List.count_nil]
      omega
  · cases ran <;> simp [addedTo, pushedTo]
  · simp [addedTo, pushedTo]

/-- As many tasks were pushed as calls have got that far. -/
def PushedOnce (log : List Output) (s : Pool) : Prop :=
  ∀ i task, (pushedTo i log).count task = s.calls.countP (Call.hasPushed i task)

/-- And each call's push single. -/
theorem pushedOnce_step (h : PushedOnce log s) (hs : s.step e = some (s', out)) : PushedOnce (log ++ out) s' := by
  intro j task
  have hbefore := h j task
  rw [countP_eq_total] at hbefore ⊢
  rw [pushedTo_append, List.count_append, hbefore]
  rcases step_cases hs with ⟨t, i, -, -, rfl, rfl⟩ | ⟨k, call, v, v', stage, hk, -, hpush, rfl, rfl⟩ |
    ⟨i, v, v', ran, -, -, rfl, rfl⟩ | ⟨i, v, -, -, -, rfl, rfl⟩
  · simp [pushedTo, Call.hasPushed]
  · -- the call counts as soon as it has pushed
    have htotal := total_set (fun call => if call.hasPushed j task then 1 else 0) hk { call with stage }
    have hearly : ∀ call : Call, call.stage = .begun ∨ call.stage = .locked → call.hasPushed j task = false := by
      rintro call (hstage | hstage) <;> simp [Call.hasPushed, hstage]
    have hlate : ∀ stage, stage ≠ .begun → stage ≠ .locked → Call.hasPushed j task { call with stage } =
        decide (call.threadIdx = j ∧ call.task = task) := by
      intro stage hbegun hlocked
      simp [Call.hasPushed, hbegun, hlocked]
    rcases pushTask_cases hpush with ⟨hstage, rfl, -, -⟩ | ⟨hstage, rfl, -⟩ | ⟨hstage, rfl, -⟩ | ⟨hstage, rfl, -⟩
    · rw [hearly call (.inl hstage), hearly _ (.inr rfl)] at htotal
      simpa [pushedTo] using htotal.symm
    · rw [hearly call (.inr hstage), hlate .pushed (by decide) (by decide)] at htotal
      by_cases hmine : call.threadIdx = j ∧ call.task = task
      · simp [pushedTo, hmine] at htotal ⊢
        omega
      · have hcount : (pushedTo j [Output.pushed call.threadIdx call.task]).count task = 0 := by
          by_cases hi : call.threadIdx = j
          · have ht : call.task ≠ task := fun ht => hmine ⟨hi, ht⟩
            simp [pushedTo, hi, ht]
          · simp [pushedTo, hi]
        rw [if_pos rfl, hcount]
        simpa [hmine] using htotal.symm
    · have hsame : call.hasPushed j task = decide (call.threadIdx = j ∧ call.task = task) := by simp [Call.hasPushed, hstage]
      rw [hsame, hlate .signalled (by decide) (by decide)] at htotal
      simpa [pushedTo] using htotal.symm
    · have hsame : call.hasPushed j task = decide (call.threadIdx = j ∧ call.task = task) := by simp [Call.hasPushed, hstage]
      rw [hsame, hlate .done (by decide) (by decide)] at htotal
      simpa [pushedTo] using htotal.symm
  · cases ran <;> simp [pushedTo]
  · simp [pushedTo]

/-! ## The threads come to rest -/

/-- A signal adds at most two steps of work. -/
theorem work_signal : w.signal.work ≤ w.work + 2 := by
  unfold Worker.signal
  split
  · rename_i hwait
    simp [Worker.work, Place.work, hwait]
  · omega

/-- A step of a call leaves less to do. -/
theorem work_pushTask (h : w.pushTask k task stage = some (w', stage')) : w'.work + stage'.work < w.work + stage.work := by
  rcases pushTask_cases h with ⟨rfl, rfl, -, rfl⟩ | ⟨rfl, rfl, rfl⟩ | ⟨rfl, rfl, rfl⟩ | ⟨rfl, rfl, rfl⟩
  · simp only [Worker.work, Stage.work]
    omega
  · simp only [Worker.work, Stage.work, List.length_append, List.length_singleton]
    omega
  · have hsignal := @work_signal w
    simp only [Stage.work]
    omega
  · simp only [Worker.work, Stage.work]
    omega

/-- A step of a worker leaves less to do. -/
theorem work_execute (h : w.execute = some (w', ran)) : w'.work < w.work := by
  rcases execute_cases h with ⟨hplace | hplace, -, rfl, -⟩ | ⟨hplace, -, rfl, -⟩ | ⟨task, rest, hplace, htasks, rfl, -⟩ |
    ⟨task, hplace, rfl, -⟩ | ⟨task, hplace, rfl, -⟩
  · simp [Worker.work, Place.work, hplace]
  · simp [Worker.work, Place.work, hplace]
  · simp [Worker.work, Place.work, hplace]
  · simp only [Worker.work, Place.work, hplace, htasks, List.length_cons]
    omega
  · simp [Worker.work, Place.work, hplace]
  · simp [Worker.work, Place.work, hplace]

/-- Each step of the pool's own takes work away. -/
theorem work_step (hown : e.Own) (hs : s.step e = some (s', out)) : s'.work < s.work := by
  rcases step_cases hs with ⟨task, i, -, hnot, -, -⟩ | ⟨k, call, v, v', stage, hk, hv, hpush, rfl, -⟩ |
    ⟨i, v, v', ran, hv, hexec, rfl, -⟩ | ⟨i, v, -, -, hnot, -, -⟩
  · exact absurd hown hnot
  · have hworkers := total_set Worker.work hv v'
    have hcalls := total_set (fun call => Stage.work call.stage) hk { call with stage }
    have hless := work_pushTask hpush
    simp only [Pool.work] at hcalls ⊢
    omega
  · have hworkers := total_set Worker.work hv v'
    have hless := work_execute hexec
    simp only [Pool.work]
    omega
  · exact absurd hown hnot

/-- A worker that is neither asleep nor kept out by the lock can go on. -/
theorem execute_isSome (hwait : w.place ≠ .waiting) (hfree : w.owner = none ∨ Place.Locked w.place) : w.execute ≠ none := by
  unfold Worker.execute
  split
  · rename_i hplace
    rw [if_pos (hfree.resolve_right (by rw [hplace]; exact id))]
    exact fun h => by cases h
  · rename_i hplace
    rw [if_pos (hfree.resolve_right (by rw [hplace]; exact id))]
    exact fun h => by cases h
  · split <;> exact fun h => by cases h
  · contradiction
  · exact fun h => by cases h
  · exact fun h => by cases h

/-- When no thread can go on, every call has come to its end, and every worker sleeps on an empty list. -/
theorem done_of_stuck (hlocks : Locks s) (hawake : Awake s) (hstuck : ∀ e : Event, e.Own → s.step e = none) :
    (∀ call ∈ s.calls, call.stage = .done) ∧ ∀ (i : Nat) (w : Worker), s.workerList[i]? = some w → unrun w = [] := by
  have hworker : ∀ (i : Nat) (w : Worker), s.workerList[i]? = some w → w.execute = none := by
    intro i w hw
    have hstep := hstuck (.worker i) trivial
    simp only [Pool.step, hw, Option.bind_eq_bind, Option.bind_some] at hstep
    cases hexec : w.execute with
    | none => rfl
    | some next =>
      rw [hexec] at hstep
      cases hstep
  have hcall : ∀ (k : Nat) (call : Call) (w : Worker), s.calls[k]? = some call → s.workerList[call.threadIdx]? = some w →
      w.pushTask k call.task call.stage = none := by
    intro k call w hk hw
    have hstep := hstuck (.call k) trivial
    simp only [Pool.step, hk, hw, Option.bind_eq_bind, Option.bind_some] at hstep
    cases hpush : w.pushTask k call.task call.stage with
    | none => rfl
    | some next =>
      rw [hpush] at hstep
      cases hstep
  have hnotLocked : ∀ i k, ¬Holds s i k := by
    rintro i k ⟨call, hk, hidx, hlocked⟩
    obtain ⟨w, hw⟩ : ∃ w, s.workerList[call.threadIdx]? = some w :=
      ⟨_, List.getElem?_eq_getElem (hlocks.idx k call hk)⟩
    have hnone := hcall k call w hk hw
    revert hlocked hnone
    cases call.stage with
    | begun => exact fun hlocked => False.elim hlocked
    | locked => exact fun _ hnone => by cases hnone
    | pushed => exact fun _ hnone => by cases hnone
    | signalled => exact fun _ hnone => by cases hnone
    | done => exact fun hlocked => False.elim hlocked
  have hfree : ∀ (i : Nat) (w : Worker), s.workerList[i]? = some w → w.owner = none := by
    intro i w hw
    cases howner : w.owner with
    | none => rfl
    | some owner =>
      cases owner with
      | worker =>
        have hlocked := (hlocks.worker i w hw).1 howner
        exact absurd (hworker i w hw) (execute_isSome (by rintro hwait; rw [hwait] at hlocked; exact hlocked) (.inr hlocked))
      | call k => exact absurd ((hlocks.call i w k hw).1 howner) (hnotLocked i k)
  refine ⟨fun call hmem => ?_, fun i w hw => ?_⟩
  · obtain ⟨k, hk⟩ := List.mem_iff_getElem?.1 hmem
    obtain ⟨w, hw⟩ : ∃ w, s.workerList[call.threadIdx]? = some w :=
      ⟨_, List.getElem?_eq_getElem (hlocks.idx k call hk)⟩
    have hnone := hcall k call w hk hw
    cases hstage : call.stage with
    | begun =>
      rw [hstage, Worker.pushTask, if_pos (hfree _ w hw)] at hnone
      cases hnone
    | locked => exact absurd ⟨call, hk, rfl, by rw [hstage]; trivial⟩ (hnotLocked call.threadIdx k)
    | pushed => exact absurd ⟨call, hk, rfl, by rw [hstage]; trivial⟩ (hnotLocked call.threadIdx k)
    | signalled => exact absurd ⟨call, hk, rfl, by rw [hstage]; trivial⟩ (hnotLocked call.threadIdx k)
    | done => rfl
  · have hwait : w.place = .waiting := by
      by_contra hwait
      exact execute_isSome hwait (.inl (hfree i w hw)) (hworker i w hw)
    rcases hawake i w hw hwait with htasks | ⟨k, call, hk, hidx, hpushed⟩
    · simp [unrun, Worker.inHand, hwait, htasks]
    · exact absurd ⟨call, hk, hidx, by rw [hpushed]; trivial⟩ (hnotLocked i k)

/-- No step adds a worker or takes one away. -/
theorem size_step (hs : s.step e = some (s', out)) : s'.workerList.length = s.workerList.length := by
  rcases step_cases hs with ⟨task, i, -, -, rfl, -⟩ | ⟨k, call, v, v', stage, -, -, -, rfl, -⟩ | ⟨i, v, v', ran, -, -, rfl, -⟩ |
    ⟨i, v, -, -, -, rfl, -⟩
  · rfl
  · exact List.length_set
  · exact List.length_set
  · exact List.length_set

/-- What holds in every state of a run. -/
structure Inv (n : Nat) (log : List Output) (s : Pool) : Prop where
  size : s.workerList.length = n
  ordered : Ordered log s
  locks : Locks s
  awake : Awake s
  counted : Counted log s
  pushedOnce : PushedOnce log s

/-- It does, by the steps. -/
theorem inv_of_run (h : Machine.Run Pool.step (fun _ _ => True) (Pool.init n) log s) : Inv n log s :=
  h.invariant ⟨List.length_replicate, ordered_init n, locks_init n, awake_init n, fun _ _ => rfl, fun _ _ => rfl⟩
    fun hinv _ hs => ⟨(size_step hs).trans hinv.size, ordered_step hinv.ordered hs, locks_step hinv.locks hs,
      awake_step hinv.locks hinv.awake hs, counted_step hinv.counted hs, pushedOnce_step hinv.pushedOnce hs⟩

end ThreadPoolAux

open ThreadPoolAux

/-! ## Every run -/

/-- In every state of every run: what was pushed to a worker is what it has run, in this order, then the task in its hand, then its
list; a worker that sleeps has an empty list, or a call has pushed to it and has not signalled yet; and a task was pushed to a worker as
often as calls that add it there have got that far. -/
theorem tasks_in_order {n : Nat} {log : List Output} {s : Pool} (h : Machine.Run Pool.step (fun _ _ => True) (Pool.init n) log s) :
    (∀ i w, s.workerList[i]? = some w → pushedTo i log = ranBy i log ++ w.inHand ++ w.taskList ∧
      (w.place = .waiting → w.taskList = [] ∨
        ∃ (k : Nat) (call : Call), s.calls[k]? = some call ∧ call.threadIdx = i ∧ call.stage = .pushed)) ∧
    ∀ i task, (pushedTo i log).count task = s.calls.countP (Call.hasPushed i task) := by
  obtain ⟨-, hordered, -, hawake, -, hpushed⟩ := inv_of_run h
  refine ⟨fun i w hw => ⟨?_, hawake i w hw⟩, hpushed⟩
  rw [hordered i w hw, unrun, List.append_assoc]

/-- The only worker sleeps, two tasks are added, and the call for the second one pushes first. -/
def pushingEvents : List Event := [.worker 0, .worker 0, .add 7 4, .add 8 5, .call 1, .call 1]

/-- It has not signalled yet. -/
def pushing : Pool := ⟨[{ place := .waiting, owner := some (.call 1), taskList := [8] }], [⟨7, 0, .begun⟩, ⟨8, 0, .pushed⟩]⟩

/-- Two calls on one worker, the second pushed first. -/
theorem run_pushing : Machine.Run Pool.step (fun _ _ => True) (Pool.init 1) [.added 0 7, .added 0 8, .pushed 0 8] pushing := by
  have hsteps : Machine.steps Pool.step (Pool.init 1) pushingEvents = some (pushing, [.added 0 7, .added 0 8, .pushed 0 8]) := rfl
  exact Machine.Run.of_steps (fun _ _ => trivial) .start hsteps

/-- The signal comes, the other call pushes its task, and the worker runs both and sleeps again. -/
def restEvents : List Event :=
  [.call 1, .call 1, .call 0, .call 0, .call 0, .call 0, .worker 0, .worker 0, .worker 0, .worker 0, .worker 0, .worker 0, .worker 0,
    .worker 0, .worker 0, .worker 0]

/-- The worker sleeps again. -/
def asleep : Pool := ⟨[{ place := .waiting, taskCnt := 2 }], [⟨7, 0, .done⟩, ⟨8, 0, .done⟩]⟩

/-- What happened to the two tasks. -/
def twoLog : List Output := [.added 0 7, .added 0 8, .pushed 0 8, .pushed 0 7, .ran 0 8, .ran 0 7]

/-- And the run on to where both tasks ran and the worker sleeps. -/
theorem run_asleep : Machine.Run Pool.step (fun _ _ => True) (Pool.init 1) twoLog asleep := by
  have hsteps : Machine.steps Pool.step pushing restEvents = some (asleep, [.pushed 0 7, .ran 0 8, .ran 0 7]) := rfl
  exact Machine.Run.of_steps (fun _ _ => trivial) run_pushing hsteps

/-- While the worker sleeps on a task, the signal is to come; and in the end both tasks were pushed once, and run in the order of the
pushes. -/
theorem tasks_in_order_two :
    (∃ (k : Nat) (call : Call), pushing.calls[k]? = some call ∧ call.threadIdx = 0 ∧ call.stage = .pushed) ∧
    (∃ w, asleep.workerList[0]? = some w ∧ pushedTo 0 twoLog = ranBy 0 twoLog ++ w.inHand ++ w.taskList) ∧
    ∀ task, (pushedTo 0 twoLog).count task = asleep.calls.countP (Call.hasPushed 0 task) := by
  refine ⟨?_, ⟨_, rfl, ((tasks_in_order run_asleep).1 0 _ rfl).1⟩, (tasks_in_order run_asleep).2 0⟩
  rcases ((tasks_in_order run_pushing).1 0 _ rfl).2 rfl with hempty | hsignal
  · cases hempty
  · exact hsignal

/-- From every state of every run, the threads take at most `work` steps without a further call or a wake-up of its own, in whatever
order; and when none of them can go on, every task that was added for a worker has been run by it as often as it was added. -/
theorem tasks_all_run {n : Nat} {log : List Output} {s : Pool} (h : Machine.Run Pool.step (fun _ _ => True) (Pool.init n) log s) :
    (∀ es s' out, (∀ e ∈ es, Event.Own e) → Machine.steps Pool.step s es = some (s', out) → es.length ≤ s.work) ∧
    ((∀ e : Event, e.Own → s.step e = none) → ∀ i task, i < n → (ranBy i log).count task = (addedTo i log).count task) := by
  obtain ⟨hsize, hordered, hlocks, hawake, hcounted, -⟩ := inv_of_run h
  refine ⟨fun es s' out hown hsteps => ?_, fun hstuck i task hi => ?_⟩
  · have hle := Machine.length_add_le (I := fun _ => True) (fun _ _ => trivial) (fun _ hown hs => work_step hown hs) trivial hown hsteps
    omega
  · obtain ⟨hdone, hempty⟩ := done_of_stuck hlocks hawake hstuck
    obtain ⟨w, hw⟩ : ∃ w, s.workerList[i]? = some w := ⟨_, List.getElem?_eq_getElem (hsize.symm ▸ hi)⟩
    have hyet : total (yet i task) s.calls = 0 := total_eq_zero _ fun call hmem => by simp [yet, hdone call hmem]
    rw [hcounted i task, hyet, hordered i w hw, hempty i w hw, List.append_nil, Nat.add_zero]

/-- From where the worker sleeps on a task, with the other task still to be pushed, the rest is bounded; at its end nobody can go on, and
each of the two tasks has been run as often as it was added. -/
theorem tasks_all_run_two : restEvents.length ≤ pushing.work ∧ (ranBy 0 twoLog).count 7 = (addedTo 0 twoLog).count 7 ∧
    (ranBy 0 twoLog).count 8 = (addedTo 0 twoLog).count 8 := by
  have hown : ∀ e ∈ restEvents, Event.Own e := by
    intro e he
    fin_cases he <;> trivial
  have hstuck : ∀ e : Event, e.Own → asleep.step e = none := by
    intro e hown
    cases e with
    | add task random => cases hown
    | call k => rcases k with _ | _ | k <;> rfl
    | worker i => cases i <;> rfl
    | spurious i => cases hown
  exact ⟨(tasks_all_run run_pushing).1 restEvents asleep _ hown rfl, (tasks_all_run run_asleep).2 hstuck 0 7 (by decide),
    (tasks_all_run run_asleep).2 hstuck 0 8 (by decide)⟩

end TeamTalk.ThreadPool
