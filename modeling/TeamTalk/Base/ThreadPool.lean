import TeamTalk.Base.UtilPdu
import TeamTalk.Lib.Machine

/-!
# The thread pool

`CThreadPool`, its `CWorkerThread`s, and the mutex and the condition of a `CThreadNotify`. Any number of threads add tasks; each
thread takes its steps between the calls of the C library, in any order. A waiting thread may also wake up by itself.
-/

namespace TeamTalk.ThreadPool

/-- A `CTask*`. -/
abbrev Task := Nat

/-- Where a worker thread stands in `Execute`. -/
inductive Place where
  /-- Before `Lock`. -/
  | unlocked
  /-- Before the test whether there are tasks, with the lock. -/
  | locked
  /-- In `Wait`, asleep. -/
  | waiting
  /-- In `Wait`, awake and without the lock. -/
  | woken
  /-- Before `Unlock`, with the task that was taken off the list. -/
  | holding (task : Task)
  /-- Before the end of `run`. -/
  | running (task : Task)
  deriving DecidableEq, Repr

/-- Who has locked a mutex: the worker thread, or a call of `PushTask`. -/
inductive Owner where
  | worker
  | call (k : Nat)
  deriving DecidableEq, Repr

/-- `CWorkerThread`, with the owner of the mutex of its `CThreadNotify`. -/
structure Worker where
  place : Place := .unlocked
  owner : Option Owner := none
  taskList : List Task := []
  taskCnt : Nat := 0
  deriving DecidableEq, Repr

/-- How far a call of `PushTask` is. -/
inductive Stage where
  | begun
  | locked
  | pushed
  | signalled
  | done
  deriving DecidableEq, Repr

/-- A call of `AddTask`, with the thread that was selected. -/
structure Call where
  task : Task
  threadIdx : Nat
  stage : Stage
  deriving DecidableEq, Repr

/-- `CThreadPool`, and the calls that have been made. -/
structure Pool where
  workerList : List Worker
  calls : List Call
  deriving DecidableEq, Repr

/-- What happens to a task of a worker. -/
inductive Output where
  | added (threadIdx : Nat) (task : Task)
  | pushed (threadIdx : Nat) (task : Task)
  | ran (threadIdx : Nat) (task : Task)
  deriving DecidableEq, Repr

/-- `Init`. -/
def Pool.init (workerSize : Nat) : Pool := ⟨List.replicate workerSize {}, []⟩

/-- `Signal`. -/
def Worker.signal (w : Worker) : Worker := if w.place = .waiting then { w with place := .woken } else w

/-- The next step of call `k` of `PushTask`. -/
def Worker.pushTask (w : Worker) (k : Nat) (task : Task) : Stage → Option (Worker × Stage)
  | .begun => if w.owner = none then some ({ w with owner := some (.call k) }, .locked) else none
  | .locked => some ({ w with taskList := w.taskList ++ [task] }, .pushed)
  | .pushed => some (w.signal, .signalled)
  | .signalled => some ({ w with owner := none }, .done)
  | .done => none

/-- The next step of `Execute`, and the task whose `run` has come to its end. -/
def Worker.execute (w : Worker) : Option (Worker × Option Task) :=
  match w.place with
  | .unlocked | .woken => if w.owner = none then some ({ w with place := .locked, owner := some .worker }, none) else none
  | .locked =>
    match w.taskList with
    | [] => some ({ w with place := .waiting, owner := none }, none)
    | task :: rest => some ({ w with place := .holding task, taskList := rest }, none)
  | .waiting => none
  | .holding task => some ({ w with place := .running task, owner := none }, none)
  | .running task => some ({ w with place := .unlocked, taskCnt := (w.taskCnt + 1) % uint32Size }, some task)

/-- What happens next. -/
inductive Event where
  /-- `AddTask` is called; `random` gives a number. -/
  | add (task : Task) (random : Nat)
  | call (k : Nat)
  | worker (threadIdx : Nat)
  /-- A waiting thread wakes up without a signal. -/
  | spurious (threadIdx : Nat)
  deriving DecidableEq, Repr

/-- `AddTask`: without worker threads, it divides by zero. -/
def Pool.addTask (s : Pool) (task : Task) (random : Nat) : Option (Pool × List Output) :=
  if s.workerList.length = 0 then none
  else
    let threadIdx := random % s.workerList.length
    some ({ s with calls := s.calls ++ [⟨task, threadIdx, .begun⟩] }, [.added threadIdx task])

/-- One step of one thread. -/
def Pool.step (s : Pool) : Event → Option (Pool × List Output)
  | .add task random => s.addTask task random
  | .call k => do
    let call ← s.calls[k]?
    let w ← s.workerList[call.threadIdx]?
    let (w', stage) ← w.pushTask k call.task call.stage
    some (⟨s.workerList.set call.threadIdx w', s.calls.set k { call with stage }⟩,
      if stage = .pushed then [.pushed call.threadIdx call.task] else [])
  | .worker threadIdx => do
    let w ← s.workerList[threadIdx]?
    let (w', ran) ← w.execute
    some ({ s with workerList := s.workerList.set threadIdx w' }, (ran.map (Output.ran threadIdx)).toList)
  | .spurious threadIdx => do
    let w ← s.workerList[threadIdx]?
    if w.place = .waiting then some ({ s with workerList := s.workerList.set threadIdx { w with place := .woken } }, []) else none

/-- A step that a thread takes in a call that has been made. -/
def Event.Own : Event → Prop
  | .call _ | .worker _ => True
  | .add _ _ | .spurious _ => False

end TeamTalk.ThreadPool
