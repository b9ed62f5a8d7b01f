import TeamTalk.Lib.Machine
import TeamTalk.Msfs.HttpTask

/-!
# Uploads in several threads

The threads of msfs run `FileManager::uploadFile` side by side. It reads the number of files twice under `m_cs`, once for each directory,
takes the time, enters the file in the map under `m_cs`, creates the file, writes it, and counts it under `m_filesCs`: each of these is a
step. A file can be counted between the two readings, since that is another lock. A download is one step.
-/

namespace TeamTalk.Msfs.Workers

/-- What is passed to `uploadFile`. -/
structure Job where
  type : Bytes
  ext : Bytes
  content : Bytes
  deriving DecidableEq, Repr

/-- Where a thread stands in `uploadFile`: behind `getFirstDir`, which keeps `m_cs`, `getSecondDir`, which lets go of it, the time,
the second section under `m_cs`, `create`, `write`. -/
inductive Phase where
  | idle
  | first (job : Job) (firstFiles : Nat)
  | counted (job : Job) (firstFiles secondFiles : Nat)
  | named (job : Job) (path : Bytes)
  | inserted (job : Job) (path : Bytes)
  | created (job : Job) (path : Bytes)
  | written (job : Job) (path : Bytes)
  deriving DecidableEq, Repr

/-- What the path of an upload was made of. -/
structure Naming where
  firstFiles : Nat
  secondFiles : Nat
  usec : Nat
  tid : Nat
  job : Job
  deriving DecidableEq, Repr

/-- The path of an upload. -/
def Naming.path (cfg : Config) (n : Naming) : Bytes :=
  uploadPathOf cfg n.firstFiles n.secondFiles n.usec n.tid n.job.type n.job.ext

/-- The files, the map and the number of files; the threads by their ids; the thread that keeps `m_cs` from one step to the next; the
clock; and how paths were made so far, the last one first. -/
structure State where
  manager : Msfs.State
  threads : Nat → Phase
  holder : Option Nat
  clock : Nat
  names : List Naming

/-- What can happen: the steps of an upload in a thread, with the time and what the file system does; and a download. -/
inductive Event where
  | begin (tid : Nat) (job : Job)
  | second (tid : Nat)
  | stamp (tid usec : Nat)
  | insert (tid : Nat)
  | create (tid : Nat) (created : Bool)
  | write (tid : Nat) (sized : Bool) (written : Nat)
  | finish (tid : Nat)
  | download (url : Bytes)

/-- What is put out: an upload has succeeded, with its URL and its bytes; and what a download was answered. -/
inductive Output where
  | uploaded (url content : Bytes)
  | downloaded (url : Bytes) (response : Exec Bytes)
  deriving DecidableEq

namespace State

/-- A process that has been started. -/
def init (files : Bytes → Option Bytes) (fileCnt : Nat) : State :=
  { manager := Msfs.State.init files fileCnt, threads := fun _ => .idle, holder := none, clock := 0, names := [] }

/-- A thread goes on. -/
def goOn (s : State) (tid : Nat) (phase : Phase) : State :=
  { s with threads := fun tid' => if tid' = tid then phase else s.threads tid' }

/-- `m_cs.Enter`, and `getFirstDir`. -/
def first (s : State) (tid : Nat) (job : Job) : State :=
  { s.goOn tid (.first job s.manager.totFiles) with holder := some tid }

/-- `getSecondDir`, and `m_cs.Leave`. -/
def second (s : State) (tid : Nat) (job : Job) (firstFiles : Nat) : State :=
  { s.goOn tid (.counted job firstFiles s.manager.totFiles) with holder := none }

/-- `gettimeofday`, and the path is made. The clock does not go back, and is later at each call of one thread. -/
def stamp (cfg : Config) (s : State) (tid usec : Nat) (job : Job) (firstFiles secondFiles : Nat) : Option State :=
  if usec < 2 ^ 64 ∧ s.clock ≤ usec ∧ ∀ n ∈ s.names, n.tid = tid → n.usec < usec then
    let name : Naming := { firstFiles, secondFiles, usec, tid, job }
    some { s.goOn tid (.named job (name.path cfg)) with clock := usec, names := name :: s.names }
  else none

/-- The second section under `m_cs`. -/
def insert (s : State) (tid : Nat) (job : Job) (path : Bytes) : State :=
  { s.goOn tid (.inserted job path) with
    manager := { s.manager with map := updateMapCache (insertEntry s.manager.map (fullUrl path) job.content) } }

/-- `File::create`, with `O_EXCL`. When it fails, `File::write` aborts. -/
def create (s : State) (tid : Nat) (job : Job) (path : Bytes) (created : Bool) : State :=
  if created = true ∧ s.manager.files path = none then
    { s.goOn tid (.created job path) with manager := s.manager.store path [] }
  else { s with manager := { s.manager with up := false } }

/-- `File::write`. -/
def write (s : State) (tid : Nat) (job : Job) (path : Bytes) (sized : Bool) (written : Nat) : State :=
  { s.goOn tid (.written job path) with
    manager := s.manager.store path (({ created := true, sized, written } : Outcome).contents job.content) }

/-- `m_totFiles++` under `m_filesCs`, and the upload has succeeded. -/
def finish (s : State) (tid : Nat) (job : Job) (path : Bytes) : State × List Output :=
  ({ s.goOn tid .idle with manager := { s.manager with totFiles := s.manager.totFiles + 1 } }, [.uploaded (fullUrl path) job.content])

/-- `OnDownload`, with the section under `m_cs`. -/
def download (cfg : Config) (s : State) (url : Bytes) : State × List Output :=
  match s.manager.onDownload cfg url with
  | .error e => (s, [.downloaded url (.error e)])
  | .ok (manager, response) => ({ s with manager := manager }, [.downloaded url (.ok response)])

/-- One step, of a process that runs. A file that is too large is not stored. -/
def step (cfg : Config) (s : State) (e : Event) : Option (State × List Output) :=
  if s.manager.up = true then
    match e with
    | .begin tid job =>
      if s.threads tid = .idle ∧ s.holder = none ∧ tid < 2 ^ 64 ∧ job.content.length ≤ maxFileSizePerFile then
        some (s.first tid job, [])
      else none
    | .second tid =>
      match s.threads tid with
      | .first job firstFiles => some (s.second tid job firstFiles, [])
      | _ => none
    | .stamp tid usec =>
      match s.threads tid with
      | .counted job firstFiles secondFiles => (s.stamp cfg tid usec job firstFiles secondFiles).map fun s => (s, [])
      | _ => none
    | .insert tid =>
      match s.threads tid, s.holder with
      | .named job path, none => some (s.insert tid job path, [])
      | _, _ => none
    | .create tid created =>
      match s.threads tid with
      | .inserted job path => some (s.create tid job path created, [])
      | _ => none
    | .write tid sized written =>
      match s.threads tid with
      | .created job path => some (s.write tid job path sized written, [])
      | _ => none
    | .finish tid =>
      match s.threads tid with
      | .written job path => some (s.finish tid job path)
      | _ => none
    | .download url => if s.holder = none then some (s.download cfg url) else none
  else none

end State

end TeamTalk.Msfs.Workers
