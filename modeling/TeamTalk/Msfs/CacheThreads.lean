import TeamTalk.Msfs.Workers

/-!
# The cache and the threads of msfs

Uploads and downloads side by side. The entries of the map are objects here, which are allocated and deleted: `getOrCreateEntry` returns
a pointer, and what is done with it afterwards is not done under the lock. Each section under the lock is a step, as is each call of the
file system and each use of an entry. Directories are left out; they have no bytes.
-/

namespace TeamTalk.Msfs.CacheThreads

/-- An `Entry`. The number tells all that were ever allocated apart; an entry is deleted when it leaves the map. -/
structure Entry where
  id : Nat
  content : Bytes
  deriving DecidableEq, Repr

/-- Where a thread stands. In `uploadFile`: behind the making of the path, the section under the lock, `File::create`, `setSize`. In
`OnDownload`: with a buffer that has so much room behind the head; with an entry and a buffer; behind `memcpy`. -/
inductive Phase where
  | idle
  | named (job : Workers.Job) (path : Bytes)
  | inserted (job : Workers.Job) (path : Bytes)
  | created (job : Workers.Job) (path : Bytes)
  | resized (job : Workers.Job) (path : Bytes)
  | sized (url : Bytes) (room : Int)
  | holding (id : Nat) (room : Int)
  | copied (id : Nat)
  deriving DecidableEq, Repr

/-- The files; the map, in the order of its keys; the number of entries that were allocated; the threads; and whether the process runs. -/
structure State where
  files : Bytes → Option Bytes
  map : List (Bytes × Entry)
  nextId : Nat
  threads : Nat → Phase
  up : Bool

/-- What the file system does when `getOrCreateEntry` reads a file: it cannot be opened, which aborts; it cannot be read; or these bytes
are read, which a write that is under way can show in. -/
inductive Read where
  | unopened
  | failed
  | bytes (content : Bytes)
  deriving DecidableEq, Repr

/-- What can happen in a thread. The path of an upload is made from two numbers of files and a time, as they come. -/
inductive Event where
  | name (tid : Nat) (job : Workers.Job) (firstFiles secondFiles usec : Nat)
  | insert (tid : Nat)
  | create (tid : Nat) (created : Bool)
  | setSize (tid : Nat) (sized : Bool)
  | write (tid written : Nat)
  | stat (tid : Nat) (url : Bytes)
  | get (tid : Nat) (read : Read)
  | copy (tid : Nat)
  | touch (tid : Nat)
  deriving DecidableEq, Repr

/-- What is put out: so many bytes were copied to a buffer with so much room; or an entry was used that is deleted. -/
inductive Output where
  | copied (size : Nat) (room : Int)
  | usedDeleted (id : Nat)
  deriving DecidableEq, Repr

namespace State

/-- A process that has been started. -/
def init (files : Bytes → Option Bytes) : State := { files, map := [], nextId := 0, threads := fun _ => .idle, up := true }

/-- A thread goes on. -/
def goOn (s : State) (tid : Nat) (phase : Phase) : State :=
  { s with threads := fun tid' => if tid' = tid then phase else s.threads tid' }

/-- The file of a path holds this from now on. -/
def store (s : State) (path content : Bytes) : State :=
  { s with files := fun path' => if path' = path then some content else s.files path' }

/-- The process aborts. -/
def abort (s : State) : State := { s with up := false }

/-- An entry that is allocated. -/
def entry (s : State) (id : Nat) : Option Entry := (s.map.map Prod.snd).find? fun e => e.id = id

/-! ## An upload -/

/-- The section under the lock in `uploadFile`. -/
def insert (s : State) (tid : Nat) (job : Workers.Job) (path : Bytes) : State :=
  { s.goOn tid (.inserted job path) with
    map := updateMapCache (insertEntry s.map (fullUrl path) { id := s.nextId, content := job.content }), nextId := s.nextId + 1 }

/-- `File::create`, with `O_EXCL`. When it fails, `File::write` aborts. -/
def create (s : State) (tid : Nat) (job : Workers.Job) (path : Bytes) (created : Bool) : State :=
  if created = true ∧ s.files path = none then (s.goOn tid (.created job path)).store path [] else s.abort

/-- `setSize`. When it fails, nothing is written, and the upload is done. -/
def setSize (s : State) (tid : Nat) (job : Workers.Job) (path : Bytes) (sized : Bool) : State :=
  if sized then (s.goOn tid (.resized job path)).store path (List.replicate job.content.length 0) else s.goOn tid .idle

/-- The bytes are written, as far as it goes. -/
def write (s : State) (tid : Nat) (job : Workers.Job) (path : Bytes) (written : Nat) : State :=
  (s.goOn tid .idle).store path (({ created := true, sized := true, written } : Outcome).contents job.content)

/-! ## A download -/

/-- The size of the file, and the buffer for it. Without a path or a file there is an answer right away. -/
def stat (s : State) (tid : Nat) (url : Bytes) : State :=
  match (getRelatePathByUrl url).bind s.files with
  | none => s
  | some file => if asInt file.length = -1 then s else s.goOn tid (.sized url (asInt file.length))

/-- `getOrCreateEntry`. An entry that is not found is read from the file. -/
def getOrCreateEntry (s : State) (tid : Nat) (url : Bytes) (room : Int) (read : Read) : Option State :=
  match s.map.lookup url with
  | some e => some (s.goOn tid (.holding e.id room))
  | none =>
    match (getRelatePathByUrl url).bind s.files with
    | none => some (s.goOn tid .idle)
    | some file =>
      match read with
      | .unopened => some s.abort
      | .failed => some (s.goOn tid .idle)
      | .bytes content =>
        if content.length = file.length then
          some { s.goOn tid (.holding s.nextId room) with
            map := updateMapCache (insertOrdered url { id := s.nextId, content } s.map), nextId := s.nextId + 1 }
        else none

/-- `memcpy`, with the size that the entry has. -/
def copy (s : State) (tid id : Nat) (room : Int) : State × List Output :=
  match s.entry id with
  | none => (s.abort, [.usedDeleted id])
  | some e => (s.goOn tid (.copied id), [.copied e.content.length room])

/-- `m_lastAccess` is set. -/
def touch (s : State) (tid id : Nat) : State × List Output :=
  match s.entry id with
  | none => (s.abort, [.usedDeleted id])
  | some _ => (s.goOn tid .idle, [])

/-- One step, of a process that runs. -/
def step (cfg : Config) (s : State) (e : Event) : Option (State × List Output) :=
  if s.up = true then
    match e with
    | .name tid job firstFiles secondFiles usec =>
      if s.threads tid = .idle ∧ job.content.length ≤ maxFileSizePerFile then
        some (s.goOn tid (.named job (uploadPathOf cfg firstFiles secondFiles usec tid job.type job.ext)), [])
      else none
    | .insert tid =>
      match s.threads tid with
      | .named job path => some (s.insert tid job path, [])
      | _ => none
    | .create tid created =>
      match s.threads tid with
      | .inserted job path => some (s.create tid job path created, [])
      | _ => none
    | .setSize tid sized =>
      match s.threads tid with
      | .created job path => some (s.setSize tid job path sized, [])
      | _ => none
    | .write tid written =>
      match s.threads tid with
      | .resized job path => some (s.write tid job path written, [])
      | _ => none
    | .stat tid url => if s.threads tid = .idle then some (s.stat tid url, []) else none
    | .get tid read =>
      match s.threads tid with
      | .sized url room => (s.getOrCreateEntry tid url room read).map fun s => (s, [])
      | _ => none
    | .copy tid =>
      match s.threads tid with
      | .holding id room => some (s.copy tid id room)
      | _ => none
    | .touch tid =>
      match s.threads tid with
      | .copied id => some (s.touch tid id)
      | _ => none
  else none

end State

end TeamTalk.Msfs.CacheThreads
