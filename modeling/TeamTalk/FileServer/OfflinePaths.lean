import TeamTalk.Base.CText

/-!
# Where file_server keeps offline files

`OpenByRead`, `OpenByWrite` and the `remove` of `DoRecvData` each build a path from the first two characters of a task id and the
whole of it. Ids are bytes here, as a client sends them. The system opens, creates and removes nothing whose path is too long for it.
-/

namespace TeamTalk.FileServer.OfflinePaths

/-- `BUFSIZ`. -/
def bufsiz : Nat := 8192

/-- `PATH_MAX`: the room for a path and its terminator. -/
def pathMax : Nat := 4096

/-- `"/"`. -/
def slash : UInt8 := 47

/-- `"."`. -/
def dot : UInt8 := 46

/-- What the path of an id is, where there is room: the directory, the first two characters, and the id. -/
def pathOf (dir id : Bytes) : Bytes := dir ++ [slash] ++ cString (id.take 2) ++ [slash] ++ cString id

/-- A call of the system with a path. -/
inductive Access where
  | read (path : Bytes)
  | write (path : Bytes)
  | create (path : Bytes)
  | remove (path : Bytes)
  | overflow
  deriving DecidableEq, Repr

/-- The path of a call. -/
def Access.path : Access → Option Bytes
  | .read path | .write path | .create path | .remove path => some path
  | .overflow => none

/-- The system takes the path. -/
def Takes (path : Bytes) : Prop := path.length < pathMax

instance (path : Bytes) : Decidable (Takes path) := inferInstanceAs (Decidable (_ < _))

/-- A call that the system takes. -/
def taken (access : Bytes → Access) (path : Bytes) : List Access := if Takes path then [access path] else []

/-- `OpenByRead`. -/
def openByRead (dir id : Bytes) : List Access := if 2 ≤ id.length then taken .read (cut bufsiz (pathOf dir id)) else []

/-- `OpenByWrite`: the directory is made, and the path is put together in the buffer with `strncat`, whose bound is not that of the
buffer. `mkdir` may fail. -/
def openByWrite (dir id : Bytes) (mkdir : Bool) : List Access :=
  if 2 ≤ id.length then
    let path := cut bufsiz (dir ++ [slash] ++ cString (id.take 2))
    if mkdir = true ∧ Takes path then
      let path' := path ++ [slash] ++ (cString id).take bufsiz
      if path'.length < bufsiz then .create path :: taken .write path' else [.create path, .overflow]
    else []
  else []

/-- The removal of a file whose digest is not what was announced. -/
def remove (dir id : Bytes) : List Access := taken .remove (cut bufsiz (pathOf dir id))

/-! ## Ids -/

/-- A text of `uuid_unparse`: 36 hexadecimal digits and dashes. -/
structure Uuid where
  text : Bytes
  length : text.length = 36
  digits : ∀ ch ∈ text, (48 ≤ ch ∧ ch ≤ 57) ∨ (97 ≤ ch ∧ ch ≤ 102) ∨ ch = 45

/-- A task under an id: it was made for a transfer request, with an id of the server's own; or it was loaded from a file, whose
header has an id. -/
inductive Known (id : Bytes) where
  | made (uuid : Uuid) (is : uuid.text = id)
  | loaded (stored : Bytes)

/-- The id in the header of the file that an id names, if the file is opened and read. -/
def loadedId (dir : Bytes) (header : Bytes → Option Bytes) (id : Bytes) : Option Bytes :=
  if openByRead dir id = [] then none else header (cut bufsiz (pathOf dir id))

/-- What is done on behalf of a client that sends an id: an upload, which may end with the removal, and downloads of a task that was
made; downloads of one that was loaded, by the id in its header; and otherwise a try to load the task, and then downloads. -/
def accesses (dir : Bytes) (known : (id : Bytes) → Option (Known id)) (header : Bytes → Option Bytes) (mkdir : Bool)
    (id : Bytes) : List Access :=
  match known id with
  | some (.made _ _) => openByWrite dir id mkdir ++ remove dir id ++ openByRead dir id
  | some (.loaded stored) => openByRead dir stored
  | none =>
    openByRead dir id ++
      match loadedId dir header id with
      | none => []
      | some stored => openByRead dir stored

end TeamTalk.FileServer.OfflinePaths
