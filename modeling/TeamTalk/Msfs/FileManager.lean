import TeamTalk.Base.CText

/-!
# The file manager of msfs

`FileManager`: files on the disk, and a map that keeps up to 10000 of them in memory. `File` aborts when a file that could not be
created is written; the codes that `File::write` gives are not looked at. What the file system does is part of each upload. Paths
are taken as they stand: that two texts may name one file is left out.
-/

namespace TeamTalk.Msfs

/-! ## Texts -/

/-- `%03d`: the zeros stand after the sign. -/
def decimal3 (i : Int) : Bytes :=
  let digits := decimal i.natAbs
  if i < 0 then chars "-" ++ List.replicate (2 - digits.length) 48 ++ digits else List.replicate (3 - digits.length) 48 ++ digits

/-- The cast to `int`. -/
def asInt (n : Nat) : Int := (n : Int).bmod uint32Size

/-! ## The state -/

/-- The directory of the files and the number of files for each directory in it, from the configuration. -/
structure Config where
  disk : Bytes
  filesPerDir : Nat
  filesPerDir_pos : 0 < filesPerDir

/-- `FIRST_DIR_MAX`. -/
def firstDirMax : Nat := 255

/-- `MAX_FILE_SIZE_PER_FILE`. -/
def maxFileSizePerFile : Nat := 5 * 1024 * 1024

/-- `MAX_FILE_IN_MAP`. -/
def maxFileInMap : Nat := 10000

/-- The regular files, by the rest of their path after `m_disk`; `m_map`, in the order of its keys; `m_totFiles`; and whether the
process runs. -/
structure State where
  files : Bytes → Option Bytes
  map : List (Bytes × Bytes)
  totFiles : Nat
  up : Bool

/-- What the file system does to an upload: the file can be created; `ftruncate` works; and so many bytes are written. -/
structure Outcome where
  created : Bool
  sized : Bool
  written : Nat
  deriving DecidableEq, Repr

/-- What `File::write` leaves in a new file. When the size cannot be set, nothing is written. -/
def Outcome.contents (o : Outcome) (content : Bytes) : Bytes :=
  if o.sized then content.take o.written ++ List.replicate (content.length - o.written) 0 else []

/-- `getFirstDir`. -/
def getFirstDir (cfg : Config) (totFiles : Nat) : Int := asInt (totFiles / cfg.filesPerDir / firstDirMax)

/-- `getSecondDir`. -/
def getSecondDir (cfg : Config) (totFiles : Nat) : Int :=
  asInt (totFiles % (cfg.filesPerDir * firstDirMax) / cfg.filesPerDir)

/-- `createFileRelatePath`, at a time and in a thread. The number of files is read for each of the two directories. -/
def relatePathOf (cfg : Config) (firstFiles secondFiles usec tid : Nat) : Bytes :=
  chars "/" ++ cut 5 (decimal3 (getFirstDir cfg firstFiles)) ++ chars "/" ++ cut 5 (decimal3 (getSecondDir cfg secondFiles)) ++
    chars "/" ++ cut 30 (decimal usec ++ chars "_" ++ decimal tid)

/-- The path of a new file: with the type, or with the size of the image and the type. -/
def uploadPathOf (cfg : Config) (firstFiles secondFiles usec tid : Nat) (type ext : Bytes) : Bytes :=
  relatePathOf cfg firstFiles secondFiles usec tid ++ if ext = [] then chars "." ++ type else chars "_" ++ ext

/-- `createFileRelatePath`, when no file is counted meanwhile. -/
def createFileRelatePath (cfg : Config) (totFiles usec tid : Nat) : Bytes := relatePathOf cfg totFiles totFiles usec tid

/-- The path of a new file, when no other one is counted meanwhile. -/
def uploadPath (cfg : Config) (totFiles usec tid : Nat) (type ext : Bytes) : Bytes := uploadPathOf cfg totFiles totFiles usec tid type ext

/-- The URL of a path. -/
def fullUrl (path : Bytes) : Bytes := chars "g0" ++ path

/-- `getRelatePathByUrl`: from the first slash on. -/
def getRelatePathByUrl (url : Bytes) : Option Bytes := if 47 ∈ url then some (url.dropWhile (· ≠ 47)) else none

/-! ## The map -/

section Map

variable {β : Type}

/-- A new key goes where the order of the map wants it. -/
def insertOrdered (url : Bytes) (e : β) : List (Bytes × β) → List (Bytes × β)
  | [] => [(url, e)]
  | entry :: rest => if url < entry.1 then (url, e) :: entry :: rest else entry :: insertOrdered url e rest

/-- `updateMapCache`: the entries with the least keys are deleted. -/
def updateMapCache (map : List (Bytes × β)) : List (Bytes × β) := map.drop (map.length - maxFileInMap)

/-- `insertEntry`. -/
def insertEntry (map : List (Bytes × β)) (url : Bytes) (e : β) : List (Bytes × β) :=
  if (map.lookup url).isSome then map else updateMapCache (insertOrdered url e map)

end Map

namespace State

/-- A process that has been started. -/
def init (files : Bytes → Option Bytes) (fileCnt : Nat) : State := { files, map := [], totFiles := fileCnt, up := true }

/-- The file of a path holds this from now on. -/
def store (s : State) (path content : Bytes) : State :=
  { s with files := fun path' => if path' = path then some content else s.files path' }

/-- `uploadFile`: the state after it and the URL, which is empty when the file is too large. It aborts when the file cannot be
created, or is there already (`O_EXCL`). -/
def uploadFile (cfg : Config) (s : State) (type content ext : Bytes) (size usec tid : Nat) (o : Outcome) :
    Option (State × Bytes) :=
  if size > maxFileSizePerFile then some (s, [])
  else
    let path := uploadPath cfg s.totFiles usec tid type ext
    let content := content.take size
    if o.created = true ∧ s.files path = none then
      some (store { s with map := updateMapCache (insertEntry s.map (fullUrl path) content), totFiles := s.totFiles + 1 } path
        (o.contents content), fullUrl path)
    else none

/-- `getOrCreateEntry`. When `updateMapCache` deletes the entry that is returned, using it has no defined result. -/
def getOrCreateEntry (s : State) (url : Bytes) : Exec (State × Option Bytes) :=
  match s.map.lookup url with
  | some entry => .ok (s, some entry)
  | none =>
    match (getRelatePathByUrl url).bind s.files with
    | none => .ok (s, none)
    | some file =>
      let map := updateMapCache (insertOrdered url file s.map)
      if (map.lookup url).isSome then .ok ({ s with map := map }, some file) else .error .undefinedBehaviour

end State

end TeamTalk.Msfs
