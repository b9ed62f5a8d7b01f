import Mathlib
import TeamTalk.Lib.Machine

/-!
# Offline files in db_proxy_server

The table `IMTransmitFile`, what `CFileModel` does to it, and the handlers of `FileAction.cpp`. A step is one statement: a
`hasOfflineFile` is two lookups, the response, and two updates, and other threads take their steps between these. Master and
slave are one store, and every statement succeeds. The numbers of an inserted row are below 2^31, since `SetParam` binds them as
signed ones.
-/

namespace TeamTalk.DbProxy.Files

/-- A row of `IMTransmitFile`. Its id is its place in the table: no row is ever removed. -/
structure TransmitFile where
  fromId : Nat
  toId : Nat
  fileName : String
  size : Nat
  taskId : String
  status : Nat
  created : Nat
  updated : Nat
  md5 : String
  deriving DecidableEq, Repr

/-- `IM.BaseDefine.OfflineFileInfo`. -/
structure OfflineFileInfo where
  fromUserId : Nat
  taskId : String
  fileName : String
  fileSize : Nat
  fileMd5 : String
  status : Nat
  deriving DecidableEq, Repr

/-- `IMFileAddOfflineReq`. -/
structure AddOfflineReq where
  fromUserId : Nat
  toUserId : Nat
  taskId : String
  fileName : String
  fileSize : Nat
  fileMd5 : String
  status : Nat
  deriving DecidableEq, Repr

/-- `IMFileHasOfflineRsp`. -/
structure HasOfflineRsp where
  userId : Nat
  offlineFileList : List OfflineFileInfo
  attachData : List UInt8
  deriving DecidableEq, Repr

/-- `TASK_STATUS` of a file in the answer. -/
def fileNeedDisplay : Nat := 0
def fileNeedDownload : Nat := 1

/-! ## `CFileModel` -/

/-- A lookup, in the order of the times at which the rows were made. Each info stands with the id of its row. -/
def selectFiles (files : List TransmitFile) (which : TransmitFile → Bool) : List (Nat × OfflineFileInfo) :=
  ((files.zipIdx.filter fun f => which f.1).insertionSort fun f g => f.1.created ≤ g.1.created).map fun f =>
    (f.2, { fromUserId := f.1.fromId, taskId := f.1.taskId, fileName := f.1.fileName, fileSize := f.1.size, fileMd5 := f.1.md5,
            status := 0 })

/-- `CFileModel::getOfflineFile`. -/
def getOfflineFile (files : List TransmitFile) (userId : Nat) : List (Nat × OfflineFileInfo) :=
  selectFiles files fun f => f.toId = userId && f.status = 1

/-- `CFileModel::getHasSentFile`. -/
def getHasSentFile (files : List TransmitFile) (userId : Nat) : List (Nat × OfflineFileInfo) :=
  selectFiles files fun f => f.fromId = userId && f.status = 4

/-- The row that `CFileModel::addOfflineFile` inserts. -/
def addOfflineFile (req : AddOfflineReq) (now : Nat) : TransmitFile where
  fromId := req.fromUserId
  toId := req.toUserId
  fileName := req.fileName
  size := req.fileSize
  taskId := req.taskId
  status := req.status
  created := now
  updated := now
  md5 := req.fileMd5

/-- An update of the status of some rows. -/
def setStatus (files : List TransmitFile) (which : TransmitFile → Bool) (status : Nat) : List TransmitFile :=
  files.map fun f => if which f then { f with status } else f

section Task

-- Whether the database takes two task ids for the same: that is up to the collation of the column.
variable (same : String → String → Bool)

/-- `CFileModel::delOfflineFile`. -/
def delOfflineFile (files : List TransmitFile) (taskId : String) : List TransmitFile :=
  setStatus files (fun f => same f.taskId taskId) 0

/-- The status that an acknowledgement of a client sets. -/
def ackStatus (status : Nat) : Nat := if status = 0 then 4 else 2

/-- `CFileModel::ClientAckChangeStatus`. -/
def clientAckChangeStatus (files : List TransmitFile) (taskId : String) (status : Nat) : List TransmitFile :=
  setStatus files (fun f => same f.taskId taskId) (ackStatus status)

/-- `CFileModel::ChangeFileStatus`: when the status is -1, the task id is the id of a user who has logged out. -/
def changeFileStatus (files : List TransmitFile) (taskId : String) (status : Nat) : List TransmitFile :=
  if status = 4294967295 then
    match taskId.toNat? with
    | some userId => setStatus files (fun f => f.toId = userId && f.status = 3) 2
    | none => files
  else setStatus files (fun f => same f.taskId taskId) status

end Task

/-! ## `hasOfflineFile` -/

/-- What a `hasOfflineFile` does next. -/
inductive Stage where
  | getOfflineFile
  | getHasSentFile
  | respond
  | update1to2
  | update4to5
  deriving DecidableEq, Repr

/-- A `hasOfflineFile` that is being handled. -/
structure Query where
  userId : Nat
  attachData : List UInt8
  lsOffline : List (Nat × OfflineFileInfo)
  lsSent : List (Nat × OfflineFileInfo)
  stage : Stage
  deriving DecidableEq, Repr

/-- The infos that are reported, each with the id of its row. -/
def Query.reported (q : Query) : List (Nat × OfflineFileInfo) :=
  q.lsOffline.map (fun f => (f.1, { f.2 with status := fileNeedDownload })) ++
    q.lsSent.map fun f => (f.1, { f.2 with status := fileNeedDisplay })

/-- The response. -/
def Query.response (q : Query) : HasOfflineRsp where
  userId := q.userId
  offlineFileList := q.reported.map Prod.snd
  attachData := q.attachData

/-! ## Steps -/

structure State where
  files : List TransmitFile
  queries : Nat → Option Query

/-- What becomes of a query. -/
def State.setQuery (s : State) (i : Nat) (q : Option Query) : State :=
  { s with queries := fun j => if j = i then q else s.queries j }

/-- A step of `hasOfflineFile`. -/
def hasOfflineFile (s : State) (i : Nat) (q : Query) : State × List HasOfflineRsp :=
  match q.stage with
  | .getOfflineFile =>
    (s.setQuery i (some { q with lsOffline := getOfflineFile s.files q.userId, stage := .getHasSentFile }), [])
  | .getHasSentFile => (s.setQuery i (some { q with lsSent := getHasSentFile s.files q.userId, stage := .respond }), [])
  | .respond => (s.setQuery i (some { q with stage := .update1to2 }), [q.response])
  | .update1to2 =>
    ({ s with files := setStatus s.files (fun f => f.toId = q.userId && f.status = 1) 2 }.setQuery i
      (some { q with stage := .update4to5 }), [])
  | .update4to5 =>
    ({ s with files := setStatus s.files (fun f => f.fromId = q.userId && f.status = 4) 5 }.setQuery i none, [])

/-- What can happen. A notification of several files is one event for each of them. -/
inductive Event where
  | addOfflineFile (req : AddOfflineReq) (now : Nat)
  | delOfflineFile (taskId : String)
  | hasOfflineFile (i userId : Nat) (attachData : List UInt8)
  | query (i : Nat)
  | notifyClientAck (taskId : String) (status : Nat)
  | changeFileStatus (taskId : String) (status : Nat)
  deriving DecidableEq, Repr

def step (same : String → String → Bool) (s : State) : Event → Option (State × List HasOfflineRsp)
  | .addOfflineFile req now => some ({ s with files := s.files ++ [addOfflineFile req now] }, [])
  | .delOfflineFile taskId => some ({ s with files := delOfflineFile same s.files taskId }, [])
  | .hasOfflineFile i userId attachData =>
    if s.queries i = none then
      some (s.setQuery i (some { userId, attachData, lsOffline := [], lsSent := [], stage := .getOfflineFile }), [])
    else none
  | .query i => (s.queries i).map fun q => hasOfflineFile s i q
  | .notifyClientAck taskId status => some ({ s with files := clientAckChangeStatus same s.files taskId status }, [])
  | .changeFileStatus taskId status => some ({ s with files := changeFileStatus same s.files taskId status }, [])

/-- The start: whatever is in the table. -/
def start (files : List TransmitFile) : State where
  files
  queries := fun _ => none

/-! ## Lookups and updates -/

/-- A lookup finds the rows that it asks for. -/
theorem mem_selectFiles {files : List TransmitFile} {which : TransmitFile → Bool} {id : Nat} :
    id ∈ (selectFiles files which).map Prod.fst ↔ ∃ f, files[id]? = some f ∧ which f = true := by
  simp only [selectFiles, List.map_map, List.mem_map, List.mem_insertionSort, List.mem_filter, Function.comp_apply, Prod.exists]
  constructor
  · rintro ⟨f, j, ⟨hmem, hwhich⟩, rfl⟩
    exact ⟨f, List.mem_zipIdx_iff_getElem?.1 hmem, hwhich⟩
  · rintro ⟨f, hf, hwhich⟩
    exact ⟨f, id, ⟨List.mem_zipIdx_iff_getElem?.2 hf, hwhich⟩, rfl⟩

theorem mem_getOfflineFile {files : List TransmitFile} {userId id : Nat} :
    id ∈ (getOfflineFile files userId).map Prod.fst ↔ ∃ f, files[id]? = some f ∧ f.toId = userId ∧ f.status = 1 := by
  simp [getOfflineFile, mem_selectFiles]

theorem mem_getHasSentFile {files : List TransmitFile} {userId id : Nat} :
    id ∈ (getHasSentFile files userId).map Prod.fst ↔ ∃ f, files[id]? = some f ∧ f.fromId = userId ∧ f.status = 4 := by
  simp [getHasSentFile, mem_selectFiles]

@[simp] theorem getElem?_setStatus (files : List TransmitFile) (which : TransmitFile → Bool) (status id : Nat) :
    (setStatus files which status)[id]? = (files[id]?).map fun f => if which f then { f with status } else f := by
  simp [setStatus]

/-- A row after an update: it was not asked for, and is as it was, or it was, and has the status. -/
theorem setStatus_cases {files : List TransmitFile} {which : TransmitFile → Bool} {status id : Nat} {f' : TransmitFile}
    (h : (setStatus files which status)[id]? = some f') :
    ∃ f, files[id]? = some f ∧ ((which f = false ∧ f' = f) ∨ (which f = true ∧ f' = { f with status })) := by
  rw [getElem?_setStatus] at h
  obtain ⟨f, hf, rfl⟩ := Option.map_eq_some_iff.1 h
  refine ⟨f, hf, ?_⟩
  cases hwhich : which f with
  | false => exact .inl ⟨rfl, by simp⟩
  | true => exact .inr ⟨rfl, by simp⟩

end TeamTalk.DbProxy.Files
