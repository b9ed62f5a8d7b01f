import Mathlib
import TeamTalk.Base.UtilPdu

/-!
# Transfer tasks of file_server

`BaseTransferTask` with its two kinds: an online task is a relay between two connections, an offline task is uploaded to a file
and downloaded from it by a PC client and by a mobile client. What the code leaves undefined is `none`.
-/

namespace TeamTalk.FileServer

/-- A `FileClientConn*`; no number is given to two connections. -/
abbrev ConnId := Nat

/-- A `BaseTransferTask*`; no number is given to two tasks. -/
abbrev TaskRef := Nat

/-- A task id: the text of a UUID, when the server has made it. -/
abbrev TaskId := String

/-- `SEGMENT_SIZE`. -/
def segmentSize : Nat := 32768

/-- `TransferTaskState`. -/
inductive TransferTaskState where
  | invalid | ready | waitingSender | waitingReceiver | waitingTransfer | transfering | transferDone | waitingUpload
  | uploading | uploadEnd | waitingDownload | downloading | downloadEnd | error
  deriving DecidableEq, Repr

/-- `state() >= kTransferTaskStateUploadEnd`. -/
def TransferTaskState.uploadEnded : TransferTaskState → Bool
  | .uploadEnd | .waitingDownload | .downloading | .downloadEnd | .error => true
  | _ => false

/-- `TransferFileType`. -/
inductive TransferFileType where
  | online | offline | offlineMobile
  deriving DecidableEq, Repr

/-- `ClientFileRole`. -/
inductive ClientFileRole where
  | realtimeSender | realtimeRecver | offlineUpload | offlineDownload | offlineDownloadMobile
  deriving DecidableEq, Repr

/-! ## Files -/

/-- A file on disk, by its inode. -/
abbrev FileRef := Nat

/-- A `FILE*`: a file, and the position after the header. -/
structure Handle where
  file : FileRef
  pos : Nat
  deriving DecidableEq, Repr

/-- `OfflineFileHeader`, as it is read back. -/
structure OfflineFileHeader where
  taskId : TaskId
  fromUserId : Nat
  toUserId : Nat
  fileName : String
  fileSize : Nat
  fileMd5 : String
  deriving DecidableEq, Repr

/-- The content of a file: the header, once it is written, and the data after it. -/
structure StoredFile where
  header : Option OfflineFileHeader
  data : Bytes
  deriving DecidableEq, Repr

/-- The directory of offline files. A file that is removed stays as long as it is open. -/
structure Storage where
  files : FileRef → Option StoredFile
  paths : TaskId → Option FileRef
  nextFile : FileRef

namespace Storage

/-- An empty directory. -/
def init : Storage := { files := fun _ => none, paths := fun _ => none, nextFile := 0 }

/-- Change the content of a file. -/
def setFile (st : Storage) (f : FileRef) (file : StoredFile) : Storage :=
  { st with files := fun f' => if f' = f then some file else st.files f' }

/-- Change what a path names. -/
def setPath (st : Storage) (taskId : TaskId) (f : Option FileRef) : Storage :=
  { st with paths := fun id => if id = taskId then f else st.paths id }

/-- `OpenByRead`. -/
def openByRead (st : Storage) (taskId : TaskId) : Option Handle :=
  if 2 ≤ taskId.length then (st.paths taskId).map fun f => { file := f, pos := 0 } else none

/-- `OpenByWrite`: the file is made when there is none. -/
def openByWrite (st : Storage) (taskId : TaskId) : Option (Storage × Handle) :=
  if 2 ≤ taskId.length then
    match st.paths taskId with
    | some f => some (st, { file := f, pos := 0 })
    | none => some (({ st with nextFile := st.nextFile + 1 }.setFile st.nextFile { header := none, data := [] }).setPath taskId
        (some st.nextFile), { file := st.nextFile, pos := 0 })
  else none

/-- The header at the start of an open file. -/
def readHeader (st : Storage) (fp : Handle) : Option OfflineFileHeader :=
  match st.files fp.file with
  | some file => file.header
  | none => none

/-- What `fread` of the data gives. -/
def read (st : Storage) (fp : Handle) (size : Nat) : Bytes :=
  match st.files fp.file with
  | some file => (file.data.drop fp.pos).take size
  | none => []

/-- Write the header of a new file. A second header would be data; no file gets one. -/
def writeHeader (st : Storage) (fp : Handle) (header : OfflineFileHeader) : Option Storage :=
  match st.files fp.file with
  | some ⟨none, data⟩ => some (st.setFile fp.file { header := some header, data := data })
  | _ => none

/-- Append to an open file. -/
def append (st : Storage) (fp : Handle) (data : Bytes) : Storage :=
  match st.files fp.file with
  | some file => st.setFile fp.file { file with data := file.data ++ data }
  | none => st

/-- All data of an open file, from the header on. -/
def content (st : Storage) (fp : Handle) : Bytes :=
  match st.files fp.file with
  | some file => file.data
  | none => []

/-- `remove`. -/
def remove (st : Storage) (taskId : TaskId) : Storage := st.setPath taskId none

end Storage

/-! ## Tasks -/

/-- How far the transfer to one kind of client has come: `state_`, `fp_` and `transfered_idx_`, or their mobile twins. -/
structure Stream where
  state : TransferTaskState
  fp : Option Handle
  transferedIdx : Nat
  deriving DecidableEq, Repr

/-- `OnlineTransferTask` or `OfflineTransferTask`. -/
structure Task where
  offline : Bool
  taskId : TaskId
  fromUserId : Nat
  toUserId : Nat
  fileName : String
  fileSize : Nat
  fileMd5 : String
  pc : Stream
  mobile : Stream
  fromConn : Option ConnId
  toConn : Option ConnId
  toConnMobile : Option ConnId
  macSeqNum : Nat
  deriving DecidableEq, Repr

namespace Task

/-- The constructor. -/
def new (offline : Bool) (taskId : TaskId) (fromUserId toUserId : Nat) (fileName : String) (fileSize : Nat)
    (fileMd5 : String) : Task :=
  { offline, taskId, fromUserId, toUserId, fileName, fileSize, fileMd5
    pc := { state := .ready, fp := none, transferedIdx := 0 }
    mobile := { state := .ready, fp := none, transferedIdx := 0 }
    fromConn := none, toConn := none, toConnMobile := none, macSeqNum := 0 }

/-- `state`. -/
def state (t : Task) : TransferTaskState := t.pc.state

/-- `set_state`. -/
def setState (t : Task) (state : TransferTaskState) : Task := { t with pc := { t.pc with state := state } }

/-- The transfer to a PC client or to a mobile client. -/
def stream (t : Task) (mobile : Bool) : Stream := if mobile then t.mobile else t.pc

/-- Change one of the two. -/
def setStream (t : Task) (mobile : Bool) (s : Stream) : Task := if mobile then { t with mobile := s } else { t with pc := s }

/-- `GetOpponentConn`. -/
def opponentConn (t : Task) (userId : Nat) : Option ConnId := if userId = t.fromUserId then t.toConn else t.fromConn

/-- `SetConnByUserID`. -/
def setConnByUserId (t : Task) (userId : Nat) (conn : Option ConnId) (mobile : Bool) : Task :=
  if mobile ∧ t.toUserId = userId then { t with toConnMobile := conn }
  else if t.fromUserId = userId then { t with fromConn := conn }
  else if t.toUserId = userId then { t with toConn := conn }
  else t

/-- `CheckByUserIDAndFileRole`. -/
def checkByUserIdAndFileRole (t : Task) (userId : Nat) : ClientFileRole → Bool
  | .realtimeSender => !t.offline && t.fromUserId == userId
  | .realtimeRecver => !t.offline && t.toUserId == userId
  | .offlineUpload => t.offline && t.fromUserId == userId
  | .offlineDownload | .offlineDownloadMobile => t.offline && t.toUserId == userId

/-- `OnlineTransferTask::ChangePullState`, once the role is checked. What is refused here is answered with success. -/
def changePullStateOnline (t : Task) (role : ClientFileRole) : Task :=
  match t.state with
  | .ready => if role = .realtimeSender then t.setState .waitingReceiver else t.setState .waitingSender
  | .waitingReceiver => if role = .realtimeRecver then t.setState .waitingTransfer else t
  | .waitingSender => if role = .realtimeSender then t.setState .waitingTransfer else t
  | _ => t

/-- `OfflineTransferTask::ChangePullState`, once the role is checked. What is refused here is answered with success. -/
def changePullStateOffline (t : Task) (role : ClientFileRole) : Task :=
  if t.state = .ready then
    if role = .offlineUpload then t.setState .waitingUpload else t
  else
    match role with
    | .offlineDownload => { t with pc := { t.pc with state := .waitingDownload, transferedIdx := 0 } }
    | .offlineDownloadMobile => { t with mobile := { t.mobile with state := .waitingDownload } }
    | _ => t

/-- `ChangePullState`. -/
def changePullState (t : Task) (userId : Nat) (role : ClientFileRole) : Task × Bool :=
  if t.checkByUserIdAndFileRole userId role then
    (if t.offline then t.changePullStateOffline role else t.changePullStateOnline role, true)
  else (t, false)

/-- `SetMaxSegmentSize`. -/
def sengmentSize (t : Task) : Nat :=
  if t.fileSize % segmentSize ≠ 0 then t.fileSize / segmentSize + 1 else t.fileSize / segmentSize

/-- The segments are those that begin inside the file. -/
theorem lt_sengmentSize_iff (t : Task) (i : Nat) : i < t.sengmentSize ↔ i * segmentSize < t.fileSize := by
  rw [sengmentSize]
  by_cases h : t.fileSize % segmentSize = 0
  · rw [if_neg (not_not.2 h)]
    simp only [segmentSize] at *
    omega
  · rw [if_pos h]
    simp only [segmentSize] at *
    omega

/-- `GetNextSegmentBlockSize`: the last test is made for mobile clients too. -/
def nextSegmentBlockSize (t : Task) (mobile : Bool) : Nat :=
  if t.pc.transferedIdx + 1 = t.sengmentSize then t.fileSize - t.pc.transferedIdx * segmentSize
  else if mobile ∧ t.mobile.transferedIdx + 1 = t.sengmentSize then t.fileSize - t.mobile.transferedIdx * segmentSize
  else segmentSize

/-- `transfered_idx_ * SEGMENT_SIZE`, in `uint32_t`. -/
def offsetOf (transferedIdx : Nat) : Nat := transferedIdx * segmentSize % uint32Size

/-- `GetNextOffset`; an online task has none. -/
def nextOffset (t : Task) : Nat := if t.offline then offsetOf t.pc.transferedIdx else uint32Size - 1

/-- `OfflineTransferTask::LoadFromDisk`. -/
def loadFromDisk (st : Storage) (taskId : TaskId) : Option Task :=
  match st.openByRead taskId with
  | none => none
  | some fp =>
    match st.readHeader fp with
    | none => none
    | some header =>
      if (st.content fp).length = header.fileSize then
        some ((Task.new true header.taskId header.fromUserId header.toUserId header.fileName header.fileSize
          header.fileMd5).setState .waitingDownload)
      else none

/-- The header that an upload writes. -/
def header (t : Task) : OfflineFileHeader :=
  { taskId := t.taskId, fromUserId := t.fromUserId, toUserId := t.toUserId, fileName := "", fileSize := t.fileSize,
    fileMd5 := t.fileMd5 }

end Task

end TeamTalk.FileServer
