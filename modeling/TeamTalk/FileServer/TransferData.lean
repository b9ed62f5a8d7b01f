import TeamTalk.FileServer.TransferTask

/-!
# The data of a transfer

`DoRecvData` stores one block of an upload, and `DoPullFileRequest` reads one block for a download. Both answer -1 when they
refuse, 0 when more is to come, and 1 with the last block. `md5` is the digest of openssl, written in hexadecimal.
-/

namespace TeamTalk.FileServer

/-- What `DoRecvData` and `DoPullFileRequest` return. -/
inductive Rv where
  | refused
  | more
  | done
  deriving DecidableEq, Repr

/-- What an upload leaves in the trace: a block of this length was taken, and how the digests compared at the end. -/
inductive Upload where
  | block (taskId : TaskId) (length : Nat)
  | md5Equal (taskId : TaskId)
  | md5Inconsistent (taskId : TaskId)
  deriving DecidableEq, Repr

/-- What a call of `DoRecvData` leaves behind. -/
structure Received where
  storage : Storage
  task : Task
  rv : Rv
  trace : List Upload

/-- What a call of `DoPullFileRequest` leaves behind. -/
structure Pulled where
  task : Task
  rv : Rv
  data : Bytes

namespace Task

/-- The two checks of the state that an online task makes of data and of requests for data. -/
def transferOnline (t : Task) : Task × Rv :=
  match t.state with
  | .waitingTransfer => (t.setState .transfering, .more)
  | .transfering => (t, .more)
  | _ => (t, .refused)

/-- The file of an upload: it is made, with its header, when the first block comes. -/
def openForUpload (t : Task) (st : Storage) : Option (Storage × Task) :=
  if t.state = .waitingUpload then
    match t.pc.fp with
    | some fp => (st.writeHeader fp t.header).map fun st => (st, t.setState .uploading)
    | none =>
      match st.openByWrite t.taskId with
      | none => some (st, t)
      | some (st, fp) => (st.writeHeader fp t.header).map fun st => (st, { t with pc := { t.pc with fp := some fp, state := .uploading } })
  else some (st, t)

/-- Compare the digest of the whole file: it is closed, or removed. -/
def compareMd5 (md5 : Bytes → String) (t : Task) (st : Storage) (fp : Handle) (trace : List Upload) : Received :=
  if md5 (st.content fp) = t.fileMd5 then
    { storage := st, task := { t with pc := { t.pc with state := .uploadEnd, fp := none } }, rv := .done
      trace := trace ++ [.md5Equal t.taskId] }
  else
    { storage := st.remove t.taskId, task := t, rv := .refused, trace := trace ++ [.md5Inconsistent t.taskId] }

/-- `OfflineTransferTask::DoRecvData`: as many bytes are written as the block should have, whatever was sent. -/
def doRecvDataOffline (md5 : Bytes → String) (t : Task) (st : Storage) (userId offset : Nat) (data : Bytes) :
    Option Received :=
  if t.fromUserId ≠ userId then some { storage := st, task := t, rv := .refused, trace := [] }
  else if t.state ≠ .waitingUpload ∧ t.state ≠ .uploading then some { storage := st, task := t, rv := .refused, trace := [] }
  else if offset ≠ offsetOf t.pc.transferedIdx then some { storage := st, task := t, rv := .refused, trace := [] }
  else
    let dataSize := t.nextSegmentBlockSize false
    match t.openForUpload st with
    | none => none
    | some (st, t) =>
      match t.pc.fp with
      | none => some { storage := st, task := t, rv := .refused, trace := [] }
      | some fp =>
        -- `fwrite` reads behind the end of a block that is too short
        if data.length < dataSize then none
        else
          let st := st.append fp (data.take dataSize)
          let t := { t with pc := { t.pc with transferedIdx := t.pc.transferedIdx + 1 } }
          if t.pc.transferedIdx = t.sengmentSize then some (t.compareMd5 md5 st fp [.block t.taskId data.length])
          else some { storage := st, task := t, rv := .more, trace := [.block t.taskId data.length] }

/-- `DoRecvData`. -/
def doRecvData (md5 : Bytes → String) (t : Task) (st : Storage) (userId offset : Nat) (data : Bytes) : Option Received :=
  if t.offline then t.doRecvDataOffline md5 st userId offset data
  else if t.fromUserId = userId then
    some { storage := st, task := t.transferOnline.1, rv := t.transferOnline.2, trace := [] }
  else some { storage := st, task := t, rv := .refused, trace := [] }

/-- A download that waits opens the file, from the start; another one goes on with the file that is open. -/
def openForDownload (st : Storage) (taskId : TaskId) (s : Stream) : Stream × Bool :=
  if s.state = .waitingDownload then
    match st.openByRead taskId with
    | none => ({ s with transferedIdx := 0, fp := none }, false)
    | some fp =>
      if (st.readHeader fp).isSome then ({ state := .downloading, fp := some fp, transferedIdx := 0 }, true)
      else ({ s with transferedIdx := 0, fp := none }, false)
  else (s, s.fp.isSome)

/-- Was this the last block? The second test is made for mobile clients too, and closes the file of the PC client. -/
def pulledBlock (t : Task) (mobile : Bool) (data : Bytes) : Option Pulled :=
  if mobile ∧ t.mobile.transferedIdx = t.sengmentSize then
    some { task := { t with mobile := { state := .downloadEnd, fp := none, transferedIdx := 0 } }, rv := .done, data }
  else if t.pc.transferedIdx = t.sengmentSize then
    -- `fclose(NULL)` has no defined result
    match t.pc.fp with
    | none => none
    | some _ => some { task := { t with pc := { state := .downloadEnd, fp := none, transferedIdx := 0 } }, rv := .done, data }
  else some { task := t, rv := .more, data }

/-- `OfflineTransferTask::DoPullFileRequest`. -/
def doPullFileRequestOffline (t : Task) (st : Storage) (offset : Nat) (mobile : Bool) : Option Pulled :=
  if (t.stream mobile).state ≠ .waitingDownload ∧ (t.stream mobile).state ≠ .downloading then
    some { task := t, rv := .refused, data := [] }
  else
    let (s, opened) := openForDownload st t.taskId (t.stream mobile)
    let t := t.setStream mobile s
    if !opened then some { task := t, rv := .refused, data := [] }
    else if offset ≠ offsetOf s.transferedIdx then some { task := t, rv := .refused, data := [] }
    else
      match s.fp with
      | none => none
      | some fp =>
        let dataSize := t.nextSegmentBlockSize mobile
        let data := st.read fp dataSize
        let s := { s with fp := some { fp with pos := fp.pos + data.length } }
        if data.length ≠ dataSize then some { task := t.setStream mobile s, rv := .refused, data := [] }
        else (t.setStream mobile { s with transferedIdx := s.transferedIdx + 1 }).pulledBlock mobile data

/-- `DoPullFileRequest`. -/
def doPullFileRequest (t : Task) (st : Storage) (offset : Nat) (mode : TransferFileType) : Option Pulled :=
  if t.offline then t.doPullFileRequestOffline st offset (mode == .offlineMobile)
  else some { task := t.transferOnline.1, rv := t.transferOnline.2, data := [] }

end Task

end TeamTalk.FileServer
