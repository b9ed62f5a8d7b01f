import TeamTalk.FileServer.TransferData
import TeamTalk.Lib.Machine

/-!
# Client connections of file_server

`FileClientConn` and `TransferTaskManager`. A connection that a handler closes stays allocated until the batch of PDUs that is
being read is used up; the PDUs left in the batch are still handled. What the code leaves undefined (a call on an object that
has been deleted, `fclose(NULL)`) is `none`.
-/

namespace TeamTalk.FileServer

/-- `FileClientConn`; `modetag` is set by a mobile login, and never reset. -/
structure FileClientConn where
  isOpen : Bool
  auth : Bool
  modetag : Bool
  userId : Nat
  transferTask : Option TaskRef
  deriving DecidableEq, Repr

/-- The objects of the server, and the directory of offline files. `closing` is a connection that has been closed by a PDU of
the batch being read; `uuids` are the task ids made so far. -/
structure Server where
  conns : ConnId → Option FileClientConn
  nextConn : ConnId
  tasks : TaskRef → Option Task
  nextTask : TaskRef
  transferTasks : List (TaskId × TaskRef)
  storage : Storage
  uuids : List TaskId
  closing : Option ConnId

/-- `IMFileReq` and its kin, as a client sends them; a PDU that does not parse changes nothing. -/
inductive Pdu where
  | heartBeat
  | login (userId : Nat) (taskId : TaskId) (fileRole : ClientFileRole)
  | fileState (state : Nat) (ttype : Nat) (taskId : TaskId) (userId : Nat)
  | pullDataReq (taskId : TaskId) (userId : Nat) (transMode : TransferFileType) (offset dataSize : Nat)
  | pullDataRsp (resultCode : Nat) (taskId : TaskId) (userId offset : Nat) (fileData : Bytes)
  deriving DecidableEq, Repr

/-- `IMFileTransferReq`, without the data that is handed back. -/
structure TransferReq where
  fromUserId : Nat
  toUserId : Nat
  fileName : String
  fileSize : Nat
  transMode : TransferFileType
  fileMd5 : String
  deriving DecidableEq, Repr

/-- What the server sends and does, and what is worth a trace. -/
inductive Effect where
  | heartBeat (conn : ConnId)
  | loginRsp (conn : ConnId) (seqNum resultCode : Nat) (taskId : TaskId)
  | fileState (conn : ConnId) (state ttype : Nat) (taskId : TaskId) (userId : Nat)
  | pullDataReq (conn : ConnId) (taskId : TaskId) (userId offset dataSize : Nat)
  | pullDataRsp (conn : ConnId) (seqNum : Nat) (taskId : TaskId) (userId offset : Nat) (fileData : Bytes)
  | forward (conn : ConnId) (seqNum : Nat) (pdu : Pdu)
  | notifyDbserver (fromUserId : Nat) (taskId : TaskId) (fileName : String) (fileSize : Nat) (fileMd5 : String)
  | transferRsp (resultCode : Nat) (taskId : TaskId) (req : TransferReq)
  | netlibClose (conn : ConnId)
  | upload (u : Upload)
  deriving DecidableEq, Repr

/-- `CLIENT_FILE_PEER_READY`. -/
def clientFilePeerReady : Nat := 0

/-- `CLIENT_FILE_CANCEL`. -/
def clientFileCancel : Nat := 1

/-- `CLIENT_FILE_REFUSE`. -/
def clientFileRefuse : Nat := 2

/-- `CLIENT_FILE_DONE`. -/
def clientFileDone : Nat := 3

/-- `FILE_UPLOAD`. -/
def fileUpload : Nat := 1

/-- `FILE_DOWNLOAD`. -/
def fileDownload : Nat := 2

namespace Server

/-- A server that has just been started, on a directory of offline files. -/
def start (storage : Storage) (nextConn : ConnId) (nextTask : TaskRef) (uuids : List TaskId) : Server :=
  { conns := fun _ => none, nextConn, tasks := fun _ => none, nextTask, transferTasks := [], storage, uuids, closing := none }

/-- The first start. -/
def init : Server := start Storage.init 0 0 []

/-- Change a connection. -/
def setConn (s : Server) (c : ConnId) (conn : Option FileClientConn) : Server :=
  { s with conns := fun c' => if c' = c then conn else s.conns c' }

/-- Change a task. -/
def setTask (s : Server) (r : TaskRef) (t : Option Task) : Server :=
  { s with tasks := fun r' => if r' = r then t else s.tasks r' }

/-- Put a task where none was. -/
def addTask (s : Server) (t : Task) : Server := { s with nextTask := s.nextTask + 1 }.setTask s.nextTask (some t)

/-- The PDU is written to a connection; nothing is written to one that is closed. -/
def sendTo (s : Server) (conn : ConnId) (effect : Effect) : Option (List Effect) :=
  match s.conns conn with
  | none => none
  | some c => some (if c.isOpen then [effect] else [])

/-! ## TransferTaskManager -/

/-- `FindByTaskID`. -/
def findByTaskId (s : Server) (taskId : TaskId) : Option TaskRef := s.transferTasks.lookup taskId

/-- `transfer_tasks_.insert`: a task id that is taken keeps its task. -/
def insertTask (s : Server) (taskId : TaskId) (r : TaskRef) : Server :=
  match s.findByTaskId taskId with
  | some _ => s
  | none => { s with transferTasks := (taskId, r) :: s.transferTasks }

/-- `transfer_tasks_.erase`. -/
def eraseTask (s : Server) (taskId : TaskId) : Server :=
  { s with transferTasks := s.transferTasks.filter fun p => p.1 ≠ taskId }

/-- `NewTransferTask` for a request of msg_server. -/
def newTransferTask (s : Server) (taskId : TaskId) (req : TransferReq) : Server × Bool :=
  match s.findByTaskId taskId with
  | some _ => (s, false)
  | none =>
    if req.transMode = .offlineMobile then (s, false)
    else
      ((s.addTask (Task.new (req.transMode == .offline) taskId req.fromUserId req.toUserId req.fileName req.fileSize
        req.fileMd5)).insertTask taskId s.nextTask, true)

/-- `NewTransferTask` from the file on disk. -/
def newTransferTaskFromDisk (s : Server) (taskId : TaskId) : Option (Server × TaskRef) :=
  match Task.loadFromDisk s.storage taskId with
  | none => none
  | some t => some ((s.addTask t).insertTask taskId s.nextTask, s.nextTask)

/-- `DeleteTransferTaskByConnClose`. -/
def deleteTransferTaskByConnClose (s : Server) (taskId : TaskId) : Option Server :=
  match s.findByTaskId taskId with
  | none => some s
  | some r =>
    match s.tasks r with
    | none => none
    | some t =>
      if t.offline then
        if t.state ≠ .waitingUpload then some ((s.setTask r none).eraseTask taskId) else some s
      else if t.fromConn = none ∧ t.toConn = none then some ((s.setTask r none).eraseTask taskId)
      else some s

/-- `ClearTransferTask` of a connection that a task points to. -/
def clearTransferTask (s : Server) : Option ConnId → Option Server
  | none => some s
  | some c =>
    match s.conns c with
    | none => none
    | some conn => some (s.setConn c (some { conn with userId := 0, transferTask := none }))

/-- One turn of the loop of `TransferTaskManager::OnTimer`. -/
def onTimerTask (expired : TaskId → Bool) (s : Server) (p : TaskId × TaskRef) : Option Server :=
  match s.tasks p.2 with
  | none => none
  | some t =>
    if t.state = .transferDone ∧ expired p.1 then
      match s.clearTransferTask t.fromConn with
      | none => none
      | some s =>
        match s.clearTransferTask t.toConn with
        | none => none
        | some s => some ((s.setTask p.2 none).eraseTask p.1)
    else some s

/-- `TransferTaskManager::OnTimer`; `expired` says which tasks are older than the time-out. -/
def onTimer (s : Server) (expired : TaskId → Bool) : Option Server := s.transferTasks.foldlM (onTimerTask expired) s

/-! ## FileClientConn -/

/-- The other connections of a task that is left by one of them: those that are not mobile lose it. -/
def dropOthers (s : Server) (c : ConnId) (task : Option TaskRef) : Server :=
  { s with conns := fun c' =>
      match s.conns c' with
      | some conn =>
        if c' ≠ c ∧ conn.isOpen ∧ conn.transferTask = task ∧ !conn.modetag then some { conn with transferTask := none }
        else some conn
      | none => none }

/-- The task of a connection that closes: a download can start again, and a task that nobody waits for is deleted. -/
def leaveTask (s : Server) (conn : FileClientConn) (r : TaskRef) : Option Server :=
  match s.tasks r with
  | none => none
  | some t =>
    let t := if t.state.uploadEnded then t.setState .waitingDownload else t
    let t := t.setConnByUserId conn.userId none conn.modetag
    let s := s.setTask r (some t)
    if t.toConn = none ∧ t.toConnMobile = none then s.deleteTransferTaskByConnClose t.taskId else some s

/-- `FileClientConn::Close`. To close a connection again releases it once too often. -/
def close (s : Server) (c : ConnId) : Option (Server × List Effect) :=
  match s.conns c with
  | none => none
  | some conn =>
    if conn.isOpen then
      let s := s.dropOthers c conn.transferTask
      match (match conn.transferTask with
        | none => some s
        | some r => s.leaveTask conn r) with
      | none => none
      | some s =>
        some (s.setConn c (some { conn with isOpen := false, auth := false, transferTask := none }), [.netlibClose c])
    else none

/-- `FileClientConn::Close` from a handler: the batch goes on. -/
def closeSelf (s : Server) (c : ConnId) : Option (Server × List Effect) :=
  match s.close c with
  | none => none
  | some (s, out) => some ({ s with closing := some c }, out)

/-- The task that a login finds, or loads. -/
def findOrLoad (s : Server) (taskId : TaskId) (fileRole : ClientFileRole) : Option (Server × TaskRef) :=
  match s.findByTaskId taskId with
  | some r => some (s, r)
  | none =>
    if fileRole = .offlineDownload ∨ fileRole = .offlineDownloadMobile then s.newTransferTaskFromDisk taskId else none

/-- A login that is refused is answered, and the connection closed. -/
def refuseLogin (s : Server) (c : ConnId) (seqNum : Nat) (taskId : TaskId) : Option (Server × List Effect) :=
  match s.sendTo c (.loginRsp c seqNum 1 taskId) with
  | none => none
  | some out =>
    match s.closeSelf c with
    | none => none
    | some (s, out') => some (s, out ++ out')

/-- What follows a login that is answered with success: a relay can start, or an upload is asked for. -/
def afterLogin (s : Server) (c : ConnId) (taskId : TaskId) (userId : Nat) (t : Task) : Option (Server × List Effect) :=
  if t.offline then
    if t.state = .waitingUpload then
      match s.sendTo c (.pullDataReq c taskId userId 0 (t.nextSegmentBlockSize false)) with
      | none => none
      | some out => some (s, out)
    else some (s, [])
  else if t.state = .waitingTransfer then
    match t.toConn with
    | none => s.closeSelf c
    | some d =>
      match s.sendTo d (.fileState d clientFilePeerReady fileUpload taskId t.fromUserId) with
      | none => none
      | some out => some (s, out)
  else some (s, [])

/-- `FileClientConn::_HandleClientFileLoginReq`. -/
def handleClientFileLoginReq (s : Server) (c : ConnId) (conn : FileClientConn) (seqNum userId : Nat) (taskId : TaskId)
    (fileRole : ClientFileRole) : Option (Server × List Effect) :=
  match s.findOrLoad taskId fileRole with
  | none => s.refuseLogin c seqNum taskId
  | some (s, r) =>
    match s.tasks r with
    | none => none
    | some t =>
      let (t, rv) := t.changePullState userId fileRole
      if rv then
        let t := t.setConnByUserId userId (some c) (fileRole == .offlineDownloadMobile)
        let conn :=
          { conn with
            modetag := conn.modetag || fileRole == .offlineDownloadMobile, auth := true, transferTask := some r, userId }
        let s := (s.setTask r (some t)).setConn c (some conn)
        match s.sendTo c (.loginRsp c seqNum 0 taskId) with
        | none => none
        | some out =>
          match s.afterLogin c taskId userId t with
          | none => none
          | some (s, out') => some (s, out ++ out')
      else (s.setTask r (some t)).refuseLogin c seqNum taskId

/-- `FileClientConn::_HandleClientFileStates`: what a client says of its task is passed on, and the connection closed. -/
def handleClientFileStates (s : Server) (c : ConnId) (conn : FileClientConn) (seqNum state ttype : Nat) (taskId : TaskId)
    (userId : Nat) : Option (Server × List Effect) :=
  match conn.transferTask with
  | none => some (s, [])
  | some r =>
    if !conn.auth then some (s, [])
    else
      match s.tasks r with
      | none => none
      | some t =>
        let out :=
          if userId = conn.userId ∧ t.taskId = taskId ∧
              (state = clientFileCancel ∨ state = clientFileDone ∨ state = clientFileRefuse) then
            match t.opponentConn userId with
            | some d => s.sendTo d (.forward d seqNum (.fileState state ttype taskId userId))
            | none => some []
          else some []
        match out with
        | none => none
        | some out =>
          match s.closeSelf c with
          | none => none
          | some (s, out') => some (s, out ++ out')

/-- The task that a request for data is about: a connection that has none loads it. -/
def taskForPull (s : Server) (c : ConnId) (conn : FileClientConn) (taskId : TaskId) (userId : Nat) :
    Option (Server × TaskRef) :=
  match conn.transferTask with
  | some r => some (s, r)
  | none =>
    match s.newTransferTaskFromDisk taskId with
    | none => none
    | some (s, r) =>
      match s.tasks r with
      | none => none
      | some t =>
        some ((s.setTask r (some (t.changePullState userId .offlineDownload).1)).setConn c
          (some { conn with transferTask := some r }), r)

/-- What msg_server is told when a download has begun. -/
def beginNotice (t : Task) (taskId : TaskId) : List Effect :=
  if t.nextOffset = 32768 then [.notifyDbserver t.toUserId taskId t.fileName t.fileSize t.fileMd5] else []

/-- The answer to a request for data: an online task asks the other client, an offline task sends the block. -/
def answerPull (s : Server) (c : ConnId) (seqNum : Nat) (r : TaskRef) (t : Task) (taskId : TaskId) (userId : Nat)
    (transMode : TransferFileType) (offset dataSize : Nat) (rv : Rv) (data : Bytes) : Option (Server × List Effect) :=
  if rv = .refused then some (s, [])
  else if t.offline then
    match s.sendTo c (.pullDataRsp c seqNum taskId userId offset data) with
    | none => none
    | some out =>
      if rv = .done then
        match s.sendTo c (.fileState c clientFileDone fileDownload taskId t.fromUserId) with
        | none => none
        | some out' => some (s, out ++ out')
      else some (s, out)
  else
    let t := { t with macSeqNum := seqNum }
    let s := s.setTask r (some t)
    match t.opponentConn userId with
    | none => some (s, [])
    | some d =>
      match s.sendTo d (.forward d seqNum (.pullDataReq taskId userId transMode offset dataSize)) with
      | none => none
      | some out => some (s, out)

/-- `FileClientConn::_HandleClientFilePullFileReq`. -/
def handleClientFilePullFileReq (s : Server) (c : ConnId) (conn : FileClientConn) (seqNum : Nat) (taskId : TaskId)
    (userId : Nat) (transMode : TransferFileType) (offset dataSize : Nat) : Option (Server × List Effect) :=
  if !conn.auth then some (s, [])
  else
    match s.taskForPull c conn taskId userId with
    | none => none
    | some (s, r) =>
      match s.tasks r with
      | none => none
      | some t =>
        if userId ≠ conn.userId ∨ t.taskId ≠ taskId ∨ t.toUserId ≠ userId then some (s, [])
        else
          match t.doPullFileRequest s.storage offset transMode with
          | none => none
          | some p =>
            match (s.setTask r (some p.task)).answerPull c seqNum r p.task taskId userId transMode offset dataSize p.rv p.data with
            | none => none
            | some (s, out) => some (s, beginNotice p.task taskId ++ out)

/-- The answer to a block of data: an online task passes it on, an offline task asks for the next block. -/
def answerData (s : Server) (c : ConnId) (t : Task) (pdu : Pdu) (taskId : TaskId) (userId : Nat) (rv : Rv) :
    Option (Server × List Effect) :=
  if rv = .refused then some (s, [])
  else if t.offline then
    match s.sendTo c (if rv = .done then .fileState c clientFileDone fileUpload taskId userId
        else .pullDataReq c taskId userId t.nextOffset (t.nextSegmentBlockSize false)) with
    | none => none
    | some out => some (s, out)
  else
    match t.toConn with
    | none => some (s, [])
    | some d =>
      match s.sendTo d (.forward d t.macSeqNum pdu) with
      | none => none
      | some out => some (s, out)

/-- `FileClientConn::_HandleClientFilePullFileRsp`. -/
def handleClientFilePullFileRsp (md5 : Bytes → String) (s : Server) (c : ConnId) (conn : FileClientConn)
    (resultCode : Nat) (taskId : TaskId) (userId offset : Nat) (fileData : Bytes) : Option (Server × List Effect) :=
  match conn.transferTask with
  | none => some (s, [])
  | some r =>
    if !conn.auth then some (s, [])
    else
      match s.tasks r with
      | none => none
      | some t =>
        if userId ≠ conn.userId ∨ t.taskId ≠ taskId then some (s, [])
        else
          match t.doRecvData md5 s.storage userId offset fileData with
          | none => none
          | some d =>
            match (({ s with storage := d.storage }).setTask r (some d.task)).answerData c d.task
                (.pullDataRsp resultCode taskId userId offset fileData) taskId userId d.rv with
            | none => none
            | some (s, out) => some (s, d.trace.map .upload ++ out)

/-- `FileClientConn::HandlePdu`. -/
def handlePdu (md5 : Bytes → String) (s : Server) (c : ConnId) (conn : FileClientConn) (seqNum : Nat) :
    Pdu → Option (Server × List Effect)
  | .heartBeat =>
    match s.sendTo c (.heartBeat c) with
    | none => none
    | some out => some (s, out)
  | .login userId taskId fileRole => s.handleClientFileLoginReq c conn seqNum userId taskId fileRole
  | .fileState state ttype taskId userId => s.handleClientFileStates c conn seqNum state ttype taskId userId
  | .pullDataReq taskId userId transMode offset dataSize =>
    s.handleClientFilePullFileReq c conn seqNum taskId userId transMode offset dataSize
  | .pullDataRsp resultCode taskId userId offset fileData =>
    s.handleClientFilePullFileRsp md5 c conn resultCode taskId userId offset fileData

end Server

/-- What can happen. `restart` ends the process and starts it again. -/
inductive Event where
  | accept
  | pdu (c : ConnId) (seqNum : Nat) (pdu : Pdu)
  | batchEnd
  | close (c : ConnId)
  | transferReq (taskId : TaskId) (req : TransferReq)
  | timer (expired : TaskId → Bool)
  | restart

/-- One event. While the batch of a closed connection is not used up nothing else happens; then the connection is freed. -/
def step (md5 : Bytes → String) (s : Server) : Event → Option (Server × List Effect)
  | .accept =>
    if s.closing = none then
      some ({ s with nextConn := s.nextConn + 1 }.setConn s.nextConn
        (some { isOpen := true, auth := false, modetag := false, userId := 0, transferTask := none }), [])
    else none
  | .pdu c seqNum pdu =>
    match s.conns c with
    | none => none
    | some conn => if s.closing = none ∨ s.closing = some c then s.handlePdu md5 c conn seqNum pdu else none
  | .batchEnd =>
    match s.closing with
    | none => none
    | some c => some ({ s with closing := none }.setConn c none, [])
  | .close c =>
    if s.closing = none then
      match s.close c with
      | none => none
      | some (s, out) => some (s.setConn c none, out)
    else none
  | .transferReq taskId req =>
    -- a new UUID is the name of no other task
    if s.closing = none ∧ taskId ∉ s.uuids ∧ 2 ≤ taskId.length then
      let (s, rv) := s.newTransferTask taskId req
      some ({ s with uuids := taskId :: s.uuids }, [.transferRsp (if rv then 0 else 1) (if rv then taskId else "") req])
    else none
  | .timer expired =>
    if s.closing = none then
      match s.onTimer expired with
      | none => none
      | some s => some (s, [])
    else none
  | .restart => some (Server.start s.storage s.nextConn s.nextTask s.uuids, [])

end TeamTalk.FileServer
