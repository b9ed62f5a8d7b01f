import TeamTalk.FileServer.Links

/-!
# Two downloads of one file

A PC client and a mobile client download the same file, each in order, and each can leave and start again at any time. What
each of them gets is the file, as far as he has come, in every run in which the mobile client asks for no block but its last
one while the PC client waits for its last block or the uploaded task has not been downloaded yet, and does not leave before
the PC client.
-/

namespace TeamTalk.FileServer

/-- file_server, and for the PC client (`false`) and the mobile client (`true`): its connection, the block it asks for next, and
what it has got since it logged in. -/
structure Downloads where
  server : Server
  conn : Bool → Option ConnId
  next : Bool → Nat
  got : Bool → Bytes

/-- What the two clients do. -/
inductive Act where
  | login (mobile : Bool) (seqNum : Nat)
  | pull (mobile : Bool) (seqNum dataSize : Nat)
  | leave (mobile : Bool)

/-- The file that is downloaded, and its receiver. -/
structure Wanted where
  id : TaskId
  userId : Nat
  data : Bytes

/-- The role of a downloader. -/
def roleOf (mobile : Bool) : ClientFileRole := if mobile then .offlineDownloadMobile else .offlineDownload

/-- The mode of a downloader. -/
def modeOf (mobile : Bool) : TransferFileType := if mobile then .offlineMobile else .offline

/-- How many blocks a file has. -/
def Wanted.segments (w : Wanted) : Nat := (w.data.length + (segmentSize - 1)) / segmentSize

/-- The data that is sent, if any. -/
def answerOf (out : List Effect) : Option Bytes :=
  out.findSome? fun
    | .pullDataRsp _ _ _ _ _ data => some data
    | _ => none

namespace Downloads

/-- A client has logged in, and begins anew. -/
def begun (d : Downloads) (s : Server) (mobile : Bool) (c : ConnId) : Downloads :=
  { server := s
    conn := fun m => if m = mobile then some c else d.conn m
    next := fun m => if m = mobile then 0 else d.next m
    got := fun m => if m = mobile then [] else d.got m }

/-- A client has asked for a block. -/
def pulled (d : Downloads) (s : Server) (mobile : Bool) (answer : Option Bytes) : Downloads :=
  { server := s
    conn := d.conn
    next := fun m => if m = mobile then d.next m + 1 else d.next m
    got := fun m => if m = mobile then d.got m ++ answer.getD [] else d.got m }

/-- A client has closed its connection. -/
def gone (d : Downloads) (s : Server) (mobile : Bool) : Downloads :=
  { d with server := s, conn := fun m => if m = mobile then none else d.conn m }

end Downloads

/-- One step. A client that has no connection makes one to log in; it asks for no block behind the last one. What is put out is
whether the result is defined. -/
def downloadsStep (md5 : Bytes → String) (w : Wanted) (d : Downloads) : Act → Option (Downloads × List Bool)
  | .login mobile seqNum =>
    match (match d.conn mobile with
      | some c => some (d.server, c)
      | none =>
        match step md5 d.server .accept with
        | none => none
        | some (s, _) => some (s, d.server.nextConn)) with
    | none => some (d, [false])
    | some (s, c) =>
      match step md5 s (.pdu c seqNum (.login w.userId w.id (roleOf mobile))) with
      | none => some (d, [false])
      | some (s, _) => some (d.begun s mobile c, [true])
  | .pull mobile seqNum dataSize =>
    match d.conn mobile with
    | none => none
    | some c =>
      if d.next mobile < w.segments then
        match step md5 d.server (.pdu c seqNum (.pullDataReq w.id w.userId (modeOf mobile) (Task.offsetOf (d.next mobile)) dataSize)) with
        | none => some (d, [false])
        | some (s, out) => some (d.pulled s mobile (answerOf out), [true])
      else none
  | .leave mobile =>
    match d.conn mobile with
    | none => none
    | some c =>
      match step md5 d.server (.close c) with
      | none => some (d, [false])
      | some (s, _) => some (d.gone s mobile, [true])

/-- The file is stored, and nobody downloads it. A task of it that is still there has been uploaded. -/
structure Stored (w : Wanted) (s : Server) : Prop where
  closing : s.closing = none
  freshConn : ∀ c conn, s.conns c = some conn → c < s.nextConn
  freshTask : ∀ r t, s.tasks r = some t → r < s.nextTask
  file : 2 ≤ w.id.length ∧ ∃ f header, s.storage.paths w.id = some f ∧ s.storage.files f = some ⟨some header, w.data⟩ ∧
    header.taskId = w.id ∧ header.toUserId = w.userId ∧ header.fileSize = w.data.length
  task : ∀ r, s.findByTaskId w.id = some r → ∃ t, s.tasks r = some t ∧ t.offline = true ∧ t.taskId = w.id ∧
    t.toUserId = w.userId ∧ t.fileSize = w.data.length ∧ t.state.uploadEnded = true ∧ t.toConn = none ∧ t.toConnMobile = none

/-- The start: nobody has a connection. -/
def Downloads.start (s : Server) : Downloads := { server := s, conn := fun _ => none, next := fun _ => 0, got := fun _ => [] }

/-- The condition on a step of the mobile client. -/
def DownloadsMeet (w : Wanted) (d : Downloads) : Act → Prop
  | .pull true _ _ => ∀ r t, d.server.findByTaskId w.id = some r → d.server.tasks r = some t → d.next true + 1 ≠ w.segments →
      t.pc.transferedIdx ≠ w.segments ∧ t.pc.transferedIdx + 1 ≠ w.segments
  | .leave true => d.conn false = none
  | _ => True

/-- Both clients have got the file as far as they have come, and nothing undefined has happened. -/
def Undisturbed (w : Wanted) (log : List Bool) (d : Downloads) : Prop :=
  (∀ mobile, d.got mobile = w.data.take (d.next mobile * segmentSize)) ∧ false ∉ log

/-- Every run whose steps all meet `ok` leaves both downloads undisturbed. -/
def DownloadsKept (ok : Wanted → Downloads → Act → Prop) : Prop :=
  ∀ (md5 : Bytes → String) (w : Wanted) (s : Server), Stored w s → ∀ (log : List Bool) (d : Downloads),
    Machine.Run (downloadsStep md5 w) (ok w) (Downloads.start s) log d → Undisturbed w log d

namespace DownloadsAux

/-! ## Blocks -/

/-- One block of the file. -/
def segment (w : Wanted) (i : Nat) : Bytes := (w.data.drop (i * segmentSize)).take segmentSize

/-- As many segments as the data needs. -/
theorem segments_eq {w : Wanted} {t : Task} (h : t.fileSize = w.data.length) : t.sengmentSize = w.segments := by
  have hlt : ∀ i, i < t.sengmentSize ↔ i < w.segments := by
    intro i
    rw [t.lt_sengmentSize_iff, h, Wanted.segments]
    simp only [segmentSize]
    omega
  have h1 := hlt t.sengmentSize
  have h2 := hlt w.segments
  omega

/-- The data up to the next segment. -/
theorem take_succ_segment (w : Wanted) (i : Nat) :
    w.data.take (i * segmentSize) ++ segment w i = w.data.take ((i + 1) * segmentSize) := by
  rw [segment, Nat.succ_mul, List.take_add]

/-- The file on disk. -/
structure OnDisk (w : Wanted) (st : Storage) (f : FileRef) : Prop where
  length : 2 ≤ w.id.length
  path : st.paths w.id = some f
  file : ∃ header, st.files f = some ⟨some header, w.data⟩ ∧ header.taskId = w.id ∧ header.toUserId = w.userId ∧
    header.fileSize = w.data.length

/-- How far a transfer is, when its client asks for a block next: it has not begun, or the file is open where it stopped, or it
has come to its end. -/
def At (w : Wanted) (f : FileRef) (s : Stream) (next : Nat) : Prop :=
  next = w.segments ∨ (s.state = .waitingDownload ∧ next = 0) ∨
    (s.state = .downloading ∧ s.fp = some { file := f, pos := next * segmentSize } ∧ s.transferedIdx = next)

/-- A stream waiting for a segment opens its file there. -/
theorem openForDownload_at {w : Wanted} {st : Storage} {f : FileRef} {s : Stream} {next : Nat} (hdisk : OnDisk w st f)
    (hat : At w f s next) (hnext : next < w.segments) : (s.state = .waitingDownload ∨ s.state = .downloading) ∧
      Task.openForDownload st w.id s = (⟨.downloading, some ⟨f, next * segmentSize⟩, next⟩, true) := by
  rcases hat with hend | ⟨hs, rfl⟩ | ⟨hs, hfp, hidx⟩
  · omega
  · obtain ⟨header, hfile, -⟩ := hdisk.file
    refine ⟨.inl hs, ?_⟩
    have hopen : st.openByRead w.id = some ⟨f, 0⟩ := by
      rw [Storage.openByRead, if_pos hdisk.length, hdisk.path]
      rfl
    have hheader : (st.readHeader ⟨f, 0⟩).isSome = true := by
      simp only [Storage.readHeader, hfile]
      rfl
    simp only [Task.openForDownload, if_pos hs, hopen, if_pos hheader, Nat.zero_mul]
  · refine ⟨.inr hs, ?_⟩
    rcases s with ⟨state, fp, transferedIdx⟩
    obtain rfl : state = .downloading := hs
    obtain rfl : fp = _ := hfp
    obtain rfl : transferedIdx = next := hidx
    rfl

/-- The later of two streams stored counts. -/
@[simp] theorem setStream_setStream (t : Task) (m : Bool) (s s' : Stream) :
    (t.setStream m s).setStream m s' = t.setStream m s' := by
  cases m <;> rfl

/-- A stored stream is found on its own side. -/
@[simp] theorem stream_setStream (t : Task) (m m' : Bool) (s : Stream) :
    (t.setStream m s).stream m' = if m' = m then s else t.stream m' := by
  cases m <;> cases m' <;> rfl

/-- And the number of segments stays. -/
@[simp] theorem sengmentSize_setStream (t : Task) (m : Bool) (s : Stream) : (t.setStream m s).sengmentSize = t.sengmentSize := by
  cases m <;> rfl

/-- How long a block is: the PC client's place matters to the mobile client only when it is the last but one. -/
theorem blockSize_eq {t : Task} {m : Bool} (next : Nat) (fp : Option Handle)
    (hguard : m = true → next + 1 ≠ t.sengmentSize → t.pc.transferedIdx + 1 ≠ t.sengmentSize) :
    (t.setStream m ⟨.downloading, fp, next⟩).nextSegmentBlockSize m =
      if next + 1 = t.sengmentSize then t.fileSize - next * segmentSize else segmentSize := by
  cases m with
  | false =>
    change (if next + 1 = t.sengmentSize then _ else if (false = true) ∧ _ then _ else _) = _
    by_cases hlast : next + 1 = t.sengmentSize
    · rw [if_pos hlast, if_pos hlast]
      rfl
    · rw [if_neg hlast, if_neg hlast, if_neg fun h => by cases h.1]
  | true =>
    change (if t.pc.transferedIdx + 1 = t.sengmentSize then t.fileSize - t.pc.transferedIdx * segmentSize
      else if (true = true) ∧ next + 1 = t.sengmentSize then t.fileSize - next * segmentSize else segmentSize) = _
    by_cases hlast : next + 1 = t.sengmentSize
    · by_cases hpc : t.pc.transferedIdx + 1 = t.sengmentSize
      · have heq : t.pc.transferedIdx = next := by omega
        rw [if_pos hpc, if_pos hlast, heq]
      · rw [if_neg hpc, if_pos ⟨rfl, hlast⟩, if_pos hlast]
    · rw [if_neg (hguard rfl hlast), if_neg fun h => hlast h.2, if_neg hlast]

/-- The last block ends the transfer, and the others do not. -/
theorem pulledBlock_eq {t : Task} {m : Bool} {fp : Handle} {i : Nat} {data : Bytes}
    (hguard : m = true → i ≠ t.sengmentSize → t.pc.transferedIdx ≠ t.sengmentSize) :
    (t.setStream m ⟨.downloading, some fp, i⟩).pulledBlock m data = some
      ⟨t.setStream m (if i = t.sengmentSize then ⟨.downloadEnd, none, 0⟩ else ⟨.downloading, some fp, i⟩),
        if i = t.sengmentSize then .done else .more, data⟩ := by
  unfold Task.pulledBlock
  rw [sengmentSize_setStream]
  cases m with
  | false =>
    rw [if_neg fun h => by cases h.1]
    by_cases hlast : i = t.sengmentSize
    · simp only [if_pos hlast]
      exact if_pos hlast
    · simp only [if_neg hlast]
      exact if_neg hlast
  | true =>
    by_cases hlast : i = t.sengmentSize
    · simp only [if_pos hlast]
      exact if_pos ⟨trivial, hlast⟩
    · simp only [if_neg hlast]
      rw [if_neg fun h => hlast h.2]
      exact if_neg (hguard rfl hlast)

/-- A block that is asked for in order is sent, and the other transfer is left alone. -/
theorem doPullFileRequest_at {w : Wanted} {st : Storage} {f : FileRef} {t : Task} {m : Bool} {next : Nat}
    (hdisk : OnDisk w st f) (hoff : t.offline = true) (hid : t.taskId = w.id) (hsize : t.fileSize = w.data.length)
    (hat : At w f (t.stream m) next) (hnext : next < w.segments)
    (hguard : m = true → next + 1 ≠ w.segments → t.pc.transferedIdx ≠ w.segments ∧ t.pc.transferedIdx + 1 ≠ w.segments) :
    ∃ s rv, t.doPullFileRequest st (Task.offsetOf next) (modeOf m) = some ⟨t.setStream m s, rv, segment w next⟩ ∧
      rv ≠ .refused ∧ At w f s (next + 1) ∧ s.state.uploadEnded = true := by
  obtain ⟨hstate, hopen⟩ := openForDownload_at hdisk hat hnext
  have hseg := segments_eq hsize
  obtain ⟨header, hfile, -⟩ := hdisk.file
  have hinside : next * segmentSize < w.data.length := by
    rw [← hsize, ← t.lt_sengmentSize_iff, hseg]
    exact hnext
  -- the block is as long as it should be
  have hread : ∀ n, st.read ⟨f, next * segmentSize⟩ n = (w.data.drop (next * segmentSize)).take n := by
    intro n
    simp only [Storage.read, hfile]
  have hblock : (w.data.drop (next * segmentSize)).take
      (if next + 1 = t.sengmentSize then t.fileSize - next * segmentSize else segmentSize) = segment w next := by
    split
    · rename_i hlast
      have hle : w.data.length ≤ (next + 1) * segmentSize := by
        rw [← hsize, ← Nat.not_lt, ← t.lt_sengmentSize_iff]
        omega
      rw [segment, hsize, List.take_of_length_le (Nat.le_of_eq List.length_drop), List.take_of_length_le]
      rw [List.length_drop]
      rw [Nat.succ_mul] at hle
      omega
    · rfl
  have hlen : (segment w next).length =
      if next + 1 = t.sengmentSize then t.fileSize - next * segmentSize else segmentSize := by
    rw [← hblock, List.length_take, List.length_drop, hsize]
    split
    · exact Nat.min_self _
    · rename_i hlast
      have hlt := (t.lt_sengmentSize_iff (next + 1)).1 (by omega)
      rw [hsize, Nat.succ_mul] at hlt
      omega
  have hmode : (modeOf m == .offlineMobile) = m := by cases m <;> rfl
  have hstate' : ¬((t.stream m).state ≠ .waitingDownload ∧ (t.stream m).state ≠ .downloading) := by
    rintro ⟨h1, h2⟩
    exact hstate.elim h1 h2
  rw [Task.doPullFileRequest, if_pos hoff, hmode, Task.doPullFileRequestOffline, if_neg hstate', hid, hopen]
  have hbs := blockSize_eq (t := t) (m := m) next (some ⟨f, next * segmentSize⟩)
    fun hm hne => (hseg ▸ hguard hm (hseg ▸ hne)).2
  simp only [Bool.not_true, Bool.false_eq_true, if_false, ne_eq, not_true_eq_false, hbs, hread, hblock, hlen, setStream_setStream]
  rw [pulledBlock_eq fun hm hne => hseg ▸ (hguard hm (hseg ▸ hne)).1]
  refine ⟨_, _, rfl, ?_, ?_, ?_⟩
  · split <;> exact nofun
  · split
    · rename_i hlast
      exact .inl (hlast.trans hseg)
    · rename_i hlast
      refine .inr (.inr ⟨rfl, ?_, rfl⟩)
      rw [Nat.succ_mul]
  · split <;> rfl

/-! ## The invariant -/

/-- The task of the file, when it can be downloaded. -/
structure TaskOf (w : Wanted) (t : Task) : Prop where
  offline : t.offline = true
  taskId : t.taskId = w.id
  toUserId : t.toUserId = w.userId
  fileSize : t.fileSize = w.data.length
  ended : t.state.uploadEnded = true

/-- The connection of a client that has logged in. -/
def clientConn (w : Wanted) (r : TaskRef) (m : Bool) : FileClientConn :=
  { isOpen := true, auth := true, modetag := m, userId := w.userId, transferTask := some r }

/-- The task, and the clients that have logged in to it. -/
structure Served (w : Wanted) (f : FileRef) (d : Downloads) (r : TaskRef) (t : Task) : Prop where
  found : d.server.findByTaskId w.id = some r
  task : d.server.tasks r = some t
  sound : TaskOf w t
  client : ∀ m c, d.conn m = some c → d.server.conns c = some (clientConn w r m) ∧ At w f (t.stream m) (d.next m)
  toConn : d.conn false = none ∨ t.fromUserId = w.userId → t.toConn = none
  toConnMobile : t.toConnMobile = d.conn true

/-- The invariant: nobody downloads, or the task is there. -/
structure Inv (w : Wanted) (f : FileRef) (d : Downloads) : Prop where
  closing : d.server.closing = none
  disk : OnDisk w d.server.storage f
  freshConn : ∀ c conn, d.server.conns c = some conn → c < d.server.nextConn
  freshTask : ∀ r t, d.server.tasks r = some t → r < d.server.nextTask
  got : ∀ m, d.got m = w.data.take (d.next m * segmentSize)
  served : (d.server.findByTaskId w.id = none ∧ ∀ m, d.conn m = none) ∨ ∃ r t, Served w f d r t

/-! ## Asking for a block -/

/-- A notice to the other side is no answer. -/
theorem answerOf_append_quiet (t : Task) (id : TaskId) (out : List Effect) :
    answerOf (Server.beginNotice t id ++ out) = answerOf out := by
  unfold Server.beginNotice
  split <;> rfl

/-- An open connection is sent to. -/
theorem sendTo_open {s : Server} {c : ConnId} {conn : FileClientConn} (hc : s.conns c = some conn) (hopen : conn.isOpen = true)
    (e : Effect) : s.sendTo c e = some [e] := by
  simp only [Server.sendTo, hc, if_pos hopen]

/-- A pull for the segment waited for is answered with it. -/
theorem handlePull_at (md5 : Bytes → String) {w : Wanted} {f : FileRef} {d : Downloads} {r : TaskRef} {t : Task} {m : Bool}
    {c : ConnId} (h : Inv w f d) (hserved : Served w f d r t) (hc : d.conn m = some c) (hnext : d.next m < w.segments)
    (hguard : m = true → d.next m + 1 ≠ w.segments → t.pc.transferedIdx ≠ w.segments ∧ t.pc.transferedIdx + 1 ≠ w.segments)
    (seqNum dataSize : Nat) :
    ∃ s out, step md5 d.server (.pdu c seqNum (.pullDataReq w.id w.userId (modeOf m) (Task.offsetOf (d.next m)) dataSize)) =
      some (d.server.setTask r (some (t.setStream m s)), out) ∧ answerOf out = some (segment w (d.next m)) ∧
      At w f s (d.next m + 1) ∧ s.state.uploadEnded = true := by
  obtain ⟨hconn, hat⟩ := hserved.client m c hc
  obtain ⟨s, rv, hpull, hrv, hat', hend⟩ := doPullFileRequest_at h.disk hserved.sound.offline hserved.sound.taskId
    hserved.sound.fileSize hat hnext hguard
  have hoff : (t.setStream m s).offline = true := by
    cases m <;> exact hserved.sound.offline
  have hconn' : (d.server.setTask r (some (t.setStream m s))).conns c = some (clientConn w r m) := hconn
  have hsend := sendTo_open hconn' rfl
  refine ⟨s, ?_⟩
  simp only [step, hconn, h.closing, Server.handlePdu, Server.handleClientFilePullFileReq, clientConn, Server.taskForPull,
    hserved.task, hpull, hserved.sound.taskId, hserved.sound.toUserId, Server.answerPull, if_neg hrv, hoff, hsend, true_or,
    if_true, Bool.not_true, Bool.false_eq_true, if_false, ne_eq, not_true_eq_false, or_self]
  cases rv with
  | refused => exact absurd rfl hrv
  | more =>
    refine ⟨_, rfl, ?_, hat', hend⟩
    exact answerOf_append_quiet _ _ _
  | done =>
    refine ⟨_, rfl, ?_, hat', hend⟩
    exact answerOf_append_quiet _ _ _

/-- The task is the same one with another stream. -/
theorem taskOf_setStream {w : Wanted} {t : Task} {m : Bool} {s : Stream} (h : TaskOf w t)
    (hend : m = false → s.state.uploadEnded = true) : TaskOf w (t.setStream m s) := by
  cases m with
  | false => exact ⟨h.offline, h.taskId, h.toUserId, h.fileSize, hend rfl⟩
  | true => exact ⟨h.offline, h.taskId, h.toUserId, h.fileSize, h.ended⟩

/-- A block more for one client. -/
theorem inv_pulled {w : Wanted} {f : FileRef} {d : Downloads} {r : TaskRef} {t : Task} {m : Bool} {s : Stream} (h : Inv w f d)
    (hserved : Served w f d r t) (hat : At w f s (d.next m + 1)) (hend : s.state.uploadEnded = true) :
    Inv w f (d.pulled (d.server.setTask r (some (t.setStream m s))) m (some (segment w (d.next m)))) := by
  refine ⟨h.closing, h.disk, h.freshConn, ?_, ?_, .inr ⟨r, t.setStream m s, hserved.found, if_pos rfl,
    taskOf_setStream hserved.sound fun _ => hend, ?_, ?_, ?_⟩⟩
  · intro r' t' ht'
    simp only [Downloads.pulled, Server.setTask] at ht'
    split at ht'
    · rename_i heq
      rw [heq]
      exact h.freshTask r t hserved.task
    · exact h.freshTask r' t' ht'
  · intro m'
    simp only [Downloads.pulled]
    split
    · rename_i heq
      rw [heq, h.got m]
      exact take_succ_segment w _
    · exact h.got m'
  · intro m' c hc
    obtain ⟨hconn, hat0⟩ := hserved.client m' c hc
    refine ⟨hconn, ?_⟩
    rw [stream_setStream]
    simp only [Downloads.pulled]
    by_cases heq : m' = m
    · subst heq
      rw [if_pos rfl, if_pos rfl]
      exact hat
    · rw [if_neg heq, if_neg heq]
      exact hat0
  · intro hnone
    cases m with
    | false => exact hserved.toConn hnone
    | true => exact hserved.toConn hnone
  · cases m with
    | false => exact hserved.toConnMobile
    | true => exact hserved.toConnMobile

/-! ## Logging in -/

/-- The transfer of a client that has just logged in. -/
def waiting (t : Task) (m : Bool) : Stream :=
  { state := .waitingDownload, fp := (t.stream m).fp, transferedIdx := if m then t.mobile.transferedIdx else 0 }

/-- What a login makes of the task's stream. -/
theorem changePullState_eq {w : Wanted} {t : Task} (h : TaskOf w t) (m : Bool) :
    t.changePullState w.userId (roleOf m) = (t.setStream m (waiting t m), true) := by
  have hready : t.state ≠ .ready := by
    intro heq
    have hend := h.ended
    rw [heq] at hend
    cases hend
  have hcheck : t.checkByUserIdAndFileRole w.userId (roleOf m) = true := by
    cases m <;> simp [Task.checkByUserIdAndFileRole, roleOf, h.offline, h.toUserId]
  rw [Task.changePullState, if_pos hcheck, if_pos h.offline]
  unfold Task.changePullStateOffline
  rw [if_neg hready]
  cases m <;> rfl

/-- The task with a client more. -/
def joinedBy (w : Wanted) (t : Task) (m : Bool) (c : ConnId) : Task :=
  (t.setStream m (waiting t m)).setConnByUserId w.userId (some c) m

/-- And of the task. -/
theorem joinedBy_eq {w : Wanted} {t : Task} (h : TaskOf w t) (m : Bool) (c : ConnId) :
    TaskOf w (joinedBy w t m c) ∧ (∀ m', (joinedBy w t m c).stream m' = if m' = m then waiting t m else t.stream m') ∧
      (joinedBy w t m c).fromUserId = t.fromUserId ∧
      (joinedBy w t m c).toConnMobile = (if m = true then some c else t.toConnMobile) ∧
      ((joinedBy w t m c).toConn = t.toConn ∨ (m = false ∧ t.fromUserId ≠ w.userId)) := by
  have hset := taskOf_setStream (m := m) (s := waiting t m) h fun _ => rfl
  cases m with
  | true =>
    have heq : joinedBy w t true c = { t.setStream true (waiting t true) with toConnMobile := some c } := by
      rw [joinedBy, Task.setConnByUserId, if_pos ⟨rfl, hset.toUserId⟩]
    rw [heq]
    refine ⟨⟨hset.offline, hset.taskId, hset.toUserId, hset.fileSize, hset.ended⟩, fun m' => ?_, rfl, rfl, .inl rfl⟩
    cases m' <;> rfl
  | false =>
    rw [joinedBy, Task.setConnByUserId, if_neg fun hm => by cases hm.1]
    by_cases hfrom : (t.setStream false (waiting t false)).fromUserId = w.userId
    · rw [if_pos hfrom]
      refine ⟨⟨hset.offline, hset.taskId, hset.toUserId, hset.fileSize, hset.ended⟩, fun m' => ?_, rfl, rfl, .inl rfl⟩
      cases m' <;> rfl
    · rw [if_neg hfrom, if_pos hset.toUserId]
      refine ⟨⟨hset.offline, hset.taskId, hset.toUserId, hset.fileSize, hset.ended⟩, fun m' => ?_, rfl, rfl, .inr ⟨rfl, hfrom⟩⟩
      cases m' <;> rfl

/-- A login to a task that is found or loaded. -/
theorem handleLogin_eq {w : Wanted} {s s1 : Server} {r : TaskRef} {t : Task} {m : Bool} {c : ConnId} {conn : FileClientConn}
    (hfind : s.findOrLoad w.id (roleOf m) = some (s1, r)) (ht : s1.tasks r = some t) (hsound : TaskOf w t)
    (hopen : conn.isOpen = true) (hmode : (conn.modetag || m) = m) (seqNum : Nat) :
    ∃ out, s.handleClientFileLoginReq c conn seqNum w.userId w.id (roleOf m) =
      some ((s1.setTask r (some (joinedBy w t m c))).setConn c (some (clientConn w r m)), out) := by
  have hrole : (roleOf m == .offlineDownloadMobile) = m := by cases m <;> rfl
  have hconn :
      ({ conn with modetag := conn.modetag || m, auth := true, transferTask := some r, userId := w.userId } : FileClientConn) =
      clientConn w r m := by
    rw [hmode, hopen]
    rfl
  obtain ⟨hsound', -⟩ := joinedBy_eq hsound m c
  have hstate : (joinedBy w t m c).state ≠ .waitingUpload := by
    intro heq
    have hend := hsound'.ended
    rw [heq] at hend
    cases hend
  have hafter : ∀ s2 : Server, s2.afterLogin c w.id w.userId (joinedBy w t m c) = some (s2, []) := by
    intro s2
    rw [Server.afterLogin, if_pos hsound'.offline, if_neg hstate]
  have hsend := sendTo_open (s := (s1.setTask r (some (joinedBy w t m c))).setConn c (some (clientConn w r m))) (if_pos rfl) rfl
    (.loginRsp c seqNum 0 w.id)
  rw [joinedBy] at hsend hafter
  simp only [Server.handleClientFileLoginReq, hfind, ht, changePullState_eq hsound, hrole, hconn, if_true]
  rw [hsend]
  simp only [hafter]
  exact ⟨_, rfl⟩

/-- The file is loaded from disk. -/
theorem loadFromDisk_eq {w : Wanted} {st : Storage} {f : FileRef} (hdisk : OnDisk w st f) :
    ∃ t, Task.loadFromDisk st w.id = some t ∧ TaskOf w t ∧ t.toConn = none ∧ t.toConnMobile = none := by
  obtain ⟨header, hfile, hid, huser, hsize⟩ := hdisk.file
  have hopen : st.openByRead w.id = some ⟨f, 0⟩ := by
    rw [Storage.openByRead, if_pos hdisk.length, hdisk.path]
    rfl
  have hheader : st.readHeader ⟨f, 0⟩ = some header := by simp only [Storage.readHeader, hfile]
  have hcontent : (st.content ⟨f, 0⟩).length = header.fileSize := by simp only [Storage.content, hfile, hsize]
  refine ⟨(Task.new true header.taskId header.fromUserId header.toUserId header.fileName header.fileSize
    header.fileMd5).setState .waitingDownload, by simp only [Task.loadFromDisk, hopen, hheader, if_pos hcontent],
    ⟨rfl, hid, huser, hsize, rfl⟩, rfl, rfl⟩

/-- The task that a client joins, and the client that was there before. -/
structure Joins (w : Wanted) (f : FileRef) (d : Downloads) (m : Bool) (s : Server) (c : ConnId) (r : TaskRef) (t : Task) : Prop where
  closing : s.closing = none
  disk : OnDisk w s.storage f
  freshConn : ∀ c conn, s.conns c = some conn → c < s.nextConn
  freshTask : ∀ r t, s.tasks r = some t → r < s.nextTask
  present : ∃ conn, s.conns c = some conn
  found : s.findByTaskId w.id = some r
  task : s.tasks r = some t
  sound : TaskOf w t
  other : ∀ m' c', m' ≠ m → d.conn m' = some c' →
    c' ≠ c ∧ s.conns c' = some (clientConn w r m') ∧ At w f (t.stream m') (d.next m')
  toConn : d.conn false = none ∨ t.fromUserId = w.userId → t.toConn = none
  toConnMobile : t.toConnMobile = d.conn true
  got : ∀ m, d.got m = w.data.take (d.next m * segmentSize)

/-- The invariant holds once the login went through. -/
theorem inv_begun {w : Wanted} {f : FileRef} {d : Downloads} {m : Bool} {s : Server} {c : ConnId} {r : TaskRef} {t : Task}
    (h : Joins w f d m s c r t) :
    Inv w f (d.begun ((s.setTask r (some (joinedBy w t m c))).setConn c (some (clientConn w r m))) m c) := by
  obtain ⟨hsound, hstream, hfrom, hmobile, hto⟩ := joinedBy_eq h.sound m c
  refine ⟨h.closing, h.disk, ?_, ?_, ?_, .inr ⟨r, joinedBy w t m c, h.found, if_pos rfl, hsound, ?_, ?_, ?_⟩⟩
  · intro c' conn' hc'
    simp only [Downloads.begun, Server.setConn] at hc'
    split at hc'
    · rename_i heq
      obtain ⟨conn, hconn⟩ := h.present
      rw [heq]
      exact h.freshConn c conn hconn
    · exact h.freshConn c' conn' hc'
  · intro r' t' ht'
    simp only [Downloads.begun, Server.setConn, Server.setTask] at ht'
    split at ht'
    · rename_i heq
      rw [heq]
      exact h.freshTask r t h.task
    · exact h.freshTask r' t' ht'
  · intro m'
    simp only [Downloads.begun]
    split
    · rw [Nat.zero_mul]
      rfl
    · exact h.got m'
  · intro m' c' hc'
    simp only [Downloads.begun] at hc' ⊢
    rw [hstream]
    by_cases heq : m' = m
    · rw [if_pos heq] at hc'
      obtain rfl := Option.some.inj hc'
      rw [if_pos heq, if_pos heq, heq]
      exact ⟨if_pos rfl, .inr (.inl ⟨rfl, rfl⟩)⟩
    · rw [if_neg heq] at hc'
      obtain ⟨hne, hconn, hat⟩ := h.other m' c' heq hc'
      rw [if_neg heq, if_neg heq]
      exact ⟨(if_neg hne).trans hconn, hat⟩
  · intro hnone
    simp only [Downloads.begun, hfrom] at hnone
    rcases hto with hsame | ⟨rfl, hne⟩
    · rw [hsame]
      refine h.toConn (hnone.imp_left fun hconn => ?_)
      split at hconn
      · cases hconn
      · exact hconn
    · exact absurd hnone (not_or.2 ⟨Option.some_ne_none _, hne⟩)
  · rw [hmobile, h.toConnMobile]
    cases m <;> rfl

/-- The connection that a client logs in on. -/
structure LogsOn (d : Downloads) (m : Bool) (s : Server) (c : ConnId) (conn : FileClientConn) : Prop where
  closing : s.closing = none
  storage : s.storage = d.server.storage
  freshConn : ∀ c conn, s.conns c = some conn → c < s.nextConn
  tasks : s.tasks = d.server.tasks
  nextTask : s.nextTask = d.server.nextTask
  transferTasks : s.transferTasks = d.server.transferTasks
  present : s.conns c = some conn
  isOpen : conn.isOpen = true
  mode : (conn.modetag || m) = m
  other : ∀ m' c', m' ≠ m → d.conn m' = some c' → c' ≠ c ∧ s.conns c' = d.server.conns c'

/-- The task is there, or is loaded. -/
theorem joins_of_logsOn {w : Wanted} {f : FileRef} {d : Downloads} {m : Bool} {s : Server} {c : ConnId} {conn : FileClientConn}
    (h : Inv w f d) (hon : LogsOn d m s c conn) :
    ∃ s1 r t, s.findOrLoad w.id (roleOf m) = some (s1, r) ∧ Joins w f d m s1 c r t := by
  have hdisk : OnDisk w s.storage f := hon.storage ▸ h.disk
  have hfind : s.findByTaskId w.id = d.server.findByTaskId w.id := by
    rw [Server.findByTaskId, hon.transferTasks]
    rfl
  have hfresh : ∀ r t, s.tasks r = some t → r < s.nextTask := by
    rw [hon.tasks, hon.nextTask]
    exact h.freshTask
  rcases h.served with ⟨hnone, hnobody⟩ | ⟨r, t, hserved⟩
  · obtain ⟨t, hload, hsound, hto, hmobile⟩ := loadFromDisk_eq hdisk
    have hrole : roleOf m = .offlineDownload ∨ roleOf m = .offlineDownloadMobile := by
      cases m
      · exact .inl rfl
      · exact .inr rfl
    refine ⟨(s.addTask t).insertTask w.id s.nextTask, s.nextTask, t, ?_, ?_⟩
    · simp only [Server.findOrLoad, hfind, hnone, if_pos hrole, Server.newTransferTaskFromDisk, hload]
    · have hinsert : (s.addTask t).insertTask w.id s.nextTask =
          { s.addTask t with transferTasks := (w.id, s.nextTask) :: s.transferTasks } := by
        have hfind' : (s.addTask t).findByTaskId w.id = none := hfind.trans hnone
        simp only [Server.insertTask, hfind']
        rfl
      rw [hinsert]
      refine ⟨hon.closing, hdisk, hon.freshConn, ?_, ⟨conn, hon.present⟩, ?_, if_pos rfl, hsound, ?_, fun _ => hto, ?_, h.got⟩
      · intro r' t' ht'
        change r' < s.nextTask + 1
        simp only [Server.addTask, Server.setTask] at ht'
        split at ht'
        · rename_i heq
          rw [heq]
          exact Nat.lt_succ_self _
        · exact Nat.lt_succ_of_lt (hfresh r' t' ht')
      · simp only [Server.findByTaskId, List.lookup, beq_self_eq_true]
      · intro m' c' _ hc'
        rw [hnobody m'] at hc'
        cases hc'
      · rw [hmobile, hnobody]
  · refine ⟨s, r, t, ?_, hon.closing, hdisk, hon.freshConn, hfresh, ⟨conn, hon.present⟩, hfind.trans hserved.found,
      hon.tasks ▸ hserved.task, hserved.sound, ?_, hserved.toConn, hserved.toConnMobile, h.got⟩
    · simp only [Server.findOrLoad, hfind, hserved.found]
    · intro m' c' hne hc'
      obtain ⟨hother, hconns⟩ := hon.other m' c' hne hc'
      obtain ⟨hconn', hat⟩ := hserved.client m' c' hc'
      exact ⟨hother, hconns.trans hconn', hat⟩

/-- A login goes through. -/
theorem begins (md5 : Bytes → String) {w : Wanted} {f : FileRef} {d : Downloads} {m : Bool} {s : Server} {c : ConnId}
    {conn : FileClientConn} (h : Inv w f d) (hon : LogsOn d m s c conn) (seqNum : Nat) :
    ∃ s' out, step md5 s (.pdu c seqNum (.login w.userId w.id (roleOf m))) = some (s', out) ∧ Inv w f (d.begun s' m c) := by
  obtain ⟨s1, r, t, hfind, hjoins⟩ := joins_of_logsOn h hon
  obtain ⟨out, heq⟩ := handleLogin_eq hfind hjoins.task hjoins.sound hon.isOpen hon.mode seqNum
  refine ⟨_, out, ?_, inv_begun hjoins⟩
  simp only [step, hon.present, hon.closing, true_or, if_true, Server.handlePdu]
  exact heq

/-- A connection that has just been accepted. -/
def newConn : FileClientConn := { isOpen := true, auth := false, modetag := false, userId := 0, transferTask := none }

/-- The server with one connection more. -/
def accepted (s : Server) : Server := { s with nextConn := s.nextConn + 1 }.setConn s.nextConn (some newConn)

/-- The connection is there, or is made. -/
theorem login_kept (md5 : Bytes → String) {w : Wanted} {f : FileRef} {d : Downloads} (h : Inv w f d) (m : Bool) (seqNum : Nat) :
    ∃ s c, downloadsStep md5 w d (.login m seqNum) = some (d.begun s m c, [true]) ∧ Inv w f (d.begun s m c) := by
  cases hconn : d.conn m with
  | some c =>
    rcases h.served with ⟨-, hnobody⟩ | ⟨r, t, hserved⟩
    · rw [hnobody m] at hconn
      cases hconn
    · have hon : LogsOn d m d.server c (clientConn w r m) := by
        refine ⟨h.closing, rfl, h.freshConn, rfl, rfl, rfl, (hserved.client m c hconn).1, rfl, ?_, ?_⟩
        · cases m <;> rfl
        · intro m' c' hne hc'
          refine ⟨?_, rfl⟩
          rintro rfl
          -- the two clients' connections differ in their mode
          have hsame := (hserved.client m' c' hc').1.symm.trans (hserved.client m c' hconn).1
          exact hne (congrArg FileClientConn.modetag (Option.some.inj hsame))
      obtain ⟨s', out, hstep, hinv⟩ := begins md5 h hon seqNum
      refine ⟨s', c, ?_, hinv⟩
      simp only [downloadsStep, hconn, hstep]
  | none =>
    have haccept : step md5 d.server .accept = some (accepted d.server, []) := if_pos h.closing
    have hon : LogsOn d m (accepted d.server) d.server.nextConn newConn := by
      refine ⟨h.closing, rfl, ?_, rfl, rfl, rfl, if_pos rfl, rfl, rfl, ?_⟩
      · intro c' conn' hc'
        simp only [accepted, Server.setConn] at hc' ⊢
        split at hc'
        · rename_i heq
          rw [heq]
          exact Nat.lt_succ_self _
        · exact Nat.lt_succ_of_lt (h.freshConn c' conn' hc')
      · intro m' c' _ hc'
        rcases h.served with ⟨-, hnobody⟩ | ⟨r, t, hserved⟩
        · rw [hnobody m'] at hc'
          cases hc'
        · have hlt := h.freshConn c' _ (hserved.client m' c' hc').1
          have hne : c' ≠ d.server.nextConn := Nat.ne_of_lt hlt
          exact ⟨hne, if_neg hne⟩
    obtain ⟨s', out, hstep, hinv⟩ := begins md5 h hon seqNum
    refine ⟨s', d.server.nextConn, ?_, hinv⟩
    simp only [downloadsStep, hconn, haccept, hstep]

/-! ## Leaving -/

/-- The task that a client has left. -/
def leftBy (w : Wanted) (t : Task) (m : Bool) : Task := (t.setState .waitingDownload).setConnByUserId w.userId none m

/-- What a connection that left leaves of the task. -/
theorem leftBy_eq {w : Wanted} {t : Task} {m : Bool} (h : TaskOf w t) (hto : m = true ∨ t.fromUserId = w.userId → t.toConn = none) :
    TaskOf w (leftBy w t m) ∧ (leftBy w t m).toConn = none ∧ (leftBy w t m).mobile = t.mobile ∧
      (leftBy w t m).toConnMobile = (if m = true then none else t.toConnMobile) := by
  cases m with
  | true =>
    have heq : leftBy w t true = { t.setState .waitingDownload with toConnMobile := none } := by
      rw [leftBy, Task.setConnByUserId, if_pos ⟨rfl, h.toUserId⟩]
    rw [heq]
    exact ⟨⟨h.offline, h.taskId, h.toUserId, h.fileSize, rfl⟩, hto (.inl rfl), rfl, rfl⟩
  | false =>
    rw [leftBy, Task.setConnByUserId, if_neg fun hm => by cases hm.1]
    by_cases hfrom : (t.setState .waitingDownload).fromUserId = w.userId
    · rw [if_pos hfrom]
      exact ⟨⟨h.offline, h.taskId, h.toUserId, h.fileSize, rfl⟩, hto (.inr hfrom), rfl, rfl⟩
    · have huser : (t.setState .waitingDownload).toUserId = w.userId := h.toUserId
      rw [if_neg hfrom, if_pos huser]
      exact ⟨⟨h.offline, h.taskId, h.toUserId, h.fileSize, rfl⟩, rfl, rfl, rfl⟩

/-- The task stays while somebody waits for it. -/
theorem close_eq {w : Wanted} {f : FileRef} {d : Downloads} {r : TaskRef} {t : Task} {m : Bool} {c : ConnId}
    (hserved : Served w f d r t) (hc : d.conn m = some c) (hsound : TaskOf w (leftBy w t m))
    (hto : (leftBy w t m).toConn = none) :
    ∃ s out, d.server.close c = some (s, out) ∧
      s = (if (leftBy w t m).toConnMobile = none
        then ((d.server.dropOthers c (some r)).setTask r none).eraseTask w.id
        else (d.server.dropOthers c (some r)).setTask r (some (leftBy w t m))).setConn c
          (some (LinksAux.closed (clientConn w r m))) := by
  have hconn := (hserved.client m c hc).1
  have hleave : (d.server.dropOthers c (some r)).leaveTask (clientConn w r m) r =
      some (if (leftBy w t m).toConnMobile = none
        then ((d.server.dropOthers c (some r)).setTask r none).eraseTask w.id
        else (d.server.dropOthers c (some r)).setTask r (some (leftBy w t m))) := by
    have htask : (d.server.dropOthers c (some r)).tasks r = some t := hserved.task
    have hfound : ((d.server.dropOthers c (some r)).setTask r (some (leftBy w t m))).findByTaskId w.id = some r := hserved.found
    have hset : ((d.server.dropOthers c (some r)).setTask r (some (leftBy w t m))).tasks r = some (leftBy w t m) := if_pos rfl
    have hstate : (leftBy w t m).state ≠ .waitingUpload := by
      intro heq
      have hend := hsound.ended
      rw [heq] at hend
      cases hend
    have hdelete : ((d.server.dropOthers c (some r)).setTask r (some (leftBy w t m))).deleteTransferTaskByConnClose
        (leftBy w t m).taskId = some (((d.server.dropOthers c (some r)).setTask r none).eraseTask w.id) := by
      rw [Server.deleteTransferTaskByConnClose, hsound.taskId, hfound]
      simp only [hset, if_pos hsound.offline, ne_eq, hstate, not_false_eq_true, if_true]
      congr 1
      simp only [Server.setTask, Server.eraseTask, Server.mk.injEq, true_and, and_true]
      funext r'
      split <;> rfl
    simp only [Server.leaveTask, htask, if_pos hserved.sound.ended]
    change (if (leftBy w t m).toConn = none ∧ (leftBy w t m).toConnMobile = none then
      ((d.server.dropOthers c (some r)).setTask r (some (leftBy w t m))).deleteTransferTaskByConnClose (leftBy w t m).taskId
      else some ((d.server.dropOthers c (some r)).setTask r (some (leftBy w t m)))) = _
    by_cases hmobile : (leftBy w t m).toConnMobile = none
    · rw [if_pos ⟨hto, hmobile⟩, if_pos hmobile, hdelete]
    · rw [if_neg fun h => hmobile h.2, if_neg hmobile]
  refine ⟨_, [.netlibClose c], ?_, rfl⟩
  simp only [Server.close, hconn]
  rw [if_pos (show (clientConn w r m).isOpen = true from rfl)]
  have htask : (clientConn w r m).transferTask = some r := rfl
  simp only [htask, hleave]
  rfl

/-- And the invariant holds after it. -/
theorem leave_kept (md5 : Bytes → String) {w : Wanted} {f : FileRef} {d : Downloads} {m : Bool} {c : ConnId} (h : Inv w f d)
    (hc : d.conn m = some c) (hguard : m = true → d.conn false = none) :
    ∃ s, downloadsStep md5 w d (.leave m) = some (d.gone s m, [true]) ∧ Inv w f (d.gone s m) := by
  rcases h.served with ⟨-, hnobody⟩ | ⟨r, t, hserved⟩
  · rw [hnobody m] at hc
    cases hc
  have htoConn : m = true ∨ t.fromUserId = w.userId → t.toConn = none := by
    rintro (hm | hfrom)
    · exact hserved.toConn (.inl (hguard hm))
    · exact hserved.toConn (.inr hfrom)
  obtain ⟨hsound, hto, hstream, hmobile⟩ := leftBy_eq (m := m) hserved.sound htoConn
  obtain ⟨s, out, hclose, hs⟩ := close_eq hserved hc hsound hto
  refine ⟨s.setConn c none, ?_, ?_⟩
  · simp only [downloadsStep, hc, step, h.closing, hclose, if_true]
  -- what is left of the connections
  have hconns : ∀ c' conn', (s.setConn c none).conns c' = some conn' → ∃ conn, d.server.conns c' = some conn := by
    intro c' conn' hc'
    simp only [Server.setConn] at hc'
    split at hc'
    · cases hc'
    · rename_i hne
      rw [hs] at hc'
      have hdrop : (d.server.dropOthers c (some r)).conns c' = some conn' := by
        simp only [Server.setConn, if_neg hne] at hc'
        split at hc' <;> exact hc'
      obtain ⟨conn, hconn, -⟩ := LinksAux.conns_dropOthers hdrop
      exact ⟨conn, hconn⟩
  by_cases hnone : (leftBy w t m).toConnMobile = none
  · rw [if_pos hnone] at hs
    have hnobody : ∀ m', (if m' = m then none else d.conn m') = none := by
      intro m'
      by_cases heq : m' = m
      · exact if_pos heq
      · rw [if_neg heq]
        rw [hmobile, hserved.toConnMobile] at hnone
        cases m with
        | true =>
          cases m' with
          | true => exact absurd rfl heq
          | false => exact hguard rfl
        | false =>
          cases m' with
          | true => exact hnone
          | false => exact absurd rfl heq
    refine ⟨by rw [hs]; exact h.closing, by rw [hs]; exact h.disk, ?_, ?_, h.got, .inl ⟨?_, hnobody⟩⟩
    · intro c' conn' hc'
      obtain ⟨conn, hconn⟩ := hconns c' conn' hc'
      rw [hs]
      exact h.freshConn c' conn hconn
    · intro r' t' ht'
      rw [hs] at ht' ⊢
      simp only [Downloads.gone, Server.setConn, Server.eraseTask, Server.setTask] at ht'
      split at ht'
      · cases ht'
      · exact h.freshTask r' t' ht'
    · rw [hs]
      refine List.lookup_eq_none_iff.2 fun p hp => ?_
      have hne := of_decide_eq_true (List.mem_filter.1 hp).2
      exact bne_iff_ne.2 fun heq => hne heq.symm
  · rw [if_neg hnone] at hs
    have hm : m = false := by
      cases m with
      | true => exact absurd hmobile hnone
      | false => rfl
    subst hm
    have hmobile' : (leftBy w t false).toConnMobile = d.conn true := hmobile.trans hserved.toConnMobile
    refine ⟨by rw [hs]; exact h.closing, by rw [hs]; exact h.disk, ?_, ?_, h.got, .inr ⟨r, leftBy w t false, ?_, ?_, hsound,
      ?_, fun _ => hto, hmobile'⟩⟩
    · intro c' conn' hc'
      obtain ⟨conn, hconn⟩ := hconns c' conn' hc'
      rw [hs]
      exact h.freshConn c' conn hconn
    · intro r' t' ht'
      rw [hs] at ht' ⊢
      simp only [Downloads.gone, Server.setConn, Server.setTask] at ht'
      split at ht'
      · rename_i heq
        rw [heq]
        exact h.freshTask r t hserved.task
      · exact h.freshTask r' t' ht'
    · rw [hs]
      exact hserved.found
    · rw [hs]
      exact if_pos rfl
    · intro m' c' hc'
      cases m' with
      | false => cases hc'
      | true =>
        obtain ⟨hconn', hat⟩ := hserved.client true c' hc'
        have hne : c' ≠ c := by
          rintro rfl
          have hsame := hconn'.symm.trans (hserved.client false c' hc).1
          cases congrArg FileClientConn.modetag (Option.some.inj hsame)
        refine ⟨?_, ?_⟩
        · refine (if_neg hne).trans ?_
          rw [hs]
          exact (if_neg hne).trans (LinksAux.conns_dropOthers_kept hconn' (.inr (.inr rfl)))
        · change At w f (leftBy w t false).mobile (d.next true)
          rw [hstream]
          exact hat

/-! ## Runs -/

/-- The invariant holds at the start. -/
theorem inv_start {w : Wanted} {s : Server} (h : Stored w s) : ∃ f, Inv w f (Downloads.start s) := by
  obtain ⟨hlength, f, header, hpath, hfile, hheader⟩ := h.file
  refine ⟨f, h.closing, ⟨hlength, hpath, header, hfile, hheader⟩, h.freshConn, h.freshTask, ?_, ?_⟩
  · intro m
    change [] = w.data.take (0 * segmentSize)
    rw [Nat.zero_mul]
    rfl
  · cases hfind : s.findByTaskId w.id with
    | none => exact .inl ⟨hfind, fun _ => rfl⟩
    | some r =>
      obtain ⟨t, ht, hoff, hid, huser, hsize, hend, hto, hmobile⟩ := h.task r hfind
      exact .inr ⟨r, t, hfind, ht, ⟨hoff, hid, huser, hsize, hend⟩, fun _ _ hc => (by cases hc), fun _ => hto, hmobile⟩

/-- A step that meets the condition keeps the invariant, and is defined. -/
theorem inv_step {md5 : Bytes → String} {w : Wanted} {f : FileRef} {d d' : Downloads} {a : Act} {out : List Bool}
    (h : Inv w f d) (hok : DownloadsMeet w d a) (hstep : downloadsStep md5 w d a = some (d', out)) :
    Inv w f d' ∧ false ∉ out := by
  cases a with
  | login m seqNum =>
    obtain ⟨s, c, heq, hinv⟩ := login_kept md5 h m seqNum
    obtain ⟨rfl, rfl⟩ := Prod.mk.inj (Option.some.inj (heq.symm.trans hstep))
    exact ⟨hinv, by decide⟩
  | pull m seqNum dataSize =>
    simp only [downloadsStep] at hstep
    cases hc : d.conn m with
    | none =>
      rw [hc] at hstep
      cases hstep
    | some c =>
      simp only [hc] at hstep
      by_cases hnext : d.next m < w.segments
      · rw [if_pos hnext] at hstep
        rcases h.served with ⟨-, hnobody⟩ | ⟨r, t, hserved⟩
        · rw [hnobody m] at hc
          cases hc
        · have hguard : m = true → d.next m + 1 ≠ w.segments →
              t.pc.transferedIdx ≠ w.segments ∧ t.pc.transferedIdx + 1 ≠ w.segments := by
            rintro rfl hne
            exact hok r t hserved.found hserved.task hne
          obtain ⟨s, out', heq, hanswer, hat, hend⟩ := handlePull_at md5 h hserved hc hnext hguard seqNum dataSize
          simp only [heq, hanswer] at hstep
          obtain ⟨rfl, rfl⟩ := Prod.mk.inj (Option.some.inj hstep)
          exact ⟨inv_pulled h hserved hat hend, by decide⟩
      · rw [if_neg hnext] at hstep
        cases hstep
  | leave m =>
    cases hc : d.conn m with
    | none =>
      simp only [downloadsStep, hc] at hstep
      cases hstep
    | some c =>
      have hguard : m = true → d.conn false = none := by
        rintro rfl
        exact hok
      obtain ⟨s, heq, hinv⟩ := leave_kept md5 h hc hguard
      obtain ⟨rfl, rfl⟩ := Prod.mk.inj (Option.some.inj (heq.symm.trans hstep))
      exact ⟨hinv, by decide⟩

/-! ## A file of two blocks -/

/-- A server that has been started on a directory with one file. -/
def shelf (w : Wanted) : Server :=
  Server.start { files := fun _ => some ⟨some ⟨w.id, 1, w.userId, "f", w.data.length, "md5"⟩, w.data⟩
                 paths := fun id => if id = w.id then some 0 else none
                 nextFile := 1 } 0 0 []

/-- A server with one file stored. -/
theorem stored_shelf {w : Wanted} (h : 2 ≤ w.id.length) : Stored w (shelf w) :=
  ⟨rfl, fun _ _ hc => (by cases hc), fun _ _ ht => (by cases ht), ⟨h, 0, _, if_pos rfl, rfl, rfl, rfl, rfl⟩, fun _ hr => by cases hr⟩

/-- The PC client gets the first block, and then the mobile client asks for it. -/
def crossed : List Act := [.login false 0, .login true 0, .pull false 0 32768, .pull true 0 32768]

/-- The mobile client gets as many bytes as the last block has. -/
theorem crossed_short (md5 : Bytes → String) {data : Bytes} (h : data.length = 40000) :
    (Machine.steps (downloadsStep md5 ⟨"ab", 2, data⟩) (Downloads.start (shelf ⟨"ab", 2, data⟩)) crossed).any fun (d, _) =>
      d.next true = 1 ∧ (d.got true).length = 7232 := by
  have hab : "ab".length = 2 := by decide
  simp [crossed, Machine.steps, downloadsStep, Downloads.start, shelf, Server.start, Server.setConn, Downloads.begun,
    Downloads.pulled, answerOf, roleOf, modeOf, Wanted.segments, step, Server.findByTaskId, Server.newTransferTaskFromDisk,
    Task.loadFromDisk, Storage.content, Server.addTask, Server.setTask, Server.insertTask, Server.handlePdu,
    Server.handleClientFileLoginReq, Server.findOrLoad, Task.changePullState, Task.checkByUserIdAndFileRole, Task.new,
    Task.changePullStateOffline, Task.state, Task.setState, Task.setConnByUserId, Server.sendTo, Server.afterLogin,
    Task.nextSegmentBlockSize, Task.sengmentSize, segmentSize, Task.offsetOf, uint32Size, h, hab,
    Server.handleClientFilePullFileReq, Server.taskForPull, Task.doPullFileRequest, Task.doPullFileRequestOffline, Task.stream,
    Task.setStream, Task.openForDownload, Storage.openByRead, Storage.readHeader, Storage.read, Task.pulledBlock,
    Server.answerPull, Server.beginNotice, Task.nextOffset]

end DownloadsAux

open DownloadsAux

end TeamTalk.FileServer
