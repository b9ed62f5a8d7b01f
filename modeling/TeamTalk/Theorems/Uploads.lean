import TeamTalk.FileServer.Moves

/-!
# Downloads deliver what was uploaded

What a downloader is sent was uploaded before, as a whole, and the digests were equal; so it is in every run in which nobody
logs in to download a file that is being uploaded, and in which each block has the length it should have.
-/

namespace TeamTalk.FileServer

/-- The bytes of a task that an effect takes in. -/
def Effect.blockLength (id : TaskId) : Effect → Nat
  | .upload (.block id' length) => if id' = id then length else 0
  | _ => 0

/-- How many bytes of a task have been received. -/
def received (log : List Effect) (id : TaskId) : Nat := (log.map (Effect.blockLength id)).sum

/-- The whole file of an offline task has been received, and the digests were equal. -/
structure Verified (log : List Effect) (id : TaskId) : Prop where
  whole : ∃ req, .transferRsp 0 id req ∈ log ∧ req.transMode = .offline ∧ received log id = req.fileSize
  equal : .upload (.md5Equal id) ∈ log
  consistent : .upload (.md5Inconsistent id) ∉ log

/-- Whatever a downloader has been sent was verified before. -/
def DownloadsVerified (log : List Effect) : Prop :=
  ∀ pre post c seqNum id userId offset data, log = pre ++ .pullDataRsp c seqNum id userId offset data :: post →
    Verified pre id

/-- The condition on a step: who logs in to download finds no unfinished upload, and a block that is taken is as long as it
should be. -/
def UploadsMeet (s : Server) : Event → Prop
  | .pdu _ _ (.login userId id role) => role = .offlineDownload ∨ role = .offlineDownloadMobile → ∀ r t,
      s.findByTaskId id = some r → s.tasks r = some t → t.offline = true → t.toUserId = userId →
      t.state ≠ .waitingUpload ∧ t.state ≠ .uploading
  | .pdu c _ (.pullDataRsp _ _ _ offset data) => ∀ conn r t, s.conns c = some conn → conn.transferTask = some r →
      s.tasks r = some t → t.offline = true → t.state = .waitingUpload ∨ t.state = .uploading →
      offset = Task.offsetOf t.pc.transferedIdx → data.length = t.nextSegmentBlockSize false
  | _ => True

/-- Every run whose steps all meet `ok` delivers only what is verified. -/
def DownloadsVerifiedIn (ok : Server → Event → Prop) : Prop :=
  ∀ (md5 : Bytes → String) (log : List Effect) (s : Server), Machine.Run (step md5) ok Server.init log s → DownloadsVerified log

namespace UploadsAux

open MovesAux

/-! ## The log -/

/-- What is said of uploads is the same. -/
structure SameUploads (log log' : List Effect) : Prop where
  received : ∀ id, received log' id = received log id
  upload : ∀ u, .upload u ∈ log' ↔ .upload u ∈ log
  mem : ∀ e ∈ log, e ∈ log'

/-- No upload is told. -/
def NoUpload (out : List Effect) : Prop := ∀ u : Upload, .upload u ∉ out

/-- What was received of a task adds up. -/
theorem received_append (log out : List Effect) (id : TaskId) :
    received (log ++ out) id = received log id + received out id := by
  simp only [received, List.map_append, List.sum_append]

/-- Nothing is received where nothing is uploaded. -/
theorem received_of_noUpload {out : List Effect} (h : NoUpload out) (id : TaskId) : received out id = 0 := by
  induction out with
  | nil => rfl
  | cons e out ih =>
    have hout : NoUpload out := fun u hu => h u (List.mem_cons_of_mem e hu)
    have hzero : e.blockLength id = 0 := by
      cases e with
      | upload u => exact absurd (List.mem_cons_self) (h u)
      | _ => rfl
    rw [received, List.map_cons, List.sum_cons, hzero, Nat.zero_add]
    exact ih hout

/-- Such effects leave the uploads as they are. -/
theorem sameUploads_append {log out : List Effect} (h : NoUpload out) : SameUploads log (log ++ out) := by
  refine ⟨fun id => ?_, fun u => ?_, fun e he => List.mem_append_left out he⟩
  · rw [received_append, received_of_noUpload h, Nat.add_zero]
  · rw [List.mem_append]
    exact or_iff_left (h u)

/-- Quiet effects upload nothing. -/
theorem noUpload_of_quiet {out : List Effect} (h : ∀ e ∈ out, e.Quiet) : NoUpload out := fun _ hu => h _ hu

/-- A download is verified by uploads only. -/
theorem verified_same {log log' : List Effect} {id : TaskId} (h : Verified log id) (hsame : SameUploads log log') :
    Verified log' id := by
  obtain ⟨⟨req, hreq, hoff, hsize⟩, hequal, hcons⟩ := h
  refine ⟨⟨req, hsame.mem _ hreq, hoff, (hsame.received id).trans hsize⟩, (hsame.upload _).2 hequal, fun hin => ?_⟩
  exact hcons ((hsame.upload _).1 hin)

/-! ## The invariant -/

/-- Nothing of a task is stored yet. -/
structure Unstored (log : List Effect) (st : Storage) (id : TaskId) : Prop where
  path : st.paths id = none
  received : received log id = 0
  equal : .upload (.md5Equal id) ∉ log
  consistent : .upload (.md5Inconsistent id) ∉ log

/-- What is stored of a task that is being uploaded: the blocks so far; or the file has been removed, and no block is the last
one any more. -/
def Partly (log : List Effect) (st : Storage) (t : Task) (fp : Handle) (file : StoredFile) : Prop :=
  (st.paths t.taskId = none ∧ t.sengmentSize ≤ t.pc.transferedIdx) ∨
  (st.paths t.taskId = some fp.file ∧ received log t.taskId = file.data.length ∧
    .upload (.md5Inconsistent t.taskId) ∉ log ∧ file.data.length = t.pc.transferedIdx * segmentSize ∧
    (t.pc.transferedIdx < t.sengmentSize ∨ t.fileSize = 0))

/-- The upload of a task is as far as its state says. -/
structure UploadSound (log : List Effect) (st : Storage) (t : Task) : Prop where
  states : t.state = .ready ∨ t.state = .waitingUpload ∨ t.state = .uploading ∨ t.state.uploadEnded = true
  begins : t.state = .ready ∨ t.state = .waitingUpload → t.pc.fp = none ∧ t.pc.transferedIdx = 0 ∧
    Unstored log st t.taskId
  goesOn : t.state = .uploading → .upload (.md5Equal t.taskId) ∉ log ∧ 0 < t.pc.transferedIdx ∧ ∃ fp file,
    t.pc.fp = some fp ∧ st.files fp.file = some file ∧ file.header = some t.header ∧ Partly log st t fp file
  ended : t.state.uploadEnded = true → Verified log t.taskId
  mobile : t.mobile.state.downloads → t.state.uploadEnded = true
  asked : t.state.uploadEnded = false → ∃ req, .transferRsp 0 t.taskId req ∈ log ∧ req.transMode = .offline ∧
    req.fileSize = t.fileSize

/-- A file that is whole is verified. -/
def StoredSound (log : List Effect) (st : Storage) (id : TaskId) (f : FileRef) : Prop :=
  ∃ file header, st.files f = some file ∧ file.header = some header ∧ header.taskId = id ∧
    (file.data.length = header.fileSize → Verified log id)

/-- The invariant. -/
structure UploadsSound (log : List Effect) (s : Server) : Prop where
  fresh : ∀ r t, s.tasks r = some t → r < s.nextTask
  known : ∀ r t, s.tasks r = some t → t.taskId ∈ s.uuids
  upload : ∀ r t, s.tasks r = some t → t.offline = true → UploadSound log s.storage t
  unique : ∀ r r' t t', s.tasks r = some t → s.tasks r' = some t' → t.taskId = t'.taskId → t.offline = true →
    t'.offline = true → t.state.uploadEnded = false → t'.state.uploadEnded = false → r = r'
  stored : ∀ id f, s.storage.paths id = some f → id ∈ s.uuids ∧ StoredSound log s.storage id f
  files : ∀ f file, s.storage.files f = some file → f < s.storage.nextFile
  silent : ∀ id, id ∉ s.uuids → received log id = 0 ∧ .upload (.md5Equal id) ∉ log ∧ .upload (.md5Inconsistent id) ∉ log
  verified : DownloadsVerified log

/-! ## When nothing is uploaded -/

section Same

variable {log log' : List Effect} (hsame : SameUploads log log')
include hsame

/-- A task without a file. -/
theorem Unstored.same {st : Storage} {id : TaskId} (h : Unstored log st id) : Unstored log' st id :=
  ⟨h.path, (hsame.received id).trans h.received, fun hin => h.equal ((hsame.upload _).1 hin),
    fun hin => h.consistent ((hsame.upload _).1 hin)⟩

/-- A task with a part of its file. -/
theorem Partly.same {st : Storage} {t : Task} {fp : Handle} {file : StoredFile} (h : Partly log st t fp file) :
    Partly log' st t fp file := by
  rcases h with h | ⟨hpath, hrec, hcons, hlen⟩
  · exact .inl h
  · exact .inr ⟨hpath, (hsame.received _).trans hrec, fun hin => hcons ((hsame.upload _).1 hin), hlen⟩

/-- A task, whatever it has. -/
theorem UploadSound.same {st : Storage} {t : Task} (h : UploadSound log st t) : UploadSound log' st t := by
  refine ⟨h.states, fun hs => ?_, fun hs => ?_, fun hs => verified_same (h.ended hs) hsame, h.mobile, fun hs => ?_⟩
  · obtain ⟨hfp, hidx, hun⟩ := h.begins hs
    exact ⟨hfp, hidx, hun.same hsame⟩
  · obtain ⟨heq, hpos, fp, file, hfp, hfile, hheader, hpartly⟩ := h.goesOn hs
    exact ⟨fun hin => heq ((hsame.upload _).1 hin), hpos, fp, file, hfp, hfile, hheader, hpartly.same hsame⟩
  · obtain ⟨req, hreq, hrest⟩ := h.asked hs
    exact ⟨req, hsame.mem _ hreq, hrest⟩

/-- All tasks. -/
theorem UploadsSound.same {s : Server} (h : UploadsSound log s) (hv : DownloadsVerified log') : UploadsSound log' s := by
  refine ⟨h.fresh, h.known, fun r t ht hoff => (h.upload r t ht hoff).same hsame, h.unique, ?_, h.files, ?_, hv⟩
  · intro id f hf
    obtain ⟨hid, file, header, hfile, hheader, heq, hver⟩ := h.stored id f hf
    exact ⟨hid, file, header, hfile, hheader, heq, fun hlen => verified_same (hver hlen) hsame⟩
  · intro id hid
    obtain ⟨hrec, hequal, hcons⟩ := h.silent id hid
    exact ⟨(hsame.received id).trans hrec, fun hin => hequal ((hsame.upload _).1 hin),
      fun hin => hcons ((hsame.upload _).1 hin)⟩

end Same

/-- Nothing is delivered. -/
theorem downloadsVerified_append {log out : List Effect} (h : DownloadsVerified log)
    (hout : ∀ c seqNum id userId offset data, .pullDataRsp c seqNum id userId offset data ∉ out) :
    DownloadsVerified (log ++ out) := by
  intro pre post c seqNum id userId offset data heq
  rcases List.append_eq_append_iff.1 heq with ⟨as, hpre, hpost⟩ | ⟨bs, hlog, hbs⟩
  · refine absurd ?_ (hout c seqNum id userId offset data)
    rw [hpost]
    exact List.mem_append_right _ List.mem_cons_self
  · cases bs with
    | nil =>
      refine absurd ?_ (hout c seqNum id userId offset data)
      rw [List.nil_append] at hbs
      rw [← hbs]
      exact List.mem_cons_self
    | cons b bs =>
      obtain ⟨rfl, -⟩ := List.cons.inj hbs
      exact h pre bs c seqNum id userId offset data hlog

/-- A verified task is delivered. -/
theorem downloadsVerified_delivered {log out : List Effect} {id : TaskId} (h : DownloadsVerified log) (hid : Verified log id)
    (hno : NoUpload out)
    (hout : ∀ c seqNum id' userId offset data, .pullDataRsp c seqNum id' userId offset data ∈ out → id' = id) :
    DownloadsVerified (log ++ out) := by
  intro pre post c seqNum id' userId offset data heq
  rcases List.append_eq_append_iff.1 heq with ⟨as, hpre, hpost⟩ | ⟨bs, hlog, hbs⟩
  · obtain rfl : id' = id := hout c seqNum id' userId offset data (hpost ▸ List.mem_append_right _ List.mem_cons_self)
    rw [hpre]
    exact verified_same hid (sameUploads_append fun u hu => hno u (hpost ▸ List.mem_append_left _ hu))
  · cases bs with
    | nil =>
      rw [List.append_nil] at hlog
      rw [List.nil_append] at hbs
      obtain rfl : id' = id := hout c seqNum id' userId offset data (hbs ▸ List.mem_cons_self)
      exact hlog ▸ hid
    | cons b bs =>
      obtain ⟨rfl, -⟩ := List.cons.inj hbs
      exact h pre bs c seqNum id' userId offset data hlog

/-! ## Moves -/

/-- The number of segments depends on the size alone. -/
theorem sengmentSize_congr {t t' : Task} (h : t'.fileSize = t.fileSize) : t'.sengmentSize = t.sengmentSize := by
  simp only [Task.sengmentSize, h]

/-- A task that moves keeps what it has. -/
theorem uploadSound_moves {log : List Effect} {st : Storage} {t t' : Task} (h : UploadSound log st t) (hm : t.Moves t')
    (hoff : t.offline = true) : UploadSound log st t' := by
  have hid := hm.taskId
  have hmobile : t'.mobile.state.downloads → t.state.uploadEnded = true := by
    intro hd
    rcases hm.mobile hoff hd with hd' | he
    · exact h.mobile hd'
    · exact he
  rcases hm.pc hoff with heq | ⟨hr, heq⟩ | ⟨he, he'⟩
  · have hs : t'.state = t.state := congrArg Stream.state heq
    refine ⟨hs ▸ h.states, ?_, ?_, ?_, ?_, ?_⟩
    · rw [hs, heq, hid]
      exact h.begins
    · intro hgo
      rw [hs] at hgo
      rw [heq, hid, hm.header]
      obtain ⟨hequal, hpos, fp, file, hfp, hfile, hheader, hpartly⟩ := h.goesOn hgo
      refine ⟨hequal, hpos, fp, file, hfp, hfile, hheader, ?_⟩
      rw [Partly, hid, heq, sengmentSize_congr hm.fileSize, hm.fileSize]
      exact hpartly
    · rw [hs, hid]
      exact h.ended
    · rw [hs]
      exact hmobile
    · rw [hs, hid, hm.fileSize]
      exact h.asked
  · have hs : t'.state = .waitingUpload := congrArg Stream.state heq
    refine ⟨.inr (.inl hs), ?_, ?_, ?_, ?_, ?_⟩
    · rw [heq, hid]
      exact fun _ => h.begins (.inl hr)
    · rw [hs]
      exact nofun
    · rw [hs]
      exact nofun
    · intro hd
      have he := hmobile hd
      rw [hr] at he
      cases he
    · rw [hid, hm.fileSize]
      refine fun _ => h.asked ?_
      rw [hr]
      rfl
  · refine ⟨.inr (.inr (.inr he')), ?_, ?_, ?_, fun _ => he', ?_⟩
    · rintro (hs | hs)
      · rw [hs] at he'
        cases he'
      · rw [hs] at he'
        cases he'
    · intro hs
      rw [hs] at he'
      cases he'
    · rw [hid]
      exact fun _ => h.ended he
    · rw [he']
      exact nofun

/-- A file that can be loaded is verified. -/
theorem loadFromDisk_sound {log : List Effect} {s : Server} (h : UploadsSound log s) {id : TaskId} {t : Task}
    (hload : Task.loadFromDisk s.storage id = some t) : t.taskId = id ∧ id ∈ s.uuids ∧ UploadSound log s.storage t := by
  unfold Task.loadFromDisk at hload
  split at hload
  · cases hload
  · rename_i fp hopen
    unfold Storage.openByRead at hopen
    split at hopen
    · obtain ⟨f, hf, rfl⟩ := Option.map_eq_some_iff.1 hopen
      obtain ⟨hid, file, header, hfile, hheader, heq, hver⟩ := h.stored id f hf
      have hread : s.storage.readHeader { file := f, pos := 0 } = some header := by
        simp only [Storage.readHeader, hfile, hheader]
      have hcontent : s.storage.content { file := f, pos := 0 } = file.data := by simp only [Storage.content, hfile]
      simp only [hread, hcontent] at hload
      split at hload
      · rename_i hlen
        rw [← Option.some.inj hload]
        refine ⟨heq, hid, .inr (.inr (.inr rfl)), ?_, nofun, fun _ => heq ▸ hver hlen, ?_, nofun⟩
        · rintro (hs | hs) <;> cases hs
        · rintro (hs | hs) <;> cases hs
      · cases hload
    · cases hopen

/-- A server that moves keeps what its tasks have. -/
theorem uploadsSound_moves {log out : List Effect} {s s' : Server} (h : UploadsSound log s) (hm : s.Moves out s') :
    UploadsSound log s' := by
  -- each task of the new state was there, or has been loaded
  have hcase : ∀ r t', s'.tasks r = some t' → r < s'.nextTask ∧ t'.taskId ∈ s.uuids ∧
      (t'.offline = true → UploadSound log s.storage t') ∧
      (t'.state.uploadEnded = false → t'.offline = true →
        ∃ t, s.tasks r = some t ∧ t.taskId = t'.taskId ∧ t.offline = true ∧ t.state.uploadEnded = false) := by
    intro r t' ht'
    rcases hm.tasks r t' ht' with ⟨t, ht, hmv⟩ | ⟨-, hlt, id, t, hload, hmv⟩
    · refine ⟨Nat.lt_of_lt_of_le (h.fresh r t ht) hm.nextTask, hmv.taskId ▸ h.known r t ht, ?_, ?_⟩
      · intro hoff
        rw [hmv.offline] at hoff
        exact uploadSound_moves (h.upload r t ht hoff) hmv hoff
      · intro hend hoff
        rw [hmv.offline] at hoff
        refine ⟨t, ht, hmv.taskId.symm, hoff, ?_⟩
        rcases hmv.pc hoff with heq | ⟨hr, -⟩ | ⟨-, hend'⟩
        · rwa [Task.state, ← heq]
        · rw [hr]
          rfl
        · rw [hend] at hend'
          cases hend'
    · obtain ⟨hid, hknown, hsound⟩ := loadFromDisk_sound h hload
      have hst := loadFromDisk_state hload
      refine ⟨hlt, by rwa [hmv.taskId, hid], ?_, ?_⟩
      · intro hoff
        rw [hmv.offline] at hoff
        exact uploadSound_moves hsound hmv hoff
      · intro hend hoff
        rw [hmv.offline] at hoff
        rcases hmv.pc hoff with heq | ⟨hr, -⟩ | ⟨-, hend'⟩
        · have hs : t'.state = t.state := congrArg Stream.state heq
          rw [hs, hst] at hend
          cases hend
        · rw [hst] at hr
          cases hr
        · rw [hend] at hend'
          cases hend'
  refine ⟨fun r t ht => (hcase r t ht).1, ?_, ?_, ?_, ?_, ?_, ?_, h.verified⟩
  · intro r t ht
    rw [hm.uuids]
    exact (hcase r t ht).2.1
  · intro r t ht hoff
    rw [hm.storage]
    exact (hcase r t ht).2.2.1 hoff
  · intro r r' t t' ht ht' hid hoff hoff' hend hend'
    obtain ⟨t0, ht0, hid0, hoff0, hend0⟩ := (hcase r t ht).2.2.2 hend hoff
    obtain ⟨t1, ht1, hid1, hoff1, hend1⟩ := (hcase r' t' ht').2.2.2 hend' hoff'
    exact h.unique r r' t0 t1 ht0 ht1 ((hid0.trans hid).trans hid1.symm) hoff0 hoff1 hend0 hend1
  · rw [hm.storage, hm.uuids]
    exact h.stored
  · rw [hm.storage]
    exact h.files
  · rw [hm.uuids]
    exact h.silent

/-! ## Requests for data -/

/-- Finding the task of a pull moves nothing. -/
theorem moves_taskForPull {s s' : Server} {c : ConnId} {conn : FileClientConn} {id : TaskId} {userId : Nat} {r : TaskRef}
    (h : s.taskForPull c conn id userId = some (s', r)) : s.Moves [] s' := by
  unfold Server.taskForPull at h
  split at h
  · obtain ⟨rfl, rfl⟩ := Prod.mk.inj (Option.some.inj h)
    exact .refl s
  · split at h
    · cases h
    · rename_i s1 r1 hload
      obtain ⟨hmv, t0, hload0, ht0⟩ := moves_newTransferTaskFromDisk hload
      split at h
      · cases h
      · rename_i t ht
        obtain ⟨rfl, rfl⟩ := Prod.mk.inj (Option.some.inj h)
        obtain rfl : t0 = t := Option.some.inj (ht0.symm.trans ht)
        refine (hmv.trans (moves_setTask ht (moves_changePullState fun _ _ _ => .inr ?_))).trans (moves_setConn _ c _)
        rw [loadFromDisk_state hload0]
        rfl

/-- What is answered to a request for data. -/
theorem answerPull_cases {s s' : Server} {c : ConnId} {seqNum : Nat} {r : TaskRef} {t : Task} {id : TaskId} {userId : Nat}
    {mode : TransferFileType} {offset dataSize : Nat} {rv : Rv} {data : Bytes} {out : List Effect} (ht : s.tasks r = some t)
    (h : s.answerPull c seqNum r t id userId mode offset dataSize rv data = some (s', out)) :
    s.Moves [] s' ∧ ∀ e ∈ out, e.Quiet ∨ (e = .pullDataRsp c seqNum id userId offset data ∧ t.offline = true ∧ rv ≠ .refused) := by
  unfold Server.answerPull at h
  split at h
  · obtain ⟨rfl, rfl⟩ := Prod.mk.inj (Option.some.inj h)
    exact ⟨.refl s, nofun⟩
  · rename_i hrv
    split at h
    · rename_i hoff
      split at h
      · cases h
      · rename_i out1 hout1
        have hsent : ∀ e ∈ out1, e.Quiet ∨
            (e = .pullDataRsp c seqNum id userId offset data ∧ t.offline = true ∧ rv ≠ .refused) :=
          fun e he => .inr ⟨sendTo_eq hout1 e he, hoff, hrv⟩
        split at h
        · split at h
          · cases h
          · rename_i out2 hout2
            obtain ⟨rfl, rfl⟩ := Prod.mk.inj (Option.some.inj h)
            refine ⟨.refl s, fun e he => ?_⟩
            rcases List.mem_append.1 he with he | he
            · exact hsent e he
            · exact .inl ((quiet_sendTo hout2 trivial).quiet e he)
        · obtain ⟨rfl, rfl⟩ := Prod.mk.inj (Option.some.inj h)
          exact ⟨.refl s, hsent⟩
    · rename_i hoff
      rw [Bool.not_eq_true] at hoff
      have hset : s.Moves [] (s.setTask r (some { t with macSeqNum := seqNum })) :=
        moves_setTask ht (moves_of_online hoff ⟨_, _, rfl⟩)
      dsimp only at h
      split at h
      · obtain ⟨rfl, rfl⟩ := Prod.mk.inj (Option.some.inj h)
        exact ⟨hset, nofun⟩
      · split at h
        · cases h
        · rename_i out1 hout1
          obtain ⟨rfl, rfl⟩ := Prod.mk.inj (Option.some.inj h)
          exact ⟨hset, fun e he => .inl ((quiet_sendTo hout1 trivial).quiet e he)⟩

/-- A pull uploads nothing. -/
theorem uploadsSound_pull {log out : List Effect} {s s' : Server} {c : ConnId} {conn : FileClientConn} {seqNum : Nat}
    {id : TaskId} {userId : Nat} {mode : TransferFileType} {offset dataSize : Nat} (h : UploadsSound log s)
    (hstep : s.handleClientFilePullFileReq c conn seqNum id userId mode offset dataSize = some (s', out)) :
    UploadsSound (log ++ out) s' := by
  unfold Server.handleClientFilePullFileReq at hstep
  split at hstep
  · obtain ⟨rfl, rfl⟩ := Prod.mk.inj (Option.some.inj hstep)
    rwa [List.append_nil]
  · split at hstep
    · cases hstep
    · rename_i s1 r hfor
      have h1 := uploadsSound_moves h (moves_taskForPull hfor)
      split at hstep
      · cases hstep
      · rename_i t ht
        split at hstep
        · obtain ⟨rfl, rfl⟩ := Prod.mk.inj (Option.some.inj hstep)
          rwa [List.append_nil]
        · rename_i hcheck
          have hid : t.taskId = id := by
            by_contra hne
            exact hcheck (.inr (.inl hne))
          split at hstep
          · cases hstep
          · rename_i p hp
            split at hstep
            · cases hstep
            · rename_i s2 out2 h2
              obtain ⟨rfl, rfl⟩ := Prod.mk.inj (Option.some.inj hstep)
              obtain ⟨hmv, hend⟩ := moves_doPullFileRequest (fun hoff hd => (h1.upload r t ht hoff).mobile hd) hp
              obtain ⟨hmv2, hout⟩ := answerPull_cases (if_pos rfl) h2
              have hs2 := uploadsSound_moves h1 ((moves_setTask ht hmv).trans hmv2)
              have hnotice : ∀ e ∈ Server.beginNotice p.task id, e.Quiet := by
                intro e he
                unfold Server.beginNotice at he
                split at he
                · exact List.mem_singleton.1 he ▸ trivial
                · cases he
              have hcase : ∀ e ∈ Server.beginNotice p.task id ++ out2,
                  e.Quiet ∨ (e = .pullDataRsp c seqNum id userId offset p.data ∧ p.task.offline = true ∧ p.rv ≠ .refused) := by
                intro e he
                rcases List.mem_append.1 he with he | he
                · exact .inl (hnotice e he)
                · exact hout e he
              have hno : NoUpload (Server.beginNotice p.task id ++ out2) := by
                intro u hu
                rcases hcase _ hu with hq | ⟨heq, -⟩
                · exact hq
                · cases heq
              refine hs2.same (sameUploads_append hno) ?_
              -- a block is sent of a file that is uploaded
              by_cases hsent : p.task.offline = true ∧ p.rv ≠ .refused
              · have hoff : t.offline = true := hmv.offline ▸ hsent.1
                have hver := (h1.upload r t ht hoff).ended (hend hoff hsent.2)
                rw [hid] at hver
                refine downloadsVerified_delivered h.verified hver hno fun c' seqNum' id' userId' offset' data' hin => ?_
                rcases hcase _ hin with hq | ⟨heq, -⟩
                · exact hq.elim
                · injection heq
              · refine downloadsVerified_append h.verified fun c' seqNum' id' userId' offset' data' hin => ?_
                rcases hcase _ hin with hq | ⟨-, hrest⟩
                · exact hq
                · exact hsent hrest

/-! ## Blocks of an upload -/

/-- Which files and paths the upload of a task may change: its own. -/
structure OwnFile (st st' : Storage) (t : Task) (f : FileRef) : Prop where
  own : f = st.nextFile ∨ ∃ file, st.files f = some file ∧ file.header = some t.header
  files : ∀ f', f' ≠ f → st'.files f' = st.files f'
  paths : ∀ id, id ≠ t.taskId → st'.paths id = st.paths id
  nextFile : st.nextFile ≤ st'.nextFile
  bound : f < st'.nextFile

/-- The first block finds no file, and makes one; the others find it open. -/
theorem openForUpload_sound {log : List Effect} {st st' : Storage} {t t' : Task} (h : UploadSound log st t)
    (hfiles : ∀ f file, st.files f = some file → f < st.nextFile) (hstate : t.state = .waitingUpload ∨ t.state = .uploading)
    (hopen : t.openForUpload st = some (st', t')) :
    (st' = st ∧ t' = t ∧ t.pc.fp = none) ∨
    ∃ fp file, t' = { t with pc := { t.pc with fp := some fp, state := .uploading } } ∧ st'.files fp.file = some file ∧
      file.header = some t.header ∧ OwnFile st st' t fp.file ∧ .upload (.md5Equal t.taskId) ∉ log ∧
      Partly log st' t fp file := by
  unfold Task.openForUpload at hopen
  rcases hstate with hs | hs
  · obtain ⟨hfp, hidx, hun⟩ := h.begins (.inr hs)
    rw [if_pos hs, hfp] at hopen
    dsimp only at hopen
    split at hopen
    · obtain ⟨rfl, rfl⟩ := Prod.mk.inj (Option.some.inj hopen)
      exact .inl ⟨rfl, rfl, hfp⟩
    · rename_i st1 fp hw
      unfold Storage.openByWrite at hw
      split at hw
      · rw [hun.path] at hw
        obtain ⟨rfl, rfl⟩ := Prod.mk.inj (Option.some.inj hw)
        simp only [Storage.writeHeader, Storage.setPath, Storage.setFile, if_true, Option.map_some, Option.some.injEq,
          Prod.mk.injEq] at hopen
        obtain ⟨rfl, rfl⟩ := hopen
        refine .inr ⟨_, { header := some t.header, data := [] }, rfl, if_pos rfl, rfl, ⟨.inl rfl, ?_, ?_, ?_, ?_⟩, hun.equal, ?_⟩
        · intro f' hf'
          simp only [if_neg hf']
        · exact fun id hid => if_neg hid
        · exact Nat.le_succ _
        · exact Nat.lt_succ_self _
        · refine .inr ⟨if_pos rfl, hun.received, hun.consistent, ?_, ?_⟩
          · rw [hidx, Nat.zero_mul]
            rfl
          · rw [hidx]
            refine (Nat.eq_zero_or_pos t.fileSize).symm.imp_left fun hpos => (t.lt_sengmentSize_iff 0).2 ?_
            rwa [Nat.zero_mul]
      · cases hw
  · obtain ⟨hequal, -, fp, file, hfp, hfile, hheader, hpartly⟩ := h.goesOn hs
    rw [if_neg (by rw [hs]; decide)] at hopen
    obtain ⟨rfl, rfl⟩ := Prod.mk.inj (Option.some.inj hopen)
    refine .inr ⟨fp, file, ?_, hfile, hheader, ⟨.inr ⟨file, hfile, hheader⟩, fun _ _ => rfl, fun _ _ => rfl, Nat.le_refl _,
      hfiles _ _ hfile⟩, hequal, hpartly⟩
    rw [← hfp, ← hs]
    rfl

/-- What `DoRecvData` leaves behind when it has taken a block. -/
structure Took (log : List Effect) (st : Storage) (t : Task) (d : Received) (f : FileRef) : Prop where
  unended : t.state.uploadEnded = false ∧ .upload (.md5Equal t.taskId) ∉ log
  taskId : d.task.taskId = t.taskId
  offline : d.task.offline = true
  file : OwnFile st d.storage t f
  trace : ∀ u ∈ d.trace, u = .md5Equal t.taskId ∨ u = .md5Inconsistent t.taskId ∨ ∃ n, u = .block t.taskId n
  upload : UploadSound (log ++ d.trace.map .upload) d.storage d.task
  stored : ∀ f', d.storage.paths t.taskId = some f' → StoredSound (log ++ d.trace.map .upload) d.storage t.taskId f'

/-- One block more is received of its task. -/
theorem received_block (log : List Effect) (id : TaskId) (n : Nat) (us : List Upload) (hus : ∀ u ∈ us, ∀ id n, u ≠ .block id n) :
    received (log ++ (.block id n :: us).map .upload) id = received log id + n := by
  have hzero : received (us.map .upload) id = 0 := by
    induction us with
    | nil => rfl
    | cons u us ih =>
      have hu : (Effect.upload u).blockLength id = 0 := by
        cases u with
        | block id n => exact absurd rfl (hus _ List.mem_cons_self id n)
        | md5Equal id => rfl
        | md5Inconsistent id => rfl
      rw [received, List.map_cons, List.map_cons, List.sum_cons, hu, Nat.zero_add]
      exact ih fun u' hu' => hus u' (List.mem_cons_of_mem u hu')
  rw [received_append]
  refine congrArg _ ?_
  rw [received, List.map_cons, List.map_cons, List.sum_cons]
  refine (congrArg₂ _ (if_pos rfl) hzero).trans (Nat.add_zero n)

/-- What is uploaded in a step comes after the log. -/
theorem mem_trace_iff (log : List Effect) (us : List Upload) (u : Upload) :
    .upload u ∈ log ++ us.map .upload ↔ .upload u ∈ log ∨ u ∈ us := by
  rw [List.mem_append, List.mem_map]
  refine or_congr_right ⟨?_, fun hu => ⟨u, hu, rfl⟩⟩
  rintro ⟨u', hu', heq⟩
  injection heq with heq
  exact heq ▸ hu'

/-- Bytes are written at the end of the file. -/
theorem files_append {st : Storage} {fp : Handle} {file : StoredFile} (h : st.files fp.file = some file) (data : Bytes) :
    st.append fp data = st.setFile fp.file { file with data := file.data ++ data } := by
  simp only [Storage.append, h]

/-- The task with a block more. -/
def withBlock (t : Task) (fp : Handle) : Task := { t with pc := ⟨.uploading, some fp, t.pc.transferedIdx + 1⟩ }

section Block

variable {log : List Effect} {st st1 : Storage} {t : Task} {fp : Handle} {file : StoredFile} {data : Bytes}

/-- The file and what is known of it before the block is appended. -/
structure Appends (log : List Effect) (st st1 : Storage) (t : Task) (fp : Handle) (file : StoredFile) : Prop where
  upload : UploadSound log st t
  offline : t.offline = true
  unended : t.state.uploadEnded = false
  found : st1.files fp.file = some file
  header : file.header = some t.header
  own : OwnFile st st1 t fp.file
  equal : .upload (.md5Equal t.taskId) ∉ log
  partly : Partly log st1 t fp file

/-- The directory with the block. -/
def withData (st1 : Storage) (fp : Handle) (file : StoredFile) (data : Bytes) : Storage :=
  st1.setFile fp.file { file with data := file.data ++ data }

/-- The file has them then. -/
theorem file_withData : (withData st1 fp file data).files fp.file = some { file with data := file.data ++ data } := if_pos rfl

/-- A file that is written belongs to one task. -/
theorem Appends.ownFile (h : Appends log st st1 t fp file) : OwnFile st (withData st1 fp file data) t fp.file := by
  refine ⟨h.own.own, fun f' hf' => ?_, h.own.paths, h.own.nextFile, h.own.bound⟩
  rw [← h.own.files f' hf']
  exact if_neg hf'

/-- Nobody downloads what is still written. -/
theorem Appends.not_downloads (h : Appends log st st1 t fp file) : ¬t.mobile.state.downloads := by
  intro hm
  have he := h.upload.mobile hm
  rw [h.unended] at he
  cases he

/-- The last block, with equal digests. -/
theorem took_equal (h : Appends log st st1 t fp file) (hlen : data.length = t.nextSegmentBlockSize false)
    (hlast : t.pc.transferedIdx + 1 = t.sengmentSize) :
    Took log st t {
      storage := withData st1 fp file data
      task := { withBlock t fp with pc := ⟨.uploadEnd, none, t.pc.transferedIdx + 1⟩ }
      rv := .done
      trace := [.block t.taskId data.length, .md5Equal t.taskId] }
      fp.file := by
  have hinside := (t.lt_sengmentSize_iff t.pc.transferedIdx).1 (by omega)
  have hblock : data.length = t.fileSize - t.pc.transferedIdx * segmentSize := by
    rw [hlen, Task.nextSegmentBlockSize, if_pos hlast]
  have hver : Verified (log ++ [Upload.block t.taskId data.length, .md5Equal t.taskId].map .upload) t.taskId := by
    obtain ⟨req, hreq, hreqoff, hsize⟩ := h.upload.asked h.unended
    rcases h.partly with ⟨-, hgone⟩ | ⟨-, hrec, hcons, hdata, -⟩
    · omega
    · refine ⟨⟨req, List.mem_append_left _ hreq, hreqoff, ?_⟩, (mem_trace_iff _ _ _).2 (.inr (by simp)), fun hin => ?_⟩
      · rw [received_block log t.taskId data.length [.md5Equal t.taskId] (by simp)]
        omega
      · rcases (mem_trace_iff _ _ _).1 hin with hin | hin
        · exact hcons hin
        · simp at hin
  refine ⟨⟨h.unended, h.equal⟩, rfl, h.offline, h.ownFile, by simp, ?_, ?_⟩
  · refine ⟨.inr (.inr (.inr rfl)), ?_, ?_, fun _ => hver, fun _ => rfl, nofun⟩
    · rintro (hs | hs) <;> cases hs
    · exact nofun
  · intro f' hf'
    rcases h.partly with ⟨hpath, -⟩ | ⟨hpath, -⟩
    · exact absurd (hpath.symm.trans hf') nofun
    · rw [← Option.some.inj (hpath.symm.trans hf')]
      exact ⟨_, _, file_withData, h.header, rfl, fun _ => hver⟩

/-- The last block, with digests that differ: the file is removed. -/
theorem took_inconsistent (h : Appends log st st1 t fp file) (hlast : t.pc.transferedIdx + 1 = t.sengmentSize) :
    Took log st t {
      storage := (withData st1 fp file data).remove t.taskId
      task := withBlock t fp
      rv := .refused
      trace := [.block t.taskId data.length, .md5Inconsistent t.taskId] }
      fp.file := by
  have hown : OwnFile st (withData st1 fp file data) t fp.file := h.ownFile
  refine ⟨⟨h.unended, h.equal⟩, rfl, h.offline, ⟨hown.own, hown.files, fun id hid => ?_, hown.nextFile, hown.bound⟩, by simp,
    ?_, ?_⟩
  · rw [← hown.paths id hid]
    exact if_neg hid
  · refine ⟨.inr (.inr (.inl rfl)), ?_, fun _ => ⟨?_, Nat.succ_pos _, fp, _, rfl, file_withData, h.header, .inl ⟨if_pos rfl, ?_⟩⟩,
      nofun, fun hm => absurd hm h.not_downloads, fun _ => ?_⟩
    · rintro (hs | hs) <;> cases hs
    · intro hin
      rcases (mem_trace_iff _ _ _).1 hin with hin | hin
      · exact h.equal hin
      · simp at hin
    · exact Nat.le_of_eq hlast.symm
    · obtain ⟨req, hreq, hrest⟩ := h.upload.asked h.unended
      exact ⟨req, List.mem_append_left _ hreq, hrest⟩
  · intro f' hf'
    exact absurd ((if_pos rfl).symm.trans hf') nofun

/-- A block that is not the last one. -/
theorem took_more (h : Appends log st st1 t fp file) (hlen : data.length = t.nextSegmentBlockSize false)
    (hlast : t.pc.transferedIdx + 1 ≠ t.sengmentSize) :
    Took log st t {
      storage := withData st1 fp file data, task := withBlock t fp, rv := .more, trace := [.block t.taskId data.length] }
      fp.file := by
  have hblock : data.length = segmentSize := by
    rw [hlen, Task.nextSegmentBlockSize, if_neg hlast, if_neg fun hm => by cases hm.1]
  have hpartly : Partly (log ++ [Upload.block t.taskId data.length].map .upload) (withData st1 fp file data) (withBlock t fp) fp
      { file with data := file.data ++ data } := by
    rcases h.partly with ⟨hpath, hgone⟩ | ⟨hpath, hrec, hcons, hdata, hidx⟩
    · exact .inl ⟨hpath, Nat.le_succ_of_le hgone⟩
    · refine .inr ⟨hpath, ?_, fun hin => ?_, ?_, ?_⟩
      · rw [List.length_append, ← hrec]
        exact received_block log t.taskId data.length [] (by simp)
      · rcases (mem_trace_iff _ _ _).1 hin with hin | hin
        · exact hcons hin
        · simp at hin
      · rw [List.length_append, hdata, hblock]
        exact (Nat.succ_mul _ _).symm
      · refine hidx.imp_left fun hlt => ?_
        change t.pc.transferedIdx + 1 < t.sengmentSize
        omega
  refine ⟨⟨h.unended, h.equal⟩, rfl, h.offline, h.ownFile, by simp, ?_, ?_⟩
  · refine ⟨.inr (.inr (.inl rfl)), ?_, fun _ => ⟨?_, Nat.succ_pos _, fp, _, rfl, file_withData, h.header, hpartly⟩, nofun,
      fun hm => absurd hm h.not_downloads, fun _ => ?_⟩
    · rintro (hs | hs) <;> cases hs
    · intro hin
      rcases (mem_trace_iff _ _ _).1 hin with hin | hin
      · exact h.equal hin
      · simp at hin
    · obtain ⟨req, hreq, hrest⟩ := h.upload.asked h.unended
      exact ⟨req, List.mem_append_left _ hreq, hrest⟩
  · intro f' hf'
    rcases hpartly with ⟨hpath, -⟩ | ⟨hpath, -, -, hdata, hidx⟩
    · exact absurd (hpath.symm.trans hf') nofun
    · rw [← Option.some.inj (hpath.symm.trans hf')]
      refine ⟨_, _, file_withData, h.header, rfl, fun hwhole => ?_⟩
      -- what is stored is not the whole file
      exfalso
      have hdata' : (file.data ++ data).length = (t.pc.transferedIdx + 1) * segmentSize := hdata
      have hwhole' : (file.data ++ data).length = t.fileSize := hwhole
      rcases hidx with hlt | hzero
      · have := (t.lt_sengmentSize_iff (t.pc.transferedIdx + 1)).1 hlt
        omega
      · have hzero' : t.fileSize = 0 := hzero
        simp only [segmentSize] at hdata'
        omega

end Block

/-- A block is refused, or taken. -/
theorem doRecvDataOffline_cases {md5 : Bytes → String} {log : List Effect} {st : Storage} {t : Task} {userId offset : Nat}
    {data : Bytes} {d : Received} (h : UploadSound log st t) (hoff : t.offline = true)
    (hfiles : ∀ f file, st.files f = some file → f < st.nextFile)
    (hmeets : t.state = .waitingUpload ∨ t.state = .uploading → offset = Task.offsetOf t.pc.transferedIdx →
      data.length = t.nextSegmentBlockSize false)
    (hd : t.doRecvDataOffline md5 st userId offset data = some d) :
    (d.storage = st ∧ d.task = t ∧ d.trace = []) ∨ ∃ f, Took log st t d f := by
  unfold Task.doRecvDataOffline at hd
  split at hd
  · rw [← Option.some.inj hd]
    exact .inl ⟨rfl, rfl, rfl⟩
  · split at hd
    · rw [← Option.some.inj hd]
      exact .inl ⟨rfl, rfl, rfl⟩
    · rename_i hstate
      rw [not_and_or, not_not, not_not] at hstate
      split at hd
      · rw [← Option.some.inj hd]
        exact .inl ⟨rfl, rfl, rfl⟩
      · rename_i hoffset
        have hlen := hmeets hstate (not_not.1 hoffset)
        dsimp only at hd
        split at hd
        · cases hd
        · rename_i st1 t1 hopen
          rcases openForUpload_sound h hfiles hstate hopen with ⟨rfl, rfl, hfp⟩ |
            ⟨fp, file, rfl, hfile, hheader, hown, hequal, hpartly⟩
          · rw [hfp] at hd
            rw [← Option.some.inj hd]
            exact .inl ⟨rfl, rfl, rfl⟩
          · dsimp only at hd
            split at hd
            · cases hd
            · rw [List.take_of_length_le (Nat.le_of_eq hlen), files_append hfile] at hd
              have hunended : t.state.uploadEnded = false := by
                rcases hstate with hs | hs <;> rw [hs] <;> rfl
              have happ : Appends log st st1 t fp file := ⟨h, hoff, hunended, hfile, hheader, hown, hequal, hpartly⟩
              refine .inr ⟨fp.file, ?_⟩
              split at hd
              · rename_i hlast
                rw [← Option.some.inj hd, Task.compareMd5]
                split
                · exact took_equal happ hlen hlast
                · exact took_inconsistent happ hlast
              · rename_i hlast
                rw [← Option.some.inj hd]
                exact took_more happ hlen hlast

section Took

variable {log : List Effect} {s : Server} {r : TaskRef} {t : Task} {d : Received} {f : FileRef}

/-- A block of one task counts for no other. -/
theorem received_tookOther {st : Storage} (htook : Took log st t d f) {id : TaskId} (hid : id ≠ t.taskId) :
    received (log ++ d.trace.map .upload) id = received log id := by
  have hzero : ∀ us : List Upload, (∀ u ∈ us, u = .md5Equal t.taskId ∨ u = .md5Inconsistent t.taskId ∨
      ∃ n, u = .block t.taskId n) → received (us.map .upload) id = 0 := by
    intro us hus
    induction us with
    | nil => rfl
    | cons u us ih =>
      have hu : (Effect.upload u).blockLength id = 0 := by
        rcases hus u List.mem_cons_self with rfl | rfl | ⟨n, rfl⟩
        · rfl
        · rfl
        · exact if_neg fun heq => hid heq.symm
      rw [received, List.map_cons, List.map_cons, List.sum_cons, hu, Nat.zero_add]
      exact ih fun u' hu' => hus u' (List.mem_cons_of_mem u hu')
  rw [received_append, hzero d.trace htook.trace, Nat.add_zero]

/-- Nor does its digest. -/
theorem upload_tookOther {st : Storage} (htook : Took log st t d f) {id : TaskId} (hid : id ≠ t.taskId) {u : Upload}
    (hu : u = .md5Equal id ∨ u = .md5Inconsistent id) : .upload u ∈ log ++ d.trace.map .upload ↔ .upload u ∈ log := by
  rw [mem_trace_iff]
  refine or_iff_left fun hin => ?_
  rcases htook.trace u hin with rfl | rfl | ⟨n, rfl⟩
  · rcases hu with hu | hu
    · injection hu with hu
      exact hid hu.symm
    · cases hu
  · rcases hu with hu | hu
    · cases hu
    · injection hu with hu
      exact hid hu.symm
  · rcases hu with hu | hu <;> cases hu

/-- What was verified of another task still is. -/
theorem verified_tookOther {st : Storage} (htook : Took log st t d f) {id : TaskId} (hid : id ≠ t.taskId)
    (h : Verified log id) : Verified (log ++ d.trace.map .upload) id := by
  obtain ⟨⟨req, hreq, hreqoff, hsize⟩, heq, hcons⟩ := h
  exact ⟨⟨req, List.mem_append_left _ hreq, hreqoff, (received_tookOther htook hid).trans hsize⟩,
    (upload_tookOther htook hid (.inl rfl)).2 heq, fun hin => hcons ((upload_tookOther htook hid (.inr rfl)).1 hin)⟩

/-- A file of another task is not the one that is written. -/
theorem files_tookOther {st : Storage} (htook : Took log st t d f) (hfiles : ∀ f file, st.files f = some file → f < st.nextFile)
    {f' : FileRef} {file : StoredFile} {header : OfflineFileHeader} (hf' : st.files f' = some file) (hheader : file.header = some header)
    (hid : header.taskId ≠ t.taskId) : d.storage.files f' = some file := by
  rw [htook.file.files f' ?_]
  · exact hf'
  · rintro rfl
    rcases htook.file.own with hfresh | ⟨file0, hfile0, hheader0⟩
    · exact Nat.ne_of_lt (hfiles f' file hf') hfresh
    · rw [hf'] at hfile0
      obtain rfl := Option.some.inj hfile0
      rw [hheader] at hheader0
      obtain rfl := Option.some.inj hheader0
      exact hid rfl

/-- The upload of another task is as far as before. -/
theorem uploadSound_tookOther {st : Storage} (htook : Took log st t d f)
    (hfiles : ∀ f file, st.files f = some file → f < st.nextFile) {t' : Task} (hid : t'.taskId ≠ t.taskId)
    (hsound : UploadSound log st t') : UploadSound (log ++ d.trace.map .upload) d.storage t' := by
  have hrec := received_tookOther htook hid
  have hequal := upload_tookOther htook hid (.inl rfl)
  have hcons := upload_tookOther htook hid (.inr rfl)
  have hpath := htook.file.paths t'.taskId hid
  refine ⟨hsound.states, fun hs => ?_, fun hs => ?_, fun hs => verified_tookOther htook hid (hsound.ended hs), hsound.mobile,
    fun hs => ?_⟩
  · obtain ⟨hfp, hidx, hun⟩ := hsound.begins hs
    exact ⟨hfp, hidx, hpath.trans hun.path, hrec.trans hun.received, fun hin => hun.equal (hequal.1 hin),
      fun hin => hun.consistent (hcons.1 hin)⟩
  · obtain ⟨heq, hpos, fp, file, hfp, hf, hheader, hpartly⟩ := hsound.goesOn hs
    refine ⟨fun hin => heq (hequal.1 hin), hpos, fp, file, hfp, files_tookOther htook hfiles hf hheader hid, hheader, ?_⟩
    rcases hpartly with ⟨hp, hgone⟩ | ⟨hp, hr, hc, hdata⟩
    · exact .inl ⟨hpath.trans hp, hgone⟩
    · exact .inr ⟨hpath.trans hp, hrec.trans hr, fun hin => hc (hcons.1 hin), hdata⟩
  · obtain ⟨req, hreq, hrest⟩ := hsound.asked hs
    exact ⟨req, List.mem_append_left _ hreq, hrest⟩

/-- And so is what is stored of it. -/
theorem storedSound_tookOther {st : Storage} (htook : Took log st t d f)
    (hfiles : ∀ f file, st.files f = some file → f < st.nextFile) {id : TaskId} (hid : id ≠ t.taskId) {f' : FileRef}
    (h : StoredSound log st id f') : StoredSound (log ++ d.trace.map .upload) d.storage id f' := by
  obtain ⟨file, header, hf, hheader, heq, hver⟩ := h
  exact ⟨file, header, files_tookOther htook hfiles hf hheader (heq ▸ hid), hheader, heq,
    fun hlen => verified_tookOther htook hid (hver hlen)⟩

/-- The tasks after a block. -/
theorem tasks_took {st : Storage} {r' : TaskRef} {t' : Task}
    (h : ({ s with storage := st }.setTask r (some d.task)).tasks r' = some t') :
    (r' = r ∧ t' = d.task) ∨ (r' ≠ r ∧ s.tasks r' = some t') := by
  simp only [Server.setTask] at h
  split at h
  · exact .inl ⟨‹_›, (Option.some.inj h).symm⟩
  · exact .inr ⟨‹_›, h⟩

/-- A block that is taken keeps the invariant. -/
theorem uploadsSound_took (h : UploadsSound log s) (ht : s.tasks r = some t) (hoff : t.offline = true)
    (htook : Took log s.storage t d f) :
    UploadsSound (log ++ d.trace.map .upload) ({ s with storage := d.storage }.setTask r (some d.task)) := by
  obtain ⟨hunended, hequal⟩ := htook.unended
  have hknown := h.known r t ht
  refine ⟨?_, ?_, ?_, ?_, ?_, ?_, ?_, ?_⟩
  · intro r' t' ht'
    rcases tasks_took ht' with ⟨rfl, rfl⟩ | ⟨-, ht'⟩
    · exact h.fresh r' t ht
    · exact h.fresh r' t' ht'
  · intro r' t' ht'
    rcases tasks_took ht' with ⟨rfl, rfl⟩ | ⟨-, ht'⟩
    · rw [htook.taskId]
      exact hknown
    · exact h.known r' t' ht'
  · intro r' t' ht' hoff'
    rcases tasks_took ht' with ⟨rfl, rfl⟩ | ⟨hne, ht'⟩
    · exact htook.upload
    · have hsound := h.upload r' t' ht' hoff'
      by_cases hid : t'.taskId = t.taskId
      · -- the same task cannot have been uploaded, nor be uploaded a second time
        exfalso
        cases hend : t'.state.uploadEnded with
        | true => exact hequal (hid ▸ (hsound.ended hend).equal)
        | false => exact hne (h.unique r' r t' t ht' ht hid hoff' hoff hend hunended)
      · exact uploadSound_tookOther htook h.files hid hsound
  · intro r1 r2 t1 t2 ht1 ht2 hid hoff1 hoff2 hend1 hend2
    rcases tasks_took ht1 with ⟨rfl, rfl⟩ | ⟨-, hs1⟩
    · rcases tasks_took ht2 with ⟨rfl, rfl⟩ | ⟨-, hs2⟩
      · rfl
      · exact h.unique r1 r2 t t2 ht hs2 (htook.taskId.symm.trans hid) hoff hoff2 hunended hend2
    · rcases tasks_took ht2 with ⟨rfl, rfl⟩ | ⟨-, hs2⟩
      · exact h.unique r1 r2 t1 t hs1 ht (hid.trans htook.taskId) hoff1 hoff hend1 hunended
      · exact h.unique r1 r2 t1 t2 hs1 hs2 hid hoff1 hoff2 hend1 hend2
  · intro id f' hf'
    by_cases hid : id = t.taskId
    · subst hid
      exact ⟨hknown, htook.stored f' hf'⟩
    · have hf0 : s.storage.paths id = some f' := (htook.file.paths id hid).symm.trans hf'
      obtain ⟨hin, hstored⟩ := h.stored id f' hf0
      exact ⟨hin, storedSound_tookOther htook h.files hid hstored⟩
  · intro f' file' hf'
    by_cases heq : f' = f
    · rw [heq]
      exact htook.file.bound
    · have hf0 : s.storage.files f' = some file' := (htook.file.files f' heq).symm.trans hf'
      exact Nat.lt_of_lt_of_le (h.files f' file' hf0) htook.file.nextFile
  · intro id hid
    have hne : id ≠ t.taskId := fun heq => hid (heq ▸ hknown)
    obtain ⟨hr, he, hc⟩ := h.silent id hid
    exact ⟨(received_tookOther htook hne).trans hr, fun hin => he ((upload_tookOther htook hne (.inl rfl)).1 hin),
      fun hin => hc ((upload_tookOther htook hne (.inr rfl)).1 hin)⟩
  · refine downloadsVerified_append h.verified fun c seqNum id userId offset data hin => ?_
    obtain ⟨u, -, heq⟩ := List.mem_map.1 hin
    cases heq

end Took

/-- The answer to data changes nothing. -/
theorem quiet_answerData {s s' : Server} {c : ConnId} {t : Task} {pdu : Pdu} {id : TaskId} {userId : Nat} {rv : Rv}
    {out : List Effect} (h : s.answerData c t pdu id userId rv = some (s', out)) : s' = s ∧ ∀ e ∈ out, e.Quiet := by
  unfold Server.answerData at h
  split at h
  · obtain ⟨rfl, rfl⟩ := Prod.mk.inj (Option.some.inj h)
    exact ⟨rfl, nofun⟩
  · split at h
    · split at h
      · cases h
      · rename_i out1 hout1
        obtain ⟨rfl, rfl⟩ := Prod.mk.inj (Option.some.inj h)
        refine ⟨rfl, (quiet_sendTo hout1 ?_).quiet⟩
        split <;> exact trivial
    · split at h
      · obtain ⟨rfl, rfl⟩ := Prod.mk.inj (Option.some.inj h)
        exact ⟨rfl, nofun⟩
      · split at h
        · cases h
        · rename_i out1 hout1
          obtain ⟨rfl, rfl⟩ := Prod.mk.inj (Option.some.inj h)
          exact ⟨rfl, (quiet_sendTo hout1 trivial).quiet⟩

/-- Quiet effects change nothing. -/
theorem uploadsSound_append {log out : List Effect} {s : Server} (h : UploadsSound log s) (hout : ∀ e ∈ out, e.Quiet) :
    UploadsSound (log ++ out) s :=
  h.same (sameUploads_append (noUpload_of_quiet hout))
    (downloadsVerified_append h.verified fun _ _ _ _ _ _ hin => hout _ hin)

/-- Data are received: the file gets them, or the upload fails. -/
theorem uploadsSound_recv {md5 : Bytes → String} {log out : List Effect} {s s' : Server} {c : ConnId} {conn : FileClientConn}
    {resultCode : Nat} {id : TaskId} {userId offset : Nat} {data : Bytes} (h : UploadsSound log s)
    (hmeets : ∀ r t, conn.transferTask = some r → s.tasks r = some t → t.offline = true →
      t.state = .waitingUpload ∨ t.state = .uploading → offset = Task.offsetOf t.pc.transferedIdx →
      data.length = t.nextSegmentBlockSize false)
    (hstep : s.handleClientFilePullFileRsp md5 c conn resultCode id userId offset data = some (s', out)) :
    UploadsSound (log ++ out) s' := by
  unfold Server.handleClientFilePullFileRsp at hstep
  split at hstep
  · obtain ⟨rfl, rfl⟩ := Prod.mk.inj (Option.some.inj hstep)
    rwa [List.append_nil]
  · rename_i r hr
    split at hstep
    · obtain ⟨rfl, rfl⟩ := Prod.mk.inj (Option.some.inj hstep)
      rwa [List.append_nil]
    · split at hstep
      · cases hstep
      · rename_i t ht
        split at hstep
        · obtain ⟨rfl, rfl⟩ := Prod.mk.inj (Option.some.inj hstep)
          rwa [List.append_nil]
        · split at hstep
          · cases hstep
          · rename_i d hd
            split at hstep
            · cases hstep
            · rename_i s2 out2 h2
              obtain ⟨rfl, rfl⟩ := Prod.mk.inj (Option.some.inj hstep)
              obtain ⟨rfl, hquiet⟩ := quiet_answerData h2
              rw [← List.append_assoc]
              refine uploadsSound_append ?_ hquiet
              unfold Task.doRecvData at hd
              split at hd
              · rename_i hoff
                rcases doRecvDataOffline_cases (h.upload r t ht hoff) hoff h.files (hmeets r t hr ht hoff) hd with
                  ⟨hst, htask, htrace⟩ | ⟨f, htook⟩
                · rw [hst, htask, htrace, List.map_nil, List.append_nil]
                  exact uploadsSound_moves h (moves_setTask ht (Task.Moves.refl t))
                · exact uploadsSound_took h ht hoff htook
              · rename_i hoff
                rw [Bool.not_eq_true] at hoff
                split at hd
                · rw [← Option.some.inj hd, List.map_nil, List.append_nil]
                  refine uploadsSound_moves h (moves_setTask ht (moves_of_online hoff ?_))
                  unfold Task.transferOnline
                  dsimp only
                  split <;> exact ⟨_, _, rfl⟩
                · rw [← Option.some.inj hd, List.map_nil, List.append_nil]
                  exact uploadsSound_moves h (moves_setTask ht (Task.Moves.refl t))

/-! ## The events -/

/-- A task id more, and nothing else. -/
theorem uploadsSound_uuid {log : List Effect} {s : Server} (h : UploadsSound log s) (id : TaskId) (rsp : Nat) (id' : TaskId)
    (req : TransferReq) : UploadsSound (log ++ [.transferRsp rsp id' req]) { s with uuids := id :: s.uuids } := by
  have hsame : SameUploads log (log ++ [.transferRsp rsp id' req]) := sameUploads_append (by simp [NoUpload])
  have h' := h.same hsame (downloadsVerified_append h.verified (by simp))
  refine ⟨h'.fresh, fun r t ht => List.mem_cons_of_mem _ (h'.known r t ht), h'.upload, h'.unique, ?_, h'.files, ?_, h'.verified⟩
  · intro id0 f hf
    obtain ⟨hid, hstored⟩ := h'.stored id0 f hf
    exact ⟨List.mem_cons_of_mem _ hid, hstored⟩
  · intro id0 hid
    exact h'.silent id0 fun hin => hid (List.mem_cons_of_mem _ hin)

/-- A new task has no file. -/
theorem uploadsSound_transferReq {log : List Effect} {s : Server} {id : TaskId} {req : TransferReq} (h : UploadsSound log s)
    (hid : id ∉ s.uuids) : UploadsSound
      (log ++ [.transferRsp (if (s.newTransferTask id req).2 then 0 else 1) (if (s.newTransferTask id req).2 then id else "") req])
      { (s.newTransferTask id req).1 with uuids := id :: (s.newTransferTask id req).1.uuids } := by
  unfold Server.newTransferTask
  split
  · exact uploadsSound_uuid h id _ _ req
  · split
    · exact uploadsSound_uuid h id _ _ req
    · rename_i hfind hmode
      dsimp only
      rw [if_pos rfl, if_pos rfl]
      have h' := uploadsSound_uuid h id 0 id req
      generalize hnew : Task.new (req.transMode == .offline) id req.fromUserId req.toUserId req.fileName req.fileSize
        req.fileMd5 = t
      have htid : t.taskId = id := hnew ▸ rfl
      have hins : ((s.addTask t).insertTask id s.nextTask) =
          { s.addTask t with transferTasks := (id, s.nextTask) :: s.transferTasks } := by
        have hfind' : (s.addTask t).findByTaskId id = none := hfind
        simp only [Server.insertTask, hfind']
        rfl
      rw [hins]
      have htasks : ∀ r' t', (s.addTask t).tasks r' = some t' →
          (r' = s.nextTask ∧ t' = t) ∨ (r' ≠ s.nextTask ∧ s.tasks r' = some t') := by
        intro r' t' ht'
        simp only [Server.addTask, Server.setTask] at ht'
        split at ht'
        · exact .inl ⟨‹_›, (Option.some.inj ht').symm⟩
        · exact .inr ⟨‹_›, ht'⟩
      have hothers : ∀ r' t', s.tasks r' = some t' → t'.taskId ≠ id := fun r' t' ht' heq => hid (heq ▸ h.known r' t' ht')
      refine ⟨?_, ?_, ?_, ?_, h'.stored, h'.files, h'.silent, h'.verified⟩
      · intro r' t' ht'
        rcases htasks r' t' ht' with ⟨rfl, -⟩ | ⟨-, ht'⟩
        · exact Nat.lt_succ_self _
        · exact Nat.lt_succ_of_lt (h.fresh r' t' ht')
      · intro r' t' ht'
        rcases htasks r' t' ht' with ⟨-, rfl⟩ | ⟨-, ht'⟩
        · rw [htid]
          exact List.mem_cons_self
        · exact h'.known r' t' ht'
      · intro r' t' ht' hoff
        rcases htasks r' t' ht' with ⟨-, rfl⟩ | ⟨-, ht'⟩
        · -- nothing is known of a new task id
          obtain ⟨hrec, hequal, hcons⟩ := h.silent id hid
          have hun : Unstored log s.storage id := by
            refine ⟨?_, hrec, hequal, hcons⟩
            cases hp : s.storage.paths id with
            | none => rfl
            | some f => exact absurd (h.stored id f hp).1 hid
          have hsame : SameUploads log (log ++ [.transferRsp 0 id req]) := sameUploads_append (by simp [NoUpload])
          subst hnew
          refine ⟨.inl rfl, fun _ => ⟨rfl, rfl, hun.same hsame⟩, fun h => (by cases h), fun h => (by cases h), ?_, fun _ => ?_⟩
          · rintro (hs | hs) <;> cases hs
          · refine ⟨req, List.mem_append_right _ List.mem_cons_self, ?_, rfl⟩
            exact of_decide_eq_true hoff
        · exact h'.upload r' t' ht' hoff
      · intro r1 r2 t1 t2 ht1 ht2 heq hoff1 hoff2 hend1 hend2
        rcases htasks r1 t1 ht1 with ⟨hr1, hs1⟩ | ⟨-, hs1⟩
        · rcases htasks r2 t2 ht2 with ⟨hr2, -⟩ | ⟨-, hs2⟩
          · exact hr1.trans hr2.symm
          · exact absurd (heq.symm.trans (hs1 ▸ htid)) (hothers r2 t2 hs2)
        · rcases htasks r2 t2 ht2 with ⟨-, hs2⟩ | ⟨-, hs2⟩
          · exact absurd (heq.trans (hs2 ▸ htid)) (hothers r1 t1 hs1)
          · exact h.unique r1 r2 t1 t2 hs1 hs2 heq hoff1 hoff2 hend1 hend2

/-- A server that has no tasks yet. -/
theorem uploadsSound_start {log : List Effect} {st : Storage} {nextConn : ConnId} {nextTask : TaskRef} {uuids : List TaskId}
    (hstored : ∀ id f, st.paths id = some f → id ∈ uuids ∧ StoredSound log st id f)
    (hfiles : ∀ f file, st.files f = some file → f < st.nextFile)
    (hsilent : ∀ id, id ∉ uuids → received log id = 0 ∧ .upload (.md5Equal id) ∉ log ∧ .upload (.md5Inconsistent id) ∉ log)
    (hverified : DownloadsVerified log) : UploadsSound log (Server.start st nextConn nextTask uuids) := by
  have hnone : ∀ {r t}, (Server.start st nextConn nextTask uuids).tasks r = some t → False :=
    fun h => Option.some_ne_none _ h.symm
  exact ⟨fun _ _ h => (hnone h).elim, fun _ _ h => (hnone h).elim, fun _ _ h => (hnone h).elim,
    fun _ _ _ _ h => (hnone h).elim, hstored, hfiles, hsilent, hverified⟩

/-- There are no tasks. -/
theorem uploadsSound_init : UploadsSound [] Server.init := by
  refine uploadsSound_start (fun _ _ h => absurd h.symm (Option.some_ne_none _))
    (fun _ _ h => absurd h.symm (Option.some_ne_none _))
    (fun _ _ => ⟨rfl, List.not_mem_nil, List.not_mem_nil⟩) ?_
  intro pre post c seqNum id userId offset data heq
  exact absurd heq.symm (List.append_ne_nil_of_right_ne_nil pre (List.cons_ne_nil _ post))

/-- One event. -/
theorem uploadsSound_step {md5 : Bytes → String} {log out : List Effect} {s s' : Server} {e : Event} (h : UploadsSound log s)
    (hmeets : UploadsMeet s e) (hstep : step md5 s e = some (s', out)) : UploadsSound (log ++ out) s' := by
  have hmove : s.Moves out s' → UploadsSound (log ++ out) s' := fun hm => uploadsSound_append (uploadsSound_moves h hm) hm.quiet
  cases e with
  | accept =>
    simp only [step] at hstep
    split at hstep
    · obtain ⟨rfl, rfl⟩ := Prod.mk.inj (Option.some.inj hstep)
      exact hmove (.of_eq rfl rfl rfl rfl nofun)
    · cases hstep
  | pdu c seqNum pdu =>
    simp only [step] at hstep
    split at hstep
    · cases hstep
    · rename_i conn hconn
      split at hstep
      · cases pdu with
        | heartBeat =>
          simp only [Server.handlePdu] at hstep
          split at hstep
          · cases hstep
          · rename_i out1 hout1
            obtain ⟨rfl, rfl⟩ := Prod.mk.inj (Option.some.inj hstep)
            exact hmove (quiet_sendTo hout1 trivial)
        | login userId id role =>
          refine hmove (moves_handleClientFileLoginReq ?_ hstep)
          intro r t hr ht hoff huser hrole
          obtain ⟨hwaiting, huploading⟩ := hmeets hrole r t hr ht hoff huser
          rcases (h.upload r t ht hoff).states with hs | hs | hs | hs
          · exact .inl hs
          · exact absurd hs hwaiting
          · exact absurd hs huploading
          · exact .inr hs
        | fileState state ttype id userId => exact hmove (moves_handleClientFileStates hstep)
        | pullDataReq id userId mode offset dataSize => exact uploadsSound_pull h hstep
        | pullDataRsp resultCode id userId offset data =>
          exact uploadsSound_recv h (fun r t hr ht => hmeets conn r t hconn hr ht) hstep
      · cases hstep
  | batchEnd =>
    simp only [step] at hstep
    split at hstep
    · cases hstep
    · obtain ⟨rfl, rfl⟩ := Prod.mk.inj (Option.some.inj hstep)
      exact hmove (.of_eq rfl rfl rfl rfl nofun)
  | close c =>
    simp only [step] at hstep
    split at hstep
    · split at hstep
      · cases hstep
      · rename_i s1 out1 h1
        obtain ⟨rfl, rfl⟩ := Prod.mk.inj (Option.some.inj hstep)
        exact hmove (List.append_nil out1 ▸ (moves_close h1).trans (moves_setConn s1 c none))
    · cases hstep
  | transferReq id req =>
    simp only [step] at hstep
    split at hstep
    · rename_i hcond
      obtain ⟨rfl, rfl⟩ := Prod.mk.inj (Option.some.inj hstep)
      exact uploadsSound_transferReq h hcond.2.1
    · cases hstep
  | timer expired =>
    simp only [step] at hstep
    split at hstep
    · split at hstep
      · cases hstep
      · rename_i s1 h1
        obtain ⟨rfl, rfl⟩ := Prod.mk.inj (Option.some.inj hstep)
        exact hmove (moves_onTimer h1)
    · cases hstep
  | restart =>
    simp only [step] at hstep
    obtain ⟨rfl, rfl⟩ := Prod.mk.inj (Option.some.inj hstep)
    rw [List.append_nil]
    exact uploadsSound_start h.stored h.files h.silent h.verified

/-! ## A download that begins too early -/

/-- A file of 40000 bytes is downloaded when its first block has come. -/
def early (block : Bytes) : List Event :=
  [.accept, .accept, .transferReq "ab" ⟨1, 2, "f", 40000, .offline, "md5"⟩, .pdu 0 0 (.login 1 "ab" .offlineUpload),
    .pdu 0 0 (.pullDataRsp 0 "ab" 1 0 block), .pdu 1 0 (.login 2 "ab" .offlineDownload),
    .pdu 1 0 (.pullDataReq "ab" 2 .offline 0 0)]

/-- The first block of an unfinished upload. -/
def unverified (e : Effect) : Bool :=
  match e with
  | .pullDataRsp _ _ id _ _ _ => id = "ab"
  | _ => false

/-- The block is sent, and the digests have not been compared. -/
theorem early_sent (md5 : Bytes → String) {block : Bytes} (h : block.length = 32768) :
    (Machine.steps (step md5) Server.init (early block)).any fun (_, log) =>
      log.any unverified ∧ .upload (.md5Equal "ab") ∉ log := by
  have hab : "ab".length = 2 := by decide
  simp [unverified, early, Machine.steps, step, Server.init, Server.start, Server.setConn, Server.newTransferTask, Server.findByTaskId,
    Server.addTask, Server.setTask, Server.insertTask, Server.handlePdu, Server.handleClientFileLoginReq, Server.findOrLoad,
    Task.changePullState, Task.checkByUserIdAndFileRole, Task.new, Task.changePullStateOffline, Task.state, Task.setState,
    Task.setConnByUserId, Server.sendTo, Server.afterLogin, Task.nextSegmentBlockSize, Task.sengmentSize, segmentSize,
    Server.handleClientFilePullFileRsp, Task.doRecvData, Task.doRecvDataOffline, Task.offsetOf, uint32Size,
    Task.openForUpload, Storage.openByWrite, Storage.init, Storage.writeHeader, Storage.setPath, Storage.setFile,
    Storage.append, Task.header, h, hab, Server.answerData, Server.handleClientFilePullFileReq, Server.taskForPull,
    Task.doPullFileRequest, Task.doPullFileRequestOffline, Task.stream, Task.setStream, Task.openForDownload,
    Storage.openByRead, Storage.readHeader, Storage.read, Task.pulledBlock, Server.answerPull, Server.beginNotice,
    Task.nextOffset]

end UploadsAux

open UploadsAux

/-- What is downloaded has been uploaded as a whole, with equal digests, in every run in which nobody logs in to download a
file that is being uploaded, and each block that is taken has its length. -/
theorem downloads_verified (md5 : Bytes → String) (log : List Effect) (s : Server)
    (hrun : Machine.Run (step md5) UploadsMeet Server.init log s) : DownloadsVerified log :=
  (hrun.invariant (I := UploadsSound) uploadsSound_init fun h hmeets hstep => uploadsSound_step h hmeets hstep).verified

/-- A file of one byte is uploaded, and downloaded. -/
theorem downloads_verified_byte : ∃ log s, Machine.Run (step fun _ => "0cc175b9c0f1b6a831c399e269772661") UploadsMeet
    Server.init log s ∧ .pullDataRsp 1 0 "ab" 2 0 [0x61] ∈ log ∧ DownloadsVerified log := by
  have hrun : ∃ log s, Machine.Run (step fun _ => "0cc175b9c0f1b6a831c399e269772661") UploadsMeet Server.init log s ∧
      .pullDataRsp 1 0 "ab" 2 0 [0x61] ∈ log := by
    refine ⟨_, _, .step (.step (.step (.step (.step (.step (.step .start (e := .accept) trivial rfl)
      (e := .accept) trivial rfl)
      (e := .transferReq "ab" ⟨1, 2, "f", 1, .offline, "0cc175b9c0f1b6a831c399e269772661"⟩) trivial rfl)
      (e := .pdu 0 0 (.login 1 "ab" .offlineUpload)) ?_ rfl)
      (e := .pdu 0 0 (.pullDataRsp 0 "ab" 1 0 [0x61])) ?_ rfl)
      (e := .pdu 1 0 (.login 2 "ab" .offlineDownload)) ?_ rfl)
      (e := .pdu 1 0 (.pullDataReq "ab" 2 .offline 0 0)) trivial rfl, by decide⟩
    · rintro (hrole | hrole) <;> cases hrole
    · intro conn r t hconn hr ht _ _ _
      obtain rfl := Option.some.inj hconn
      obtain rfl := Option.some.inj hr
      obtain rfl := Option.some.inj ht
      rfl
    · intro _ r t hr ht _ _
      obtain rfl := Option.some.inj hr
      obtain rfl := Option.some.inj ht
      exact ⟨by decide, by decide⟩
  obtain ⟨log, s, hrun, hsent⟩ := hrun
  exact ⟨log, s, hrun, hsent, downloads_verified _ log s hrun⟩

/-- A login to download is accepted while the file is being uploaded. -/
theorem downloads_not_verified : ¬DownloadsVerifiedIn fun _ _ => True := by
  intro hall
  obtain ⟨⟨s, log⟩, hsteps, hsent⟩ := (Option.any_eq_true ..).1 (early_sent (fun _ => "")
    (List.length_replicate (a := (0 : UInt8))))
  have hverified := hall _ log s (Machine.Run.of_steps (fun _ _ => trivial) .start hsteps)
  obtain ⟨hany, hno⟩ := of_decide_eq_true hsent
  obtain ⟨e, he, hun⟩ := List.any_eq_true.1 hany
  obtain ⟨pre, post, hlog⟩ := List.append_of_mem he
  cases e with
  | pullDataRsp c seqNum id userId offset data =>
    obtain rfl : id = "ab" := of_decide_eq_true hun
    refine hno ?_
    rw [hlog]
    exact List.mem_append_left _ (hverified pre post c seqNum "ab" userId offset data hlog).equal
  | _ => cases hun

end TeamTalk.FileServer
