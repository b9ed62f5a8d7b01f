import TeamTalk.FileServer.Begins
import TeamTalk.Theorems.Uploads

/-!
# Blocks are stored as they were sent

A block of an upload is rejected, or appended to the file as it is, if and only if it is refused by the checks or has the length
that the task reckons with. `DoRecvData` writes that length, whatever was sent: it cuts off what is longer, and reads behind the
end of what is shorter.
-/

namespace TeamTalk.FileServer

/-- The block is rejected: the directory and the task are as before. -/
structure Received.Rejects (d : Received) (st : Storage) (t : Task) : Prop where
  rv : d.rv = .refused
  storage : d.storage = st
  task : d.task = t

/-- The data is appended to the file of the upload, which is made when there is none, and no other file changes. -/
structure Received.Appends (d : Received) (st : Storage) (t : Task) (data : Bytes) : Prop where
  idx : d.task.pc.transferedIdx = t.pc.transferedIdx + 1
  file : ∃ f before, ((∃ fp, t.pc.fp = some fp ∧ fp.file = f ∧ st.files f = some before) ∨
    (t.pc.fp = none ∧ st.files f = none ∧ before = { header := some t.header, data := [] })) ∧
    d.storage.files f = some { before with data := before.data ++ data } ∧ ∀ f', f' ≠ f → d.storage.files f' = st.files f'

/-- `OfflineTransferTask::DoRecvData` rejects the block, or appends exactly its bytes. -/
def StoresExactly (md5 : Bytes → String) (st : Storage) (t : Task) (userId offset : Nat) (data : Bytes) : Prop :=
  ∃ d, t.doRecvDataOffline md5 st userId offset data = some d ∧ (d.Rejects st t ∨ d.Appends st t data)

/-- The checks of a block: the sender, the state, and the offset. -/
def Task.Accepts (t : Task) (userId offset : Nat) : Prop :=
  t.fromUserId = userId ∧ (t.state = .waitingUpload ∨ t.state = .uploading) ∧ offset = Task.offsetOf t.pc.transferedIdx

/-- Every block that any client sends for any upload, whatever came before, is stored exactly. -/
def BlocksStored : Prop :=
  ∀ (md5 : Bytes → String) (log : List Effect) (s : Server), Machine.Run (step md5) (fun _ _ => True) Server.init log s →
    ∀ r t, s.tasks r = some t → t.offline = true → ∀ userId offset data, StoresExactly md5 s.storage t userId offset data

namespace BlocksAux

open MovesAux BeginsAux UploadsAux

/-! ## One block -/

/-- Bytes are appended to the file of the upload, and the upload goes on or has ended. -/
structure Takes (st st' : Storage) (t t' : Task) (f : FileRef) (before : StoredFile) (bytes : Bytes) : Prop where
  opened : (∃ fp, t.pc.fp = some fp ∧ fp.file = f ∧ st.files f = some before) ∨
    (t.pc.fp = none ∧ f = st.nextFile ∧ before = { header := some t.header, data := [] })
  file : st'.files f = some { before with data := before.data ++ bytes }
  others : ∀ f', f' ≠ f → st'.files f' = st.files f'
  paths : ∀ id, id ≠ t.taskId → st'.paths id = st.paths id
  nextFile : st.nextFile ≤ st'.nextFile
  bound : f < st'.nextFile
  taskId : t'.taskId = t.taskId
  idx : t'.pc.transferedIdx = t.pc.transferedIdx + 1
  state : t'.state.uploadEnded = true ∨ (t'.state = .uploading ∧ ∃ fp, t'.pc.fp = some fp ∧ fp.file = f)

section

variable {md5 : Bytes → String} {st : Storage} {t : Task} {userId offset : Nat}

variable (md5 st) in
/-- What the checks refuse is rejected. -/
theorem rejects_of_not_accepts (data : Bytes) (h : ¬t.Accepts userId offset) :
    ∃ d, t.doRecvDataOffline md5 st userId offset data = some d ∧ d.Rejects st t := by
  unfold Task.doRecvDataOffline
  split
  · exact ⟨_, rfl, rfl, rfl, rfl⟩
  · rename_i huser
    split
    · exact ⟨_, rfl, rfl, rfl, rfl⟩
    · rename_i hstate
      split
      · exact ⟨_, rfl, rfl, rfl, rfl⟩
      · rename_i hoffset
        rw [not_and_or, not_not, not_not] at hstate
        exact absurd ⟨not_not.1 huser, hstate, not_not.1 hoffset⟩ h

/-- The file of the upload is open: it was open before, or has been made. -/
structure Opened (st st1 : Storage) (t : Task) (fp : Handle) (before : StoredFile) : Prop where
  opened : (t.pc.fp = some fp ∧ st.files fp.file = some before) ∨
    (t.pc.fp = none ∧ fp.file = st.nextFile ∧ before = { header := some t.header, data := [] })
  file : st1.files fp.file = some before
  others : ∀ f', f' ≠ fp.file → st1.files f' = st.files f'
  paths : ∀ id, id ≠ t.taskId → st1.paths id = st.paths id
  nextFile : st.nextFile ≤ st1.nextFile
  bound : fp.file < st1.nextFile

/-- The first block finds no file, and makes one with its header; the others find it open. -/
theorem openForUpload_begins (h : t.Begins st) (hlong : 2 ≤ t.taskId.length)
    (hfiles : ∀ f file, st.files f = some file → f < st.nextFile) (hstate : t.state = .waitingUpload ∨ t.state = .uploading) :
    ∃ st1 fp before, t.openForUpload st = some (st1, { t with pc := { t.pc with fp := some fp, state := .uploading } }) ∧
      Opened st st1 t fp before := by
  unfold Task.openForUpload
  rcases hstate with hs | hs
  · obtain ⟨hfp, hpath⟩ := h.begins (.inr hs)
    rw [if_pos hs, hfp]
    simp only [Storage.openByWrite, if_pos hlong, hpath, Storage.writeHeader, Storage.setPath, Storage.setFile, if_true,
      Option.map_some]
    refine ⟨_, _, _, rfl, .inr ⟨hfp, rfl, rfl⟩, if_pos rfl, fun f' hf' => ?_, fun id hid => if_neg hid, Nat.le_succ _,
      Nat.lt_succ_self _⟩
    simp only [if_neg hf']
  · obtain ⟨fp, file, hfp, hfile⟩ := h.goesOn hs
    rw [if_neg (by rw [hs]; decide)]
    refine ⟨st, fp, file, ?_, .inl ⟨hfp, hfile⟩, hfile, fun _ _ => rfl, fun _ _ => rfl, Nat.le_refl _, hfiles _ _ hfile⟩
    rw [← hfp, ← hs]
    rfl

variable (md5) in
/-- What the checks accept is read as far as the block should go. -/
theorem takes_of_accepts (data : Bytes) (h : t.Begins st) (hlong : 2 ≤ t.taskId.length)
    (hfiles : ∀ f file, st.files f = some file → f < st.nextFile) (hacc : t.Accepts userId offset) :
    (data.length < t.nextSegmentBlockSize false ∧ t.doRecvDataOffline md5 st userId offset data = none) ∨
      ∃ d f before, t.nextSegmentBlockSize false ≤ data.length ∧ t.doRecvDataOffline md5 st userId offset data = some d ∧
        Takes st d.storage t d.task f before (data.take (t.nextSegmentBlockSize false)) := by
  obtain ⟨huser, hstate, hoffset⟩ := hacc
  obtain ⟨st1, fp, before, hopen, hopened⟩ := openForUpload_begins h hlong hfiles hstate
  have hchecks : ¬(t.state ≠ .waitingUpload ∧ t.state ≠ .uploading) := by
    rintro ⟨hwaiting, huploading⟩
    exact hstate.elim hwaiting huploading
  have hbound : st.nextFile ≤ st1.nextFile ∧ fp.file < st1.nextFile := ⟨hopened.nextFile, hopened.bound⟩
  have hwas : (∃ fp', t.pc.fp = some fp' ∧ fp'.file = fp.file ∧ st.files fp.file = some before) ∨
      (t.pc.fp = none ∧ fp.file = st.nextFile ∧ before = { header := some t.header, data := [] }) :=
    hopened.opened.imp_left fun ho => ⟨fp, ho.1, rfl, ho.2⟩
  rw [Task.doRecvDataOffline, if_neg (not_not.2 huser), if_neg hchecks, if_neg (not_not.2 hoffset)]
  simp only [hopen]
  split
  · exact .inl ⟨‹_›, rfl⟩
  · rename_i hlen
    rw [Nat.not_lt] at hlen
    rw [files_append hopened.file]
    -- the file with the block, whatever becomes of its path
    have hfile : ∀ bytes, (st1.setFile fp.file { before with data := before.data ++ bytes }).files fp.file =
        some { before with data := before.data ++ bytes } := fun bytes => if_pos rfl
    have hothers : ∀ bytes f', f' ≠ fp.file →
        (st1.setFile fp.file { before with data := before.data ++ bytes }).files f' = st.files f' := by
      intro bytes f' hf'
      rw [← hopened.others f' hf']
      exact if_neg hf'
    refine .inr ?_
    split
    · unfold Task.compareMd5
      split
      · exact ⟨_, fp.file, before, hlen, rfl, hwas, hfile _, hothers _, hopened.paths, hbound.1, hbound.2, rfl, rfl, .inl rfl⟩
      · refine ⟨_, fp.file, before, hlen, rfl, hwas, hfile _, hothers _, fun id hid => ?_, hbound.1, hbound.2, rfl, rfl,
          .inr ⟨rfl, fp, rfl, rfl⟩⟩
        rw [← hopened.paths id hid]
        exact if_neg hid
    · exact ⟨_, fp.file, before, hlen, rfl, hwas, hfile _, hothers _, hopened.paths, hbound.1, hbound.2, rfl, rfl,
        .inr ⟨rfl, fp, rfl, rfl⟩⟩

/-- Bytes are appended to one file only. -/
theorem takes_unique {d : Received} {f : FileRef} {before : StoredFile} {bytes data : Bytes}
    (htakes : Takes st d.storage t d.task f before bytes) (h : d.Appends st t data) : bytes = data := by
  obtain ⟨-, f', before', hopened', hfile', hothers'⟩ := h
  have hsame : f' = f ∧ before' = before := by
    rcases htakes.opened with ⟨fp, hfp, rfl, hfile⟩ | ⟨hfp, rfl, rfl⟩
    · rcases hopened' with ⟨fp', hfp', rfl, hwas⟩ | ⟨hfp', -, -⟩
      · obtain rfl : fp = fp' := Option.some.inj (hfp.symm.trans hfp')
        exact ⟨rfl, Option.some.inj (hwas.symm.trans hfile)⟩
      · rw [hfp] at hfp'
        cases hfp'
    · rcases hopened' with ⟨fp', hfp', -, -⟩ | ⟨-, hnone, rfl⟩
      · rw [hfp] at hfp'
        cases hfp'
      · refine ⟨?_, rfl⟩
        by_contra hne
        rw [htakes.others f' hne, hnone] at hfile'
        cases hfile'
  obtain ⟨rfl, rfl⟩ := hsame
  have heq := Option.some.inj (htakes.file.symm.trans hfile')
  exact List.append_cancel_left (StoredFile.mk.inj heq).2

/-- A block is stored exactly if it is refused, or as long as it should be. -/
theorem storesExactly_iff {data : Bytes} (h : t.Begins st) (hlong : 2 ≤ t.taskId.length)
    (hfiles : ∀ f file, st.files f = some file → f < st.nextFile) :
    StoresExactly md5 st t userId offset data ↔ (t.Accepts userId offset → data.length = t.nextSegmentBlockSize false) := by
  by_cases hacc : t.Accepts userId offset
  · rw [imp_iff_right hacc]
    rcases takes_of_accepts md5 data h hlong hfiles hacc with ⟨hshort, hnone⟩ | ⟨d, f, before, hlen, hd, htakes⟩
    · refine iff_of_false ?_ (Nat.ne_of_lt hshort)
      rintro ⟨d, hd, -⟩
      rw [hnone] at hd
      cases hd
    · constructor
      · rintro ⟨d', hd', hexact⟩
        obtain rfl : d = d' := Option.some.inj (hd.symm.trans hd')
        rcases hexact with hrejects | happends
        · have hidx := htakes.idx
          rw [hrejects.task] at hidx
          omega
        · have htake := congrArg List.length (takes_unique htakes happends)
          rw [List.length_take] at htake
          omega
      · intro hdata
        have hall := htakes.file
        rw [List.take_of_length_le (Nat.le_of_eq hdata)] at hall
        refine ⟨d, hd, .inr ⟨htakes.idx, f, before, htakes.opened.imp_right ?_, hall, htakes.others⟩⟩
        rintro ⟨hfp, rfl, hbefore⟩
        refine ⟨hfp, ?_, hbefore⟩
        cases hfile : st.files st.nextFile with
        | none => rfl
        | some file => exact absurd (hfiles _ _ hfile) (Nat.lt_irrefl _)
  · refine iff_of_true ?_ fun hin => absurd hin hacc
    obtain ⟨d, hd, hrejects⟩ := rejects_of_not_accepts md5 st data hacc
    exact ⟨d, hd, .inl hrejects⟩

end

/-! ## Every run -/

/-- The directory and the task after a block: what belongs to other tasks is as before. -/
theorem begins_takes {s : Server} {r : TaskRef} {t t' : Task} {st' : Storage} {f : FileRef} {before : StoredFile} {bytes : Bytes}
    (h : s.Begins) (ht : s.tasks r = some t) (hoff : t.offline = true) (hstate : t.state = .waitingUpload ∨ t.state = .uploading)
    (htakes : Takes s.storage st' t t' f before bytes) (hoff' : t'.offline = true) :
    ({ s with storage := st' }.setTask r (some t')).Begins := by
  have hunended : t.state.uploadEnded = false := by
    rcases hstate with hs | hs <;> rw [hs] <;> rfl
  have htasks : ∀ r' t'', ({ s with storage := st' }.setTask r (some t')).tasks r' = some t'' →
      (r' = r ∧ t'' = t') ∨ (r' ≠ r ∧ s.tasks r' = some t'') := by
    intro r' t'' ht''
    simp only [Server.setTask] at ht''
    split at ht''
    · exact .inl ⟨‹_›, (Option.some.inj ht'').symm⟩
    · exact .inr ⟨‹_›, ht''⟩
  -- no file is lost
  have hfile : ∀ f' file', s.storage.files f' = some file' → ∃ file'', st'.files f' = some file'' := by
    intro f' file' hf'
    by_cases heq : f' = f
    · exact ⟨_, heq ▸ htakes.file⟩
    · exact ⟨file', (htakes.others f' heq).trans hf'⟩
  refine ⟨?_, ?_, h.long, ?_, ?_, ?_, ?_, ?_⟩
  · intro r' t'' ht''
    rcases htasks r' t'' ht'' with ⟨rfl, -⟩ | ⟨-, ht''⟩
    · exact h.fresh r' t ht
    · exact h.fresh r' t'' ht''
  · intro r' t'' ht''
    rcases htasks r' t'' ht'' with ⟨rfl, rfl⟩ | ⟨-, ht''⟩
    · rw [htakes.taskId]
      exact h.known r' t ht
    · exact h.known r' t'' ht''
  · intro r' t'' ht'' hoff''
    rcases htasks r' t'' ht'' with ⟨rfl, rfl⟩ | ⟨hne, ht''⟩
    · rcases htakes.state with hend | ⟨huploading, fp, hfp, hf⟩
      · refine ⟨?_, fun hs => ?_⟩
        · rintro (hs | hs) <;> rw [hs] at hend <;> cases hend
        · rw [hs] at hend
          cases hend
      · refine ⟨?_, fun _ => ⟨fp, _, hfp, hf ▸ htakes.file⟩⟩
        rintro (hs | hs) <;> rw [huploading] at hs <;> cases hs
    · have hbegins := h.upload r' t'' ht'' hoff''
      refine ⟨fun hs => ?_, fun hs => ?_⟩
      · obtain ⟨hfp, hpath⟩ := hbegins.begins hs
        refine ⟨hfp, (htakes.paths t''.taskId fun hid => hne ?_).trans hpath⟩
        -- two uploads of one task id are the same
        refine h.unique r' r t'' t ht'' ht hid hoff'' hoff ?_ hunended
        rcases hs with hs | hs <;> rw [hs] <;> rfl
      · obtain ⟨fp, file, hfp, hf⟩ := hbegins.goesOn hs
        obtain ⟨file', hf'⟩ := hfile fp.file file hf
        exact ⟨fp, file', hfp, hf'⟩
  · intro r1 r2 t1 t2 ht1 ht2 hid hoff1 hoff2 hend1 hend2
    rcases htasks r1 t1 ht1 with ⟨rfl, rfl⟩ | ⟨-, hs1⟩
    · rcases htasks r2 t2 ht2 with ⟨rfl, rfl⟩ | ⟨-, hs2⟩
      · rfl
      · exact h.unique r1 r2 t t2 ht hs2 (htakes.taskId.symm.trans hid) hoff hoff2 hunended hend2
    · rcases htasks r2 t2 ht2 with ⟨rfl, rfl⟩ | ⟨-, hs2⟩
      · exact h.unique r1 r2 t1 t hs1 ht (hid.trans htakes.taskId) hoff1 hoff hend1 hunended
      · exact h.unique r1 r2 t1 t2 hs1 hs2 hid hoff1 hoff2 hend1 hend2
  · intro id f' hf'
    by_cases hid : id = t.taskId
    · exact hid ▸ h.known r t ht
    · exact h.paths id f' ((htakes.paths id hid).symm.trans hf')
  · intro f' file header hf' hheader
    by_cases heq : f' = f
    · have hcontent := Option.some.inj (htakes.file.symm.trans (heq ▸ hf'))
      have hbefore : before.header = some header := by
        rw [← hheader, ← hcontent]
      rcases htakes.opened with ⟨fp, -, -, hwas⟩ | ⟨-, -, hnew⟩
      · exact h.headers f before header hwas hbefore
      · rw [hnew] at hbefore
        rw [← Option.some.inj hbefore]
        exact h.known r t ht
    · exact h.headers f' file header ((htakes.others f' heq).symm.trans hf') hheader
  · intro f' file hf'
    by_cases heq : f' = f
    · rw [heq]
      exact htakes.bound
    · exact Nat.lt_of_lt_of_le (h.files f' file ((htakes.others f' heq).symm.trans hf')) htakes.nextFile

/-- Only `DoRecvData` does more than end an upload or begin one. -/
theorem offline_doRecvDataOffline {md5 : Bytes → String} {st : Storage} {t : Task} {userId offset : Nat} {data : Bytes}
    {d : Received} (h : t.doRecvDataOffline md5 st userId offset data = some d) : d.task.offline = t.offline := by
  have hopen : ∀ st1 t1, t.openForUpload st = some (st1, t1) → t1.offline = t.offline := by
    intro st1 t1 h
    unfold Task.openForUpload at h
    split at h
    · split at h
      · obtain ⟨st2, -, heq⟩ := Option.map_eq_some_iff.1 h
        rw [← (Prod.mk.inj heq).2]
        rfl
      · split at h
        · rw [← (Prod.mk.inj (Option.some.inj h)).2]
        · obtain ⟨st2, -, heq⟩ := Option.map_eq_some_iff.1 h
          rw [← (Prod.mk.inj heq).2]
    · rw [← (Prod.mk.inj (Option.some.inj h)).2]
  unfold Task.doRecvDataOffline at h
  split at h
  · rw [← Option.some.inj h]
  · split at h
    · rw [← Option.some.inj h]
    · split at h
      · rw [← Option.some.inj h]
      · dsimp only at h
        split at h
        · cases h
        · rename_i st1 t1 h1
          rw [← hopen st1 t1 h1]
          split at h
          · rw [← Option.some.inj h]
          · split at h
            · cases h
            · split at h
              · rw [← Option.some.inj h, Task.compareMd5]
                split <;> rfl
              · rw [← Option.some.inj h]

theorem begins_recv {md5 : Bytes → String} {s s' : Server} {c : ConnId} {conn : FileClientConn} {resultCode : Nat}
    {id : TaskId} {userId offset : Nat} {data : Bytes} {out : List Effect} (h : s.Begins)
    (hstep : s.handleClientFilePullFileRsp md5 c conn resultCode id userId offset data = some (s', out)) : s'.Begins := by
  unfold Server.handleClientFilePullFileRsp at hstep
  split at hstep
  · obtain ⟨rfl, rfl⟩ := Prod.mk.inj (Option.some.inj hstep)
    exact h
  · rename_i r hr
    split at hstep
    · obtain ⟨rfl, rfl⟩ := Prod.mk.inj (Option.some.inj hstep)
      exact h
    · split at hstep
      · cases hstep
      · rename_i t ht
        split at hstep
        · obtain ⟨rfl, rfl⟩ := Prod.mk.inj (Option.some.inj hstep)
          exact h
        · split at hstep
          · cases hstep
          · rename_i d hd
            split at hstep
            · cases hstep
            · rename_i s2 out2 h2
              obtain ⟨rfl, rfl⟩ := Prod.mk.inj (Option.some.inj hstep)
              obtain ⟨rfl, -⟩ := quiet_answerData h2
              unfold Task.doRecvData at hd
              split at hd
              · rename_i hoff
                by_cases hacc : t.Accepts userId offset
                · rcases takes_of_accepts md5 data (h.upload r t ht hoff) (h.long _ (h.known r t ht)) h.files hacc with
                    ⟨-, hnone⟩ | ⟨d', f, before, -, hd', htakes⟩
                  · rw [hnone] at hd
                    cases hd
                  · obtain rfl : d' = d := Option.some.inj (hd'.symm.trans hd)
                    exact begins_takes h ht hoff hacc.2.1 htakes ((offline_doRecvDataOffline hd).trans hoff)
                · obtain ⟨d', hd', hrejects⟩ := rejects_of_not_accepts md5 s.storage data hacc
                  obtain rfl : d' = d := Option.some.inj (hd'.symm.trans hd)
                  rw [hrejects.storage, hrejects.task]
                  exact begins_moves h (moves_setTask ht (Task.Moves.refl t))
              · rename_i hoff
                rw [Bool.not_eq_true] at hoff
                split at hd
                · rw [← Option.some.inj hd]
                  refine begins_moves h (moves_setTask ht (moves_of_online hoff ?_))
                  unfold Task.transferOnline
                  dsimp only
                  split <;> exact ⟨_, _, rfl⟩
                · rw [← Option.some.inj hd]
                  exact begins_moves h (moves_setTask ht (Task.Moves.refl t))

theorem begins_pull {s s' : Server} {c : ConnId} {conn : FileClientConn} {seqNum : Nat} {id : TaskId} {userId : Nat}
    {mode : TransferFileType} {offset dataSize : Nat} {out : List Effect} (h : s.Begins)
    (hstep : s.handleClientFilePullFileReq c conn seqNum id userId mode offset dataSize = some (s', out)) : s'.Begins := by
  unfold Server.handleClientFilePullFileReq at hstep
  split at hstep
  · obtain ⟨rfl, rfl⟩ := Prod.mk.inj (Option.some.inj hstep)
    exact h
  · split at hstep
    · cases hstep
    · rename_i s1 r hfor
      have h1 := begins_moves h (moves_taskForPull hfor)
      split at hstep
      · cases hstep
      · rename_i t ht
        split at hstep
        · obtain ⟨rfl, rfl⟩ := Prod.mk.inj (Option.some.inj hstep)
          exact h1
        · split at hstep
          · cases hstep
          · rename_i p hp
            split at hstep
            · cases hstep
            · rename_i s2 out2 h2
              obtain ⟨rfl, rfl⟩ := Prod.mk.inj (Option.some.inj hstep)
              obtain ⟨hmv, -⟩ := answerPull_cases (if_pos rfl) h2
              exact begins_moves (begins_of_shifts h1 (shifts_setTask ht (shifts_doPullFileRequest hp))) hmv

/-- A task id more, and nothing else. -/
theorem begins_uuid {s : Server} (h : s.Begins) {id : TaskId} (hlong : 2 ≤ id.length) :
    { s with uuids := id :: s.uuids }.Begins := by
  refine ⟨h.fresh, fun r t ht => List.mem_cons_of_mem _ (h.known r t ht), fun id' hid' => ?_, h.upload, h.unique,
    fun id' f hf => List.mem_cons_of_mem _ (h.paths id' f hf),
    fun f file header hf hh => List.mem_cons_of_mem _ (h.headers f file header hf hh), h.files⟩
  rcases List.mem_cons.1 hid' with rfl | hid'
  · exact hlong
  · exact h.long id' hid'

theorem begins_transferReq {s : Server} {id : TaskId} {req : TransferReq} (h : s.Begins) (hid : id ∉ s.uuids)
    (hlong : 2 ≤ id.length) :
    { (s.newTransferTask id req).1 with uuids := id :: (s.newTransferTask id req).1.uuids }.Begins := by
  unfold Server.newTransferTask
  split
  · exact begins_uuid h hlong
  · split
    · exact begins_uuid h hlong
    · rename_i hfind hmode
      dsimp only
      have h' := begins_uuid h hlong
      generalize hnew : Task.new (req.transMode == .offline) id req.fromUserId req.toUserId req.fileName req.fileSize
        req.fileMd5 = t
      have htid : t.taskId = id := hnew ▸ rfl
      have hins : ((s.addTask t).insertTask id s.nextTask) =
          { s.addTask t with transferTasks := (id, s.nextTask) :: s.transferTasks } := by
        have hfind' : (s.addTask t).findByTaskId id = none := hfind
        simp only [Server.insertTask, hfind']
        rfl
      rw [hins]
      have htasks : ∀ r' t', (s.addTask t).tasks r' = some t' →
          (r' = s.nextTask ∧ t' = t) ∨ (r' ≠ s.nextTask ∧ s.tasks r' = some t') := by
        intro r' t' ht'
        simp only [Server.addTask, Server.setTask] at ht'
        split at ht'
        · exact .inl ⟨‹_›, (Option.some.inj ht').symm⟩
        · exact .inr ⟨‹_›, ht'⟩
      have hothers : ∀ r' t', s.tasks r' = some t' → t'.taskId ≠ id := fun r' t' ht' heq => hid (heq ▸ h.known r' t' ht')
      refine ⟨?_, ?_, h'.long, ?_, ?_, h'.paths, h'.headers, h'.files⟩
      · intro r' t' ht'
        rcases htasks r' t' ht' with ⟨rfl, -⟩ | ⟨-, ht'⟩
        · exact Nat.lt_succ_self _
        · exact Nat.lt_succ_of_lt (h.fresh r' t' ht')
      · intro r' t' ht'
        rcases htasks r' t' ht' with ⟨-, rfl⟩ | ⟨-, ht'⟩
        · rw [htid]
          exact List.mem_cons_self
        · exact h'.known r' t' ht'
      · intro r' t' ht' hoff
        rcases htasks r' t' ht' with ⟨-, rfl⟩ | ⟨-, ht'⟩
        · -- a new task id is the name of no file
          subst hnew
          refine ⟨fun _ => ⟨rfl, ?_⟩, fun h => by cases h⟩
          cases hp : s.storage.paths id with
          | none => exact hp
          | some f => exact absurd (h.paths id f hp) hid
        · exact h'.upload r' t' ht' hoff
      · intro r1 r2 t1 t2 ht1 ht2 heq hoff1 hoff2 hend1 hend2
        rcases htasks r1 t1 ht1 with ⟨hr1, hs1⟩ | ⟨-, hs1⟩
        · rcases htasks r2 t2 ht2 with ⟨hr2, -⟩ | ⟨-, hs2⟩
          · exact hr1.trans hr2.symm
          · exact absurd (heq.symm.trans (hs1 ▸ htid)) (hothers r2 t2 hs2)
        · rcases htasks r2 t2 ht2 with ⟨-, hs2⟩ | ⟨-, hs2⟩
          · exact absurd (heq.trans (hs2 ▸ htid)) (hothers r1 t1 hs1)
          · exact h.unique r1 r2 t1 t2 hs1 hs2 heq hoff1 hoff2 hend1 hend2

/-- A server that has no tasks yet. -/
theorem begins_start {st : Storage} {nextConn : ConnId} {nextTask : TaskRef} {uuids : List TaskId}
    (hlong : ∀ id ∈ uuids, 2 ≤ id.length) (hpaths : ∀ id f, st.paths id = some f → id ∈ uuids)
    (hheaders : ∀ f file header, st.files f = some file → file.header = some header → header.taskId ∈ uuids)
    (hfiles : ∀ f file, st.files f = some file → f < st.nextFile) : (Server.start st nextConn nextTask uuids).Begins := by
  have hnone : ∀ {r t}, (Server.start st nextConn nextTask uuids).tasks r = some t → False :=
    fun h => Option.some_ne_none _ h.symm
  exact ⟨fun _ _ h => (hnone h).elim, fun _ _ h => (hnone h).elim, hlong, fun _ _ h => (hnone h).elim,
    fun _ _ _ _ h => (hnone h).elim, hpaths, hheaders, hfiles⟩

theorem begins_init : Server.init.Begins :=
  begins_start (fun _ h => absurd h List.not_mem_nil) (fun _ _ h => absurd h.symm (Option.some_ne_none _))
    (fun _ _ _ h => absurd h.symm (Option.some_ne_none _)) (fun _ _ h => absurd h.symm (Option.some_ne_none _))

theorem begins_step {md5 : Bytes → String} {out : List Effect} {s s' : Server} {e : Event} (h : s.Begins)
    (hstep : step md5 s e = some (s', out)) : s'.Begins := by
  cases e with
  | accept =>
    simp only [step] at hstep
    split at hstep
    · obtain ⟨rfl, rfl⟩ := Prod.mk.inj (Option.some.inj hstep)
      exact begins_moves h (show Server.Moves s [] _ from .of_eq rfl rfl rfl rfl fun e he => by cases he)
    · cases hstep
  | pdu c seqNum pdu =>
    simp only [step] at hstep
    split at hstep
    · cases hstep
    · split at hstep
      · cases pdu with
        | heartBeat =>
          simp only [Server.handlePdu] at hstep
          split at hstep
          · cases hstep
          · obtain ⟨rfl, rfl⟩ := Prod.mk.inj (Option.some.inj hstep)
            exact h
        | login userId id role => exact begins_login h hstep
        | fileState state ttype id userId => exact begins_moves h (moves_handleClientFileStates hstep)
        | pullDataReq id userId mode offset dataSize => exact begins_pull h hstep
        | pullDataRsp resultCode id userId offset data => exact begins_recv h hstep
      · cases hstep
  | batchEnd =>
    simp only [step] at hstep
    split at hstep
    · cases hstep
    · obtain ⟨rfl, rfl⟩ := Prod.mk.inj (Option.some.inj hstep)
      exact begins_moves h (show Server.Moves s [] _ from .of_eq rfl rfl rfl rfl fun e he => by cases he)
  | close c =>
    simp only [step] at hstep
    split at hstep
    · split at hstep
      · cases hstep
      · rename_i s1 out1 h1
        obtain ⟨rfl, rfl⟩ := Prod.mk.inj (Option.some.inj hstep)
        exact begins_moves h ((moves_close h1).trans (moves_setConn s1 c none))
    · cases hstep
  | transferReq id req =>
    simp only [step] at hstep
    split at hstep
    · rename_i hcond
      obtain ⟨rfl, rfl⟩ := Prod.mk.inj (Option.some.inj hstep)
      exact begins_transferReq h hcond.2.1 hcond.2.2
    · cases hstep
  | timer expired =>
    simp only [step] at hstep
    split at hstep
    · split at hstep
      · cases hstep
      · rename_i s1 h1
        obtain ⟨rfl, rfl⟩ := Prod.mk.inj (Option.some.inj hstep)
        exact begins_moves h (moves_onTimer h1)
    · cases hstep
  | restart =>
    simp only [step] at hstep
    obtain ⟨rfl, rfl⟩ := Prod.mk.inj (Option.some.inj hstep)
    exact begins_start h.long h.paths h.headers h.files

/-- A file of one byte is asked for. -/
def asked : List Event :=
  [.accept, .transferReq "ab" ⟨1, 2, "f", 1, .offline, "md5"⟩, .pdu 0 0 (.login 1 "ab" .offlineUpload)]

/-- The upload of the file. -/
def askedTask : Task :=
  { (Task.new true "ab" 1 2 "f" 1 "md5").setState .waitingUpload with fromConn := some 0 }

/-- The upload waits for the byte. -/
theorem asked_run (md5 : Bytes → String) : ∃ log s, Machine.Run (step md5) (fun _ _ => True) Server.init log s ∧
    s.tasks 0 = some askedTask := by
  refine ⟨_, _, Machine.Run.of_steps (fun _ _ => trivial) .start
    (rfl : Machine.steps (step md5) Server.init asked = some (_, _)), rfl⟩

end BlocksAux

open BlocksAux

/-- A block of an upload is rejected, or its bytes are appended to the file, if and only if it does not pass the checks or has the
length that the task reckons with. -/
theorem blocks_stored (md5 : Bytes → String) (log : List Effect) (s : Server)
    (hrun : Machine.Run (step md5) (fun _ _ => True) Server.init log s) (r : TaskRef) (t : Task) (ht : s.tasks r = some t)
    (hoff : t.offline = true) (userId offset : Nat) (data : Bytes) :
    StoresExactly md5 s.storage t userId offset data ↔
      (t.Accepts userId offset → data.length = t.nextSegmentBlockSize false) := by
  have h : s.Begins := hrun.invariant (I := fun _ s => s.Begins) begins_init fun h _ hstep => begins_step h hstep
  exact storesExactly_iff (h.upload r t ht hoff) (h.long _ (h.known r t ht)) h.files

/-- The byte is stored. -/
theorem blocks_stored_byte : ∃ s : Server, s.tasks 0 = some askedTask ∧
    StoresExactly (fun _ => "md5") s.storage askedTask 1 0 [0x61] := by
  obtain ⟨log, s, hrun, ht⟩ := asked_run fun _ => "md5"
  exact ⟨s, ht, (blocks_stored _ log s hrun 0 askedTask ht rfl 1 0 [0x61]).2 fun _ => rfl⟩

/-- A block that is empty is read behind its end. -/
theorem blocks_not_stored : ¬BlocksStored := by
  intro hall
  obtain ⟨log, s, hrun, ht⟩ := asked_run fun _ => "md5"
  have h : s.Begins := hrun.invariant (I := fun _ s => s.Begins) begins_init fun h _ hstep => begins_step h hstep
  have hlen := (storesExactly_iff (h.upload 0 askedTask ht rfl) (by decide) h.files).1
    (hall _ log s hrun 0 askedTask ht rfl 1 0 []) ⟨rfl, .inl rfl, rfl⟩
  exact absurd hlen (by decide)

end TeamTalk.FileServer
