import TeamTalk.FileServer.Moves

/-!
# Uploads begin with a new file

Whoever logs in, and whatever block comes: an upload that has not begun has no file, and one that goes on has its file open. What
a handler does to a task is less than `Task.Moves` here: a download may be begun at any time.
-/

namespace TeamTalk.FileServer

/-- How a task may change: an upload is left alone, begun, or ended. -/
structure Task.Shifts (t t' : Task) : Prop where
  offline : t'.offline = t.offline
  taskId : t'.taskId = t.taskId
  pc : t.offline = true → t'.pc = t.pc ∨ (t.state = .ready ∧ t'.pc = { t.pc with state := .waitingUpload }) ∨
    t'.state.uploadEnded = true

/-- How the state may change. -/
structure Server.Shifts (s s' : Server) : Prop where
  storage : s'.storage = s.storage
  uuids : s'.uuids = s.uuids
  nextTask : s.nextTask ≤ s'.nextTask
  tasks : ∀ r t', s'.tasks r = some t' → (∃ t, s.tasks r = some t ∧ t.Shifts t') ∨
    (r < s'.nextTask ∧ ∃ id t, Task.loadFromDisk s.storage id = some t ∧ t.Shifts t')

/-- The upload of a task has not begun, and finds no file; or it goes on, and has one. -/
structure Task.Begins (t : Task) (st : Storage) : Prop where
  begins : t.state = .ready ∨ t.state = .waitingUpload → t.pc.fp = none ∧ st.paths t.taskId = none
  goesOn : t.state = .uploading → ∃ fp file, t.pc.fp = some fp ∧ st.files fp.file = some file

/-- The invariant. -/
structure Server.Begins (s : Server) : Prop where
  fresh : ∀ r t, s.tasks r = some t → r < s.nextTask
  known : ∀ r t, s.tasks r = some t → t.taskId ∈ s.uuids
  long : ∀ id ∈ s.uuids, 2 ≤ id.length
  upload : ∀ r t, s.tasks r = some t → t.offline = true → t.Begins s.storage
  unique : ∀ r r' t t', s.tasks r = some t → s.tasks r' = some t' → t.taskId = t'.taskId → t.offline = true →
    t'.offline = true → t.state.uploadEnded = false → t'.state.uploadEnded = false → r = r'
  paths : ∀ id f, s.storage.paths id = some f → id ∈ s.uuids
  headers : ∀ f file header, s.storage.files f = some file → file.header = some header → header.taskId ∈ s.uuids
  files : ∀ f file, s.storage.files f = some file → f < s.storage.nextFile

theorem Task.Moves.shifts {t t' : Task} (h : t.Moves t') : t.Shifts t' :=
  ⟨h.offline, h.taskId, fun hoff => (h.pc hoff).imp_right (Or.imp_right And.right)⟩

theorem Server.Moves.shifts {s s' : Server} {out : List Effect} (h : s.Moves out s') : s.Shifts s' := by
  refine ⟨h.storage, h.uuids, h.nextTask, fun r t' ht' => ?_⟩
  rcases h.tasks r t' ht' with ⟨t, ht, hm⟩ | ⟨-, hlt, id, t, hload, hm⟩
  · exact .inl ⟨t, ht, hm.shifts⟩
  · exact .inr ⟨hlt, id, t, hload, hm.shifts⟩

namespace BeginsAux

open MovesAux

/-! ## Tasks -/

/-- A login may begin an upload, or end it. -/
theorem shifts_changePullState (t : Task) (userId : Nat) (role : ClientFileRole) :
    t.Shifts (t.changePullState userId role).1 := by
  by_cases hend : t.offline = true → t.toUserId = userId → role = .offlineDownload ∨ role = .offlineDownloadMobile →
      t.state = .ready ∨ t.state.uploadEnded = true
  · exact (moves_changePullState hend).shifts
  · push Not at hend
    obtain ⟨hoff, -, hrole, hready, -⟩ := hend
    unfold Task.changePullState
    split
    · rw [Task.changePullStateOffline.eq_def, if_neg hready]
      rcases hrole with rfl | rfl
      · exact ⟨rfl, rfl, fun _ => .inr (.inr rfl)⟩
      · exact ⟨rfl, rfl, fun _ => .inl rfl⟩
    · exact (Task.Moves.refl t).shifts

theorem shifts_setStream {t : Task} {mobile : Bool} {s : Stream} (h : s.state.downloads) : t.Shifts (t.setStream mobile s) := by
  cases mobile with
  | false => exact ⟨rfl, rfl, fun _ => .inr (.inr (uploadEnded_of_downloads h))⟩
  | true => exact ⟨rfl, rfl, fun _ => .inl rfl⟩

theorem shifts_pulledBlock {t t' : Task} {mobile : Bool} {data : Bytes} {p : Pulled} (h : t.Shifts t')
    (hp : t'.pulledBlock mobile data = some p) : t.Shifts p.task := by
  unfold Task.pulledBlock at hp
  split at hp
  · rw [← Option.some.inj hp]
    exact ⟨h.offline, h.taskId, h.pc⟩
  · split at hp
    · split at hp
      · cases hp
      · rw [← Option.some.inj hp]
        exact ⟨h.offline, h.taskId, fun _ => .inr (.inr rfl)⟩
    · rw [← Option.some.inj hp]
      exact h

/-- A request for data ends an upload at most. -/
theorem shifts_doPullFileRequest {t : Task} {st : Storage} {offset : Nat} {mode : TransferFileType} {p : Pulled}
    (h : t.doPullFileRequest st offset mode = some p) : t.Shifts p.task := by
  cases hoff : t.offline with
  | false =>
    refine (moves_doPullFileRequest (fun hoff' => ?_) h).1.shifts
    rw [hoff] at hoff'
    cases hoff'
  | true =>
    rw [Task.doPullFileRequest, if_pos hoff, Task.doPullFileRequestOffline] at h
    split at h
    · rw [← Option.some.inj h]
      exact (Task.Moves.refl t).shifts
    · rename_i hstate
      generalize (mode == .offlineMobile) = mobile at h hstate
      have hs := downloads_openForDownload st t.taskId (s := t.stream mobile) (by
        rw [not_and_or, not_not, not_not] at hstate
        exact hstate)
      generalize Task.openForDownload st t.taskId (t.stream mobile) = o at h hs
      rcases o with ⟨s, opened⟩
      -- whatever else is set in the stream, the download goes on
      have hset : ∀ s2 : Stream, s2.state = s.state → t.Shifts ((t.setStream mobile s).setStream mobile s2) := by
        intro s2 h2
        rw [← h2] at hs
        cases mobile with
        | false => exact ⟨rfl, rfl, fun _ => .inr (.inr (uploadEnded_of_downloads hs))⟩
        | true => exact ⟨rfl, rfl, fun _ => .inl rfl⟩
      have hone : t.Shifts (t.setStream mobile s) := shifts_setStream hs
      dsimp only at h
      split at h
      · rw [← Option.some.inj h]
        exact hone
      · split at h
        · rw [← Option.some.inj h]
          exact hone
        · split at h
          · cases h
          · split at h
            · rw [← Option.some.inj h]
              exact hset _ rfl
            · refine shifts_pulledBlock ?_ h
              exact hset _ rfl

/-- What is loaded bears the id of its header. -/
theorem loadFromDisk_header {st : Storage} {id : TaskId} {t : Task} (h : Task.loadFromDisk st id = some t) :
    ∃ f file header, st.files f = some file ∧ file.header = some header ∧ t.taskId = header.taskId := by
  unfold Task.loadFromDisk at h
  split at h
  · cases h
  · rename_i fp _
    split at h
    · cases h
    · rename_i header hheader
      split at h
      · unfold Storage.readHeader at hheader
        split at hheader
        · rename_i file hfile
          rw [← Option.some.inj h]
          exact ⟨fp.file, file, header, hfile, hheader, rfl⟩
        · cases hheader
      · cases h

theorem begins_shifts {t t' : Task} {st : Storage} (h : t.Begins st) (hs : t.Shifts t') (hoff : t.offline = true) :
    t'.Begins st ∧ (t'.state.uploadEnded = false → t.state.uploadEnded = false) := by
  rcases hs.pc hoff with heq | ⟨hr, heq⟩ | hend
  · have hstate : t'.state = t.state := congrArg Stream.state heq
    rw [hstate]
    refine ⟨⟨?_, ?_⟩, id⟩
    · rw [hstate, heq, hs.taskId]
      exact h.begins
    · rw [hstate, heq]
      exact h.goesOn
  · have hstate : t'.state = .waitingUpload := congrArg Stream.state heq
    refine ⟨⟨?_, ?_⟩, fun _ => hr ▸ rfl⟩
    · rw [heq, hs.taskId]
      exact fun _ => h.begins (.inl hr)
    · rw [hstate]
      exact nofun
  · refine ⟨⟨?_, ?_⟩, fun hnot => ?_⟩
    · rintro (hstate | hstate) <;> rw [hstate] at hend <;> cases hend
    · intro hstate
      rw [hstate] at hend
      cases hend
    · rw [hend] at hnot
      cases hnot

/-! ## Steps that take no block -/

theorem begins_of_shifts {s s' : Server} (h : s.Begins) (hs : s.Shifts s') : s'.Begins := by
  -- each task of the new state was there, or has been loaded
  have hcase : ∀ r t', s'.tasks r = some t' → r < s'.nextTask ∧ t'.taskId ∈ s.uuids ∧
      (t'.offline = true → t'.Begins s.storage) ∧
      (t'.state.uploadEnded = false → t'.offline = true →
        ∃ t, s.tasks r = some t ∧ t.taskId = t'.taskId ∧ t.offline = true ∧ t.state.uploadEnded = false) := by
    intro r t' ht'
    rcases hs.tasks r t' ht' with ⟨t, ht, hsh⟩ | ⟨hlt, id, t, hload, hsh⟩
    · refine ⟨Nat.lt_of_lt_of_le (h.fresh r t ht) hs.nextTask, hsh.taskId ▸ h.known r t ht, fun hoff => ?_, fun hend hoff => ?_⟩
      · rw [hsh.offline] at hoff
        exact (begins_shifts (h.upload r t ht hoff) hsh hoff).1
      · rw [hsh.offline] at hoff
        exact ⟨t, ht, hsh.taskId.symm, hoff, (begins_shifts (h.upload r t ht hoff) hsh hoff).2 hend⟩
    · obtain ⟨f, file, header, hfile, hheader, hid⟩ := loadFromDisk_header hload
      have hst := loadFromDisk_state hload
      have hbegins : t.Begins s.storage := by
        refine ⟨fun hstate => ?_, fun hstate => ?_⟩
        · rw [hst] at hstate
          rcases hstate with hstate | hstate <;> cases hstate
        · rw [hst] at hstate
          cases hstate
      refine ⟨hlt, ?_, fun hoff => ?_, fun hend hoff => ?_⟩
      · rw [hsh.taskId, hid]
        exact h.headers f file header hfile hheader
      · rw [hsh.offline] at hoff
        exact (begins_shifts hbegins hsh hoff).1
      · rw [hsh.offline] at hoff
        have hnot := (begins_shifts hbegins hsh hoff).2 hend
        rw [hst] at hnot
        cases hnot
  refine ⟨fun r t ht => (hcase r t ht).1, ?_, ?_, ?_, ?_, ?_, ?_, ?_⟩
  · intro r t ht
    rw [hs.uuids]
    exact (hcase r t ht).2.1
  · rw [hs.uuids]
    exact h.long
  · intro r t ht hoff
    rw [hs.storage]
    exact (hcase r t ht).2.2.1 hoff
  · intro r r' t t' ht ht' hid hoff hoff' hend hend'
    obtain ⟨t0, ht0, hid0, hoff0, hend0⟩ := (hcase r t ht).2.2.2 hend hoff
    obtain ⟨t1, ht1, hid1, hoff1, hend1⟩ := (hcase r' t' ht').2.2.2 hend' hoff'
    exact h.unique r r' t0 t1 ht0 ht1 ((hid0.trans hid).trans hid1.symm) hoff0 hoff1 hend0 hend1
  · rw [hs.storage, hs.uuids]
    exact h.paths
  · rw [hs.storage, hs.uuids]
    exact h.headers
  · rw [hs.storage]
    exact h.files

theorem begins_moves {s s' : Server} {out : List Effect} (h : s.Begins) (hm : s.Moves out s') : s'.Begins :=
  begins_of_shifts h hm.shifts

/-- A task changes. -/
theorem shifts_setTask {s : Server} {r : TaskRef} {t t' : Task} (ht : s.tasks r = some t) (h : t.Shifts t') :
    s.Shifts (s.setTask r (some t')) := by
  refine ⟨rfl, rfl, Nat.le_refl _, fun r' t'' ht'' => ?_⟩
  simp only [Server.setTask] at ht''
  split at ht''
  · rename_i heq
    rw [← Option.some.inj ht'']
    exact .inl ⟨t, heq ▸ ht, h⟩
  · exact .inl ⟨t'', ht'', (Task.Moves.refl t'').shifts⟩

theorem begins_login {s s' : Server} {c : ConnId} {conn : FileClientConn} {seqNum userId : Nat} {id : TaskId}
    {role : ClientFileRole} {out : List Effect} (h : s.Begins)
    (hstep : s.handleClientFileLoginReq c conn seqNum userId id role = some (s', out)) : s'.Begins := by
  rcases moves_login hstep with hmv | ⟨s1, r, t, hmv, ht, -, hrest⟩
  · exact begins_moves h hmv
  · have h1 := begins_of_shifts (begins_moves h hmv) (shifts_setTask ht (shifts_changePullState t userId role))
    exact begins_moves h1 hrest

end BeginsAux

end TeamTalk.FileServer
