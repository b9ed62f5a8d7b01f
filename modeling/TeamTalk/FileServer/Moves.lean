import TeamTalk.FileServer.FileClientConn

/-!
# What handlers do to tasks

But for a block of data that is stored and a task that is asked for, a handler leaves the files alone, and moves each task on
as `Task.Moves` says, deletes it, or loads it from disk.
-/

namespace TeamTalk.FileServer

/-- A download that can be asked for data. -/
def TransferTaskState.downloads (state : TransferTaskState) : Prop := state = .waitingDownload ∨ state = .downloading

/-- How a task may change: an upload is left alone, but for its beginning. -/
structure Task.Moves (t t' : Task) : Prop where
  offline : t'.offline = t.offline
  taskId : t'.taskId = t.taskId
  fileSize : t'.fileSize = t.fileSize
  header : t'.header = t.header
  pc : t.offline = true → t'.pc = t.pc ∨ (t.state = .ready ∧ t'.pc = { t.pc with state := .waitingUpload }) ∨
    (t.state.uploadEnded = true ∧ t'.state.uploadEnded = true)
  mobile : t.offline = true → t'.mobile.state.downloads → t.mobile.state.downloads ∨ t.state.uploadEnded = true

/-- What says nothing of an upload, and delivers no data. -/
def Effect.Quiet : Effect → Prop
  | .upload _ | .transferRsp .. | .pullDataRsp .. => False
  | _ => True

/-- How the state may change. -/
structure Server.Moves (s : Server) (out : List Effect) (s' : Server) : Prop where
  storage : s'.storage = s.storage
  uuids : s'.uuids = s.uuids
  nextTask : s.nextTask ≤ s'.nextTask
  tasks : ∀ r t', s'.tasks r = some t' → (∃ t, s.tasks r = some t ∧ t.Moves t') ∨
    (s.nextTask ≤ r ∧ r < s'.nextTask ∧ ∃ id t, Task.loadFromDisk s.storage id = some t ∧ t.Moves t')
  quiet : ∀ e ∈ out, e.Quiet

/-- A task may stay as it is. -/
theorem Task.Moves.refl (t : Task) : t.Moves t := ⟨rfl, rfl, rfl, rfl, fun _ => .inl rfl, fun _ h => .inl h⟩

/-- Two moves are one. -/
theorem Task.Moves.trans {t t' t'' : Task} (h : t.Moves t') (h' : t'.Moves t'') : t.Moves t'' := by
  refine ⟨h'.offline.trans h.offline, h'.taskId.trans h.taskId, h'.fileSize.trans h.fileSize, h'.header.trans h.header, ?_, ?_⟩
  · intro hoff
    rcases h'.pc (h.offline.trans hoff) with heq | ⟨hr, heq⟩ | ⟨he, he'⟩
    · have hs : t''.state = t'.state := congrArg Stream.state heq
      rw [heq, hs]
      exact h.pc hoff
    · rcases h.pc hoff with heq1 | ⟨-, heq1⟩ | ⟨-, he1'⟩
      · have hs : t'.state = t.state := congrArg Stream.state heq1
        rw [heq1] at heq
        exact .inr (.inl ⟨hs ▸ hr, heq⟩)
      · have hs : t'.state = .waitingUpload := congrArg Stream.state heq1
        rw [hs] at hr
        cases hr
      · rw [hr] at he1'
        cases he1'
    · rcases h.pc hoff with heq1 | ⟨-, heq1⟩ | ⟨he1, -⟩
      · have hs : t'.state = t.state := congrArg Stream.state heq1
        exact .inr (.inr ⟨hs ▸ he, he'⟩)
      · have hs : t'.state = .waitingUpload := congrArg Stream.state heq1
        rw [hs] at he
        cases he
      · exact .inr (.inr ⟨he1, he'⟩)
  · intro hoff hd
    rcases h'.mobile (h.offline.trans hoff) hd with hd' | he
    · exact h.mobile hoff hd'
    · rcases h.pc hoff with heq1 | ⟨-, heq1⟩ | ⟨he1, -⟩
      · have hs : t'.state = t.state := congrArg Stream.state heq1
        exact .inr (hs ▸ he)
      · have hs : t'.state = .waitingUpload := congrArg Stream.state heq1
        rw [hs] at he
        cases he
      · exact .inr he1

namespace MovesAux

/-! ## Tasks -/

/-- A connection comes or goes. -/
theorem moves_setConnByUserId (t : Task) (userId : Nat) (conn : Option ConnId) (mobile : Bool) :
    t.Moves (t.setConnByUserId userId conn mobile) := by
  unfold Task.setConnByUserId
  split
  · exact ⟨rfl, rfl, rfl, rfl, fun _ => .inl rfl, fun _ h => .inl h⟩
  · split
    · exact ⟨rfl, rfl, rfl, rfl, fun _ => .inl rfl, fun _ h => .inl h⟩
    · split
      · exact ⟨rfl, rfl, rfl, rfl, fun _ => .inl rfl, fun _ h => .inl h⟩
      · exact Task.Moves.refl t

/-- A task that is left can be downloaded again, once it is uploaded. -/
theorem moves_restart (t : Task) : t.Moves (if t.state.uploadEnded then t.setState .waitingDownload else t) := by
  split
  · exact ⟨rfl, rfl, rfl, rfl, fun _ => .inr (.inr ⟨‹_›, rfl⟩), fun _ h => .inl h⟩
  · exact Task.Moves.refl t

/-- An online task has no file. -/
theorem moves_of_online {t t' : Task} (ht : t.offline = false) (h : ∃ pc seqNum, t' = { t with pc, macSeqNum := seqNum }) :
    t.Moves t' := by
  obtain ⟨pc, seqNum, rfl⟩ := h
  refine ⟨rfl, rfl, rfl, rfl, ?_, ?_⟩
  · intro hoff
    rw [ht] at hoff
    cases hoff
  · intro hoff
    rw [ht] at hoff
    cases hoff

/-- A login that is no download of an unfinished upload. -/
theorem moves_changePullState {t : Task} {userId : Nat} {role : ClientFileRole}
    (h : t.offline = true → t.toUserId = userId → role = .offlineDownload ∨ role = .offlineDownloadMobile →
      t.state = .ready ∨ t.state.uploadEnded = true) :
    t.Moves (t.changePullState userId role).1 := by
  unfold Task.changePullState
  split
  · rename_i hcheck
    cases hoff : t.offline with
    | false =>
      refine moves_of_online hoff ?_
      rw [if_neg Bool.false_ne_true, Task.changePullStateOnline]
      cases t.state <;> dsimp only
      case ready => split <;> exact ⟨_, _, rfl⟩
      case waitingReceiver => split <;> exact ⟨_, _, rfl⟩
      case waitingSender => split <;> exact ⟨_, _, rfl⟩
      all_goals exact ⟨_, _, rfl⟩
    | true =>
      rw [if_pos rfl]
      unfold Task.changePullStateOffline
      by_cases hready : t.state = .ready
      · rw [if_pos hready]
        split
        · exact ⟨rfl, rfl, rfl, rfl, fun _ => .inr (.inl ⟨hready, rfl⟩), fun _ h => .inl h⟩
        · exact Task.Moves.refl t
      · rw [if_neg hready]
        cases role with
        | offlineDownload =>
          have huser : t.toUserId = userId := by
            simpa [Task.checkByUserIdAndFileRole, hoff] using hcheck
          have hend := (h hoff huser (.inl rfl)).resolve_left hready
          exact ⟨rfl, rfl, rfl, rfl, fun _ => .inr (.inr ⟨hend, rfl⟩), fun _ h => .inl h⟩
        | offlineDownloadMobile =>
          have huser : t.toUserId = userId := by
            simpa [Task.checkByUserIdAndFileRole, hoff] using hcheck
          have hend := (h hoff huser (.inr rfl)).resolve_left hready
          exact ⟨rfl, rfl, rfl, rfl, fun _ => .inl rfl, fun _ _ => .inr hend⟩
        | offlineUpload => exact Task.Moves.refl t
        | realtimeSender => exact Task.Moves.refl t
        | realtimeRecver => exact Task.Moves.refl t
  · exact Task.Moves.refl t

/-- A task that is loaded from disk is uploaded. -/
theorem loadFromDisk_state {st : Storage} {id : TaskId} {t : Task} (h : Task.loadFromDisk st id = some t) :
    t.state = .waitingDownload := by
  unfold Task.loadFromDisk at h
  split at h
  · cases h
  · split at h
    · cases h
    · split at h
      · rw [← Option.some.inj h]
        rfl
      · cases h

/-! ## Blocks for a download -/

/-- Who downloads finds the upload at its end. -/
theorem uploadEnded_of_downloads {state : TransferTaskState} (h : state.downloads) : state.uploadEnded = true := by
  rcases h with rfl | rfl <;> rfl

/-- A download that is begun again goes on as a download. -/
theorem downloads_openForDownload (st : Storage) (id : TaskId) {s : Stream} (h : s.state.downloads) :
    (Task.openForDownload st id s).1.state.downloads := by
  unfold Task.openForDownload
  split
  · split
    · exact h
    · split
      · exact .inr rfl
      · exact h
  · exact h

/-- A download goes on. -/
theorem moves_setStream {t : Task} {mobile : Bool} {s : Stream} (h : (t.stream mobile).state.downloads)
    (h' : s.state.downloads) : t.Moves (t.setStream mobile s) := by
  cases mobile with
  | false =>
    exact ⟨rfl, rfl, rfl, rfl, fun _ => .inr (.inr ⟨uploadEnded_of_downloads h, uploadEnded_of_downloads h'⟩), fun _ h => .inl h⟩
  | true => exact ⟨rfl, rfl, rfl, rfl, fun _ => .inl rfl, fun _ _ => .inl h⟩

/-- A block of a download. -/
theorem moves_pulledBlock {t : Task} {mobile : Bool} {data : Bytes} {p : Pulled} (hend : t.state.uploadEnded = true)
    (h : t.pulledBlock mobile data = some p) : t.Moves p.task := by
  unfold Task.pulledBlock at h
  split at h
  · rw [← Option.some.inj h]
    refine ⟨rfl, rfl, rfl, rfl, fun _ => .inl rfl, fun _ h => ?_⟩
    rcases h with h | h <;> cases h
  · split at h
    · split at h
      · cases h
      · rw [← Option.some.inj h]
        exact ⟨rfl, rfl, rfl, rfl, fun _ => .inr (.inr ⟨hend, rfl⟩), fun _ h => .inl h⟩
    · rw [← Option.some.inj h]
      exact Task.Moves.refl t

/-- The task moves on, and data is handed out only when it is uploaded. -/
theorem moves_doPullFileRequest {t : Task} {st : Storage} {offset : Nat} {mode : TransferFileType} {p : Pulled}
    (hmobile : t.offline = true → t.mobile.state.downloads → t.state.uploadEnded = true)
    (h : t.doPullFileRequest st offset mode = some p) :
    t.Moves p.task ∧ (t.offline = true → p.rv ≠ .refused → t.state.uploadEnded = true) := by
  unfold Task.doPullFileRequest at h
  split at h
  · rename_i hoff
    unfold Task.doPullFileRequestOffline at h
    split at h
    · rw [← Option.some.inj h]
      exact ⟨Task.Moves.refl t, fun _ hrv => absurd rfl hrv⟩
    · rename_i hstate
      have hdown : (t.stream (mode == .offlineMobile)).state.downloads := by
        rw [not_and_or, not_not, not_not] at hstate
        exact hstate
      have hend : t.state.uploadEnded = true := by
        cases mode with
        | offlineMobile => exact hmobile hoff hdown
        | online => exact uploadEnded_of_downloads hdown
        | offline => exact uploadEnded_of_downloads hdown
      refine ⟨?_, fun _ _ => hend⟩
      generalize (mode == .offlineMobile) = mobile at h hdown
      have hs := downloads_openForDownload st t.taskId hdown
      generalize Task.openForDownload st t.taskId (t.stream mobile) = o at h hs
      rcases o with ⟨s, opened⟩
      have hmoves : ∀ s' : Stream, s'.state = s.state → t.Moves (t.setStream mobile s') :=
        fun s' heq => moves_setStream hdown (heq ▸ hs)
      dsimp only at h
      split at h
      · rw [← Option.some.inj h]
        exact hmoves s rfl
      · split at h
        · rw [← Option.some.inj h]
          exact hmoves s rfl
        · split at h
          · cases h
          · split at h
            · rw [← Option.some.inj h]
              refine (hmoves s rfl).trans (moves_setStream ?_ ?_)
              · cases mobile <;> exact hs
              · exact hs
            · refine ((hmoves s rfl).trans (moves_setStream ?_ ?_)).trans (moves_pulledBlock ?_ h)
              · cases mobile <;> exact hs
              · exact hs
              · cases mobile with
                | true => exact hend
                | false => exact uploadEnded_of_downloads hs
  · rename_i hoff
    rw [← Option.some.inj h]
    rw [Bool.not_eq_true] at hoff
    refine ⟨moves_of_online hoff ?_, fun hoff' => absurd (hoff.symm.trans hoff') Bool.false_ne_true⟩
    unfold Task.transferOnline
    split <;> exact ⟨_, _, rfl⟩

/-! ## The state -/

end MovesAux

/-- Where the tasks and the disk stay, the server moves nowhere. -/
theorem Server.Moves.of_eq {s s' : Server} {out : List Effect} (hst : s'.storage = s.storage) (hu : s'.uuids = s.uuids)
    (hn : s'.nextTask = s.nextTask) (ht : s'.tasks = s.tasks) (hq : ∀ e ∈ out, e.Quiet) : s.Moves out s' :=
  ⟨hst, hu, Nat.le_of_eq hn.symm, fun r t' h => .inl ⟨t', by rwa [ht] at h, Task.Moves.refl t'⟩, hq⟩

/-- It may stay as it is. -/
theorem Server.Moves.refl (s : Server) : s.Moves [] s := .of_eq rfl rfl rfl rfl nofun

/-- Two moves are one. -/
theorem Server.Moves.trans {s s' s'' : Server} {out out' : List Effect} (h : s.Moves out s') (h' : s'.Moves out' s'') :
    s.Moves (out ++ out') s'' := by
  refine ⟨h'.storage.trans h.storage, h'.uuids.trans h.uuids, Nat.le_trans h.nextTask h'.nextTask, ?_, ?_⟩
  · intro r t'' ht''
    rcases h'.tasks r t'' ht'' with ⟨t', ht', hmv'⟩ | ⟨hle, hlt, id, t, hload, hmv'⟩
    · rcases h.tasks r t' ht' with ⟨t, ht, hmv⟩ | ⟨hle, hlt, id, t, hload, hmv⟩
      · exact .inl ⟨t, ht, hmv.trans hmv'⟩
      · exact .inr ⟨hle, Nat.lt_of_lt_of_le hlt h'.nextTask, id, t, hload, hmv.trans hmv'⟩
    · rw [h.storage] at hload
      exact .inr ⟨Nat.le_trans h.nextTask hle, hlt, id, t, hload, hmv'⟩
  · intro e he
    rcases List.mem_append.1 he with he | he
    · exact h.quiet e he
    · exact h'.quiet e he

namespace MovesAux

/-- A task moves on. -/
theorem moves_setTask {s : Server} {r : TaskRef} {t t' : Task} (ht : s.tasks r = some t) (h : t.Moves t') :
    s.Moves [] (s.setTask r (some t')) := by
  refine ⟨rfl, rfl, Nat.le_refl _, ?_, nofun⟩
  intro r' t'' ht''
  simp only [Server.setTask] at ht''
  split at ht''
  · rename_i heq
    rw [← Option.some.inj ht'']
    exact .inl ⟨t, heq ▸ ht, h⟩
  · exact .inl ⟨t'', ht'', Task.Moves.refl t''⟩

/-- The last change of a task counts. -/
theorem setTask_setTask (s : Server) (r : TaskRef) (t t' : Option Task) : (s.setTask r t).setTask r t' = s.setTask r t' := by
  simp only [Server.setTask, Server.mk.injEq, true_and, and_true]
  funext r'
  split <;> rfl

/-- Connections are not looked at. -/
theorem moves_setConn (s : Server) (c : ConnId) (conn : Option FileClientConn) : s.Moves [] (s.setConn c conn) :=
  .of_eq rfl rfl rfl rfl nofun

/-- A task that is out of the map stays what it is. -/
theorem moves_eraseTask (s : Server) (id : TaskId) : s.Moves [] (s.eraseTask id) := .of_eq rfl rfl rfl rfl nofun

/-- A task is deleted. -/
theorem moves_deleteTask (s : Server) (r : TaskRef) : s.Moves [] (s.setTask r none) := by
  refine ⟨rfl, rfl, Nat.le_refl _, ?_, nofun⟩
  intro r' t' ht'
  simp only [Server.setTask] at ht'
  split at ht'
  · cases ht'
  · exact .inl ⟨t', ht', Task.Moves.refl t'⟩

/-- So does one that comes into the map. -/
theorem moves_insertTask (s : Server) (id : TaskId) (r : TaskRef) : s.Moves [] (s.insertTask id r) := by
  unfold Server.insertTask
  split
  · exact .refl s
  · exact .of_eq rfl rfl rfl rfl nofun

/-- A task is loaded, under a number of its own. -/
theorem moves_newTransferTaskFromDisk {s s' : Server} {id : TaskId} {r : TaskRef}
    (h : s.newTransferTaskFromDisk id = some (s', r)) :
    s.Moves [] s' ∧ ∃ t, Task.loadFromDisk s.storage id = some t ∧ s'.tasks r = some t := by
  unfold Server.newTransferTaskFromDisk at h
  split at h
  · cases h
  · rename_i t hload
    obtain ⟨rfl, rfl⟩ := Prod.mk.inj (Option.some.inj h)
    have hadd : s.Moves [] (s.addTask t) := by
      refine ⟨rfl, rfl, Nat.le_succ _, ?_, nofun⟩
      intro r' t' ht'
      simp only [Server.addTask, Server.setTask] at ht'
      split at ht'
      · rename_i heq
        subst heq
        exact .inr ⟨Nat.le_refl _, Nat.lt_succ_self _, id, t, hload, Option.some.inj ht' ▸ Task.Moves.refl t⟩
      · exact .inl ⟨t', ht', Task.Moves.refl t'⟩
    refine ⟨hadd.trans (moves_insertTask _ id s.nextTask), t, hload, ?_⟩
    unfold Server.insertTask
    split <;> exact if_pos rfl

/-- One effect is put out, at most. -/
theorem sendTo_eq {s : Server} {c : ConnId} {effect : Effect} {out : List Effect} (h : s.sendTo c effect = some out) :
    ∀ e ∈ out, e = effect := by
  unfold Server.sendTo at h
  split at h
  · cases h
  · rw [← Option.some.inj h]
    split
    · exact fun e he => List.mem_singleton.1 he
    · exact nofun

/-- Nothing is uploaded by what is sent. -/
theorem quiet_sendTo {s : Server} {c : ConnId} {effect : Effect} {out : List Effect} (h : s.sendTo c effect = some out)
    (hq : effect.Quiet) : s.Moves out s :=
  .of_eq rfl rfl rfl rfl fun e he => sendTo_eq h e he ▸ hq

/-! ## The handlers -/

/-- A task is freed when its last connection is closed. -/
theorem moves_deleteTransferTaskByConnClose {s s' : Server} {id : TaskId}
    (h : s.deleteTransferTaskByConnClose id = some s') : s.Moves [] s' := by
  have hdel : ∀ r, s.Moves [] ((s.setTask r none).eraseTask id) :=
    fun r => (moves_deleteTask s r).trans (moves_eraseTask _ id)
  unfold Server.deleteTransferTaskByConnClose at h
  split at h
  · rw [← Option.some.inj h]
    exact .refl s
  · split at h
    · cases h
    · split at h
      · split at h
        · rw [← Option.some.inj h]
          exact hdel _
        · rw [← Option.some.inj h]
          exact .refl s
      · split at h
        · rw [← Option.some.inj h]
          exact hdel _
        · rw [← Option.some.inj h]
          exact .refl s

/-- A connection leaves its task. -/
theorem moves_leaveTask {s s' : Server} {conn : FileClientConn} {r : TaskRef} (h : s.leaveTask conn r = some s') :
    s.Moves [] s' := by
  unfold Server.leaveTask at h
  split at h
  · cases h
  · rename_i t ht
    have hset := moves_setTask ht ((moves_restart t).trans (moves_setConnByUserId _ conn.userId none conn.modetag))
    dsimp only at h
    generalize (if t.state.uploadEnded then t.setState .waitingDownload else t).setConnByUserId conn.userId none
      conn.modetag = t' at h hset
    split at h
    · exact hset.trans (moves_deleteTransferTaskByConnClose h)
    · rw [← Option.some.inj h]
      exact hset

/-- A connection is closed by the other side. -/
theorem moves_close {s s' : Server} {c : ConnId} {out : List Effect} (h : s.close c = some (s', out)) :
    s.Moves out s' := by
  unfold Server.close at h
  split at h
  · cases h
  · rename_i conn hconn
    split at h
    · dsimp only at h
      have hdrop : s.Moves [] (s.dropOthers c conn.transferTask) := .of_eq rfl rfl rfl rfl nofun
      split at h
      · cases h
      · rename_i s1 hs1
        obtain ⟨rfl, rfl⟩ := Prod.mk.inj (Option.some.inj h)
        have hleave : s.Moves [] s1 := by
          split at hs1
          · rw [← Option.some.inj hs1]
            exact hdrop
          · exact hdrop.trans (moves_leaveTask hs1)
        exact hleave.trans (.of_eq rfl rfl rfl rfl fun e he => List.mem_singleton.1 he ▸ trivial)
    · cases h

/-- Or by the server. -/
theorem moves_closeSelf {s s' : Server} {c : ConnId} {out : List Effect} (h : s.closeSelf c = some (s', out)) :
    s.Moves out s' := by
  unfold Server.closeSelf at h
  split at h
  · cases h
  · rename_i s1 out1 h1
    obtain ⟨rfl, rfl⟩ := Prod.mk.inj (Option.some.inj h)
    have hmark : s1.Moves [] { s1 with closing := some c } := .of_eq rfl rfl rfl rfl nofun
    exact (List.append_nil out1) ▸ (moves_close h1).trans hmark

/-- A login is refused. -/
theorem moves_refuseLogin {s s' : Server} {c : ConnId} {seqNum : Nat} {id : TaskId} {out : List Effect}
    (h : s.refuseLogin c seqNum id = some (s', out)) : s.Moves out s' := by
  unfold Server.refuseLogin at h
  split at h
  · cases h
  · rename_i out1 hout1
    split at h
    · cases h
    · rename_i s1 out2 h2
      obtain ⟨rfl, rfl⟩ := Prod.mk.inj (Option.some.inj h)
      exact (quiet_sendTo hout1 trivial).trans (moves_closeSelf h2)

/-- A login is accepted. -/
theorem moves_afterLogin {s s' : Server} {c : ConnId} {id : TaskId} {userId : Nat} {t : Task} {out : List Effect}
    (h : s.afterLogin c id userId t = some (s', out)) : s.Moves out s' := by
  unfold Server.afterLogin at h
  split at h
  · split at h
    · split at h
      · cases h
      · rename_i out1 hout1
        obtain ⟨rfl, rfl⟩ := Prod.mk.inj (Option.some.inj h)
        exact quiet_sendTo hout1 trivial
    · obtain ⟨rfl, rfl⟩ := Prod.mk.inj (Option.some.inj h)
      exact .refl s
  · split at h
    · split at h
      · exact moves_closeSelf h
      · split at h
        · cases h
        · rename_i out1 hout1
          obtain ⟨rfl, rfl⟩ := Prod.mk.inj (Option.some.inj h)
          exact quiet_sendTo hout1 trivial
    · obtain ⟨rfl, rfl⟩ := Prod.mk.inj (Option.some.inj h)
      exact .refl s

/-- A task is found in the map, or loaded from its file. -/
theorem moves_findOrLoad {s s' : Server} {id : TaskId} {role : ClientFileRole} {r : TaskRef}
    (h : s.findOrLoad id role = some (s', r)) : s.Moves [] s' ∧ ((s.findByTaskId id = some r ∧ s' = s) ∨
      ∃ t, s.findByTaskId id = none ∧ Task.loadFromDisk s.storage id = some t ∧ s'.tasks r = some t) := by
  unfold Server.findOrLoad at h
  split at h
  · rename_i r' hfind
    obtain ⟨rfl, rfl⟩ := Prod.mk.inj (Option.some.inj h)
    exact ⟨.refl s, .inl ⟨hfind, rfl⟩⟩
  · rename_i hfind
    split at h
    · obtain ⟨hmv, t, hload, ht⟩ := moves_newTransferTaskFromDisk h
      exact ⟨hmv, .inr ⟨t, hfind, hload, ht⟩⟩
    · cases h

/-- A login changes the state of the task that is found or loaded, and is quiet before and after. -/
theorem moves_login {s s' : Server} {c : ConnId} {conn : FileClientConn} {seqNum userId : Nat} {id : TaskId}
    {role : ClientFileRole} {out : List Effect}
    (h : s.handleClientFileLoginReq c conn seqNum userId id role = some (s', out)) : s.Moves out s' ∨
      ∃ s1 r t, s.Moves [] s1 ∧ s1.tasks r = some t ∧ ((s.findByTaskId id = some r ∧ s1 = s) ∨ t.state = .waitingDownload) ∧
        (s1.setTask r (some (t.changePullState userId role).1)).Moves out s' := by
  unfold Server.handleClientFileLoginReq at h
  split at h
  · exact .inl (moves_refuseLogin h)
  · rename_i s1 r hfind
    obtain ⟨hmv, hcase⟩ := moves_findOrLoad hfind
    split at h
    · cases h
    · rename_i t ht
      refine .inr ⟨s1, r, t, hmv, ht, ?_, ?_⟩
      · refine hcase.imp_right ?_
        rintro ⟨t', -, hload, ht'⟩
        rw [ht'] at ht
        rw [← Option.some.inj ht, loadFromDisk_state hload]
      dsimp only at h
      split at h
      · split at h
        · cases h
        · rename_i out1 hout1
          split at h
          · cases h
          · rename_i s2 out2 h2
            obtain ⟨rfl, rfl⟩ := Prod.mk.inj (Option.some.inj h)
            have hset := moves_setTask (s := s1.setTask r (some (t.changePullState userId role).1)) (if_pos rfl)
              (moves_setConnByUserId _ userId (some c) (role == .offlineDownloadMobile))
            rw [setTask_setTask] at hset
            exact ((hset.trans (moves_setConn _ c _)).trans (quiet_sendTo hout1 trivial)).trans (moves_afterLogin h2)
      · exact moves_refuseLogin h

/-- `_HandleClientFileLoginReq` uploads nothing, where a receiver asks to download. -/
theorem moves_handleClientFileLoginReq {s s' : Server} {c : ConnId} {conn : FileClientConn} {seqNum userId : Nat}
    {id : TaskId} {role : ClientFileRole} {out : List Effect}
    (hmeets : ∀ r t, s.findByTaskId id = some r → s.tasks r = some t → t.offline = true → t.toUserId = userId →
      role = .offlineDownload ∨ role = .offlineDownloadMobile → t.state = .ready ∨ t.state.uploadEnded = true)
    (h : s.handleClientFileLoginReq c conn seqNum userId id role = some (s', out)) : s.Moves out s' := by
  rcases moves_login h with hmv | ⟨s1, r, t, hmv, ht, hcase, hrest⟩
  · exact hmv
  · refine (hmv.trans (moves_setTask ht (moves_changePullState ?_))).trans hrest
    rcases hcase with ⟨hr, rfl⟩ | hstate
    · exact hmeets r t hr ht
    · rw [hstate]
      exact fun _ _ _ => .inr rfl

/-- `_HandleClientFileStates` uploads nothing. -/
theorem moves_handleClientFileStates {s s' : Server} {c : ConnId} {conn : FileClientConn} {seqNum state ttype : Nat}
    {id : TaskId} {userId : Nat} {out : List Effect}
    (h : s.handleClientFileStates c conn seqNum state ttype id userId = some (s', out)) : s.Moves out s' := by
  unfold Server.handleClientFileStates at h
  split at h
  · obtain ⟨rfl, rfl⟩ := Prod.mk.inj (Option.some.inj h)
    exact .refl s
  · split at h
    · obtain ⟨rfl, rfl⟩ := Prod.mk.inj (Option.some.inj h)
      exact .refl s
    · split at h
      · cases h
      · dsimp only at h
        split at h
        · cases h
        · rename_i out1 hout1
          split at h
          · cases h
          · rename_i s1 out2 h2
            obtain ⟨rfl, rfl⟩ := Prod.mk.inj (Option.some.inj h)
            have hforward : s.Moves out1 s := by
              split at hout1
              · split at hout1
                · exact quiet_sendTo hout1 trivial
                · rw [← Option.some.inj hout1]
                  exact .refl s
              · rw [← Option.some.inj hout1]
                exact .refl s
            exact hforward.trans (moves_closeSelf h2)

/-- The timer frees tasks. -/
theorem moves_onTimer {s s' : Server} {expired : TaskId → Bool} (h : s.onTimer expired = some s') : s.Moves [] s' := by
  have hclear : ∀ {s s' : Server} {c : Option ConnId}, s.clearTransferTask c = some s' → s.Moves [] s' := by
    intro s s' c h
    unfold Server.clearTransferTask at h
    split at h
    · rw [← Option.some.inj h]
      exact .refl s
    · split at h
      · cases h
      · rw [← Option.some.inj h]
        exact .of_eq rfl rfl rfl rfl nofun
  have hturn : ∀ {s s' : Server} {p : TaskId × TaskRef}, s.onTimerTask expired p = some s' → s.Moves [] s' := by
    intro s s' p h
    unfold Server.onTimerTask at h
    split at h
    · cases h
    · split at h
      · split at h
        · cases h
        · rename_i s1 h1
          split at h
          · cases h
          · rename_i s2 h2
            rw [← Option.some.inj h]
            exact (((hclear h1).trans (hclear h2)).trans (moves_deleteTask s2 p.2)).trans (moves_eraseTask _ p.1)
      · rw [← Option.some.inj h]
        exact .refl s
  unfold Server.onTimer at h
  generalize s.transferTasks = ps at h
  induction ps generalizing s with
  | nil =>
    rw [← Option.some.inj h]
    exact .refl s
  | cons p ps ih =>
    rw [List.foldlM_cons] at h
    obtain ⟨s1, h1, h2⟩ := Option.bind_eq_some_iff.1 h
    exact (hturn h1).trans (ih h2)

end MovesAux

end TeamTalk.FileServer
