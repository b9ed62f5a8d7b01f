import TeamTalk.FileServer.FileClientConn

/-!
# Links between tasks and connections

A task has three places for connections, and a connection has one for a task. `Linked` says that they agree, and what else
keeps them so.
-/

namespace TeamTalk.FileServer

/-- The places of a task: `from_conn_`, `to_conn_` and `to_conn_mobile`. -/
inductive Slot where
  | sender
  | receiver
  | mobile
  deriving DecidableEq, Repr

namespace Task

/-- The connection in a place. -/
def conn (t : Task) : Slot → Option ConnId
  | .sender => t.fromConn
  | .receiver => t.toConn
  | .mobile => t.toConnMobile

/-- Put a connection in a place. -/
def setConn (t : Task) (k : Slot) (c : Option ConnId) : Task :=
  match k with
  | .sender => { t with fromConn := c }
  | .receiver => { t with toConn := c }
  | .mobile => { t with toConnMobile := c }

/-- The place that `SetConnByUserID` takes for a user. -/
def slotOf (t : Task) (userId : Nat) (mobile : Bool) : Option Slot :=
  if mobile ∧ t.toUserId = userId then some .mobile
  else if t.fromUserId = userId then some .sender
  else if t.toUserId = userId then some .receiver
  else none

theorem setConnByUserId_eq (t : Task) (userId : Nat) (c : Option ConnId) (mobile : Bool) :
    t.setConnByUserId userId c mobile = match t.slotOf userId mobile with
      | some k => t.setConn k c
      | none => t := by
  unfold setConnByUserId slotOf
  split
  · rfl
  · split
    · rfl
    · split <;> rfl

@[simp] theorem conn_setConn (t : Task) (k k' : Slot) (c : Option ConnId) :
    (t.setConn k c).conn k' = if k' = k then c else t.conn k' := by
  cases k <;> cases k' <;> rfl

@[simp] theorem slotOf_setConn (t : Task) (k : Slot) (c : Option ConnId) (userId : Nat) (mobile : Bool) :
    (t.setConn k c).slotOf userId mobile = t.slotOf userId mobile := by
  cases k <;> rfl

@[simp] theorem taskId_setConn (t : Task) (k : Slot) (c : Option ConnId) : (t.setConn k c).taskId = t.taskId := by
  cases k <;> rfl

@[simp] theorem offline_setConn (t : Task) (k : Slot) (c : Option ConnId) : (t.setConn k c).offline = t.offline := by
  cases k <;> rfl

@[simp] theorem state_setConn (t : Task) (k : Slot) (c : Option ConnId) : (t.setConn k c).state = t.state := by
  cases k <;> rfl

/-- A login that passes the check has a place. -/
theorem slotOf_of_check {t : Task} {userId : Nat} {role : ClientFileRole} (h : t.checkByUserIdAndFileRole userId role = true) :
    ∃ k, t.slotOf userId (role == .offlineDownloadMobile) = some k ∧
      (role = .offlineDownloadMobile → k = .mobile) ∧ (k = .mobile → role = .offlineDownloadMobile ∧ t.offline = true) := by
  cases role <;> simp_all [checkByUserIdAndFileRole, slotOf]
  all_goals split <;> simp

/-- What the other fields of a task may do, the links aside. -/
structure Relinks (t t' : Task) : Prop where
  taskId : t'.taskId = t.taskId
  offline : t'.offline = t.offline
  conn : ∀ k, t'.conn k = t.conn k
  slotOf : ∀ userId mobile, t'.slotOf userId mobile = t.slotOf userId mobile
  notDone : t.state ≠ .transferDone → t'.state ≠ .transferDone

end Task

/-- Every file on disk has a header with its task id. -/
structure Storage.Named (st : Storage) : Prop where
  files : ∀ f file, st.files f = some file → f < st.nextFile ∧ file.header ≠ none
  paths : ∀ id f, st.paths id = some f → ∃ file header, st.files f = some file ∧ file.header = some header ∧ header.taskId = id

/-- Tasks and connections point to each other. -/
structure Linked (s : Server) : Prop where
  freshTask : ∀ r t, s.tasks r = some t → r < s.nextTask
  freshConn : ∀ c conn, s.conns c = some conn → c < s.nextConn
  managed : ∀ r t, s.tasks r = some t → s.findByTaskId t.taskId = some r
  manages : ∀ p ∈ s.transferTasks, ∃ t, s.tasks p.2 = some t ∧ t.taskId = p.1
  forth : ∀ c conn r, s.conns c = some conn → conn.transferTask = some r → conn.isOpen = true ∧ ∃ t k, s.tasks r = some t ∧
    t.slotOf conn.userId conn.modetag = some k ∧ t.conn k = some c ∧ (conn.modetag = true → k = .mobile)
  back : ∀ r t k c, s.tasks r = some t → t.conn k = some c → ∃ conn, s.conns c = some conn ∧ conn.transferTask = some r ∧
    t.slotOf conn.userId conn.modetag = some k
  modetag : ∀ c conn, s.conns c = some conn → conn.isOpen = true → conn.modetag = true → conn.transferTask ≠ none
  online : ∀ r t, s.tasks r = some t → t.offline = false → t.toConnMobile = none
  notDone : ∀ r t, s.tasks r = some t → t.state ≠ .transferDone
  named : s.storage.Named
  closing : ∀ c conn, s.closing = some c → s.conns c = some conn → conn.isOpen = false

/-! ## Closing -/

/-- The condition on closing a connection with a task: no other connection loses the task, or the task is deleted. -/
def CloseMeets (s : Server) (c : ConnId) : Prop :=
  ∀ conn r t, s.conns c = some conn → conn.transferTask = some r → s.tasks r = some t →
    (∀ d dconn, d ≠ c → s.conns d = some dconn → dconn.transferTask = some r → dconn.modetag = true) ∨
    (t.offline = true ∧ t.state ≠ .waitingUpload ∧ (t.toConn = none ∨ t.toConn = some c) ∧
      (t.toConnMobile = none ∨ t.toConnMobile = some c))

namespace LinksAux

theorem relinks_refl (t : Task) : t.Relinks t := ⟨rfl, rfl, fun _ => rfl, fun _ _ => rfl, id⟩

/-- A step that leaves the links alone. -/
theorem linked_setTask {s : Server} {r : TaskRef} {t t' : Task} {st : Storage} (h : Linked s) (ht : s.tasks r = some t)
    (hre : t.Relinks t') (hst : st.Named) : Linked ({ s with storage := st }.setTask r (some t')) := by
  have htasks : ∀ r1 t1, ({ s with storage := st }.setTask r (some t')).tasks r1 = some t1 →
      ∃ t0, s.tasks r1 = some t0 ∧ t0.Relinks t1 := by
    intro r1 t1 ht1
    simp only [Server.setTask] at ht1
    split at ht1
    · rename_i heq
      exact ⟨t, heq ▸ ht, Option.some.inj ht1 ▸ hre⟩
    · exact ⟨t1, ht1, relinks_refl t1⟩
  have hkept : ∀ r1 t0, s.tasks r1 = some t0 → ∃ t1, ({ s with storage := st }.setTask r (some t')).tasks r1 = some t1 ∧
      t0.Relinks t1 := by
    intro r1 t0 ht0
    by_cases heq : r1 = r
    · subst heq
      obtain rfl := Option.some.inj (ht.symm.trans ht0)
      exact ⟨t', if_pos rfl, hre⟩
    · exact ⟨t0, (if_neg heq).trans ht0, relinks_refl t0⟩
  refine ⟨?_, h.freshConn, ?_, ?_, ?_, ?_, h.modetag, ?_, ?_, hst, h.closing⟩
  · intro r1 t1 ht1
    obtain ⟨t0, ht0, -⟩ := htasks r1 t1 ht1
    exact h.freshTask r1 t0 ht0
  · intro r1 t1 ht1
    obtain ⟨t0, ht0, hre1⟩ := htasks r1 t1 ht1
    rw [hre1.taskId]
    exact h.managed r1 t0 ht0
  · intro p hp
    obtain ⟨t0, ht0, hid⟩ := h.manages p hp
    obtain ⟨t1, ht1, hre1⟩ := hkept p.2 t0 ht0
    exact ⟨t1, ht1, hre1.taskId.trans hid⟩
  · intro c conn r1 hc hr
    obtain ⟨hopen, t0, k, ht0, hslot, hconn, hmobile⟩ := h.forth c conn r1 hc hr
    obtain ⟨t1, ht1, hre1⟩ := hkept r1 t0 ht0
    exact ⟨hopen, t1, k, ht1, (hre1.slotOf _ _).trans hslot, (hre1.conn k).trans hconn, hmobile⟩
  · intro r1 t1 k c ht1 hk
    obtain ⟨t0, ht0, hre1⟩ := htasks r1 t1 ht1
    obtain ⟨conn, hc, hr, hslot⟩ := h.back r1 t0 k c ht0 ((hre1.conn k).symm.trans hk)
    exact ⟨conn, hc, hr, (hre1.slotOf _ _).trans hslot⟩
  · intro r1 t1 ht1 hoff
    obtain ⟨t0, ht0, hre1⟩ := htasks r1 t1 ht1
    exact (hre1.conn .mobile).trans (h.online r1 t0 ht0 (hre1.offline.symm.trans hoff))
  · intro r1 t1 ht1
    obtain ⟨t0, ht0, hre1⟩ := htasks r1 t1 ht1
    exact hre1.notDone (h.notDone r1 t0 ht0)

/-- A connection that is closed can be freed. -/
theorem linked_free {s : Server} {c : ConnId} (h : Linked s) (hclosed : ∀ conn, s.conns c = some conn → conn.isOpen = false) :
    Linked (s.setConn c none) := by
  have hconns : ∀ d dconn, (s.setConn c none).conns d = some dconn → s.conns d = some dconn := by
    intro d dconn hd
    simp only [Server.setConn] at hd
    split at hd
    · cases hd
    · exact hd
  refine ⟨h.freshTask, fun d dconn hd => h.freshConn d dconn (hconns d dconn hd), h.managed, h.manages,
    fun d dconn r hd hr => h.forth d dconn r (hconns d dconn hd) hr, ?_, fun d dconn hd => h.modetag d dconn (hconns d dconn hd),
    h.online, h.notDone, h.named, fun d dconn hclosing hd => h.closing d dconn hclosing (hconns d dconn hd)⟩
  intro r t k d ht hk
  obtain ⟨dconn, hd, hr, hslot⟩ := h.back r t k d ht hk
  refine ⟨dconn, ?_, hr, hslot⟩
  by_cases heq : d = c
  · subst heq
    have hopen := (h.forth d dconn r hd hr).1
    rw [hclosed dconn hd] at hopen
    cases hopen
  · exact (if_neg heq).trans hd

theorem lookup_filter_ne (l : List (TaskId × TaskRef)) {id id' : TaskId} (h : id' ≠ id) :
    (l.filter fun p => p.1 ≠ id).lookup id' = l.lookup id' := by
  induction l with
  | nil => rfl
  | cons p l ih =>
    obtain ⟨a, b⟩ := p
    by_cases ha : a = id
    · subst ha
      rw [List.filter_cons_of_neg (by simp), ih, List.lookup_cons, beq_eq_false_iff_ne.2 h]
    · rw [List.filter_cons_of_pos (by simpa using ha), List.lookup_cons, List.lookup_cons, ih]

/-- A connection that others keep. -/
theorem conns_dropOthers_kept {s : Server} {c d : ConnId} {task : Option TaskRef} {dconn : FileClientConn}
    (hd : s.conns d = some dconn) (hkept : d = c ∨ dconn.transferTask ≠ task ∨ dconn.modetag = true) :
    (s.dropOthers c task).conns d = some dconn := by
  simp only [Server.dropOthers, hd]
  refine if_neg ?_
  rintro ⟨hne, -, htask, hmode⟩
  rcases hkept with heq | htask' | hmode'
  · exact hne heq
  · exact htask' htask
  · rw [hmode'] at hmode
    cases hmode

/-- What becomes of a connection. -/
theorem conns_dropOthers {s : Server} {c d : ConnId} {task : Option TaskRef} {dconn' : FileClientConn}
    (hd : (s.dropOthers c task).conns d = some dconn') : ∃ dconn, s.conns d = some dconn ∧ (dconn' = dconn ∨
      (d ≠ c ∧ dconn.transferTask = task ∧ dconn.modetag = false ∧ dconn' = { dconn with transferTask := none })) := by
  simp only [Server.dropOthers] at hd
  split at hd
  · rename_i dconn hdconn
    refine ⟨dconn, hdconn, ?_⟩
    split at hd
    · rename_i hcond
      obtain ⟨hne, -, htask, hmode⟩ := hcond
      rw [Bool.not_eq_true'] at hmode
      exact .inr ⟨hne, htask, hmode, (Option.some.inj hd).symm⟩
    · exact .inl (Option.some.inj hd).symm
  · cases hd

/-- The connection that closes. -/
def closed (conn : FileClientConn) : FileClientConn := { conn with isOpen := false, auth := false, transferTask := none }

section Close

variable {s : Server} {c : ConnId} {conn : FileClientConn}

/-- A connection without a task closes. -/
theorem linked_close_none (h : Linked s) (hc : s.conns c = some conn) (hr : conn.transferTask = none) :
    Linked ((s.dropOthers c none).setConn c (some (closed conn))) := by
  have hconns : ∀ d dconn, ((s.dropOthers c none).setConn c (some (closed conn))).conns d = some dconn →
      (d = c ∧ dconn = closed conn) ∨ (d ≠ c ∧ s.conns d = some dconn) := by
    intro d dconn hd
    simp only [Server.setConn] at hd
    split at hd
    · exact .inl ⟨‹_›, (Option.some.inj hd).symm⟩
    · obtain ⟨dconn0, hd0, rfl | ⟨-, htask, -, rfl⟩⟩ := conns_dropOthers hd
      · exact .inr ⟨‹_›, hd0⟩
      · refine .inr ⟨‹_›, ?_⟩
        rw [hd0, ← htask]
  refine ⟨h.freshTask, ?_, h.managed, h.manages, ?_, ?_, ?_, h.online, h.notDone, h.named, ?_⟩
  · intro d dconn hd
    rcases hconns d dconn hd with ⟨rfl, -⟩ | ⟨-, hd⟩
    · exact h.freshConn d conn hc
    · exact h.freshConn d dconn hd
  · intro d dconn r hd hdr
    rcases hconns d dconn hd with ⟨-, rfl⟩ | ⟨-, hd⟩
    · cases hdr
    · exact h.forth d dconn r hd hdr
  · intro r t k d ht hk
    obtain ⟨dconn, hd, hdr, hslot⟩ := h.back r t k d ht hk
    have hne : d ≠ c := by
      rintro rfl
      obtain rfl := Option.some.inj (hc.symm.trans hd)
      rw [hr] at hdr
      cases hdr
    refine ⟨dconn, (if_neg hne).trans (conns_dropOthers_kept hd (.inr (.inl ?_))), hdr, hslot⟩
    rw [hdr]
    exact nofun
  · intro d dconn hd hopen
    rcases hconns d dconn hd with ⟨-, rfl⟩ | ⟨-, hd⟩
    · cases hopen
    · exact h.modetag d dconn hd hopen
  · intro d dconn hclosing hd
    rcases hconns d dconn hd with ⟨-, rfl⟩ | ⟨-, hd⟩
    · rfl
    · exact h.closing d dconn hclosing hd

variable {r : TaskRef} {t t' : Task} {k : Slot}

/-- What is known when a connection with a task closes. -/
structure Closes (s : Server) (c : ConnId) (conn : FileClientConn) (r : TaskRef) (t t' : Task) (k : Slot) : Prop where
  linked : Linked s
  present : s.conns c = some conn
  task : conn.transferTask = some r
  found : s.tasks r = some t
  slot : t.slotOf conn.userId conn.modetag = some k
  place : t.conn k = some c
  taskId : t'.taskId = t.taskId
  offline : t'.offline = t.offline
  left : ∀ k', t'.conn k' = if k' = k then none else t.conn k'
  slotOf : ∀ userId mobile, t'.slotOf userId mobile = t.slotOf userId mobile
  notDone : t'.state ≠ .transferDone

/-- The connection is in no other place. -/
theorem Closes.only (h : Closes s c conn r t t' k) {r1 : TaskRef} {t1 : Task} {k1 : Slot} (ht1 : s.tasks r1 = some t1)
    (hk1 : t1.conn k1 = some c) : r1 = r ∧ k1 = k := by
  obtain ⟨conn', hconn', hr', hslot'⟩ := h.linked.back r1 t1 k1 c ht1 hk1
  obtain rfl := Option.some.inj (h.present.symm.trans hconn')
  obtain rfl := Option.some.inj (hr'.symm.trans h.task)
  obtain rfl := Option.some.inj (h.found.symm.trans ht1)
  exact ⟨rfl, Option.some.inj (hslot'.symm.trans h.slot)⟩

/-- The task stays, and nobody else loses it. -/
theorem Closes.linked_kept (h : Closes s c conn r t t' k)
    (hothers : ∀ d dconn, d ≠ c → s.conns d = some dconn → dconn.transferTask = some r → dconn.modetag = true) :
    Linked (((s.dropOthers c (some r)).setTask r (some t')).setConn c (some (closed conn))) := by
  have hl := h.linked
  have hconns : ∀ d dconn, (((s.dropOthers c (some r)).setTask r (some t')).setConn c (some (closed conn))).conns d = some dconn →
      (d = c ∧ dconn = closed conn) ∨ (d ≠ c ∧ s.conns d = some dconn) := by
    intro d dconn hd
    simp only [Server.setConn] at hd
    split at hd
    · exact .inl ⟨‹_›, (Option.some.inj hd).symm⟩
    · obtain ⟨dconn0, hd0, rfl | ⟨hne, htask, hmode, rfl⟩⟩ := conns_dropOthers hd
      · exact .inr ⟨‹_›, hd0⟩
      · rw [hothers d dconn0 hne hd0 htask] at hmode
        cases hmode
  have hkept : ∀ d dconn, d ≠ c → s.conns d = some dconn →
      (((s.dropOthers c (some r)).setTask r (some t')).setConn c (some (closed conn))).conns d = some dconn := by
    intro d dconn hne hd
    refine (if_neg hne).trans (conns_dropOthers_kept hd ?_)
    by_cases hdr : dconn.transferTask = some r
    · exact .inr (.inr (hothers d dconn hne hd hdr))
    · exact .inr (.inl hdr)
  have htasks : ∀ r1 t1, (((s.dropOthers c (some r)).setTask r (some t')).setConn c (some (closed conn))).tasks r1 = some t1 →
      (r1 = r ∧ t1 = t') ∨ (r1 ≠ r ∧ s.tasks r1 = some t1) := by
    intro r1 t1 ht1
    simp only [Server.setConn, Server.setTask] at ht1
    split at ht1
    · exact .inl ⟨‹_›, (Option.some.inj ht1).symm⟩
    · exact .inr ⟨‹_›, ht1⟩
  refine ⟨?_, ?_, ?_, ?_, ?_, ?_, ?_, ?_, ?_, hl.named, ?_⟩
  · intro r1 t1 ht1
    rcases htasks r1 t1 ht1 with ⟨rfl, -⟩ | ⟨-, ht1⟩
    · exact hl.freshTask r1 t h.found
    · exact hl.freshTask r1 t1 ht1
  · intro d dconn hd
    rcases hconns d dconn hd with ⟨rfl, -⟩ | ⟨-, hd⟩
    · exact hl.freshConn d conn h.present
    · exact hl.freshConn d dconn hd
  · intro r1 t1 ht1
    rcases htasks r1 t1 ht1 with ⟨rfl, rfl⟩ | ⟨-, ht1⟩
    · rw [h.taskId]
      exact hl.managed r1 t h.found
    · exact hl.managed r1 t1 ht1
  · intro p hp
    obtain ⟨t0, ht0, hid⟩ := hl.manages p hp
    by_cases heq : p.2 = r
    · rw [heq] at ht0
      obtain rfl := Option.some.inj (h.found.symm.trans ht0)
      exact ⟨t', if_pos heq, h.taskId.trans hid⟩
    · exact ⟨t0, (if_neg heq).trans ht0, hid⟩
  · intro d dconn r1 hd hdr
    rcases hconns d dconn hd with ⟨-, rfl⟩ | ⟨hne, hd⟩
    · cases hdr
    · obtain ⟨hopen, t0, k1, ht0, hslot, hk1, hmobile⟩ := hl.forth d dconn r1 hd hdr
      refine ⟨hopen, ?_⟩
      by_cases heq : r1 = r
      · subst heq
        obtain rfl := Option.some.inj (h.found.symm.trans ht0)
        refine ⟨t', k1, if_pos rfl, (h.slotOf _ _).trans hslot, ?_, hmobile⟩
        rw [h.left, if_neg]
        · exact hk1
        · rintro rfl
          exact hne (Option.some.inj (hk1.symm.trans h.place))
      · exact ⟨t0, k1, (if_neg heq).trans ht0, hslot, hk1, hmobile⟩
  · intro r1 t1 k1 d ht1 hk1
    have hback : ∃ t0, s.tasks r1 = some t0 ∧ t0.conn k1 = some d ∧ (r1 = r → k1 ≠ k) ∧
        ∀ userId mobile, t1.slotOf userId mobile = t0.slotOf userId mobile := by
      rcases htasks r1 t1 ht1 with ⟨rfl, rfl⟩ | ⟨hne, ht1⟩
      · rw [h.left] at hk1
        split at hk1
        · cases hk1
        · exact ⟨t, h.found, hk1, fun _ => ‹_›, h.slotOf⟩
      · exact ⟨t1, ht1, hk1, fun heq => absurd heq hne, fun _ _ => rfl⟩
    obtain ⟨t0, ht0, hk0, hne, hslots⟩ := hback
    have hdc : d ≠ c := by
      rintro rfl
      obtain ⟨rfl, rfl⟩ := h.only ht0 hk0
      exact hne rfl rfl
    obtain ⟨dconn, hd, hdr, hslot⟩ := hl.back r1 t0 k1 d ht0 hk0
    exact ⟨dconn, hkept d dconn hdc hd, hdr, (hslots _ _).trans hslot⟩
  · intro d dconn hd hopen
    rcases hconns d dconn hd with ⟨-, rfl⟩ | ⟨-, hd⟩
    · cases hopen
    · exact hl.modetag d dconn hd hopen
  · intro r1 t1 ht1 hoff
    rcases htasks r1 t1 ht1 with ⟨rfl, rfl⟩ | ⟨-, ht1⟩
    · have hmobile : t.conn .mobile = none := hl.online r1 t h.found (h.offline.symm.trans hoff)
      have hleft := h.left .mobile
      rw [hmobile, ite_self] at hleft
      exact hleft
    · exact hl.online r1 t1 ht1 hoff
  · intro r1 t1 ht1
    rcases htasks r1 t1 ht1 with ⟨rfl, rfl⟩ | ⟨-, ht1⟩
    · exact h.notDone
    · exact hl.notDone r1 t1 ht1
  · intro d dconn hclosing hd
    rcases hconns d dconn hd with ⟨-, rfl⟩ | ⟨-, hd⟩
    · rfl
    · exact hl.closing d dconn hclosing hd

/-- The task is deleted, and everybody has lost it. -/
theorem Closes.linked_deleted (h : Closes s c conn r t t' k) (hnone : t'.toConnMobile = none) :
    Linked (((((s.dropOthers c (some r)).setTask r (some t')).setTask r none).eraseTask t.taskId).setConn c
      (some (closed conn))) := by
  have hl := h.linked
  have hconns : ∀ d dconn, (((((s.dropOthers c (some r)).setTask r (some t')).setTask r none).eraseTask t.taskId).setConn c
      (some (closed conn))).conns d = some dconn → (d = c ∧ dconn = closed conn) ∨
      (d ≠ c ∧ ∃ dconn0, s.conns d = some dconn0 ∧ dconn.isOpen = dconn0.isOpen ∧ dconn.userId = dconn0.userId ∧
        dconn.modetag = dconn0.modetag ∧ (dconn.transferTask = dconn0.transferTask ∨
          (dconn.transferTask = none ∧ dconn0.modetag = false))) := by
    intro d dconn hd
    simp only [Server.setConn] at hd
    split at hd
    · exact .inl ⟨‹_›, (Option.some.inj hd).symm⟩
    · obtain ⟨dconn0, hd0, rfl | ⟨-, -, hmode, rfl⟩⟩ := conns_dropOthers hd
      · exact .inr ⟨‹_›, dconn, hd0, rfl, rfl, rfl, .inl rfl⟩
      · exact .inr ⟨‹_›, dconn0, hd0, rfl, rfl, rfl, .inr ⟨rfl, hmode⟩⟩
  have hkept : ∀ d dconn, d ≠ c → s.conns d = some dconn → dconn.transferTask ≠ some r →
      (((((s.dropOthers c (some r)).setTask r (some t')).setTask r none).eraseTask t.taskId).setConn c
        (some (closed conn))).conns d = some dconn :=
    fun d dconn hne hd hdr => (if_neg hne).trans (conns_dropOthers_kept hd (.inr (.inl hdr)))
  have htasks : ∀ r1 t1, (((((s.dropOthers c (some r)).setTask r (some t')).setTask r none).eraseTask t.taskId).setConn c
      (some (closed conn))).tasks r1 = some t1 ↔ r1 ≠ r ∧ s.tasks r1 = some t1 := by
    intro r1 t1
    simp only [Server.setConn, Server.setTask, Server.eraseTask, Server.dropOthers]
    by_cases heq : r1 = r
    · simp [heq]
    · simp [heq]
  -- nobody else has the task any more
  have hlost : ∀ d dconn, d ≠ c → s.conns d = some dconn → dconn.transferTask = some r → dconn.modetag = false := by
    intro d dconn hne hd hdr
    by_contra hmode
    rw [Bool.not_eq_false] at hmode
    obtain ⟨-, t0, k1, ht0, -, hk1, hmobile⟩ := hl.forth d dconn r hd hdr
    obtain rfl := Option.some.inj (h.found.symm.trans ht0)
    obtain rfl := hmobile hmode
    have hleft : none = if Slot.mobile = k then none else t.conn .mobile := hnone.symm.trans (h.left .mobile)
    split at hleft
    · rename_i hk
      rw [← hk] at h
      exact hne (Option.some.inj (hk1.symm.trans h.place))
    · rw [hk1] at hleft
      cases hleft
  refine ⟨?_, ?_, ?_, ?_, ?_, ?_, ?_, ?_, ?_, hl.named, ?_⟩
  · intro r1 t1 ht1
    exact hl.freshTask r1 t1 ((htasks r1 t1).1 ht1).2
  · intro d dconn hd
    rcases hconns d dconn hd with ⟨rfl, -⟩ | ⟨-, dconn0, hd0, -⟩
    · exact hl.freshConn d conn h.present
    · exact hl.freshConn d dconn0 hd0
  · intro r1 t1 ht1
    obtain ⟨hne, ht1⟩ := (htasks r1 t1).1 ht1
    have hid : t1.taskId ≠ t.taskId := by
      intro heq
      have h1 := hl.managed r1 t1 ht1
      rw [heq, hl.managed r t h.found] at h1
      exact hne (Option.some.inj h1).symm
    exact (lookup_filter_ne _ hid).trans (hl.managed r1 t1 ht1)
  · intro p hp
    obtain ⟨hp, hne⟩ := List.mem_filter.1 hp
    obtain ⟨t0, ht0, hid⟩ := hl.manages p hp
    refine ⟨t0, (htasks p.2 t0).2 ⟨?_, ht0⟩, hid⟩
    intro heq
    rw [heq] at ht0
    obtain rfl := Option.some.inj (h.found.symm.trans ht0)
    exact of_decide_eq_true hne hid.symm
  · intro d dconn r1 hd hdr
    rcases hconns d dconn hd with ⟨-, rfl⟩ | ⟨hne, dconn0, hd0, hopen, huser, hmode, htask | ⟨htask, -⟩⟩
    · cases hdr
    · rw [htask] at hdr
      obtain ⟨hopen0, t0, k1, ht0, hslot, hk1, hmobile⟩ := hl.forth d dconn0 r1 hd0 hdr
      have hr1 : r1 ≠ r := by
        rintro rfl
        -- such a connection has lost the task
        have hlost0 := hlost d dconn0 hne hd0 hdr
        have hdrop : (s.dropOthers c (some r1)).conns d = some { dconn0 with transferTask := none } := by
          simp only [Server.dropOthers, hd0]
          exact if_pos ⟨hne, hopen0, hdr, by rw [hlost0]; rfl⟩
        have hd' : (s.dropOthers c (some r1)).conns d = some dconn := (if_neg hne).symm.trans hd
        rw [← Option.some.inj (hdrop.symm.trans hd')] at htask
        rw [← htask] at hdr
        cases hdr
      rw [hopen, huser, hmode]
      exact ⟨hopen0, t0, k1, (htasks r1 t0).2 ⟨hr1, ht0⟩, hslot, hk1, hmobile⟩
    · rw [htask] at hdr
      cases hdr
  · intro r1 t1 k1 d ht1 hk1
    obtain ⟨hne, hs1⟩ := (htasks r1 t1).1 ht1
    obtain ⟨dconn, hd, hdr, hslot⟩ := hl.back r1 t1 k1 d hs1 hk1
    have hdc : d ≠ c := by
      rintro rfl
      exact hne (h.only hs1 hk1).1
    refine ⟨dconn, hkept d dconn hdc hd ?_, hdr, hslot⟩
    rw [hdr]
    exact fun heq => hne (Option.some.inj heq)
  · intro d dconn hd hopen hmode
    rcases hconns d dconn hd with ⟨-, rfl⟩ | ⟨hne, dconn0, hd0, hopen0, -, hmode0, htask | ⟨-, hmode1⟩⟩
    · cases hopen
    · rw [htask]
      exact hl.modetag d dconn0 hd0 (hopen0.symm.trans hopen) (hmode0.symm.trans hmode)
    · rw [hmode0, hmode1] at hmode
      cases hmode
  · intro r1 t1 ht1
    exact hl.online r1 t1 ((htasks r1 t1).1 ht1).2
  · intro r1 t1 ht1
    exact hl.notDone r1 t1 ((htasks r1 t1).1 ht1).2
  · intro d dconn hclosing hd
    rcases hconns d dconn hd with ⟨-, rfl⟩ | ⟨-, dconn0, hd0, hopen, -⟩
    · rfl
    · rw [hopen]
      exact hl.closing d dconn0 hclosing hd0

/-- The task without the connection. -/
theorem closes_of_linked (h : Linked s) (hc : s.conns c = some conn) (hr : conn.transferTask = some r) :
    ∃ t k, Closes s c conn r t ((if t.state.uploadEnded then t.setState .waitingDownload else t).setConnByUserId conn.userId none
      conn.modetag) k := by
  obtain ⟨-, t, k, ht, hslot, hk, -⟩ := h.forth c conn r hc hr
  have hrestart : t.Relinks (if t.state.uploadEnded then t.setState .waitingDownload else t) := by
    split
    · exact ⟨rfl, rfl, fun k => by cases k <;> rfl, fun _ _ => rfl, fun _ => nofun⟩
    · exact relinks_refl t
  refine ⟨t, k, ?_⟩
  generalize (if t.state.uploadEnded then t.setState .waitingDownload else t) = t0 at hrestart ⊢
  have hset : t0.setConnByUserId conn.userId none conn.modetag = t0.setConn k none := by
    rw [Task.setConnByUserId_eq, hrestart.slotOf, hslot]
  rw [hset]
  refine ⟨h, hc, hr, ht, hslot, hk, ?_, ?_, ?_, ?_, ?_⟩
  · rw [Task.taskId_setConn, hrestart.taskId]
  · rw [Task.offline_setConn, hrestart.offline]
  · intro k'
    rw [Task.conn_setConn, hrestart.conn]
  · intro userId mobile
    rw [Task.slotOf_setConn, hrestart.slotOf]
  · rw [Task.state_setConn]
    exact hrestart.notDone (h.notDone r t ht)

/-- Closing keeps the links, under the condition. -/
theorem linked_close {s' : Server} {out : List Effect} (h : Linked s) (hmeets : CloseMeets s c)
    (hclose : s.close c = some (s', out)) : Linked s' ∧ ∃ conn, s'.conns c = some conn ∧ conn.isOpen = false := by
  unfold Server.close at hclose
  split at hclose
  · cases hclose
  · rename_i conn hc
    split at hclose
    · dsimp only at hclose
      split at hclose
      · cases hclose
      · rename_i s1 hs1
        obtain ⟨rfl, -⟩ := Prod.mk.inj (Option.some.inj hclose)
        refine ⟨?_, closed conn, if_pos rfl, rfl⟩
        cases hr : conn.transferTask with
        | none =>
          rw [hr] at hs1
          rw [← Option.some.inj hs1]
          exact linked_close_none h hc hr
        | some r =>
          rw [hr] at hs1
          obtain ⟨t, k, hcl⟩ := closes_of_linked h hc hr
          have ht : (s.dropOthers c (some r)).tasks r = some t := hcl.found
          have hmeets := hmeets conn r t hc hr hcl.found
          have hoff := hcl.offline
          have hstate : t.offline = true → t.state ≠ .waitingUpload →
              ((if t.state.uploadEnded then t.setState .waitingDownload else t).setConnByUserId conn.userId none
                conn.modetag).state ≠ .waitingUpload := by
            intro _ hne
            rw [Task.setConnByUserId_eq]
            split
            · rw [Task.state_setConn]
              split
              · exact nofun
              · exact hne
            · split
              · exact nofun
              · exact hne
          simp only [Server.leaveTask, ht] at hs1
          generalize (if t.state.uploadEnded then t.setState .waitingDownload else t).setConnByUserId conn.userId none
            conn.modetag = t' at hcl hs1 hoff hstate
          have hfind : ((s.dropOthers c (some r)).setTask r (some t')).findByTaskId t'.taskId = some r :=
            hcl.taskId ▸ h.managed r t hcl.found
          have htask : ((s.dropOthers c (some r)).setTask r (some t')).tasks r = some t' := if_pos rfl
          -- a task that stays in spite of the condition would have been deleted
          have hkept : s1 = (s.dropOthers c (some r)).setTask r (some t') →
              ¬(t'.toConn = none ∧ t'.toConnMobile = none ∧ t.offline = true ∧ t.state ≠ .waitingUpload) →
              Linked (s1.setConn c (some (closed conn))) := by
            rintro rfl hnot
            refine hcl.linked_kept ?_
            rcases hmeets with hothers | ⟨hofft, hst, hto, hmob⟩
            · exact hothers
            · refine absurd ⟨?_, ?_, hofft, hst⟩ hnot
              · have hleft := hcl.left .receiver
                rcases hto with hto | hto
                · rw [show t.conn .receiver = none from hto, ite_self] at hleft
                  exact hleft
                · rw [if_pos (hcl.only hcl.found (show t.conn .receiver = some c from hto)).2] at hleft
                  exact hleft
              · have hleft := hcl.left .mobile
                rcases hmob with hmob | hmob
                · rw [show t.conn .mobile = none from hmob, ite_self] at hleft
                  exact hleft
                · rw [if_pos (hcl.only hcl.found (show t.conn .mobile = some c from hmob)).2] at hleft
                  exact hleft
          have hdel : s1 = (((s.dropOthers c (some r)).setTask r (some t')).setTask r none).eraseTask t'.taskId →
              t'.toConnMobile = none → Linked (s1.setConn c (some (closed conn))) := by
            rintro rfl hnone
            rw [hcl.taskId]
            exact hcl.linked_deleted hnone
          split at hs1
          · rename_i hnone
            simp only [Server.deleteTransferTaskByConnClose, hfind, htask] at hs1
            split at hs1
            · rename_i hofft'
              split at hs1
              · exact hdel (Option.some.inj hs1).symm hnone.2
              · rename_i hst
                refine hkept (Option.some.inj hs1).symm fun hcond => ?_
                exact hst (hstate hcond.2.2.1 hcond.2.2.2)
            · rename_i hofft'
              split at hs1
              · exact hdel (Option.some.inj hs1).symm hnone.2
              · refine hkept (Option.some.inj hs1).symm fun hcond => ?_
                rw [hoff] at hofft'
                exact hofft' hcond.2.2.1
          · rename_i hnone
            exact hkept (Option.some.inj hs1).symm fun hcond => hnone ⟨hcond.1, hcond.2.1⟩
    · cases hclose

end Close

/-! ## Data -/

theorem relinks_pc (t : Task) (pc : Stream) (h : t.state ≠ .transferDone → pc.state ≠ .transferDone) :
    t.Relinks { t with pc := pc } := ⟨rfl, rfl, fun k => by cases k <;> rfl, fun _ _ => rfl, h⟩

theorem relinks_mobile (t : Task) (mobile : Stream) : t.Relinks { t with mobile := mobile } :=
  ⟨rfl, rfl, fun k => by cases k <;> rfl, fun _ _ => rfl, id⟩

theorem relinks_trans {t t' t'' : Task} (h : t.Relinks t') (h' : t'.Relinks t'') : t.Relinks t'' :=
  ⟨h'.taskId.trans h.taskId, h'.offline.trans h.offline, fun k => (h'.conn k).trans (h.conn k),
    fun u m => (h'.slotOf u m).trans (h.slotOf u m), fun hne => h'.notDone (h.notDone hne)⟩

theorem relinks_changePullState (t : Task) (userId : Nat) (role : ClientFileRole) :
    t.Relinks (t.changePullState userId role).1 := by
  have hset : ∀ state, state ≠ .transferDone → t.Relinks (t.setState state) := fun state hne => relinks_pc t _ fun _ => hne
  unfold Task.changePullState
  split
  · dsimp only
    split
    · unfold Task.changePullStateOffline
      split
      · split
        · exact hset _ nofun
        · exact relinks_refl t
      · split
        · exact relinks_pc t _ fun _ => nofun
        · exact relinks_mobile t _
        · exact relinks_refl t
    · unfold Task.changePullStateOnline
      split
      · split
        · exact hset _ nofun
        · exact hset _ nofun
      · split
        · exact hset _ nofun
        · exact relinks_refl t
      · split
        · exact hset _ nofun
        · exact relinks_refl t
      · exact relinks_refl t
  · exact relinks_refl t

theorem relinks_transferOnline (t : Task) : t.Relinks t.transferOnline.1 := by
  unfold Task.transferOnline
  split
  · exact relinks_pc t _ fun _ => nofun
  · exact relinks_refl t
  · exact relinks_refl t

theorem relinks_setStream (t : Task) (mobile : Bool) {s : Stream} (h : s.state ≠ .transferDone) :
    t.Relinks (t.setStream mobile s) := by
  cases mobile with
  | false => exact relinks_pc t _ fun _ => h
  | true => exact relinks_mobile t s

theorem relinks_pulledBlock {t : Task} {mobile : Bool} {data : Bytes} {p : Pulled} (h : t.pulledBlock mobile data = some p) :
    t.Relinks p.task := by
  unfold Task.pulledBlock at h
  split at h
  · rw [← Option.some.inj h]
    exact relinks_mobile t _
  · split at h
    · split at h
      · cases h
      · rw [← Option.some.inj h]
        exact relinks_pc t _ fun _ => nofun
    · rw [← Option.some.inj h]
      exact relinks_refl t

theorem relinks_doPullFileRequest {t : Task} {st : Storage} {offset : Nat} {mode : TransferFileType} {p : Pulled}
    (h : t.doPullFileRequest st offset mode = some p) : t.Relinks p.task := by
  unfold Task.doPullFileRequest at h
  split at h
  · unfold Task.doPullFileRequestOffline at h
    split at h
    · rw [← Option.some.inj h]
      exact relinks_refl t
    · rename_i hstate
      generalize (mode == .offlineMobile) = mobile at h hstate
      have hdone : (t.stream mobile).state ≠ .transferDone := by
        intro heq
        rw [heq] at hstate
        exact hstate ⟨nofun, nofun⟩
      have hs : (Task.openForDownload st t.taskId (t.stream mobile)).1.state ≠ .transferDone := by
        unfold Task.openForDownload
        split
        · split
          · exact hdone
          · split
            · exact nofun
            · exact hdone
        · exact hdone
      generalize Task.openForDownload st t.taskId (t.stream mobile) = o at h hs
      rcases o with ⟨s, opened⟩
      dsimp only at h
      have hre : ∀ s' : Stream, s'.state = s.state → t.Relinks ((t.setStream mobile s).setStream mobile s') :=
        fun s' heq => relinks_trans (relinks_setStream t mobile hs) (relinks_setStream _ mobile (heq ▸ hs))
      split at h
      · rw [← Option.some.inj h]
        exact relinks_setStream t mobile hs
      · split at h
        · rw [← Option.some.inj h]
          exact relinks_setStream t mobile hs
        · split at h
          · cases h
          · split at h
            · rw [← Option.some.inj h]
              exact hre _ rfl
            · refine relinks_trans (hre _ ?_) (relinks_pulledBlock h)
              rfl
  · rw [← Option.some.inj h]
    exact relinks_transferOnline t

/-- Writing to a file keeps the headers. -/
theorem named_append {st : Storage} (h : st.Named) (fp : Handle) (data : Bytes) : (st.append fp data).Named := by
  unfold Storage.append
  split
  · rename_i file hfile
    refine ⟨fun f file' hf => ?_, fun id f hf => ?_⟩
    · simp only [Storage.setFile] at hf
      split at hf
      · rename_i heq
        rw [← Option.some.inj hf, heq]
        exact h.files fp.file file hfile
      · exact h.files f file' hf
    · obtain ⟨file', header, hfile', hheader, hid⟩ := h.paths id f hf
      by_cases heq : f = fp.file
      · subst heq
        obtain rfl := Option.some.inj (hfile.symm.trans hfile')
        exact ⟨_, header, if_pos rfl, hheader, hid⟩
      · exact ⟨file', header, (if_neg heq).trans hfile', hheader, hid⟩
  · exact h

theorem named_remove {st : Storage} (h : st.Named) (id : TaskId) : (st.remove id).Named := by
  refine ⟨h.files, fun id' f hf => ?_⟩
  simp only [Storage.remove, Storage.setPath] at hf
  split at hf
  · cases hf
  · exact h.paths id' f hf

/-- Only a new file gets a header: the task's own. -/
theorem named_openForUpload {t t' : Task} {st st' : Storage} (h : st.Named) (hopen : t.openForUpload st = some (st', t')) :
    st'.Named ∧ t.Relinks t' := by
  have hheader : ∀ fp f file, st.files f = some file → fp.file = f → st.writeHeader fp t.header = none := by
    intro fp f file hf heq
    obtain ⟨header, hh⟩ := Option.ne_none_iff_exists'.1 (h.files f file hf).2
    rcases file with ⟨_, data⟩
    obtain rfl : _ = some header := hh
    simp only [Storage.writeHeader, heq, hf]
  unfold Task.openForUpload at hopen
  split at hopen
  · split at hopen
    · rename_i fp hfp
      exfalso
      cases hf : st.files fp.file with
      | none => simp [Storage.writeHeader, hf] at hopen
      | some file => simp [hheader fp fp.file file hf rfl] at hopen
    · split at hopen
      · obtain ⟨rfl, rfl⟩ := Prod.mk.inj (Option.some.inj hopen)
        exact ⟨h, relinks_refl t⟩
      · rename_i st1 fp hw
        unfold Storage.openByWrite at hw
        split at hw
        · split at hw
          · rename_i f hf
            obtain ⟨rfl, rfl⟩ := Prod.mk.inj (Option.some.inj hw)
            obtain ⟨file, header, hfile, -⟩ := h.paths t.taskId f hf
            simp [hheader ⟨f, 0⟩ f file hfile rfl] at hopen
          · obtain ⟨rfl, rfl⟩ := Prod.mk.inj (Option.some.inj hw)
            simp only [Storage.writeHeader, Storage.setPath, Storage.setFile, if_true, Option.map_some, Option.some.injEq,
              Prod.mk.injEq] at hopen
            obtain ⟨rfl, rfl⟩ := hopen
            refine ⟨⟨fun f file hf => ?_, fun id f hf => ?_⟩, relinks_pc t _ fun _ => nofun⟩
            · dsimp only at hf
              split at hf
              · rename_i heq
                rw [← Option.some.inj hf, heq]
                exact ⟨Nat.lt_succ_self _, nofun⟩
              · exact ⟨Nat.lt_succ_of_lt (h.files f file hf).1, (h.files f file hf).2⟩
            · dsimp only at hf ⊢
              split at hf
              · rename_i heq
                rw [← Option.some.inj hf, heq]
                exact ⟨_, t.header, if_pos rfl, rfl, rfl⟩
              · obtain ⟨file, header, hfile, hh, hid⟩ := h.paths id f hf
                have hne : f ≠ st.nextFile := Nat.ne_of_lt (h.files f file hfile).1
                exact ⟨file, header, (if_neg hne).trans ((if_neg hne).trans hfile), hh, hid⟩
        · cases hw
  · obtain ⟨rfl, rfl⟩ := Prod.mk.inj (Option.some.inj hopen)
    exact ⟨h, relinks_refl t⟩

theorem named_doRecvData {md5 : Bytes → String} {t : Task} {st : Storage} {userId offset : Nat} {data : Bytes} {d : Received}
    (h : st.Named) (hd : t.doRecvData md5 st userId offset data = some d) : d.storage.Named ∧ t.Relinks d.task := by
  unfold Task.doRecvData at hd
  split at hd
  · unfold Task.doRecvDataOffline at hd
    split at hd
    · rw [← Option.some.inj hd]
      exact ⟨h, relinks_refl t⟩
    · split at hd
      · rw [← Option.some.inj hd]
        exact ⟨h, relinks_refl t⟩
      · split at hd
        · rw [← Option.some.inj hd]
          exact ⟨h, relinks_refl t⟩
        · dsimp only at hd
          split at hd
          · cases hd
          · rename_i hstate _ _ st1 t1 hopen
            obtain ⟨hst, hre⟩ := named_openForUpload h hopen
            split at hd
            · rw [← Option.some.inj hd]
              exact ⟨hst, hre⟩
            · split at hd
              · cases hd
              · have hblock := relinks_trans hre (relinks_pc t1 { t1.pc with transferedIdx := t1.pc.transferedIdx + 1 } id)
                split at hd
                · rw [← Option.some.inj hd, Task.compareMd5]
                  split
                  · exact ⟨named_append hst _ _, relinks_trans hblock (relinks_pc _ _ fun _ => nofun)⟩
                  · exact ⟨named_remove (named_append hst _ _) _, hblock⟩
                · rw [← Option.some.inj hd]
                  exact ⟨named_append hst _ _, hblock⟩
  · split at hd
    · rw [← Option.some.inj hd]
      exact ⟨h, relinks_transferOnline t⟩
    · rw [← Option.some.inj hd]
      exact ⟨h, relinks_refl t⟩

end LinksAux

end TeamTalk.FileServer
