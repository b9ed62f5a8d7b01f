import TeamTalk.FileServer.Links

/-!
# No dangling references in file_server

Every connection that a task holds is open, every task that a connection holds can be found, and the two agree; so it is in
every run in which a login takes a free place, nobody else loses a task that stays when a connection closes, and nobody asks
for data without a task.
-/

namespace TeamTalk.FileServer

/-- The task that a login is about. -/
def Server.loginTask (s : Server) (id : TaskId) (role : ClientFileRole) : Option Task :=
  match s.findByTaskId id with
  | some r => s.tasks r
  | none => if role = .offlineDownload ∨ role = .offlineDownloadMobile then Task.loadFromDisk s.storage id else none

/-- The condition on a login: one that is accepted comes from an open connection, and takes a free place or its own again; one
that is refused may close the connection. -/
structure LoginMeets (s : Server) (c : ConnId) (userId : Nat) (id : TaskId) (role : ClientFileRole) : Prop where
  accepted : ∀ conn t k, s.conns c = some conn → s.loginTask id role = some t → t.checkByUserIdAndFileRole userId role = true →
    t.slotOf userId (role == .offlineDownloadMobile) = some k → conn.isOpen = true ∧
      ((t.conn k = none ∧ conn.transferTask = none) ∨ t.conn k = some c)
  refused : (∀ t, s.loginTask id role = some t → t.checkByUserIdAndFileRole userId role = false) → CloseMeets s c

/-- The condition on a step. -/
def LinksMeet (s : Server) : Event → Prop
  | .pdu c _ (.login userId id role) => LoginMeets s c userId id role
  | .pdu c _ (.fileState ..) => CloseMeets s c
  | .pdu c _ (.pullDataReq ..) => ∀ conn, s.conns c = some conn → conn.auth = true → conn.transferTask ≠ none
  | .close c => CloseMeets s c
  | _ => True

/-- Tasks and connections point to each other, and to nothing that is gone. -/
structure LinksSound (s : Server) : Prop where
  conns : ∀ r t k c, s.tasks r = some t → t.conn k = some c → ∃ conn, s.conns c = some conn ∧ conn.isOpen = true
  tasks : ∀ c conn r, s.conns c = some conn → conn.transferTask = some r → (∃ id, s.findByTaskId id = some r) ∧
    ∃ t, s.tasks r = some t
  agree : ∀ c conn r t, s.conns c = some conn → s.tasks r = some t → (conn.transferTask = some r ↔ ∃ k, t.conn k = some c)

/-- Every run whose steps all meet `ok` keeps the references sound. -/
def LinksKept (ok : Server → Event → Prop) : Prop :=
  ∀ (md5 : Bytes → String) (log : List Effect) (s : Server), Machine.Run (step md5) ok Server.init log s → LinksSound s

namespace LinksRunAux

open LinksAux

/-- The invariant gives what is to be proved. -/
theorem linksSound_of_linked {s : Server} (h : Linked s) : LinksSound s := by
  refine ⟨?_, ?_, ?_⟩
  · intro r t k c ht hk
    obtain ⟨conn, hc, hr, -⟩ := h.back r t k c ht hk
    exact ⟨conn, hc, (h.forth c conn r hc hr).1⟩
  · intro c conn r hc hr
    obtain ⟨-, t, -, ht, -⟩ := h.forth c conn r hc hr
    exact ⟨⟨t.taskId, h.managed r t ht⟩, t, ht⟩
  · intro c conn r t hc ht
    constructor
    · intro hr
      obtain ⟨-, t', k, ht', -, hk, -⟩ := h.forth c conn r hc hr
      obtain rfl := Option.some.inj (ht.symm.trans ht')
      exact ⟨k, hk⟩
    · rintro ⟨k, hk⟩
      obtain ⟨conn', hc', hr, -⟩ := h.back r t k c ht hk
      obtain rfl := Option.some.inj (hc.symm.trans hc')
      exact hr

/-! ## Closing from a handler -/

/-- A connection on its way to its end keeps it. -/
theorem linked_closing {s : Server} {c : ConnId} {conn : FileClientConn} (h : Linked s) (hc : s.conns c = some conn)
    (hclosed : conn.isOpen = false) : Linked { s with closing := some c } := by
  refine ⟨h.freshTask, h.freshConn, h.managed, h.manages, h.forth, h.back, h.modetag, h.online, h.notDone, h.named, ?_⟩
  intro d dconn hd hdconn
  obtain rfl := Option.some.inj hd
  obtain rfl := Option.some.inj (hc.symm.trans hdconn)
  exact hclosed

/-- A connection that closes keeps it. -/
theorem linked_closeSelf {s s' : Server} {c : ConnId} {out : List Effect} (h : Linked s) (hmeets : CloseMeets s c)
    (hclose : s.closeSelf c = some (s', out)) : Linked s' := by
  unfold Server.closeSelf at hclose
  split at hclose
  · cases hclose
  · rename_i h1
    obtain ⟨rfl, -⟩ := Prod.mk.inj (Option.some.inj hclose)
    obtain ⟨h2, conn, hc, hclosed⟩ := linked_close h hmeets h1
    exact linked_closing h2 hc hclosed

/-- And one whose login is refused. -/
theorem linked_refuseLogin {s s' : Server} {c : ConnId} {seqNum : Nat} {id : TaskId} {out : List Effect} (h : Linked s)
    (hmeets : CloseMeets s c) (hrefuse : s.refuseLogin c seqNum id = some (s', out)) : Linked s' := by
  unfold Server.refuseLogin at hrefuse
  split at hrefuse
  · cases hrefuse
  · split at hrefuse
    · cases hrefuse
    · rename_i h1
      obtain ⟨rfl, -⟩ := Prod.mk.inj (Option.some.inj hrefuse)
      exact linked_closeSelf h hmeets h1

/-! ## New tasks -/

/-- A task that nobody has yet. -/
theorem linked_addTask {s : Server} {id : TaskId} {t : Task} (h : Linked s) (hid : t.taskId = id)
    (hfind : s.findByTaskId id = none) (hconn : ∀ k, t.conn k = none) (hdone : t.state ≠ .transferDone) :
    Linked ((s.addTask t).insertTask id s.nextTask) := by
  have hins : (s.addTask t).insertTask id s.nextTask =
      { s.addTask t with transferTasks := (id, s.nextTask) :: s.transferTasks } := by
    have hfind' : (s.addTask t).findByTaskId id = none := hfind
    simp only [Server.insertTask, hfind']
    rfl
  rw [hins]
  have htasks : ∀ r1 t1, (s.addTask t).tasks r1 = some t1 → (r1 = s.nextTask ∧ t1 = t) ∨ s.tasks r1 = some t1 := by
    intro r1 t1 ht1
    simp only [Server.addTask, Server.setTask] at ht1
    split at ht1
    · exact .inl ⟨‹_›, (Option.some.inj ht1).symm⟩
    · exact .inr ht1
  have hkept : ∀ r1 t1, s.tasks r1 = some t1 → (s.addTask t).tasks r1 = some t1 := by
    intro r1 t1 ht1
    exact (if_neg (Nat.ne_of_lt (h.freshTask r1 t1 ht1))).trans ht1
  have hlookup : ∀ id', ((id, s.nextTask) :: s.transferTasks).lookup id' =
      if id' = id then some s.nextTask else s.findByTaskId id' := by
    intro id'
    rw [List.lookup_cons]
    by_cases heq : id' = id
    · rw [if_pos heq, beq_iff_eq.2 heq]
    · rw [if_neg heq, beq_eq_false_iff_ne.2 heq]
      rfl
  refine ⟨?_, h.freshConn, ?_, ?_, ?_, ?_, h.modetag, ?_, ?_, h.named, h.closing⟩
  · intro r1 t1 ht1
    rcases htasks r1 t1 ht1 with ⟨rfl, -⟩ | ht1
    · exact Nat.lt_succ_self _
    · exact Nat.lt_succ_of_lt (h.freshTask r1 t1 ht1)
  · intro r1 t1 ht1
    refine (hlookup t1.taskId).trans ?_
    rcases htasks r1 t1 ht1 with ⟨rfl, rfl⟩ | ht1
    · exact if_pos hid
    · have hm := h.managed r1 t1 ht1
      rw [if_neg, hm]
      rintro heq
      rw [heq, hfind] at hm
      cases hm
  · intro p hp
    rcases List.mem_cons.1 hp with rfl | hp
    · exact ⟨t, if_pos rfl, hid⟩
    · obtain ⟨t0, ht0, hid0⟩ := h.manages p hp
      exact ⟨t0, hkept p.2 t0 ht0, hid0⟩
  · intro d dconn r1 hd hdr
    obtain ⟨hopen, t0, k, ht0, hrest⟩ := h.forth d dconn r1 hd hdr
    exact ⟨hopen, t0, k, hkept r1 t0 ht0, hrest⟩
  · intro r1 t1 k d ht1 hk
    rcases htasks r1 t1 ht1 with ⟨-, rfl⟩ | ht1
    · rw [hconn k] at hk
      cases hk
    · exact h.back r1 t1 k d ht1 hk
  · intro r1 t1 ht1 hoff
    rcases htasks r1 t1 ht1 with ⟨-, rfl⟩ | ht1
    · exact hconn .mobile
    · exact h.online r1 t1 ht1 hoff
  · intro r1 t1 ht1
    rcases htasks r1 t1 ht1 with ⟨-, rfl⟩ | ht1
    · exact hdone
    · exact h.notDone r1 t1 ht1

/-- A new task keeps it. -/
theorem linked_newTransferTask {s : Server} (h : Linked s) (id : TaskId) (req : TransferReq) :
    Linked (s.newTransferTask id req).1 := by
  unfold Server.newTransferTask
  split
  · exact h
  · split
    · exact h
    · refine linked_addTask h rfl ‹_› (fun k => ?_) nofun
      cases k <;> rfl

/-- What is loaded from disk. -/
theorem loadFromDisk_named {st : Storage} (h : st.Named) {id : TaskId} {t : Task} (hload : Task.loadFromDisk st id = some t) :
    t.taskId = id ∧ (∀ k, t.conn k = none) ∧ t.state ≠ .transferDone := by
  unfold Task.loadFromDisk at hload
  split at hload
  · cases hload
  · rename_i fp hopen
    unfold Storage.openByRead at hopen
    split at hopen
    · obtain ⟨f, hf, rfl⟩ := Option.map_eq_some_iff.1 hopen
      obtain ⟨file, header, hfile, hheader, hid⟩ := h.paths id f hf
      split at hload
      · cases hload
      · rename_i header' hread
        have hread' : st.readHeader { file := f, pos := 0 } = some header := by simp only [Storage.readHeader, hfile, hheader]
        obtain rfl := Option.some.inj (hread'.symm.trans hread)
        split at hload
        · rw [← Option.some.inj hload]
          refine ⟨hid, fun k => ?_, nofun⟩
          cases k <;> rfl
        · cases hload
    · cases hopen

/-- The task that a login is about is one that there is, or it is read from the disk. -/
theorem loginTask_found {s : Server} {id : TaskId} {r : TaskRef} (h : s.findByTaskId id = some r) (role : ClientFileRole) :
    s.loginTask id role = s.tasks r := by
  rw [Server.loginTask, h]

/-- A login for a task that is not there loads it for an offline download only. -/
theorem loginTask_missing {s : Server} {id : TaskId} (h : s.findByTaskId id = none) (role : ClientFileRole) :
    s.loginTask id role =
      if role = .offlineDownload ∨ role = .offlineDownloadMobile then Task.loadFromDisk s.storage id else none := by
  rw [Server.loginTask, h]

/-- What a login finds or loads. -/
theorem linked_findOrLoad {s s' : Server} {id : TaskId} {role : ClientFileRole} {r : TaskRef} (h : Linked s)
    (hfind : s.findOrLoad id role = some (s', r)) : Linked s' ∧ s'.conns = s.conns ∧ s.loginTask id role = s'.tasks r ∧
      (∀ r1 t1, s.tasks r1 = some t1 → s'.tasks r1 = some t1) ∧ ∀ c conn r1, s.conns c = some conn → conn.transferTask = some r1 →
        s'.tasks r1 = s.tasks r1 := by
  unfold Server.findOrLoad at hfind
  split at hfind
  · rename_i r' hr'
    obtain ⟨rfl, rfl⟩ := Prod.mk.inj (Option.some.inj hfind)
    exact ⟨h, rfl, loginTask_found hr' role, fun _ _ h => h, fun _ _ _ _ _ => rfl⟩
  · rename_i hnone
    split at hfind
    · rename_i hrole
      unfold Server.newTransferTaskFromDisk at hfind
      split at hfind
      · cases hfind
      · rename_i t hload
        obtain ⟨rfl, rfl⟩ := Prod.mk.inj (Option.some.inj hfind)
        obtain ⟨hid, hconn, hdone⟩ := loadFromDisk_named h.named hload
        have htasks : ∀ r1, ((s.addTask t).insertTask id s.nextTask).tasks r1 = if r1 = s.nextTask then some t else s.tasks r1 := by
          intro r1
          unfold Server.insertTask
          split <;> rfl
        have hkept : ∀ r1 t1, s.tasks r1 = some t1 → ((s.addTask t).insertTask id s.nextTask).tasks r1 = some t1 :=
          fun r1 t1 ht1 => (htasks r1).trans ((if_neg (Nat.ne_of_lt (h.freshTask r1 t1 ht1))).trans ht1)
        refine ⟨linked_addTask h hid hnone hconn hdone, ?_, ?_, hkept, ?_⟩
        · unfold Server.insertTask
          split <;> rfl
        · rw [loginTask_missing hnone, if_pos hrole, hload, htasks, if_pos rfl]
        · intro c conn r1 hc hr1
          obtain ⟨-, t0, -, ht0, -⟩ := h.forth c conn r1 hc hr1
          rw [ht0]
          exact hkept r1 t0 ht0
    · cases hfind

/-! ## Logins -/

/-- The connection after a login. -/
def joined (conn : FileClientConn) (r : TaskRef) (userId : Nat) (mobile : Bool) : FileClientConn :=
  { conn with modetag := conn.modetag || mobile, auth := true, transferTask := some r, userId }

/-- The server after a login took the place `k` of the task `r`, whose new value is `t`. -/
def joinedServer (s : Server) (c : ConnId) (conn : FileClientConn) (r : TaskRef) (t : Task) (k : Slot) (userId : Nat)
    (mobile : Bool) : Server :=
  (s.setTask r (some (t.setConn k (some c)))).setConn c (some (joined conn r userId mobile))

/-- An open connection whose login a task accepts: its place is free, or its own already, and a mobile client has the mobile
one. -/
structure Joins (s : Server) (c : ConnId) (conn : FileClientConn) (r : TaskRef) (t t' : Task) (k : Slot) (userId : Nat)
    (mobile : Bool) : Prop where
  conn_eq : s.conns c = some conn
  task_eq : s.tasks r = some t
  relinks : t.Relinks t'
  isOpen : conn.isOpen = true
  slot : t.slotOf userId mobile = some k
  ofMobile : mobile = true → k = .mobile
  toMobile : k = .mobile → mobile = true ∧ t.offline = true
  free : (t.conn k = none ∧ conn.transferTask = none) ∨ t.conn k = some c

section Join

variable {s : Server} {c : ConnId} {conn : FileClientConn} {r : TaskRef} {t t' : Task} {k : Slot} {userId : Nat} {mobile : Bool}

/-- A connection that has been a mobile one logs in as such. -/
theorem Joins.mode (h : Linked s) (hj : Joins s c conn r t t' k userId mobile) : (conn.modetag || mobile) = mobile := by
  cases hm : conn.modetag with
  | false => rfl
  | true =>
    rcases hj.free with ⟨-, hnone⟩ | hk
    · exact absurd hnone (h.modetag c conn hj.conn_eq hj.isOpen hm)
    · obtain ⟨conn', hc', hr', hslot'⟩ := h.back r t k c hj.task_eq hk
      obtain rfl := Option.some.inj (hj.conn_eq.symm.trans hc')
      obtain ⟨-, t0, k0, ht0, hslot0, -, hk0⟩ := h.forth c conn r hj.conn_eq hr'
      obtain rfl := Option.some.inj (hj.task_eq.symm.trans ht0)
      obtain rfl := Option.some.inj (hslot0.symm.trans hslot')
      exact (hj.toMobile (hk0 hm)).1.symm ▸ rfl

/-- It has no other place. -/
theorem Joins.only (h : Linked s) (hj : Joins s c conn r t t' k userId mobile) {r1 : TaskRef} {t1 : Task} {k1 : Slot}
    (ht1 : s.tasks r1 = some t1) (hk1 : t1.conn k1 = some c) : r1 = r ∧ k1 = k := by
  obtain ⟨conn', hc', hr', hslot'⟩ := h.back r1 t1 k1 c ht1 hk1
  obtain rfl := Option.some.inj (hj.conn_eq.symm.trans hc')
  rcases hj.free with ⟨-, hnone⟩ | hk
  · rw [hnone] at hr'
    cases hr'
  · obtain ⟨conn', hc', hr0, hslot0⟩ := h.back r t k c hj.task_eq hk
    obtain rfl := Option.some.inj (hj.conn_eq.symm.trans hc')
    obtain rfl := Option.some.inj (hr'.symm.trans hr0)
    obtain rfl := Option.some.inj (hj.task_eq.symm.trans ht1)
    exact ⟨rfl, Option.some.inj (hslot'.symm.trans hslot0)⟩

/-- And nobody else has this one. -/
theorem Joins.place (hj : Joins s c conn r t t' k userId mobile) {d : ConnId} (hne : d ≠ c) : t.conn k ≠ some d := by
  intro hd
  rcases hj.free with ⟨hnone, -⟩ | hk
  · rw [hnone] at hd
    cases hd
  · exact hne (Option.some.inj (hd.symm.trans hk))

/-- The connections after the login. -/
theorem conns_joinedServer {d : ConnId} {dconn : FileClientConn}
    (hd : (joinedServer s c conn r t' k userId mobile).conns d = some dconn) :
    (d = c ∧ dconn = joined conn r userId mobile) ∨ (d ≠ c ∧ s.conns d = some dconn) := by
  simp only [joinedServer, Server.setConn] at hd
  split at hd
  · exact .inl ⟨‹_›, (Option.some.inj hd).symm⟩
  · exact .inr ⟨‹_›, hd⟩

/-- And the tasks. -/
theorem tasks_joinedServer {r1 : TaskRef} {t1 : Task} (ht1 : (joinedServer s c conn r t' k userId mobile).tasks r1 = some t1) :
    (r1 = r ∧ t1 = t'.setConn k (some c)) ∨ (r1 ≠ r ∧ s.tasks r1 = some t1) := by
  simp only [joinedServer, Server.setConn, Server.setTask] at ht1
  split at ht1
  · exact .inl ⟨‹_›, (Option.some.inj ht1).symm⟩
  · exact .inr ⟨‹_›, ht1⟩

/-- Every connection with a task still has its place there. -/
theorem Joins.forth (h : Linked s) (hj : Joins s c conn r t t' k userId mobile) (d : ConnId) (dconn : FileClientConn)
    (r1 : TaskRef) (hd : (joinedServer s c conn r t' k userId mobile).conns d = some dconn) (hdr : dconn.transferTask = some r1) :
    dconn.isOpen = true ∧ ∃ t1 k1, (joinedServer s c conn r t' k userId mobile).tasks r1 = some t1 ∧
      t1.slotOf dconn.userId dconn.modetag = some k1 ∧ t1.conn k1 = some d ∧ (dconn.modetag = true → k1 = .mobile) := by
  rcases conns_joinedServer hd with ⟨rfl, rfl⟩ | ⟨hne, hd⟩
  · obtain rfl := Option.some.inj hdr
    refine ⟨hj.isOpen, _, k, if_pos rfl, ?_, ?_, ?_⟩
    · rw [joined, hj.mode h, Task.slotOf_setConn, hj.relinks.slotOf, hj.slot]
    · rw [Task.conn_setConn, if_pos rfl]
    · rw [joined, hj.mode h]
      exact hj.ofMobile
  · obtain ⟨hopen, t0, k1, ht0, hslot0, hk1, hm0⟩ := h.forth d dconn r1 hd hdr
    refine ⟨hopen, ?_⟩
    by_cases heq : r1 = r
    · subst heq
      obtain rfl := Option.some.inj (hj.task_eq.symm.trans ht0)
      refine ⟨_, k1, if_pos rfl, ?_, ?_, hm0⟩
      · rw [Task.slotOf_setConn, hj.relinks.slotOf, hslot0]
      · rw [Task.conn_setConn, if_neg, hj.relinks.conn, hk1]
        rintro rfl
        exact hj.place hne hk1
    · exact ⟨t0, k1, (if_neg heq).trans ht0, hslot0, hk1, hm0⟩

/-- And every place of a task is that of a connection with the task. -/
theorem Joins.back (h : Linked s) (hj : Joins s c conn r t t' k userId mobile) (r1 : TaskRef) (t1 : Task) (k1 : Slot)
    (d : ConnId) (ht1 : (joinedServer s c conn r t' k userId mobile).tasks r1 = some t1) (hk1 : t1.conn k1 = some d) :
    ∃ dconn, (joinedServer s c conn r t' k userId mobile).conns d = some dconn ∧ dconn.transferTask = some r1 ∧
      t1.slotOf dconn.userId dconn.modetag = some k1 := by
  rcases tasks_joinedServer ht1 with ⟨rfl, rfl⟩ | ⟨hne, hs1⟩
  · rw [Task.conn_setConn] at hk1
    split at hk1
    · rename_i heq
      obtain rfl := Option.some.inj hk1
      refine ⟨_, if_pos rfl, rfl, ?_⟩
      rw [joined, hj.mode h, Task.slotOf_setConn, hj.relinks.slotOf, hj.slot, heq]
    · rename_i hne
      rw [hj.relinks.conn] at hk1
      have hdc : d ≠ c := by
        rintro rfl
        exact hne (hj.only h hj.task_eq hk1).2
      obtain ⟨dconn, hd, hdr, hslot0⟩ := h.back r1 t k1 d hj.task_eq hk1
      refine ⟨dconn, (if_neg hdc).trans hd, hdr, ?_⟩
      rw [Task.slotOf_setConn, hj.relinks.slotOf, hslot0]
  · have hdc : d ≠ c := by
      rintro rfl
      exact hne (hj.only h hs1 hk1).1
    obtain ⟨dconn, hd, hdr, hslot0⟩ := h.back r1 t1 k1 d hs1 hk1
    exact ⟨dconn, (if_neg hdc).trans hd, hdr, hslot0⟩

/-- The mobile place of a task that is not offline stays empty. -/
theorem Joins.online (h : Linked s) (hj : Joins s c conn r t t' k userId mobile) (r1 : TaskRef) (t1 : Task)
    (ht1 : (joinedServer s c conn r t' k userId mobile).tasks r1 = some t1) (hoff : t1.offline = false) :
    t1.toConnMobile = none := by
  rcases tasks_joinedServer ht1 with ⟨rfl, rfl⟩ | ⟨-, ht1⟩
  · rw [Task.offline_setConn, hj.relinks.offline] at hoff
    have hk : k ≠ .mobile := by
      rintro rfl
      rw [(hj.toMobile rfl).2] at hoff
      cases hoff
    change (t'.setConn k (some c)).conn .mobile = none
    rw [Task.conn_setConn, if_neg hk.symm, hj.relinks.conn]
    exact h.online r1 t hj.task_eq hoff
  · exact h.online r1 t1 ht1 hoff

/-- A login that takes a place puts both links. -/
theorem linked_join (h : Linked s) (hj : Joins s c conn r t t' k userId mobile) :
    Linked (joinedServer s c conn r t' k userId mobile) := by
  refine ⟨?_, ?_, ?_, ?_, hj.forth h, hj.back h, ?_, hj.online h, ?_, h.named, ?_⟩
  · intro r1 t1 ht1
    rcases tasks_joinedServer ht1 with ⟨rfl, -⟩ | ⟨-, ht1⟩
    · exact h.freshTask r1 t hj.task_eq
    · exact h.freshTask r1 t1 ht1
  · intro d dconn hd
    rcases conns_joinedServer hd with ⟨rfl, -⟩ | ⟨-, hd⟩
    · exact h.freshConn d conn hj.conn_eq
    · exact h.freshConn d dconn hd
  · intro r1 t1 ht1
    rcases tasks_joinedServer ht1 with ⟨rfl, rfl⟩ | ⟨-, ht1⟩
    · rw [Task.taskId_setConn, hj.relinks.taskId]
      exact h.managed r1 t hj.task_eq
    · exact h.managed r1 t1 ht1
  · intro p hp
    obtain ⟨t0, ht0, hid⟩ := h.manages p hp
    by_cases heq : p.2 = r
    · rw [heq] at ht0
      obtain rfl := Option.some.inj (hj.task_eq.symm.trans ht0)
      exact ⟨_, if_pos heq, (Task.taskId_setConn _ _ _).trans (hj.relinks.taskId.trans hid)⟩
    · exact ⟨t0, (if_neg heq).trans ht0, hid⟩
  · intro d dconn hd hopen' hm
    rcases conns_joinedServer hd with ⟨-, rfl⟩ | ⟨-, hd⟩
    · exact fun h => by cases h
    · exact h.modetag d dconn hd hopen' hm
  · intro r1 t1 ht1
    rcases tasks_joinedServer ht1 with ⟨rfl, rfl⟩ | ⟨-, ht1⟩
    · rw [Task.state_setConn]
      exact hj.relinks.notDone (h.notDone r1 t hj.task_eq)
    · exact h.notDone r1 t1 ht1
  · intro d dconn hclosing hd
    rcases conns_joinedServer hd with ⟨rfl, -⟩ | ⟨-, hd⟩
    · have hclosed := h.closing d conn hclosing hj.conn_eq
      rw [hj.isOpen] at hclosed
      cases hclosed
    · exact h.closing d dconn hclosing hd

/-- A sender that finds no receiver is alone with its task, and may close. -/
theorem closeMeets_join (h : Linked s) (hj : Joins s c conn r t t' k userId mobile) (hoff : t.offline = false)
    (hto : (t'.setConn k (some c)).toConn = none) : CloseMeets (joinedServer s c conn r t' k userId mobile) c := by
  intro conn' r' t1 hc' hr' ht1
  have hcj : some (joined conn r userId mobile) = some conn' := (if_pos rfl).symm.trans hc'
  rw [← Option.some.inj hcj] at hr'
  obtain rfl : r = r' := Option.some.inj hr'
  have htj : some (t'.setConn k (some c)) = some t1 := (if_pos rfl).symm.trans ht1
  refine .inl fun d dconn hne hd hdr => ?_
  exfalso
  obtain ⟨-, t0, k1, ht0, -, hk1, -⟩ := hj.forth h d dconn r hd hdr
  obtain rfl := Option.some.inj (htj.trans (ht1.symm.trans ht0))
  have hsender : k ≠ .receiver := by
    rintro rfl
    have : (t'.setConn .receiver (some c)).conn .receiver = none := hto
    rw [Task.conn_setConn, if_pos rfl] at this
    cases this
  have hnotmobile : k ≠ .mobile := by
    rintro rfl
    rw [(hj.toMobile rfl).2] at hoff
    cases hoff
  cases k1 with
  | sender =>
    cases k with
    | sender =>
      rw [Task.conn_setConn, if_pos rfl] at hk1
      exact hne (Option.some.inj hk1).symm
    | receiver => exact hsender rfl
    | mobile => exact hnotmobile rfl
  | receiver => exact absurd (hto.symm.trans hk1) nofun
  | mobile =>
    rw [Task.conn_setConn, if_neg hnotmobile.symm, hj.relinks.conn] at hk1
    exact absurd ((h.online r t hj.task_eq hoff).symm.trans hk1) nofun

/-- What follows the answer keeps the links. -/
theorem linked_afterLogin {s' : Server} {id : TaskId} {out : List Effect} (h : Linked s)
    (hj : Joins s c conn r t t' k userId mobile)
    (hafter : (joinedServer s c conn r t' k userId mobile).afterLogin c id userId (t'.setConn k (some c)) = some (s', out)) :
    Linked s' := by
  have hjoin := linked_join h hj
  unfold Server.afterLogin at hafter
  split at hafter
  · split at hafter
    · split at hafter
      · cases hafter
      · obtain ⟨rfl, -⟩ := Prod.mk.inj (Option.some.inj hafter)
        exact hjoin
    · obtain ⟨rfl, -⟩ := Prod.mk.inj (Option.some.inj hafter)
      exact hjoin
  · rename_i hoff
    rw [Task.offline_setConn, hj.relinks.offline, Bool.not_eq_true] at hoff
    split at hafter
    · split at hafter
      · exact linked_closeSelf hjoin (closeMeets_join h hj hoff ‹_›) hafter
      · split at hafter
        · cases hafter
        · obtain ⟨rfl, -⟩ := Prod.mk.inj (Option.some.inj hafter)
          exact hjoin
    · obtain ⟨rfl, -⟩ := Prod.mk.inj (Option.some.inj hafter)
      exact hjoin

end Join

/-- Where nothing is found, nothing is there and nothing loads. -/
theorem loginTask_of_findOrLoad {s : Server} {id : TaskId} {role : ClientFileRole} (h : s.findOrLoad id role = none) :
    s.loginTask id role = none := by
  unfold Server.findOrLoad at h
  split at h
  · cases h
  · rename_i hnone
    rw [loginTask_missing hnone]
    split at h
    · rename_i hrole
      rw [if_pos hrole]
      unfold Server.newTransferTaskFromDisk at h
      split at h
      · assumption
      · cases h
    · rename_i hrole
      rw [if_neg hrole]

/-- A task accepts a login exactly when it checks its user and role. -/
theorem changePullState_snd (t : Task) (userId : Nat) (role : ClientFileRole) :
    (t.changePullState userId role).2 = true ↔ t.checkByUserIdAndFileRole userId role = true := by
  unfold Task.changePullState
  split
  · simp [*]
  · simp [*]

/-- And is otherwise as it was. -/
theorem changePullState_refused {t : Task} {userId : Nat} {role : ClientFileRole}
    (h : t.checkByUserIdAndFileRole userId role = false) : (t.changePullState userId role).1 = t := by
  unfold Task.changePullState
  rw [if_neg (by rw [h]; exact Bool.false_ne_true)]

/-- A login keeps the links. -/
theorem linked_login {s s' : Server} {c : ConnId} {conn : FileClientConn} {seqNum userId : Nat} {id : TaskId}
    {role : ClientFileRole} {out : List Effect} (h : Linked s) (hc : s.conns c = some conn)
    (hmeets : LoginMeets s c userId id role)
    (hlogin : s.handleClientFileLoginReq c conn seqNum userId id role = some (s', out)) : Linked s' := by
  unfold Server.handleClientFileLoginReq at hlogin
  split at hlogin
  · rename_i hfind
    refine linked_refuseLogin h (hmeets.refused ?_) hlogin
    intro t ht
    rw [loginTask_of_findOrLoad hfind] at ht
    cases ht
  · rename_i s1 r hfind
    obtain ⟨h1, hconns, hlog, hkept, hsame⟩ := linked_findOrLoad h hfind
    split at hlogin
    · cases hlogin
    · rename_i t ht
      have hre := relinks_changePullState t userId role
      rw [← hlog] at ht
      have ht1 : s1.tasks r = some t := hlog ▸ ht
      dsimp only at hlogin
      split at hlogin
      · rename_i hrv
        have hcheck := (changePullState_snd t userId role).1 hrv
        obtain ⟨k, hslot, hmob, hmob'⟩ := Task.slotOf_of_check hcheck
        obtain ⟨hopen, hfree⟩ := hmeets.accepted conn t k hc ht hcheck hslot
        have hset : (t.changePullState userId role).1.setConnByUserId userId (some c) (role == .offlineDownloadMobile) =
            (t.changePullState userId role).1.setConn k (some c) := by
          rw [Task.setConnByUserId_eq, hre.slotOf, hslot]
        rw [hset] at hlogin
        have hj : Joins s1 c conn r t (t.changePullState userId role).1 k userId (role == .offlineDownloadMobile) :=
          ⟨hconns ▸ hc, ht1, hre, hopen, hslot, fun hm => hmob (by simpa using hm),
            fun hk => ⟨by simpa using (hmob' hk).1, (hmob' hk).2⟩, hfree⟩
        split at hlogin
        · cases hlogin
        · split at hlogin
          · cases hlogin
          · rename_i s2 out2 h2
            obtain ⟨rfl, -⟩ := Prod.mk.inj (Option.some.inj hlogin)
            exact linked_afterLogin h1 hj h2
      · rename_i hrv
        have hcheck : t.checkByUserIdAndFileRole userId role = false := by
          rw [← Bool.not_eq_true]
          exact fun hcheck => hrv ((changePullState_snd t userId role).2 hcheck)
        have hclose := hmeets.refused fun t' ht' => by
          obtain rfl := Option.some.inj (ht.symm.trans ht')
          exact hcheck
        refine linked_refuseLogin (linked_setTask h1 ht1 hre h1.named) ?_ hlogin
        intro conn' r' t' hc' hr' ht'
        have hc0 : s.conns c = some conn' := hconns ▸ hc'
        rw [changePullState_refused hcheck] at ht'
        have hts : s1.tasks r' = some t' := by
          simp only [Server.setTask] at ht'
          split at ht'
          · rename_i heq
            rw [heq, ← ht', ht1]
          · exact ht'
        rcases hclose conn' r' t' hc0 hr' ((hsame c conn' r' hc0 hr').symm.trans hts) with hothers | hdel
        · exact .inl fun d dconn hne hd => hothers d dconn hne (hconns ▸ hd)
        · exact .inr hdel

/-! ## The other handlers -/

/-- A report of a state keeps them. -/
theorem linked_handleClientFileStates {s s' : Server} {c : ConnId} {conn : FileClientConn} {seqNum state ttype : Nat}
    {id : TaskId} {userId : Nat} {out : List Effect} (h : Linked s) (hmeets : CloseMeets s c)
    (hstates : s.handleClientFileStates c conn seqNum state ttype id userId = some (s', out)) : Linked s' := by
  unfold Server.handleClientFileStates at hstates
  split at hstates
  · obtain ⟨rfl, -⟩ := Prod.mk.inj (Option.some.inj hstates)
    exact h
  · split at hstates
    · obtain ⟨rfl, -⟩ := Prod.mk.inj (Option.some.inj hstates)
      exact h
    · split at hstates
      · cases hstates
      · dsimp only at hstates
        split at hstates
        · cases hstates
        · split at hstates
          · cases hstates
          · rename_i h1
            obtain ⟨rfl, -⟩ := Prod.mk.inj (Option.some.inj hstates)
            exact linked_closeSelf h hmeets h1

/-- A task that moves on, the files being as they were. -/
theorem linked_setTask' {s : Server} {r : TaskRef} {t : Task} (t' : Task) (h : Linked s) (ht : s.tasks r = some t)
    (hre : t.Relinks t') : Linked (s.setTask r (some t')) := linked_setTask h ht hre h.named

/-- A pull keeps them. -/
theorem linked_pull {s s' : Server} {c : ConnId} {conn : FileClientConn} {seqNum : Nat} {id : TaskId} {userId : Nat}
    {mode : TransferFileType} {offset dataSize : Nat} {out : List Effect} (h : Linked s)
    (hmeets : conn.auth = true → conn.transferTask ≠ none)
    (hpull : s.handleClientFilePullFileReq c conn seqNum id userId mode offset dataSize = some (s', out)) : Linked s' := by
  unfold Server.handleClientFilePullFileReq at hpull
  split at hpull
  · obtain ⟨rfl, -⟩ := Prod.mk.inj (Option.some.inj hpull)
    exact h
  · rename_i hauth
    rw [Bool.not_eq_true, Bool.not_eq_false'] at hauth
    obtain ⟨r, hr⟩ := Option.ne_none_iff_exists'.1 (hmeets hauth)
    simp only [Server.taskForPull, hr] at hpull
    split at hpull
    · cases hpull
    · rename_i t ht
      split at hpull
      · obtain ⟨rfl, -⟩ := Prod.mk.inj (Option.some.inj hpull)
        exact h
      · split at hpull
        · cases hpull
        · rename_i p hp
          have h1 := linked_setTask' _ h ht (relinks_doPullFileRequest hp)
          split at hpull
          · cases hpull
          · rename_i s2 out2 h2
            obtain ⟨rfl, -⟩ := Prod.mk.inj (Option.some.inj hpull)
            unfold Server.answerPull at h2
            split at h2
            · obtain ⟨rfl, -⟩ := Prod.mk.inj (Option.some.inj h2)
              exact h1
            · split at h2
              · split at h2
                · cases h2
                · split at h2
                  · split at h2
                    · cases h2
                    · obtain ⟨rfl, -⟩ := Prod.mk.inj (Option.some.inj h2)
                      exact h1
                  · obtain ⟨rfl, -⟩ := Prod.mk.inj (Option.some.inj h2)
                    exact h1
              · have h3 := linked_setTask' (r := r) { p.task with macSeqNum := seqNum } h1 (if_pos rfl)
                  ⟨rfl, rfl, fun k => by cases k <;> rfl, fun _ _ => rfl, fun hne => hne⟩
                dsimp only at h2
                split at h2
                · obtain ⟨rfl, -⟩ := Prod.mk.inj (Option.some.inj h2)
                  exact h3
                · split at h2
                  · cases h2
                  · obtain ⟨rfl, -⟩ := Prod.mk.inj (Option.some.inj h2)
                    exact h3

/-- And a block received. -/
theorem linked_recv {md5 : Bytes → String} {s s' : Server} {c : ConnId} {conn : FileClientConn} {resultCode : Nat} {id : TaskId}
    {userId offset : Nat} {data : Bytes} {out : List Effect} (h : Linked s)
    (hrecv : s.handleClientFilePullFileRsp md5 c conn resultCode id userId offset data = some (s', out)) : Linked s' := by
  unfold Server.handleClientFilePullFileRsp at hrecv
  split at hrecv
  · obtain ⟨rfl, -⟩ := Prod.mk.inj (Option.some.inj hrecv)
    exact h
  · split at hrecv
    · obtain ⟨rfl, -⟩ := Prod.mk.inj (Option.some.inj hrecv)
      exact h
    · split at hrecv
      · cases hrecv
      · rename_i t ht
        split at hrecv
        · obtain ⟨rfl, -⟩ := Prod.mk.inj (Option.some.inj hrecv)
          exact h
        · split at hrecv
          · cases hrecv
          · rename_i d hd
            obtain ⟨hst, hre⟩ := named_doRecvData h.named hd
            have h1 := linked_setTask h ht hre hst
            split at hrecv
            · cases hrecv
            · rename_i s2 out2 h2
              obtain ⟨rfl, -⟩ := Prod.mk.inj (Option.some.inj hrecv)
              unfold Server.answerData at h2
              split at h2
              · obtain ⟨rfl, -⟩ := Prod.mk.inj (Option.some.inj h2)
                exact h1
              · split at h2
                · split at h2
                  · cases h2
                  · obtain ⟨rfl, -⟩ := Prod.mk.inj (Option.some.inj h2)
                    exact h1
                · split at h2
                  · obtain ⟨rfl, -⟩ := Prod.mk.inj (Option.some.inj h2)
                    exact h1
                  · split at h2
                    · cases h2
                    · obtain ⟨rfl, -⟩ := Prod.mk.inj (Option.some.inj h2)
                      exact h1

/-- No task is ever done, so the timer deletes none. -/
theorem onTimer_eq {s : Server} (h : Linked s) (expired : TaskId → Bool) : s.onTimer expired = some s := by
  have hturn : ∀ p ∈ s.transferTasks, Server.onTimerTask expired s p = some s := by
    intro p hp
    obtain ⟨t, ht, -⟩ := h.manages p hp
    simp only [Server.onTimerTask, ht]
    exact if_neg fun hcond => h.notDone p.2 t ht hcond.1
  unfold Server.onTimer
  generalize s.transferTasks = ps at hturn
  induction ps with
  | nil => rfl
  | cons p ps ih =>
    rw [List.foldlM_cons, hturn p List.mem_cons_self]
    exact ih fun q hq => hturn q (List.mem_cons_of_mem p hq)

/-! ## The events -/

/-- A server that has no tasks and no connections yet. -/
theorem linked_start {st : Storage} (hst : st.Named) (nextConn : ConnId) (nextTask : TaskRef) (uuids : List TaskId) :
    Linked (Server.start st nextConn nextTask uuids) := by
  have htask : ∀ {r t}, (Server.start st nextConn nextTask uuids).tasks r = some t → False :=
    fun h => Option.some_ne_none _ h.symm
  have hconn : ∀ {c conn}, (Server.start st nextConn nextTask uuids).conns c = some conn → False :=
    fun h => Option.some_ne_none _ h.symm
  exact ⟨fun _ _ h => (htask h).elim, fun _ _ h => (hconn h).elim, fun _ _ h => (htask h).elim,
    fun _ h => absurd h List.not_mem_nil, fun _ _ _ h => (hconn h).elim, fun _ _ _ _ h => (htask h).elim,
    fun _ _ h => (hconn h).elim, fun _ _ h => (htask h).elim, fun _ _ h => (htask h).elim, hst, fun _ _ _ h => (hconn h).elim⟩

/-- There are no links at the start. -/
theorem linked_init : Linked Server.init :=
  linked_start ⟨fun _ _ h => absurd h.symm (Option.some_ne_none _), fun _ _ h => absurd h.symm (Option.some_ne_none _)⟩ 0 0 []

/-- A new connection has none. -/
theorem linked_accept {s : Server} (h : Linked s) (hclosing : s.closing = none) :
    Linked ({ s with nextConn := s.nextConn + 1 }.setConn s.nextConn
      (some { isOpen := true, auth := false, modetag := false, userId := 0, transferTask := none })) := by
  have hconns : ∀ d dconn, ({ s with nextConn := s.nextConn + 1 }.setConn s.nextConn
      (some { isOpen := true, auth := false, modetag := false, userId := 0, transferTask := none })).conns d = some dconn →
      (d = s.nextConn ∧ dconn.transferTask = none ∧ dconn.modetag = false) ∨ s.conns d = some dconn := by
    intro d dconn hd
    simp only [Server.setConn] at hd
    split at hd
    · refine .inl ⟨‹_›, ?_⟩
      rw [← Option.some.inj hd]
      exact ⟨rfl, rfl⟩
    · exact .inr hd
  refine ⟨h.freshTask, ?_, h.managed, h.manages, ?_, ?_, ?_, h.online, h.notDone, h.named, ?_⟩
  · intro d dconn hd
    rcases hconns d dconn hd with ⟨rfl, -⟩ | hd
    · exact Nat.lt_succ_self _
    · exact Nat.lt_succ_of_lt (h.freshConn d dconn hd)
  · intro d dconn r hd hr
    rcases hconns d dconn hd with ⟨-, hnone, -⟩ | hd
    · rw [hnone] at hr
      cases hr
    · exact h.forth d dconn r hd hr
  · intro r t k d ht hk
    obtain ⟨dconn, hd, hrest⟩ := h.back r t k d ht hk
    exact ⟨dconn, (if_neg (Nat.ne_of_lt (h.freshConn d dconn hd))).trans hd, hrest⟩
  · intro d dconn hd hopen hmode
    rcases hconns d dconn hd with ⟨-, -, hfalse⟩ | hd
    · rw [hfalse] at hmode
      cases hmode
    · exact h.modetag d dconn hd hopen hmode
  · intro d dconn hd
    exact absurd (hclosing.symm.trans hd) (fun h => by cases h)

/-- And each step keeps them. -/
theorem linked_step {md5 : Bytes → String} {s s' : Server} {e : Event} {out : List Effect} (h : Linked s)
    (hmeets : LinksMeet s e) (hstep : step md5 s e = some (s', out)) : Linked s' := by
  cases e with
  | accept =>
    simp only [step] at hstep
    split at hstep
    · obtain ⟨rfl, -⟩ := Prod.mk.inj (Option.some.inj hstep)
      exact linked_accept h ‹_›
    · cases hstep
  | pdu c seqNum pdu =>
    simp only [step] at hstep
    split at hstep
    · cases hstep
    · rename_i conn hc
      split at hstep
      · cases pdu with
        | heartBeat =>
          simp only [Server.handlePdu] at hstep
          split at hstep
          · cases hstep
          · obtain ⟨rfl, -⟩ := Prod.mk.inj (Option.some.inj hstep)
            exact h
        | login userId id role => exact linked_login h hc hmeets hstep
        | fileState state ttype id userId => exact linked_handleClientFileStates h hmeets hstep
        | pullDataReq id userId mode offset dataSize => exact linked_pull h (hmeets conn hc) hstep
        | pullDataRsp resultCode id userId offset data => exact linked_recv h hstep
      · cases hstep
  | batchEnd =>
    simp only [step] at hstep
    split at hstep
    · cases hstep
    · rename_i c hclosing
      obtain ⟨rfl, -⟩ := Prod.mk.inj (Option.some.inj hstep)
      have h1 : Linked { s with closing := none } :=
        ⟨h.freshTask, h.freshConn, h.managed, h.manages, h.forth, h.back, h.modetag, h.online, h.notDone, h.named, nofun⟩
      exact linked_free h1 fun conn hc => h.closing c conn hclosing hc
  | close c =>
    simp only [step] at hstep
    split at hstep
    · split at hstep
      · cases hstep
      · rename_i s1 out1 h1
        obtain ⟨rfl, -⟩ := Prod.mk.inj (Option.some.inj hstep)
        obtain ⟨h2, conn, hc, hclosed⟩ := linked_close h hmeets h1
        refine linked_free h2 fun conn' hc' => ?_
        obtain rfl := Option.some.inj (hc.symm.trans hc')
        exact hclosed
    · cases hstep
  | transferReq id req =>
    simp only [step] at hstep
    split at hstep
    · obtain ⟨rfl, -⟩ := Prod.mk.inj (Option.some.inj hstep)
      have h1 := linked_newTransferTask h id req
      exact ⟨h1.freshTask, h1.freshConn, h1.managed, h1.manages, h1.forth, h1.back, h1.modetag, h1.online, h1.notDone, h1.named,
        h1.closing⟩
    · cases hstep
  | timer expired =>
    simp only [step] at hstep
    split at hstep
    · rw [onTimer_eq h] at hstep
      obtain ⟨rfl, -⟩ := Prod.mk.inj (Option.some.inj hstep)
      exact h
    · cases hstep
  | restart =>
    simp only [step] at hstep
    obtain ⟨rfl, -⟩ := Prod.mk.inj (Option.some.inj hstep)
    exact linked_start h.named _ _ _

/-! ## Two clients that leave -/

/-- Sender and receiver of an online task; the receiver leaves, and then the sender. -/
def leaving : List Event :=
  [.accept, .accept, .transferReq "ab" ⟨1, 2, "f", 1, .online, ""⟩, .pdu 0 0 (.login 1 "ab" .realtimeSender),
    .pdu 1 0 (.login 2 "ab" .realtimeRecver), .close 1, .close 0]

/-- The task still has the sender's connection, which is gone. -/
theorem leaving_dangles : (Machine.steps (step fun _ => "") Server.init leaving).any fun (s, _) =>
    (s.tasks 0).any (fun t => t.conn .sender = some 0) ∧ s.conns 0 = none := by
  decide

end LinksRunAux

open LinksRunAux

end TeamTalk.FileServer
