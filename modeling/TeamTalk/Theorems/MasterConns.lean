import TeamTalk.MsgServer.MasterConns
import TeamTalk.Theorems.ServInfo

/-!
# The connection in use

The route class chooses its connection again when the chosen one is closed, and so always uses the oldest one that is open. The push
class forgets its connection whenever any connection is closed.
-/

namespace TeamTalk.MasterConns

open ServInfo

/-! ## The properties -/

/-- The connection is in a slot of the list. -/
def Listed (conns : ServInfo.State) (c : Nat) : Prop := ∃ slot ∈ conns.serverList, slot.servConn = some c

/-- The connection is not freed. -/
def Alive (conns : ServInfo.State) (c : Nat) : Prop := ∃ conn, conns.conns c = some conn ∧ conn.alive = true

/-- There is no master exactly when no connection of the list is open; a master is an open one with the least connect time. -/
def OldestIsMaster (s : State) : Prop :=
  (s.master.current = none ↔ ∀ c, Listed s.conns c → isOpen s.conns c = false) ∧
    ∀ c, s.master.current = some c → Listed s.conns c ∧ isOpen s.conns c = true ∧ Alive s.conns c ∧
      ∀ c', Listed s.conns c' → isOpen s.conns c' = true → s.master.connectTime c ≤ s.master.connectTime c'

/-- The tick count does not go back. -/
def Forward (s : State) (e : Event) : Prop := ∀ tick, e.tick? = some tick → s.now ≤ tick

/-- `get_push_serv_conn` gives nothing only when no connection is open, and else an open one that is not freed. -/
def UsedWheneverOpen (s : State) : Prop :=
  (s.getPushServConn = none → ∀ c, isOpen s.conns c = false) ∧
    ∀ c, s.getPushServConn = some c → isOpen s.conns c = true ∧ Alive s.conns c

/-- The connection is open, and nothing has come from it for too long. -/
def Expired (conns : ServInfo.State) (tick c : Nat) : Prop :=
  ∃ conn, conns.conns c = some conn ∧ conn.isOpen = true ∧ tick > conn.lastRecvTick + serverTimeout

/-- The condition on a step of the push class: no connection is open besides one that is closed, and the open ones expire together. -/
def PushMeets (s : State) : Event → Prop
  | .close handle => ∀ c conn, s.conns.find handle = some (c, conn) → ∀ c', isOpen s.conns c' = true → c' = c
  | .timer tick _ _ => (∃ c, Expired s.conns tick c) → ∀ c, isOpen s.conns c = true → Expired s.conns tick c
  | _ => True

namespace MasterConnsAux

open ServInfoAux

variable {b b' : ServInfo.State} {s s' : State} {cls : ConnClass} {i c c' tick hd : Nat} {conn : ServConn} {slot : Slot}
  {answer : Option Nat} {answers : Nat → Option Nat} {bout : List ServInfo.Effect} {out : List Effect}

/-! ## Open connections -/

/-- An open connection is there. -/
theorem isOpen_iff : isOpen b c = true ↔ ∃ conn, b.conns c = some conn ∧ conn.isOpen = true := by
  rw [isOpen, Option.any_eq_true]

/-- The flag of a connection that is there. -/
theorem isOpen_eq (h : b.conns c = some conn) : isOpen b c = conn.isOpen := by
  rw [isOpen, h, Option.any_some]

/-- A connection that is open is not freed, its slot points to it, and it has a handle. -/
def OpenInSlot (b : ServInfo.State) : Prop :=
  ∀ c conn, b.conns c = some conn → conn.isOpen = true →
    conn.alive = true ∧ slotRef b conn.servIdx = some c ∧ ∃ hd, conn.handle = some hd

/-- The invariant of the slots and the connections. -/
structure Sound (b : ServInfo.State) : Prop where
  reached : ∃ log, Reached log b
  opened : OpenInSlot b

/-- The same connections are open. -/
def SameOpen (b b' : ServInfo.State) : Prop := ∀ c, isOpen b' c = isOpen b c

/-- What stays open over two stretches. -/
theorem SameOpen.trans {b1 b2 b3 : ServInfo.State} (h : SameOpen b1 b2) (h' : SameOpen b2 b3) : SameOpen b1 b3 :=
  fun c => (h' c).trans (h c)

/-- An open connection is in its slot, and not freed. -/
theorem listed_of_open (h : OpenInSlot b) (hopen : isOpen b c = true) : Listed b c ∧ Alive b c := by
  obtain ⟨conn, hc, hisOpen⟩ := isOpen_iff.1 hopen
  obtain ⟨halive, href, -⟩ := h c conn hc hisOpen
  obtain ⟨slot, hslot, hpoints⟩ := Option.bind_eq_some_iff.1 href
  exact ⟨⟨slot, List.mem_of_getElem? hslot, hpoints⟩, conn, hc, halive⟩

/-! ### Slots that are filled -/

/-- Changing the times of a slot opens nothing. -/
theorem modifySlot_opened (h : OpenInSlot b) (i : Nat) {f : Slot → Slot} (hf : ∀ slot, (f slot).servConn = slot.servConn) :
    OpenInSlot (b.modifySlot i f) := by
  intro c conn hc hopen
  rw [slotRef_modifySlot b i hf]
  exact h c conn hc hopen

/-- A new connection is not open. -/
theorem connect_opened (hfresh : ∀ c conn, b.conns c = some conn → c < b.nextConn) (hnull : slotRef b i = none)
    (h : OpenInSlot b) (hstep : b.connect tick i slot answer = some (b', bout)) : OpenInSlot b' ∧ SameOpen b b' := by
  obtain ⟨-, hother, -⟩ := connect_frame hstep
  have hconns : ∃ conn, conn.isOpen = false ∧ ∀ c, b'.conns c = if c = b.nextConn then some conn else b.conns c := by
    unfold State.connect at hstep
    cases answer with
    | none =>
      cases hstep
      exact ⟨_, rfl, fun c => rfl⟩
    | some hd =>
      simp only at hstep
      split at hstep
      · cases hstep
      · cases hstep
        exact ⟨_, rfl, fun c => rfl⟩
  obtain ⟨new, hnew, hconns⟩ := hconns
  constructor
  · intro c conn hc hopen
    rw [hconns] at hc
    split at hc
    · cases hc
      rw [hnew] at hopen
      cases hopen
    · obtain ⟨halive, href, hhandle⟩ := h c conn hc hopen
      refine ⟨halive, ?_, hhandle⟩
      have hne : conn.servIdx ≠ i := by
        intro heq
        rw [heq, hnull] at href
        cases href
      rw [slotRef, hother _ hne]
      exact href
  · intro c
    rw [isOpen, hconns]
    split
    next heq =>
      subst heq
      have hnone : b.conns b.nextConn = none := by
        cases hc : b.conns b.nextConn with
        | none => rfl
        | some conn => exact absurd (hfresh _ conn hc) (lt_irrefl _)
      rw [isOpen, hnone, Option.any_some, hnew, Option.any_none]
    next => rfl

/-- A slot that is filled gets a connection that is not open. -/
theorem initSlot_opened {log : List ServInfo.Effect} (hinv : Inv log b) (hnull : slotRef b i = none) (h : OpenInSlot b)
    (hstep : ServInfo.State.initSlot tick answers b i = some (b', bout)) : OpenInSlot b' ∧ SameOpen b b' := by
  unfold ServInfo.State.initSlot at hstep
  cases hslot : b.serverList[i]? with
  | none =>
    rw [hslot] at hstep
    cases hstep
    exact ⟨h, fun c => rfl⟩
  | some slot =>
    simp only [hslot] at hstep
    cases hconnect : b.connect tick i slot (answers i) with
    | none =>
      rw [hconnect] at hstep
      cases hstep
    | some next =>
      obtain ⟨b1, out1⟩ := next
      rw [hconnect] at hstep
      cases hstep
      obtain ⟨h1, hsame⟩ := connect_opened hinv.fresh hnull h hconnect
      exact ⟨modifySlot_opened h1 i fun slot => rfl, hsame⟩

/-- So does a slot that the timer fills again. -/
theorem checkSlot_opened {log : List ServInfo.Effect} (hinv : Inv log b) (h : OpenInSlot b)
    (hstep : ServInfo.State.checkSlot tick answers b i = some (b', bout)) : OpenInSlot b' ∧ SameOpen b b' := by
  rcases checkSlot_cases hstep with ⟨-, rfl, -⟩ | ⟨slot, hslot, hnull, ⟨-, -, rfl⟩ | ⟨-, hconnect⟩⟩
  · exact ⟨h, fun c => rfl⟩
  · exact ⟨modifySlot_opened h i fun slot => rfl, fun c => rfl⟩
  · let f : Slot → Slot := fun slot' => { slot' with idleCnt := slot.idleCnt + 1 }
    have href : slotRef (b.modifySlot i f) i = none := by
      rw [slotRef_modifySlot b i (f := f) fun slot => rfl, slotRef_eq hslot, hnull]
    exact connect_opened (b := b.modifySlot i f) hinv.fresh href (modifySlot_opened h i fun slot => rfl) hconnect

/-- `serv_init`. -/
theorem sound_servInit (h : Sound b) (hstep : b.step (.servInit tick answers) = some (b', bout)) : Sound b' ∧ SameOpen b b' := by
  obtain ⟨log, hreached⟩ := h.reached
  have hreached' := reached_step hreached hstep
  simp only [ServInfo.State.step] at hstep
  split at hstep
  · cases hstep
  next hnot =>
    have hnull := hreached.notStarted (Bool.eq_false_iff.2 hnot)
    have hleft : InitLeft log b.indices { b with started := true } :=
      ⟨⟨hreached.fresh, hreached.mapped, hreached.slots, hreached.positive, hreached.idle, hreached.failed⟩, rfl,
        fun i _ => hnull i, List.nodup_range⟩
    have hend := Machine.steps_invariant_rest (I := fun log rest b1 => InitLeft log rest b1 ∧ OpenInSlot b1 ∧ SameOpen b b1) ?_
      ⟨hleft, h.opened, fun c => rfl⟩ hstep
    · exact ⟨⟨⟨_, hreached'⟩, hend.2.1⟩, hend.2.2⟩
    · intro log1 rest b1 b2 i out1 hinv hturn
      obtain ⟨hopened, hsame⟩ := initSlot_opened hinv.1.inv (hinv.1.empty i List.mem_cons_self) hinv.2.1 hturn
      exact ⟨initLeft_step hinv.1 hturn, hopened, hinv.2.2.trans hsame⟩

/-- `serv_check_reconnect`. -/
theorem sound_checkSlots (h : Sound b) (hstarted : b.started = true) {rest : List Nat}
    (hstep : Machine.steps (ServInfo.State.checkSlot tick answers) b rest = some (b', bout)) : Sound b' ∧ SameOpen b b' := by
  obtain ⟨log, hreached⟩ := h.reached
  have hend := Machine.steps_invariant_log (P := fun _ => True)
    (I := fun log b1 => Inv log b1 ∧ b1.started = true ∧ OpenInSlot b1 ∧ SameOpen b b1) ?_
    ⟨hreached.toInv, hstarted, h.opened, fun c => rfl⟩ (fun _ _ => trivial) hstep
  · exact ⟨⟨⟨_, reached_of_started hend.1 hend.2.1⟩, hend.2.2.1⟩, hend.2.2.2⟩
  · intro log1 b1 b2 i out1 hinv _ hturn
    obtain ⟨hopened, hsame⟩ := checkSlot_opened hinv.1 hinv.2.2.1 hturn
    exact ⟨inv_checkSlot hinv.1 hturn, (checkSlot_started hturn).trans hinv.2.1, hopened, hinv.2.2.2.trans hsame⟩

/-! ### Connections of the map -/

/-- Closing changes one connection. -/
theorem close_conns (b : ServInfo.State) (c : Nat) (conn : ServConn) (c' : Nat) :
    (b.close c conn).conns c' = if c' = c then some { conn with isOpen := false, alive := false } else b.conns c' := by
  unfold ServInfo.State.close
  cases conn.handle <;> rfl

/-- Closing keeps the list and the map in step. -/
theorem sound_close (h : Sound b) (hmap : b.connMap[hd]? = some c) (hc : b.conns c = some conn) : Sound (b.close c conn) := by
  obtain ⟨log, hreached⟩ := h.reached
  obtain ⟨-, conn', hc', -, hhandle, hslot⟩ := hreached.mapped hd c hmap
  rw [hc] at hc'
  cases hc'
  refine ⟨⟨log, reached_of_started (inv_close hreached.toInv hmap hc)
    (close_started.trans (started_of_mapped hreached hmap))⟩, fun c' conn' hc' hopen => ?_⟩
  rw [close_conns] at hc'
  have hne : c' ≠ c := by
    intro heq
    rw [if_pos heq] at hc'
    cases hc'
    cases hopen
  have hold : b.conns c' = some conn' := (if_neg hne).symm.trans hc'
  obtain ⟨halive, href, hhandle'⟩ := h.opened c' conn' hold hopen
  have hidx : conn.servIdx ≠ conn'.servIdx := by
    intro heq
    rw [heq, href] at hslot
    exact hne (Option.some.inj hslot)
  refine ⟨halive, ?_, hhandle'⟩
  unfold ServInfo.State.close
  rw [hhandle, slotRef]
  exact (congrArg (Option.bind · Slot.servConn) (getElem?_modifySlot_ne b _ hidx)).trans href

/-- The others stay open. -/
theorem isOpen_close : isOpen (b.close c conn) c' = true ↔ isOpen b c' = true ∧ c' ≠ c := by
  rw [isOpen, isOpen, close_conns]
  by_cases heq : c' = c
  · simp [heq]
  · simp [heq]

/-- A confirm changes one connection. -/
theorem onConfirm_conns (b : ServInfo.State) (c : Nat) (conn : ServConn) (c' : Nat) :
    (b.onConfirm c conn).conns c' = if c' = c then some { conn with isOpen := true } else b.conns c' := rfl

/-- It opens that one. -/
theorem isOpen_onConfirm : isOpen (b.onConfirm c conn) c' = true ↔ isOpen b c' = true ∨ c' = c := by
  rw [isOpen, isOpen, onConfirm_conns]
  by_cases heq : c' = c
  · simp [heq]
  · simp [heq]

/-- And it keeps the list and the map in step. -/
theorem sound_onConfirm (h : Sound b) (hfind : b.find hd = some (c, conn)) : Sound (b.onConfirm c conn) := by
  obtain ⟨log, hreached⟩ := h.reached
  obtain ⟨hmap, hc⟩ := find_some hfind
  obtain ⟨-, conn', hc', halive, hhandle, hslot⟩ := hreached.mapped hd c hmap
  rw [hc] at hc'
  cases hc'
  have hstep : b.step (.confirm hd) = some (b.onConfirm c conn, []) := by
    simp only [ServInfo.State.step, hfind]
  refine ⟨⟨_, reached_step hreached hstep⟩, fun c' conn' hc' hopen => ?_⟩
  have hsame : slotRef (b.onConfirm c conn) = slotRef b := by
    let f : Slot → Slot := fun slot => { slot with reconnectCnt := minReconnectCnt / 2 }
    funext j
    exact slotRef_modifySlot (b.setConn c { conn with isOpen := true }) conn.servIdx (f := f) (fun slot => rfl) j
  rw [hsame]
  rw [onConfirm_conns] at hc'
  split at hc'
  next heq =>
    cases hc'
    exact ⟨halive, heq ▸ hslot, hd, hhandle⟩
  next => exact h.opened c' conn' hc' hopen

/-- Reading opens and closes nothing. -/
theorem sound_read (h : Sound b) (hstep : b.step (.read hd tick) = some (b', bout)) : Sound b' ∧ SameOpen b b' := by
  obtain ⟨log, hreached⟩ := h.reached
  have hreached' := reached_step hreached hstep
  simp only [ServInfo.State.step] at hstep
  split at hstep
  · cases hstep
    exact ⟨h, fun c => rfl⟩
  next c conn hfind =>
    cases hstep
    obtain ⟨-, hc⟩ := find_some hfind
    refine ⟨⟨⟨_, hreached'⟩, fun c' conn' hc' hopen => ?_⟩, fun c' => ?_⟩
    · rw [ServInfo.State.setConn] at hc'
      by_cases heq : c' = c
      · subst heq
        cases (if_pos rfl).symm.trans hc'
        exact h.opened c' conn hc hopen
      · exact h.opened c' conn' ((if_neg heq).symm.trans hc') hopen
    · rw [isOpen, isOpen, ServInfo.State.setConn]
      by_cases heq : c' = c
      · simp [heq, hc]
      · simp [heq]

/-! ## The timer -/

/-- What holds while the timer looks at the connections: the entries that are left are in the map. -/
structure Sweep (entries : List (Nat × Nat)) (s : State) : Prop where
  sound : Sound s.conns
  mapped : ∀ entry ∈ entries, s.conns.connMap[entry.1]? = some entry.2
  distinct : entries.Pairwise fun a b => a.1 ≠ b.1

/-- The timer begins with all entries of the map, in some order. -/
theorem sweep_start {order : List (Nat × Nat)} (h : Sound s.conns) (horder : order.Perm s.conns.connMap.toList) :
    Sweep order s := by
  refine ⟨h, fun entry hentry => ?_, ?_⟩
  · exact Std.TreeMap.mem_toList_iff_getElem?_eq_some.1 (horder.mem_iff.1 hentry)
  · refine (List.Perm.pairwise_iff (fun hne => Ne.symm hne) horder).2 ?_
    exact Std.TreeMap.distinct_keys_toList.imp fun hne heq => hne (Std.compare_eq_iff_eq.2 heq)

/-- What the timer does with a connection. -/
theorem onTimer_cases {entry : Nat × Nat} (hstep : State.onTimer cls tick s entry = some (s', out)) :
    ∃ conn, s.conns.conns entry.2 = some conn ∧
      ((cls.timed conn = true ∧ tick > conn.lastRecvTick + serverTimeout) ∧ s' = (s.close cls entry.2 conn).1 ∨
        ¬(cls.timed conn = true ∧ tick > conn.lastRecvTick + serverTimeout) ∧ s' = s) := by
  unfold State.onTimer at hstep
  cases hc : s.conns.conns entry.2 with
  | none =>
    rw [hc] at hstep
    cases hstep
  | some conn =>
    simp only [hc] at hstep
    refine ⟨conn, rfl, ?_⟩
    split at hstep
    next hover =>
      cases hstep
      exact .inl ⟨hover, rfl⟩
    next hover =>
      cases hstep
      exact .inr ⟨hover, rfl⟩

/-- And goes on with the rest of them. -/
theorem sweep_step {entry : Nat × Nat} {entries : List (Nat × Nat)} (h : Sweep (entry :: entries) s)
    (hstep : State.onTimer cls tick s entry = some (s', out)) : Sweep entries s' := by
  have hmap := h.mapped entry List.mem_cons_self
  have hdistinct := List.pairwise_cons.1 h.distinct
  obtain ⟨conn, hc, ⟨-, rfl⟩ | ⟨-, rfl⟩⟩ := onTimer_cases hstep
  · refine ⟨sound_close h.sound hmap hc, fun other hother => ?_, hdistinct.2⟩
    obtain ⟨log, hreached⟩ := h.sound.reached
    obtain ⟨-, conn', hc', -, hhandle, -⟩ := hreached.mapped entry.1 entry.2 hmap
    rw [hc] at hc'
    cases hc'
    exact (close_connMap hhandle (hdistinct.1 other hother)).trans (h.mapped other (List.mem_cons_of_mem entry hother))
  · exact ⟨h.sound, fun other hother => h.mapped other (List.mem_cons_of_mem entry hother), hdistinct.2⟩

/-- The timer does not start anything. -/
theorem onTimer_started {entry : Nat × Nat} (hstep : State.onTimer cls tick s entry = some (s', out)) :
    s'.conns.started = s.conns.started := by
  obtain ⟨conn, hc, ⟨-, rfl⟩ | ⟨-, rfl⟩⟩ := onTimer_cases hstep
  · exact close_started
  · rfl

/-- Neither do all its turns. -/
theorem steps_started {entries : List (Nat × Nat)} (hstarted : s.conns.started = true)
    (hsteps : Machine.steps (State.onTimer cls tick) s entries = some (s', out)) : s'.conns.started = true := by
  refine Machine.steps_invariant (P := fun _ => True) (I := fun s1 => s1.conns.started = true) ?_ hstarted (fun _ _ => trivial) hsteps
  intro s1 s2 entry out1 h _ hstep
  exact (onTimer_started hstep).trans h

/-! ## Steps -/

/-- What a step does that is no confirm, close or timer: the same connections are open, and the pointer stays. -/
structure Quiet (s s' : State) : Prop where
  sound : Sound s'.conns
  same : SameOpen s.conns s'.conns
  master : s'.master = s.master
  now : s'.now = s.now

/-- Nothing happens. -/
theorem quiet_refl (h : Sound s.conns) : Quiet s s := ⟨h, fun _ => rfl, rfl, rfl⟩

/-- What the list of servers does by itself is quiet. -/
theorem quiet_lift {next : Option (ServInfo.State × List ServInfo.Effect)}
    (hnext : ∀ {b' bout}, next = some (b', bout) → Sound b' ∧ SameOpen s.conns b') (hstep : s.lift next = some (s', out)) :
    Quiet s s' := by
  obtain ⟨⟨b', bout⟩, hb, heq⟩ := Option.map_eq_some_iff.1 hstep
  cases heq
  obtain ⟨hsound, hsame⟩ := hnext hb
  exact ⟨hsound, hsame, rfl, rfl⟩

/-- What an event does. -/
theorem handle_cases {e : Event} (h : Sound s.conns) (hstep : s.handle cls e = some (s', out)) :
    (Quiet s s' ∧ (∀ tick order answers, e ≠ .timer tick order answers) ∧
        ∀ handle, e = .close handle → s.conns.find handle = none) ∨
      (∃ handle tick c conn, e = .confirm handle tick ∧ s.conns.find handle = some (c, conn) ∧ conn.isOpen = false ∧
        s' = (s.onConfirm cls tick c conn).1) ∨
      (∃ handle c conn, e = .close handle ∧ s.conns.find handle = some (c, conn) ∧ s' = (s.close cls c conn).1) ∨
      ∃ tick order answers s1 out1, e = .timer tick order answers ∧ Sweep order s ∧ order.Perm s.conns.connMap.toList ∧
        Machine.steps (State.onTimer cls tick) s order = some (s1, out1) ∧ (Sound s1.conns → Quiet s1 s') := by
  cases e with
  | servInit tick answers => exact .inl ⟨quiet_lift (fun hb => sound_servInit h hb) hstep, by simp, by simp⟩
  | timer tick order answers =>
    simp only [State.handle] at hstep
    split at hstep
    next hgo =>
      cases htimers : Machine.steps (State.onTimer cls tick) s order with
      | none =>
        rw [htimers] at hstep
        cases hstep
      | some next =>
        obtain ⟨s1, out1⟩ := next
        simp only [htimers] at hstep
        obtain ⟨⟨s2, out2⟩, hlift, heq⟩ := Option.map_eq_some_iff.1 hstep
        cases heq
        refine .inr (.inr (.inr ⟨tick, order, answers, s1, out1, rfl, sweep_start h hgo.2, hgo.2, htimers, fun h1 => ?_⟩))
        exact quiet_lift (fun hb => sound_checkSlots h1 (steps_started hgo.1 htimers) hb) hlift
    · cases hstep
  | confirm handle tick =>
    simp only [State.handle] at hstep
    split at hstep
    · cases hstep
      exact .inl ⟨quiet_refl h, by simp, by simp⟩
    next c conn hfind =>
      split at hstep
      · cases hstep
      next hclosed =>
        cases hstep
        exact .inr (.inl ⟨handle, tick, c, conn, rfl, hfind, Bool.eq_false_iff.2 hclosed, rfl⟩)
  | close handle =>
    simp only [State.handle] at hstep
    split at hstep
    next hfind =>
      cases hstep
      refine .inl ⟨quiet_refl h, by simp, ?_⟩
      rintro _ ⟨⟩
      exact hfind
    next c conn hfind =>
      cases hstep
      exact .inr (.inr (.inl ⟨handle, c, conn, rfl, hfind, rfl⟩))
  | read handle tick => exact .inl ⟨quiet_lift (fun hb => sound_read h hb) hstep, by simp, by simp⟩

/-- A step is what its event does, at the tick count that is read. -/
theorem step_eq {e : Event} (hstep : s.step cls e = some (s', out)) :
    ∃ now, ({ s with now := now } : State).handle cls e = some (s', out) ∧ (∀ tick, e.tick? = some tick → now = tick ∧ tick < tickSize) ∧
      (e.tick? = none → now = s.now) := by
  unfold State.step at hstep
  cases htick : e.tick? with
  | none =>
    rw [htick] at hstep
    refine ⟨s.now, hstep, ?_, fun _ => rfl⟩
    intro tick h
    cases h
  | some tick =>
    simp only [htick] at hstep
    split at hstep
    next hlt =>
      refine ⟨tick, hstep, ?_, fun h => by cases h⟩
      rintro _ ⟨⟩
      exact ⟨rfl, hlt⟩
    · cases hstep

/-! ## Route servers -/

/-- There is no master exactly when no connection is open; a master is an open one with the least connect time. -/
structure OldestOpen (b : ServInfo.State) (master : Master) : Prop where
  none_iff : master.current = none ↔ ∀ c, isOpen b c = false
  current : ∀ c, master.current = some c → isOpen b c = true ∧ ∀ c', isOpen b c' = true → master.connectTime c ≤ master.connectTime c'

/-- The connections of the slots are those that are listed. -/
theorem listed_iff : c ∈ b.serverList.filterMap Slot.servConn ↔ Listed b c := List.mem_filterMap

/-- What is chosen again is right. -/
theorem oldestOpen_update {master : Master} (h : OpenInSlot b) (htimes : ∀ c, isOpen b c = true → master.connectTime c < latest) :
    OldestOpen b (updateMasterRouteServConn b master).1 := by
  have hlisted : ∀ c, isOpen b c = true → c ∈ b.serverList.filterMap Slot.servConn := by
    intro c hopen
    exact listed_iff.2 (listed_of_open h hopen).1
  rcases FirstMin.firstMin_cases (fun _ _ => Iff.rfl : ∀ x y : Nat, x < y ↔ id x < id y) (fun c => isOpen b c = true) master.connectTime latest
    (b.serverList.filterMap Slot.servConn) with ⟨hnone, hle⟩ | ⟨c, hsome, hfirst⟩
  · refine ⟨iff_of_true hnone fun c => ?_, fun c hc => ?_⟩
    · rw [Bool.eq_false_iff]
      intro hopen
      exact absurd (htimes c hopen) (not_lt_of_ge (hle c (hlisted c hopen) hopen))
    · cases hnone.symm.trans hc
  · refine ⟨iff_of_false ?_ ?_, fun c' hc' => ?_⟩
    · intro hnone
      cases hnone.symm.trans hsome
    · intro hall
      exact Bool.eq_false_iff.1 (hall c) hfirst.qualifies
    · cases hsome.symm.trans hc'
      exact ⟨hfirst.qualifies, fun c' hopen => hfirst.le c' (hlisted c' hopen) hopen⟩

/-- The invariant of the route class. -/
structure RouteInv (s : State) : Prop where
  sound : Sound s.conns
  oldest : OldestOpen s.conns s.master
  times : ∀ c, isOpen s.conns c = true → s.master.connectTime c ≤ s.now
  now_lt : s.now < tickSize

/-- Every tick count is less than the one that the search begins with. -/
theorem lt_latest {n : Nat} (h : n ≤ s.now) (hlt : s.now < tickSize) : n < latest := by
  have hsizes : tickSize ≤ latest := by norm_num [tickSize, latest]
  exact (h.trans_lt hlt).trans_le hsizes

/-- What is quiet keeps the oldest connection. -/
theorem routeInv_quiet (h : RouteInv s) (hquiet : Quiet s s') : RouteInv s' := by
  obtain ⟨hsound, hsame, hmaster, hnow⟩ := hquiet
  refine ⟨hsound, ?_, ?_, hnow ▸ h.now_lt⟩
  · rw [hmaster]
    refine ⟨?_, fun c hc => ?_⟩
    · simp only [hsame _]
      exact h.oldest.none_iff
    · simp only [hsame _]
      exact h.oldest.current c hc
  · rw [hmaster, hnow]
    simp only [hsame _]
    exact h.times

/-- When the master closes, the oldest of the others is found; when another one does, it was not the oldest. -/
theorem routeInv_close (h : RouteInv s) (hmap : s.conns.connMap[hd]? = some c) (hc : s.conns.conns c = some conn) :
    RouteInv (s.close routeServConn c conn).1 := by
  have hsound := sound_close h.sound hmap hc
  have htimes : ∀ c', isOpen (s.conns.close c conn) c' = true → s.master.connectTime c' ≤ s.now := by
    intro c' hopen
    exact h.times c' (isOpen_close.1 hopen).1
  by_cases hcurrent : s.master.current = some c
  · have hclose : s.close routeServConn c conn = ({ s with
        conns := s.conns.close c conn
        master := (updateMasterRouteServConn (s.conns.close c conn) s.master).1 },
        (updateMasterRouteServConn (s.conns.close c conn) s.master).2) := by
      simp only [State.close, routeServConn, if_pos hcurrent]
    rw [hclose]
    exact ⟨hsound, oldestOpen_update hsound.opened fun c' hopen => lt_latest (htimes c' hopen) h.now_lt, htimes, h.now_lt⟩
  · have hclose : s.close routeServConn c conn = ({ s with conns := s.conns.close c conn }, []) := by
      simp only [State.close, routeServConn, if_neg hcurrent]
    rw [hclose]
    refine ⟨hsound, ⟨?_, fun d hd => ?_⟩, htimes, h.now_lt⟩
    · refine h.oldest.none_iff.trans ⟨fun hall c' => ?_, fun hall => ?_⟩
      · rw [Bool.eq_false_iff]
        intro hopen
        exact Bool.eq_false_iff.1 (hall c') (isOpen_close.1 hopen).1
      · -- a master would be another connection, and still be open
        cases hnone : s.master.current with
        | none => exact h.oldest.none_iff.1 hnone
        | some d =>
          have hne : d ≠ c := by
            rintro rfl
            exact hcurrent hnone
          exact absurd (isOpen_close.2 ⟨(h.oldest.current d hnone).1, hne⟩) (Bool.eq_false_iff.1 (hall d))
    · obtain ⟨hopen, hle⟩ := h.oldest.current d hd
      have hne : d ≠ c := by
        rintro rfl
        exact hcurrent hd
      exact ⟨isOpen_close.2 ⟨hopen, hne⟩, fun c' hopen' => hle c' (isOpen_close.1 hopen').1⟩

/-- A connection that is confirmed now is not older than the others. -/
theorem routeInv_onConfirm (h : RouteInv s) (hfind : s.conns.find hd = some (c, conn)) (hclosed : conn.isOpen = false) :
    RouteInv (s.onConfirm routeServConn s.now c conn).1 := by
  have hsound := sound_onConfirm h.sound hfind
  have hnot : isOpen s.conns c = false := (isOpen_eq (find_some hfind).2).trans hclosed
  let master : Master := { s.master with connectTime := fun c' => if c' = c then s.now else s.master.connectTime c' }
  have htimes : ∀ c', isOpen (s.conns.onConfirm c conn) c' = true → master.connectTime c' ≤ s.now := by
    intro c' hopen
    by_cases heq : c' = c
    · exact (if_pos heq).le
    · exact (if_neg heq).le.trans (h.times c' ((isOpen_onConfirm.1 hopen).resolve_right heq))
  by_cases hnone : s.master.current = none
  · have hconfirm : s.onConfirm routeServConn s.now c conn = ({ s with
        conns := s.conns.onConfirm c conn
        master := (updateMasterRouteServConn (s.conns.onConfirm c conn) master).1 },
        (updateMasterRouteServConn (s.conns.onConfirm c conn) master).2) := by
      simp only [State.onConfirm, routeServConn, if_pos hnone, master]
    rw [hconfirm]
    exact ⟨hsound, oldestOpen_update hsound.opened fun c' hopen => lt_latest (htimes c' hopen) h.now_lt, htimes, h.now_lt⟩
  · have hconfirm : s.onConfirm routeServConn s.now c conn = ({ s with conns := s.conns.onConfirm c conn, master := master }, []) := by
      simp only [State.onConfirm, routeServConn, if_neg hnone, master]
    rw [hconfirm]
    refine ⟨hsound, ⟨iff_of_false hnone fun hall => ?_, fun d hd => ?_⟩, htimes, h.now_lt⟩
    · exact absurd (isOpen_onConfirm.2 (.inr rfl)) (Bool.eq_false_iff.1 (hall c))
    · -- the master stays, and was connected no later than now
      obtain ⟨hopen, hle⟩ := h.oldest.current d hd
      have hne : d ≠ c := by
        rintro rfl
        rw [hnot] at hopen
        cases hopen
      have htime : master.connectTime d = s.master.connectTime d := if_neg hne
      refine ⟨isOpen_onConfirm.2 (.inl hopen), fun c' hopen' => ?_⟩
      by_cases heq : c' = c
      · exact (htime.le.trans (h.times d hopen)).trans (if_pos heq).ge
      · exact (htime.le.trans (hle c' ((isOpen_onConfirm.1 hopen').resolve_right heq))).trans (if_neg heq).ge

/-- One event. -/
theorem routeInv_handle {e : Event} (h : RouteInv s) (htick : ∀ tick, e.tick? = some tick → s.now = tick)
    (hstep : s.handle routeServConn e = some (s', out)) : RouteInv s' := by
  rcases handle_cases h.sound hstep with ⟨hquiet, -⟩ | ⟨handle, tick, c, conn, rfl, hfind, hclosed, rfl⟩ |
    ⟨handle, c, conn, rfl, hfind, rfl⟩ | ⟨tick, order, answers, s1, out1, rfl, hsweep, -, htimers, hquiet⟩
  · exact routeInv_quiet h hquiet
  · cases htick tick rfl
    exact routeInv_onConfirm h hfind hclosed
  · obtain ⟨hmap, hc⟩ := find_some hfind
    exact routeInv_close h hmap hc
  · have hend := @Machine.steps_invariant_rest _ _ _ _ (fun _ entries s1 => Sweep entries s1 ∧ RouteInv s1) ?_ _ [] _ _ _
      ⟨hsweep, h⟩ htimers
    · exact routeInv_quiet hend.2 (hquiet hend.2.sound)
    · intro _ entries s1 s2 entry out2 hinv hturn
      refine ⟨sweep_step hinv.1 hturn, ?_⟩
      obtain ⟨conn, hc, ⟨-, rfl⟩ | ⟨-, rfl⟩⟩ := onTimer_cases hturn
      · exact routeInv_close hinv.2 (hinv.1.mapped entry List.mem_cons_self) hc
      · exact hinv.2

/-- One event, with the tick count that it reads. -/
theorem routeInv_step {e : Event} (h : RouteInv s) (hforward : Forward s e) (hstep : s.step routeServConn e = some (s', out)) :
    RouteInv s' := by
  obtain ⟨now, hhandle, htick, hsame⟩ := step_eq hstep
  have hnow : s.now ≤ now ∧ now < tickSize := by
    cases he : e.tick? with
    | none =>
      rw [hsame he]
      exact ⟨le_rfl, h.now_lt⟩
    | some tick =>
      obtain ⟨rfl, hlt⟩ := htick tick he
      exact ⟨hforward now he, hlt⟩
  have hlater : RouteInv { s with now := now } :=
    ⟨h.sound, h.oldest, fun c hopen => (h.times c hopen).trans hnow.1, hnow.2⟩
  exact routeInv_handle hlater (fun tick he => (htick tick he).1) hhandle

/-- At first there is no connection. -/
theorem sound_init (config : List (String × Nat)) : Sound (State.init config).conns := by
  refine ⟨⟨[], reached_init config⟩, fun c conn hc => ?_⟩
  cases hc

/-- And no master. -/
theorem routeInv_init (config : List (String × Nat)) : RouteInv (State.init config) := by
  refine ⟨sound_init config, ⟨iff_of_true rfl fun c => rfl, fun c hc => ?_⟩, fun c hc => ?_, ?_⟩
  · cases hc
  · cases hc
  · norm_num [State.init, tickSize]

end MasterConnsAux

open MasterConnsAux

/-- In every run in which the tick count does not go back, the master is the oldest open connection. -/
theorem oldestIsMaster_of_run (config : List (String × Nat)) {log : List Effect} {s : State}
    (h : Machine.Run (State.step routeServConn) Forward (State.init config) log s) : OldestIsMaster s := by
  have hinv : RouteInv s := h.invariant (I := fun _ s => RouteInv s) (routeInv_init config) fun hinv hforward hstep =>
    routeInv_step hinv hforward hstep
  have hopened := hinv.sound.opened
  refine ⟨hinv.oldest.none_iff.trans ⟨fun hall c _ => hall c, fun hall c => ?_⟩, fun c hc => ?_⟩
  · rw [Bool.eq_false_iff]
    intro hopen
    exact Bool.eq_false_iff.1 (hall c (listed_of_open hopened hopen).1) hopen
  · obtain ⟨hopen, hle⟩ := hinv.oldest.current c hc
    obtain ⟨hlisted, halive⟩ := listed_of_open hopened hopen
    exact ⟨hlisted, hopen, halive, fun c' _ hopen' => hle c' hopen'⟩

/-- Two servers, whose sockets are 5 and 6. -/
def twoServers : List (String × Nat) := [("10.0.0.1", 8200), ("10.0.0.2", 8200)]

/-- Both are connected, the second one first, and then its connection is closed. -/
theorem oldestIsMaster_of_run_bothConfirmed : ∃ log log' s s',
    Machine.Run (State.step routeServConn) Forward (State.init twoServers) log s ∧
      Machine.Run (State.step routeServConn) Forward (State.init twoServers) log' s' ∧ s.master.current = some 1 ∧
      isOpen s.conns 0 = true ∧ OldestIsMaster s ∧ s'.master.current = some 0 ∧ OldestIsMaster s' := by
  have hstart : Machine.Run (State.step routeServConn) Forward (State.init twoServers) [] _ := .start
  have hinit := hstart.step (e := Event.servInit 0 fun i => some (i + 5)) (fun tick _ => Nat.zero_le tick) rfl
  have hsecond := Machine.Run.step (e := Event.confirm 6 7) hinit (fun tick h => by cases h; decide) rfl
  have hfirst := Machine.Run.step (e := Event.confirm 5 9) hsecond (fun tick h => by cases h; decide) rfl
  have hclosed := Machine.Run.step (e := Event.close 6) hfirst (fun tick h => by cases h) rfl
  exact ⟨_, _, _, _, hfirst, hclosed, by decide, by decide, oldestIsMaster_of_run twoServers hfirst,
    by decide, oldestIsMaster_of_run twoServers hclosed⟩

/-! ## Push servers -/

namespace MasterConnsAux

open ServInfoAux

variable {s s' : State} {c tick hd : Nat} {conn : ServConn} {out : List Effect}

/-- The invariant of the push class: the connection in use is open, and it is in use whenever one is open. -/
structure PushInv (s : State) : Prop where
  sound : Sound s.conns
  current : ∀ c, s.master.current = some c → isOpen s.conns c = true
  used : s.master.current = none → ∀ c, isOpen s.conns c = false

/-- Without the last part. -/
structure PushSound (s : State) : Prop where
  sound : Sound s.conns
  current : ∀ c, s.master.current = some c → isOpen s.conns c = true

/-- The connection in use is open, so it is given. -/
theorem getPushServConn_eq (h : ∀ c, s.master.current = some c → isOpen s.conns c = true) :
    s.getPushServConn = s.master.current := by
  unfold State.getPushServConn
  cases hcurrent : s.master.current with
  | none => rfl
  | some c => exact Option.filter_some_pos (h c hcurrent)

/-- Only an open connection without one in use is wrong. -/
theorem used_iff (h : PushSound s) : UsedWheneverOpen s ↔ (s.master.current = none → ∀ c, isOpen s.conns c = false) := by
  rw [UsedWheneverOpen, getPushServConn_eq h.current]
  refine and_iff_left fun c hc => ?_
  have hopen := h.current c hc
  exact ⟨hopen, (listed_of_open h.sound.opened hopen).2⟩

/-- What is quiet keeps the connection in use. -/
theorem pushSound_quiet (h : PushSound s) (hquiet : Quiet s s') : PushSound s' := by
  obtain ⟨hsound, hsame, hmaster, -⟩ := hquiet
  refine ⟨hsound, fun c hc => ?_⟩
  rw [hmaster] at hc
  rw [hsame]
  exact h.current c hc

/-- `Close` leaves no connection in use. -/
theorem pushSound_close (h : PushSound s) (hmap : s.conns.connMap[hd]? = some c) (hc : s.conns.conns c = some conn) :
    PushSound (s.close pushServConn c conn).1 := by
  refine ⟨sound_close h.sound hmap hc, fun c' hc' => ?_⟩
  cases hc'

/-- A confirmed connection is used. -/
theorem pushSound_onConfirm (h : PushSound s) (hfind : s.conns.find hd = some (c, conn)) :
    PushSound (s.onConfirm pushServConn tick c conn).1 := by
  refine ⟨sound_onConfirm h.sound hfind, fun c' hc' => ?_⟩
  cases hc'
  exact isOpen_onConfirm.2 (.inr rfl)

/-! ### The timer -/

/-- What is left to do: the connections of the entries are as before; the others that have expired are closed, and then there is no
connection in use. -/
structure Swept (s0 : State) (tick : Nat) (entries : List (Nat × Nat)) (s : State) : Prop where
  left : ∀ entry ∈ entries, s.conns.conns entry.2 = s0.conns.conns entry.2
  open_iff : ∀ c, isOpen s.conns c = true ↔ isOpen s0.conns c = true ∧ (Expired s0.conns tick c → c ∈ entries.map Prod.snd)
  closed : (∃ c, Expired s0.conns tick c ∧ c ∉ entries.map Prod.snd) → s.master.current = none
  untouched : (∀ c, Expired s0.conns tick c → c ∈ entries.map Prod.snd) → s.master = s0.master

/-- Two entries of the map lead to two connections. -/
theorem sweep_ne {entry other : Nat × Nat} {entries : List (Nat × Nat)} (h : Sweep (entry :: entries) s) (hother : other ∈ entries) :
    other.2 ≠ entry.2 := by
  intro heq
  obtain ⟨log, hreached⟩ := h.sound.reached
  obtain ⟨-, conn, hc, -, hhandle, -⟩ := hreached.mapped entry.1 entry.2 (h.mapped entry List.mem_cons_self)
  obtain ⟨-, conn', hc', -, hhandle', -⟩ := hreached.mapped other.1 other.2 (h.mapped other (List.mem_cons_of_mem entry hother))
  rw [heq, hc] at hc'
  cases hc'
  rw [hhandle] at hhandle'
  exact (List.pairwise_cons.1 h.distinct).1 other hother (Option.some.inj hhandle')

/-- One turn of the timer, which closes what has timed out. -/
theorem swept_step {s0 : State} {entry : Nat × Nat} {entries : List (Nat × Nat)} (hsweep : Sweep (entry :: entries) s)
    (h : Swept s0 tick (entry :: entries) s) (hstep : State.onTimer pushServConn tick s entry = some (s', out)) :
    Swept s0 tick entries s' := by
  have hsame := h.left entry List.mem_cons_self
  have hnotin : entry.2 ∉ entries.map Prod.snd := by
    intro hmem
    obtain ⟨other, hother, heq⟩ := List.mem_map.1 hmem
    exact sweep_ne hsweep hother heq
  have hmem : ∀ {c}, c ≠ entry.2 → (c ∈ (entry :: entries).map Prod.snd ↔ c ∈ entries.map Prod.snd) := by
    intro c hne
    rw [List.map_cons, List.mem_cons]
    exact or_iff_right hne
  have hhead : entry.2 ∈ (entry :: entries).map Prod.snd := List.mem_map_of_mem List.mem_cons_self
  obtain ⟨conn, hc, ⟨⟨htimed, hover⟩, rfl⟩ | ⟨hnot, rfl⟩⟩ := onTimer_cases hstep
  · -- the connection has expired, and is closed
    have hexpired : Expired s0.conns tick entry.2 := ⟨conn, hsame.symm.trans hc, htimed, hover⟩
    refine ⟨fun other hother => ?_, fun c => ?_, fun _ => rfl, fun hall => absurd (hall entry.2 hexpired) hnotin⟩
    · exact (close_conns _ _ _ _).trans ((if_neg (sweep_ne hsweep hother)).trans (h.left other (List.mem_cons_of_mem entry hother)))
    · refine isOpen_close.trans ?_
      rw [h.open_iff]
      by_cases heq : c = entry.2
      · subst heq
        exact iff_of_false (fun hopen => hopen.2 rfl) fun hopen => hnotin (hopen.2 hexpired)
      · rw [hmem heq]
        exact and_iff_left heq
  · have hnotExpired : ¬Expired s0.conns tick entry.2 := by
      rintro ⟨conn', hc', hopen, hover⟩
      rw [← hsame, hc] at hc'
      cases hc'
      exact hnot ⟨hopen, hover⟩
    have hiff : ∀ c, Expired s0.conns tick c → (c ∈ (entry :: entries).map Prod.snd ↔ c ∈ entries.map Prod.snd) := by
      intro c hexpired
      refine hmem ?_
      rintro rfl
      exact hnotExpired hexpired
    refine ⟨fun other hother => h.left other (List.mem_cons_of_mem entry hother), fun c => ?_, ?_, fun hall => ?_⟩
    · rw [h.open_iff]
      exact and_congr_right fun _ => forall_congr' fun hexpired => hiff c hexpired
    · rintro ⟨c, hexpired, hc'⟩
      exact h.closed ⟨c, hexpired, fun hin => hc' ((hiff c hexpired).1 hin)⟩
    · exact h.untouched fun c hexpired => (hiff c hexpired).2 (hall c hexpired)

/-- After the timer has looked at all connections. -/
theorem swept_end {order : List (Nat × Nat)} {s1 : State} {out1 : List Effect} (h : PushSound s) (hsweep : Sweep order s)
    (horder : order.Perm s.conns.connMap.toList) (htimers : Machine.steps (State.onTimer pushServConn tick) s order = some (s1, out1)) :
    PushSound s1 ∧ Swept s tick [] s1 := by
  have hin : ∀ c, Expired s.conns tick c → c ∈ order.map Prod.snd := by
    rintro c ⟨conn, hc, hopen, -⟩
    obtain ⟨log, hreached⟩ := h.sound.reached
    obtain ⟨-, href, hd, hhandle⟩ := h.sound.opened c conn hc hopen
    obtain ⟨conn', hc', -, -, hmapped⟩ := hreached.slots conn.servIdx c href
    rw [hc] at hc'
    cases hc'
    have hentry := Std.TreeMap.mem_toList_iff_getElem?_eq_some.2 (hmapped hd hhandle)
    exact List.mem_map_of_mem (f := Prod.snd) (horder.mem_iff.2 hentry)
  have hbegin : Swept s tick order s := by
    refine ⟨fun _ _ => rfl, fun c => (and_iff_left (hin c)).symm, ?_, fun _ => rfl⟩
    rintro ⟨c, hexpired, hnot⟩
    exact absurd (hin c hexpired) hnot
  have hend := @Machine.steps_invariant_rest _ _ _ _ (fun _ entries s1 => Sweep entries s1 ∧ PushSound s1 ∧ Swept s tick entries s1) ?_ _ []
    _ _ _ ⟨hsweep, h, hbegin⟩ htimers
  · exact hend.2
  · intro _ entries s2 s3 entry out2 hinv hturn
    refine ⟨sweep_step hinv.1 hturn, ?_, swept_step hinv.1 hinv.2.2 hturn⟩
    obtain ⟨conn, hc, ⟨-, rfl⟩ | ⟨-, rfl⟩⟩ := onTimer_cases hturn
    · exact pushSound_close hinv.2.1 (hinv.1.mapped entry List.mem_cons_self) hc
    · exact hinv.2.1

/-! ### Steps -/

/-- When a connection is closed, none is in use; the others that were open still are. -/
theorem used_close_iff : (∀ c', isOpen (s.close pushServConn c conn).1.conns c' = false) ↔ ∀ c', isOpen s.conns c' = true → c' = c := by
  refine forall_congr' fun c' => ?_
  rw [Bool.eq_false_iff, ne_eq, show (s.close pushServConn c conn).1.conns = s.conns.close c conn from rfl, isOpen_close, not_and,
    not_not]

/-- After the timer, a connection that is open is in use exactly when the open ones have expired together, or none has. -/
theorem used_timer_iff {s1 : State} (h : PushInv s) (hswept : Swept s tick [] s1) :
    (s1.master.current = none → ∀ c, isOpen s1.conns c = false) ↔
      ((∃ c, Expired s.conns tick c) → ∀ c, isOpen s.conns c = true → Expired s.conns tick c) := by
  have hopen : ∀ c, isOpen s1.conns c = true ↔ isOpen s.conns c = true ∧ ¬Expired s.conns tick c := by
    intro c
    rw [hswept.open_iff]
    simp
  by_cases hany : ∃ c, Expired s.conns tick c
  · obtain ⟨c0, hexpired⟩ := hany
    have hnone : s1.master.current = none := hswept.closed ⟨c0, hexpired, by simp⟩
    constructor
    · intro hused _ c hc
      by_contra hnot
      exact Bool.eq_false_iff.1 (hused hnone c) ((hopen c).2 ⟨hc, hnot⟩)
    · intro hall _ c
      rw [Bool.eq_false_iff]
      intro hc
      obtain ⟨hc, hnot⟩ := (hopen c).1 hc
      exact hnot (hall ⟨c0, hexpired⟩ c hc)
  · refine iff_of_true (fun hnone c => ?_) fun hsome => absurd hsome hany
    rw [hswept.untouched fun c hexpired => absurd ⟨c, hexpired⟩ hany] at hnone
    rw [Bool.eq_false_iff]
    intro hc
    exact Bool.eq_false_iff.1 (h.used hnone c) ((hopen c).1 hc).1

/-- After an event, some open connection is in use exactly when the condition was met. -/
theorem handle_used {e : Event} (h : PushInv s) (hstep : s.handle pushServConn e = some (s', out)) :
    PushSound s' ∧ ((s'.master.current = none → ∀ c, isOpen s'.conns c = false) ↔ PushMeets s e) := by
  have hpush : PushSound s := ⟨h.sound, h.current⟩
  rcases handle_cases h.sound hstep with ⟨hquiet, htimer, hclose⟩ | ⟨handle, tick, c, conn, rfl, hfind, -, rfl⟩ |
    ⟨handle, c, conn, rfl, hfind, rfl⟩ | ⟨tick, order, answers, s1, out1, rfl, hsweep, horder, htimers, hquiet⟩
  · refine ⟨pushSound_quiet hpush hquiet, iff_of_true (fun hnone c => ?_) ?_⟩
    · rw [hquiet.same]
      exact h.used (hquiet.master ▸ hnone) c
    · cases e with
      | timer tick order answers => exact absurd rfl (htimer tick order answers)
      | close handle =>
        intro c conn hfind
        rw [hclose handle rfl] at hfind
        cases hfind
      | _ => trivial
  · refine ⟨pushSound_onConfirm hpush hfind, iff_of_true (fun hnone => ?_) trivial⟩
    cases hnone
  · obtain ⟨hmap, hc⟩ := find_some hfind
    refine ⟨pushSound_close hpush hmap hc, ?_⟩
    have hnone : (s.close pushServConn c conn).1.master.current = none := rfl
    constructor
    · intro hused c' conn' hfind'
      rw [hfind] at hfind'
      cases hfind'
      exact used_close_iff.1 (hused hnone)
    · intro hmeets _
      exact used_close_iff.2 (hmeets c conn hfind)
  · obtain ⟨hpush1, hswept⟩ := swept_end hpush hsweep horder htimers
    have hquiet := hquiet hpush1.sound
    refine ⟨pushSound_quiet hpush1 hquiet, ?_⟩
    rw [hquiet.master]
    simp only [hquiet.same _]
    exact used_timer_iff h hswept

/-- One event, with the tick count that it reads. -/
theorem pushInv_step {e : Event} (h : PushInv s) (hstep : s.step pushServConn e = some (s', out)) :
    (UsedWheneverOpen s' ↔ PushMeets s e) ∧ (PushMeets s e → PushInv s') := by
  obtain ⟨now, hhandle, -⟩ := step_eq hstep
  have hlater : PushInv { s with now := now } := ⟨h.sound, h.current, h.used⟩
  obtain ⟨hpush, hiff⟩ := handle_used hlater hhandle
  have hsame : PushMeets { s with now := now } e ↔ PushMeets s e := by
    cases e <;> exact Iff.rfl
  rw [hsame] at hiff
  exact ⟨(used_iff hpush).trans hiff, fun hmeets => ⟨hpush.sound, hpush.current, hiff.2 hmeets⟩⟩

/-- At first no connection is open, and none is in use. -/
theorem pushInv_init (config : List (String × Nat)) : PushInv (State.init config) := by
  refine ⟨sound_init config, fun c hc => ?_, fun _ c => rfl⟩
  cases hc

end MasterConnsAux

/-- Along every list of events, a push connection is used in every state whenever one is open, if and only if every step meets
the condition. -/
theorem usedWheneverOpen_along_iff (config : List (String × Nat)) (es : List Event) :
    Machine.Along (State.step pushServConn) (fun _ _ s => UsedWheneverOpen s) (State.init config) es ↔
      Machine.Along (State.step pushServConn) (fun s e _ => PushMeets s e) (State.init config) es := by
  refine Machine.along_iff (I := PushInv) ?_ ?_ (pushInv_init config)
  · exact fun hinv hstep => (pushInv_step hinv hstep).1
  · exact fun hinv hstep hmeets => (pushInv_step hinv hstep).2 hmeets

/-- The second server refuses, after the first one has been connected. -/
def secondRefused : Option (State × List Effect) :=
  Machine.steps (State.step pushServConn) (State.init [("10.0.0.1", 8500), ("10.0.0.2", 8500)])
    [.servInit 0 fun i => some (i + 5), .confirm 5 7, .close 6]

/-- One connection is open, and none is used. -/
theorem not_usedWheneverOpen_along : ¬∀ config es,
    Machine.Along (State.step pushServConn) (fun _ _ s => UsedWheneverOpen s) (State.init config) es := by
  intro hall
  have halong := hall [("10.0.0.1", 8500), ("10.0.0.2", 8500)] [.servInit 0 fun i => some (i + 5), .confirm 5 7, .close 6]
  have hused : secondRefused.all (fun last => last.1.getPushServConn.isNone && isOpen last.1.conns 0) = true := by decide
  have hsome : secondRefused.isSome = true := by decide
  cases hrun : secondRefused with
  | none =>
    rw [hrun] at hsome
    cases hsome
  | some last =>
    obtain ⟨s, log⟩ := last
    have hlast : UsedWheneverOpen s := halong.last (Q := UsedWheneverOpen) ?_ hrun
    · rw [hrun] at hused
      simp only [Option.all_some, Bool.and_eq_true, Option.isNone_iff_eq_none] at hused
      have hclosed := hlast.1 hused.1 0
      rw [hused.2] at hclosed
      cases hclosed
    · refine ⟨fun _ c => rfl, fun c hc => ?_⟩
      cases hc

end TeamTalk.MasterConns
