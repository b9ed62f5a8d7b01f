import TeamTalk.Base.ServInfo

/-!
# A backend slot can be retried

As long as no attempt to connect fails at once, the connection of a slot is alive and in the map under its handle, or the slot is
empty and is filled again within as many ticks as it says. An attempt that fails at once leaves a connection without handle in
the slot, to which no event comes.
-/

namespace TeamTalk.ServInfo

open Std (TreeMap)

/-! ## The property -/

/-- The connection is alive and has a handle, under which it is in the map. -/
def Registered (s : State) (c : Nat) : Prop :=
  ∃ conn h, s.conns c = some conn ∧ conn.alive = true ∧ conn.handle = some h ∧ s.connMap[h]? = some c

/-- The call of the timer. -/
def Event.isTimer : Event → Bool
  | .timer _ _ => true
  | _ => false

/-- Whatever happens, an attempt to connect is made for the slot before as many ticks are over. -/
def RetriedWithin (s : State) (i ticks : Nat) : Prop :=
  ∀ es s' log, Machine.steps State.step s es = some (s', log) → ticks ≤ es.countP Event.isTimer →
    ∃ ip port answer, .connect i ip port answer ∈ log

/-- After `serv_init`: what a slot holds is registered, and an empty slot is retried. -/
def Retriable (s : State) : Prop :=
  s.started = true → ∀ (i : Nat) slot, s.serverList[i]? = some slot →
    (∀ c, slot.servConn = some c → Registered s c) ∧ (slot.servConn = none → RetriedWithin s i slot.reconnectCnt)

namespace ServInfoAux

open State

variable {s s' : State} {log out : List Effect} {i j c : Nat} {slot : Slot} {conn : ServConn}

/-! ## Slots -/

/-- What a slot points to. -/
def slotRef (s : State) (i : Nat) : Option Nat := (s.serverList[i]?).bind Slot.servConn

/-- A slot's connection, read off the list. -/
theorem slotRef_eq (h : s.serverList[i]? = some slot) : slotRef s i = slot.servConn := by
  rw [slotRef, h, Option.bind_some]

/-- The slots after one of them changed. -/
theorem getElem?_modifySlot (s : State) (i : Nat) (f : Slot → Slot) (j : Nat) :
    (s.modifySlot i f).serverList[j]? = (s.serverList[j]?).map fun slot => if i = j then f slot else slot :=
  List.getElem?_modify f i s.serverList j

/-- The others are as they were. -/
theorem getElem?_modifySlot_ne (s : State) {i j : Nat} (f : Slot → Slot) (h : i ≠ j) :
    (s.modifySlot i f).serverList[j]? = s.serverList[j]? := by
  rw [getElem?_modifySlot]
  simp [h]

/-- And every slot was there or is the changed one. -/
theorem mem_modifySlot {f : Slot → Slot} (h : slot ∈ (s.modifySlot i f).serverList) :
    slot ∈ s.serverList ∨ ∃ old, s.serverList[i]? = some old ∧ slot = f old := by
  obtain ⟨j, hj⟩ := List.mem_iff_getElem?.1 h
  rw [getElem?_modifySlot] at hj
  obtain ⟨old, hold, rfl⟩ := Option.map_eq_some_iff.1 hj
  split
  next heq =>
    subst heq
    exact .inr ⟨old, hold, rfl⟩
  next => exact .inl (List.mem_of_getElem? hold)

/-- A change of a slot that leaves the pointer. -/
theorem slotRef_modifySlot (s : State) (i : Nat) {f : Slot → Slot} (hf : ∀ slot, (f slot).servConn = slot.servConn) (j : Nat) :
    slotRef (s.modifySlot i f) j = slotRef s j := by
  rw [slotRef, slotRef, getElem?_modifySlot]
  cases s.serverList[j]? with
  | none => rfl
  | some slot =>
    simp only [Option.map_some, Option.bind_some]
    split
    · exact hf slot
    · rfl

/-- A change of a slot that sets the pointer. -/
theorem slotRef_setRef {f : Slot → Slot} {r : Option Nat} (hf : ∀ slot, (f slot).servConn = r)
    (h : s.serverList[i]? = some slot) (j : Nat) : slotRef (s.modifySlot i f) j = if j = i then r else slotRef s j := by
  rw [slotRef, getElem?_modifySlot]
  split
  next heq =>
    subst heq
    rw [h, Option.map_some, Option.bind_some, if_pos rfl, hf]
  next hne =>
    rw [slotRef]
    simp [Ne.symm hne]

/-! ## The invariant -/

/-- An attempt has failed at once. -/
def Failed (log : List Effect) : Prop := ∃ i ip port, .connect i ip port none ∈ log

/-- The map leads to the connections of slots; what a slot points to is alive, and in the map when it has a handle; an empty slot
is not due; and a connection without a handle is in a slot exactly when an attempt has failed at once. -/
structure Inv (log : List Effect) (s : State) : Prop where
  fresh : ∀ c conn, s.conns c = some conn → c < s.nextConn
  mapped : ∀ (h c : Nat), s.connMap[h]? = some c → s.sockets h = true ∧
    ∃ conn, s.conns c = some conn ∧ conn.alive = true ∧ conn.handle = some h ∧ slotRef s conn.servIdx = some c
  slots : ∀ i c, slotRef s i = some c → ∃ conn, s.conns c = some conn ∧ conn.alive = true ∧ conn.servIdx = i ∧
    ∀ h, conn.handle = some h → s.connMap[h]? = some c
  positive : ∀ slot ∈ s.serverList, 0 < slot.reconnectCnt
  idle : ∀ slot ∈ s.serverList, slot.servConn = none → slot.idleCnt < slot.reconnectCnt
  failed : Failed log ↔ ∃ i c conn, slotRef s i = some c ∧ s.conns c = some conn ∧ conn.handle = none

/-- A failure is in either part of a log. -/
theorem failed_append {log out : List Effect} : Failed (log ++ out) ↔ Failed log ∨ Failed out := by
  simp only [Failed, List.mem_append]
  constructor
  · rintro ⟨i, ip, port, h | h⟩
    · exact .inl ⟨i, ip, port, h⟩
    · exact .inr ⟨i, ip, port, h⟩
  · rintro (⟨i, ip, port, h⟩ | ⟨i, ip, port, h⟩)
    · exact ⟨i, ip, port, .inl h⟩
    · exact ⟨i, ip, port, .inr h⟩

/-- The invariant holds before `serv_init`. -/
theorem inv_init (config : List (String × Nat)) : Inv [] (State.init config) := by
  have hslot : ∀ slot ∈ (State.init config).serverList, slot.servConn = none ∧ slot.idleCnt = 0 ∧ slot.reconnectCnt = 2 := by
    intro slot hslot
    obtain ⟨server, -, rfl⟩ := List.mem_map.1 hslot
    exact ⟨rfl, rfl, rfl⟩
  have href : ∀ i, slotRef (State.init config) i = none := by
    intro i
    cases hi : (State.init config).serverList[i]? with
    | none => rw [slotRef, hi, Option.bind_none]
    | some slot => rw [slotRef_eq hi, (hslot slot (List.mem_of_getElem? hi)).1]
  refine ⟨?_, ?_, ?_, ?_, ?_, ?_⟩
  · simp [State.init]
  · simp [State.init]
  · simp [href]
  · intro slot hs
    have := hslot slot hs
    omega
  · intro slot hs _
    have := hslot slot hs
    omega
  · simp [Failed, href]

/-- A change of the counters of a slot. -/
theorem inv_modifySlot (h : Inv log s) (i : Nat) {f : Slot → Slot} (hf : ∀ slot, (f slot).servConn = slot.servConn)
    (hcounts : ∀ slot, s.serverList[i]? = some slot → 0 < (f slot).reconnectCnt ∧
      (slot.servConn = none → (f slot).idleCnt < (f slot).reconnectCnt)) : Inv log (s.modifySlot i f) := by
  refine ⟨h.fresh, ?_, ?_, fun slot hslot => ?_, fun slot hslot hnull => ?_, ?_⟩
  · simp only [slotRef_modifySlot s i hf]
    exact h.mapped
  · simp only [slotRef_modifySlot s i hf]
    exact h.slots
  · rcases mem_modifySlot hslot with hold | ⟨old, hold, rfl⟩
    · exact h.positive slot hold
    · exact (hcounts old hold).1
  · rcases mem_modifySlot hslot with hold | ⟨old, hold, rfl⟩
    · exact h.idle slot hold hnull
    · exact (hcounts old hold).2 ((hf old).symm.trans hnull)
  · simp only [slotRef_modifySlot s i hf]
    exact h.failed

/-- A change of a connection that leaves what matters. -/
theorem inv_setConn (h : Inv log s) (hc : s.conns c = some conn) {conn' : ServConn} (hhandle : conn'.handle = conn.handle)
    (hidx : conn'.servIdx = conn.servIdx) (halive : conn'.alive = conn.alive) : Inv log (s.setConn c conn') := by
  have hconns : ∀ c', ((s.setConn c conn').conns c' = s.conns c') ∨ (c' = c ∧ (s.setConn c conn').conns c' = some conn') := by
    intro c'
    by_cases hc' : c' = c
    · exact .inr ⟨hc', if_pos hc'⟩
    · exact .inl (if_neg hc')
  refine ⟨fun c' conn1 hc' => ?_, fun handle c' hmap => ?_, fun i c' href => ?_, h.positive, h.idle, h.failed.trans ?_⟩
  · rcases hconns c' with heq | ⟨rfl, -⟩
    · rw [heq] at hc'
      exact h.fresh c' conn1 hc'
    · exact h.fresh c' conn hc
  · obtain ⟨hsocket, conn1, hc1, halive1, hhandle1, href⟩ := h.mapped handle c' hmap
    rcases hconns c' with heq | ⟨rfl, heq⟩
    · exact ⟨hsocket, conn1, heq.trans hc1, halive1, hhandle1, href⟩
    · rw [hc] at hc1
      obtain rfl := Option.some.inj hc1
      refine ⟨hsocket, conn', heq, halive.trans halive1, hhandle.trans hhandle1, ?_⟩
      rw [hidx]
      exact href
  · obtain ⟨conn1, hc1, halive1, hidx1, hmap⟩ := h.slots i c' href
    rcases hconns c' with heq | ⟨rfl, heq⟩
    · exact ⟨conn1, heq.trans hc1, halive1, hidx1, hmap⟩
    · rw [hc] at hc1
      obtain rfl := Option.some.inj hc1
      exact ⟨conn', heq, halive.trans halive1, hidx.trans hidx1, fun handle hh => hmap handle (hhandle.symm.trans hh)⟩
  · refine exists_congr fun i => exists_congr fun c' => ?_
    constructor
    · rintro ⟨conn1, href, hc1, hnone⟩
      rcases hconns c' with heq | ⟨rfl, heq⟩
      · exact ⟨conn1, href, heq.trans hc1, hnone⟩
      · rw [hc] at hc1
        obtain rfl := Option.some.inj hc1
        exact ⟨conn', href, heq, hhandle.trans hnone⟩
    · rintro ⟨conn1, href, hc1, hnone⟩
      rcases hconns c' with heq | ⟨rfl, heq⟩
      · exact ⟨conn1, href, heq.symm.trans hc1, hnone⟩
      · rw [heq] at hc1
        obtain rfl := Option.some.inj hc1
        exact ⟨conn, href, hc, hhandle.symm.trans hnone⟩

/-! ## Connections -/

/-- A slot that is empty gets a new connection, which is in the map when it has a handle. -/
theorem inv_fill {answer : Option Nat} {f : Slot → Slot} (h : Inv log s) (hslot : s.serverList[i]? = some slot)
    (hnull : slot.servConn = none) (hanswer : conn.handle = answer) (hidx : conn.servIdx = i) (halive : conn.alive = true)
    (hf : ∀ slot, (f slot).servConn = some s.nextConn ∧ (f slot).reconnectCnt = slot.reconnectCnt) (hlist : s'.serverList = (s.modifySlot i f).serverList)
    (hconns : s'.conns = (s.setConn s.nextConn conn).conns) (hnext : s'.nextConn = s.nextConn + 1)
    (hsockets : ∀ h', s'.sockets h' = true ↔ s.sockets h' = true ∨ answer = some h')
    (hmap : ∀ (h' c' : Nat), s'.connMap[h']? = some c' ↔ s.connMap[h']? = some c' ∨ answer = some h' ∧ c' = s.nextConn)
    (hout : Failed out ↔ answer = none) : Inv (log ++ out) s' := by
  have href : ∀ j, slotRef s' j = if j = i then some s.nextConn else slotRef s j := by
    intro j
    rw [slotRef, hlist]
    exact slotRef_setRef (fun slot => (hf slot).1) hslot j
  have hempty : slotRef s i = none := (slotRef_eq hslot).trans hnull
  have hnew : s'.conns s.nextConn = some conn := by
    rw [hconns]
    exact if_pos rfl
  have hold : ∀ {c conn'}, s.conns c = some conn' → s'.conns c = some conn' := by
    intro c conn' hc
    have hlt := h.fresh c conn' hc
    rw [hconns]
    exact (if_neg (by omega)).trans hc
  have hne : ∀ {j c}, slotRef s j = some c → j ≠ i := by
    rintro j c hj rfl
    rw [hempty] at hj
    cases hj
  refine ⟨fun c conn' hc => ?_, fun h' c' hc => ?_, fun j c' hj => ?_, fun slot' hs => ?_, fun slot' hs hn => ?_, ?_⟩
  · rw [hnext]
    by_cases heq : c = s.nextConn
    · omega
    · rw [hconns, State.setConn] at hc
      have := h.fresh c conn' ((if_neg heq).symm.trans hc)
      omega
  · rcases (hmap h' c').1 hc with hc | ⟨hh, rfl⟩
    · obtain ⟨hsocket, conn', hc', halive', hhandle', hj⟩ := h.mapped h' c' hc
      refine ⟨(hsockets h').2 (.inl hsocket), conn', hold hc', halive', hhandle', ?_⟩
      rw [href, if_neg (hne hj), hj]
    · refine ⟨(hsockets h').2 (.inr hh), conn, hnew, halive, hanswer.trans hh, ?_⟩
      rw [href, if_pos hidx]
  · rw [href] at hj
    split at hj
    next heq =>
      cases hj
      exact ⟨conn, hnew, halive, hidx.trans heq.symm, fun h' hh => (hmap h' _).2 (.inr ⟨hanswer.symm.trans hh, rfl⟩)⟩
    next =>
      obtain ⟨conn', hc', halive', hidx', hmap'⟩ := h.slots j c' hj
      exact ⟨conn', hold hc', halive', hidx', fun h' hh => (hmap h' c').2 (.inl (hmap' h' hh))⟩
  · rw [hlist] at hs
    rcases mem_modifySlot hs with hs | ⟨old, ho, rfl⟩
    · exact h.positive slot' hs
    · rw [(hf old).2]
      exact h.positive old (List.mem_of_getElem? ho)
  · rw [hlist] at hs
    rcases mem_modifySlot hs with hs | ⟨old, ho, rfl⟩
    · exact h.idle slot' hs hn
    · rw [(hf old).1] at hn
      cases hn
  · rw [failed_append, h.failed, hout]
    constructor
    · rintro (⟨j, c', conn', hj, hc', hnone⟩ | hnone)
      · exact ⟨j, c', conn', by rw [href, if_neg (hne hj), hj], hold hc', hnone⟩
      · exact ⟨i, s.nextConn, conn, by rw [href, if_pos rfl], hnew, hanswer.trans hnone⟩
    · rintro ⟨j, c', conn', hj, hc', hnone⟩
      rw [href] at hj
      split at hj
      next =>
        cases hj
        rw [hnew] at hc'
        cases hc'
        exact .inr (hanswer.symm.trans hnone)
      next =>
        obtain ⟨conn2, hc2, -⟩ := h.slots j c' hj
        have := hold hc2
        rw [hc'] at this
        cases this
        exact .inl ⟨j, c', conn', hj, hc2, hnone⟩

/-- A connect fails exactly without an answer. -/
theorem failed_connect {ip : String} {port : Nat} {answer : Option Nat} :
    Failed [.connect i ip port answer] ↔ answer = none := by
  simp [Failed, eq_comm]

/-- A connection is made for an empty slot, after a change of its counter. -/
theorem inv_connect {tick : Nat} {answer : Option Nat} {slot' : Slot} {g : Slot → Slot} (h : Inv log s)
    (hslot : s.serverList[i]? = some slot) (hnull : slot.servConn = none) (hg : ∀ slot, (g slot).reconnectCnt = slot.reconnectCnt)
    (hstep : (s.modifySlot i g).connect tick i slot' answer = some (s', out)) : Inv (log ++ out) s' := by
  let f : Slot → Slot := fun slot => { g slot with servConn := some s.nextConn }
  have htwice : (s.serverList.modify i g).modify i (fun slot => { slot with servConn := some s.nextConn }) =
      (s.modifySlot i f).serverList := List.modify_modify_eq g _ i s.serverList
  unfold State.connect at hstep
  cases answer with
  | none =>
    cases hstep
    refine inv_fill (f := f) h hslot hnull rfl rfl rfl (fun slot => ⟨rfl, hg slot⟩) htwice rfl rfl (fun h' => ?_) (fun h' c' => ?_)
      failed_connect
    · simp [State.modifySlot, State.setConn]
    · simp [State.modifySlot, State.setConn]
  | some hd =>
    simp only at hstep
    split at hstep
    · cases hstep
    next hfree =>
      cases hstep
      have hunmapped : s.connMap[hd]? = none := by
        cases hm : s.connMap[hd]? with
        | none => rfl
        | some c => exact absurd (h.mapped hd c hm).1 hfree
      refine inv_fill (f := f) h hslot hnull rfl rfl rfl (fun slot => ⟨rfl, hg slot⟩) htwice rfl rfl (fun h' => ?_) (fun h' c' => ?_)
        failed_connect
      · simp only [State.modifySlot, Option.some.injEq]
        by_cases heq : h' = hd
        · simp [heq]
        · simp [heq, Ne.symm heq]
      · simp only [State.modifySlot, Option.some.injEq]
        rw [TreeMap.getElem?_insertIfNew]
        by_cases heq : hd = h'
        · subst heq
          have hnot : hd ∉ s.connMap := by
            rw [TreeMap.mem_iff_isSome_getElem?, hunmapped]
            exact Bool.false_ne_true
          simp [hnot, eq_comm]
        · simp [heq]

/-- A connection of the map is closed, and its slot is empty. -/
theorem inv_close {hd : Nat} (h : Inv log s) (hmap : s.connMap[hd]? = some c) (hc : s.conns c = some conn) :
    Inv log (s.close c conn) := by
  obtain ⟨-, conn', hc', -, hhandle, hslot⟩ := h.mapped hd c hmap
  rw [hc] at hc'
  cases hc'
  obtain ⟨slot, hget, hpoints⟩ := Option.bind_eq_some_iff.1 hslot
  have hlist : (s.close c conn).serverList = (s.servReset conn.servIdx).serverList := by
    unfold State.close
    rw [hhandle]
    rfl
  have href : ∀ j, slotRef (s.close c conn) j = if j = conn.servIdx then none else slotRef s j := by
    intro j
    rw [slotRef, hlist, State.servReset]
    exact slotRef_setRef (r := none) (fun slot => rfl) hget j
  have hother : ∀ {c'}, c' ≠ c → (s.close c conn).conns c' = s.conns c' := by
    intro c' hne
    unfold State.close
    rw [hhandle]
    exact if_neg hne
  have hmap' : ∀ h', (s.close c conn).connMap[h']? = if hd = h' then none else s.connMap[h']? := by
    intro h'
    unfold State.close
    rw [hhandle]
    simp [State.servReset, State.modifySlot, State.setConn, TreeMap.getElem?_erase]
  have hdiff : ∀ {j c'}, slotRef s j = some c' → j ≠ conn.servIdx → c' ≠ c := by
    rintro j c' hj hne rfl
    obtain ⟨conn', hc', -, hidx, -⟩ := h.slots j c' hj
    rw [hc] at hc'
    cases hc'
    exact hne hidx.symm
  refine ⟨fun c' conn' hc' => ?_, fun h' c' hm => ?_, fun j c' hj => ?_, fun slot' hs => ?_, fun slot' hs hn => ?_, ?_⟩
  · have hnext : (s.close c conn).nextConn = s.nextConn := by
      unfold State.close
      rw [hhandle]
      rfl
    rw [hnext]
    by_cases heq : c' = c
    · rw [heq]
      exact h.fresh c conn hc
    · rw [hother heq] at hc'
      exact h.fresh c' conn' hc'
  · rw [hmap'] at hm
    split at hm
    · cases hm
    next hne =>
      obtain ⟨hsocket, conn', hc', halive', hhandle', hj⟩ := h.mapped h' c' hm
      have hc'ne : c' ≠ c := by
        rintro rfl
        rw [hc] at hc'
        cases hc'
        rw [hhandle] at hhandle'
        exact hne (Option.some.inj hhandle')
      have hidx : conn'.servIdx ≠ conn.servIdx := by
        intro heq
        rw [heq, hslot] at hj
        exact hc'ne (Option.some.inj hj).symm
      refine ⟨?_, conn', (hother hc'ne).trans hc', halive', hhandle', by rw [href, if_neg hidx, hj]⟩
      unfold State.close
      rw [hhandle]
      exact (if_neg (Ne.symm hne)).trans hsocket
  · rw [href] at hj
    split at hj
    · cases hj
    next hne =>
      obtain ⟨conn', hc', halive', hidx', hm⟩ := h.slots j c' hj
      refine ⟨conn', (hother (hdiff hj hne)).trans hc', halive', hidx', fun h' hh => ?_⟩
      rw [hmap']
      split
      next heq =>
        subst heq
        have := hm hd hh
        rw [hmap] at this
        exact absurd (Option.some.inj this).symm (hdiff hj hne)
      next => exact hm h' hh
  · rw [hlist] at hs
    rcases mem_modifySlot hs with hs | ⟨old, ho, rfl⟩
    · exact h.positive slot' hs
    · have := h.positive old (List.mem_of_getElem? ho)
      simp only [minReconnectCnt]
      split <;> omega
  · rw [hlist] at hs
    rcases mem_modifySlot hs with hs | ⟨old, ho, rfl⟩
    · exact h.idle slot' hs hn
    · have := h.positive old (List.mem_of_getElem? ho)
      simp only [minReconnectCnt]
      split <;> omega
  · rw [h.failed]
    constructor
    · rintro ⟨j, c', conn', hj, hc', hnone⟩
      have hne : c' ≠ c := by
        rintro rfl
        rw [hc] at hc'
        cases hc'
        rw [hhandle] at hnone
        cases hnone
      have hj' : j ≠ conn.servIdx := by
        rintro rfl
        rw [hslot] at hj
        exact hne (Option.some.inj hj).symm
      exact ⟨j, c', conn', by rw [href, if_neg hj', hj], (hother hne).trans hc', hnone⟩
    · rintro ⟨j, c', conn', hj, hc', hnone⟩
      rw [href] at hj
      split at hj
      · cases hj
      next hne => exact ⟨j, c', conn', hj, (hother (hdiff hj hne)).symm.trans hc', hnone⟩

/-! ## The loops -/

/-- The slot points to nothing, in both states alike. -/
def StaysEmpty (s s' : State) : Prop :=
  ∀ (i : Nat) (slot : Slot), s.serverList[i]? = some slot → slot.servConn = none → s'.serverList[i]? = some slot

/-- A connection of the map is closed: an empty slot is left as it is. -/
theorem close_staysEmpty {hd : Nat} (h : Inv log s) (hmap : s.connMap[hd]? = some c) (hc : s.conns c = some conn) :
    StaysEmpty s (s.close c conn) := by
  intro i slot hslot hnull
  obtain ⟨-, conn', hc', -, hhandle, href⟩ := h.mapped hd c hmap
  rw [hc] at hc'
  cases hc'
  have hne : conn.servIdx ≠ i := by
    rintro rfl
    rw [slotRef_eq hslot, hnull] at href
    cases href
  unfold State.close
  rw [hhandle]
  exact (getElem?_modifySlot_ne s _ hne).trans hslot

/-- Closing leaves the other handles in the map. -/
theorem close_connMap {hd h' : Nat} (hhandle : conn.handle = some hd) (hne : hd ≠ h') :
    (s.close c conn).connMap[h']? = s.connMap[h']? := by
  unfold State.close
  rw [hhandle]
  simp [State.servReset, State.modifySlot, State.setConn, TreeMap.getElem?_erase, hne]

/-- And the servers started. -/
theorem close_started : (s.close c conn).started = s.started := by
  unfold State.close
  cases conn.handle <;> rfl

/-- What holds while the timers of the connections are called: the entries that are left are in the map. -/
structure TimersLeft (log0 : List Effect) (s0 : State) (log : List Effect) (entries : List (Nat × Nat)) (s : State) : Prop where
  inv : Inv log s
  silent : log = log0
  started : s.started = s0.started
  mapped : ∀ entry ∈ entries, s.connMap[entry.1]? = some entry.2
  distinct : entries.Pairwise fun a b => a.1 ≠ b.1
  empty : StaysEmpty s0 s

/-- The timer's turn for one connection. -/
theorem timersLeft_step {log0 : List Effect} {s0 : State} {tick : Nat} {entry : Nat × Nat} {entries : List (Nat × Nat)}
    (h : TimersLeft log0 s0 log (entry :: entries) s) (hstep : State.onTimer tick s entry = some (s', out)) :
    TimersLeft log0 s0 (log ++ out) entries s' := by
  have hmap := h.mapped entry List.mem_cons_self
  obtain ⟨-, conn, hc, -, hhandle, -⟩ := h.inv.mapped entry.1 entry.2 hmap
  have hdistinct := List.pairwise_cons.1 h.distinct
  unfold State.onTimer at hstep
  rw [hc] at hstep
  simp only at hstep
  split at hstep <;> cases hstep <;> rw [List.append_nil]
  · refine ⟨inv_close h.inv hmap hc, h.silent, close_started.trans h.started, fun other hother => ?_, hdistinct.2, ?_⟩
    · rw [close_connMap hhandle (hdistinct.1 other hother)]
      exact h.mapped other (List.mem_cons_of_mem entry hother)
    · intro i slot hslot hnull
      exact close_staysEmpty h.inv hmap hc i slot (h.empty i slot hslot hnull) hnull
  · exact ⟨h.inv, h.silent, h.started, fun other hother => h.mapped other (List.mem_cons_of_mem entry hother), hdistinct.2,
      h.empty⟩

/-- After the timers of the connections. -/
theorem timersLeft {tick : Nat} (h : Inv log s) (hsteps : Machine.steps (State.onTimer tick) s s.connMap.toList = some (s', out)) :
    TimersLeft log s (log ++ out) [] s' := by
  refine Machine.steps_invariant_rest (I := TimersLeft log s) timersLeft_step ?_ hsteps
  refine ⟨h, rfl, rfl, fun entry hentry => ?_, ?_, fun i slot hslot _ => hslot⟩
  · exact TreeMap.mem_toList_iff_getElem?_eq_some.1 hentry
  · exact TreeMap.distinct_keys_toList.imp fun hne heq => hne (Std.compare_eq_iff_eq.2 heq)

/-- What a connect leaves alone, and what it says. -/
theorem connect_frame {tick : Nat} {answer : Option Nat} (hstep : s.connect tick i slot answer = some (s', out)) :
    s'.started = s.started ∧ (∀ j, j ≠ i → s'.serverList[j]? = s.serverList[j]?) ∧
      out = [.connect i slot.serverIp slot.serverPort answer] := by
  unfold State.connect at hstep
  cases answer with
  | none =>
    cases hstep
    exact ⟨rfl, fun j hj => getElem?_modifySlot_ne _ _ (Ne.symm hj), rfl⟩
  | some hd =>
    simp only at hstep
    split at hstep
    · cases hstep
    · cases hstep
      exact ⟨rfl, fun j hj => getElem?_modifySlot_ne _ _ (Ne.symm hj), rfl⟩

/-- A turn of `serv_init` leaves the other slots. -/
theorem initSlot_frame {tick : Nat} {answers : Nat → Option Nat} (hstep : initSlot tick answers s i = some (s', out)) :
    s'.started = s.started ∧ ∀ j, j ≠ i → s'.serverList[j]? = s.serverList[j]? := by
  unfold initSlot at hstep
  cases hslot : s.serverList[i]? with
  | none =>
    rw [hslot] at hstep
    cases hstep
    exact ⟨rfl, fun j _ => rfl⟩
  | some slot =>
    simp only [hslot] at hstep
    cases hconnect : s.connect tick i slot (answers i) with
    | none =>
      rw [hconnect] at hstep
      cases hstep
    | some next =>
      obtain ⟨s1, out1⟩ := next
      rw [hconnect] at hstep
      cases hstep
      obtain ⟨hstarted, hother, -⟩ := connect_frame hconnect
      exact ⟨hstarted, fun j hj => (getElem?_modifySlot_ne s1 _ (Ne.symm hj)).trans (hother j hj)⟩

/-- A turn of `serv_init` for a slot that is empty. -/
theorem inv_initSlot {tick : Nat} {answers : Nat → Option Nat} (h : Inv log s) (hnull : slotRef s i = none)
    (hstep : initSlot tick answers s i = some (s', out)) : Inv (log ++ out) s' := by
  unfold initSlot at hstep
  cases hslot : s.serverList[i]? with
  | none =>
    rw [hslot] at hstep
    cases hstep
    rw [List.append_nil]
    exact h
  | some slot =>
    simp only [hslot] at hstep
    cases hconnect : s.connect tick i slot (answers i) with
    | none =>
      rw [hconnect] at hstep
      cases hstep
    | some next =>
      obtain ⟨s1, out1⟩ := next
      rw [hconnect] at hstep
      cases hstep
      have hsame : s.modifySlot i id = s := by
        rw [State.modifySlot, List.modify_id]
      rw [← hsame] at hconnect
      have h1 := inv_connect h hslot ((slotRef_eq hslot).symm.trans hnull) (fun slot => rfl) hconnect
      have hpositive : 0 < minReconnectCnt / 2 := by decide
      exact inv_modifySlot h1 i (fun slot => rfl) fun slot _ => ⟨hpositive, fun _ => hpositive⟩

/-- What holds while `serv_init` makes its turns: the slots that are left are empty. -/
structure InitLeft (log : List Effect) (rest : List Nat) (s : State) : Prop where
  inv : Inv log s
  started : s.started = true
  empty : ∀ i ∈ rest, slotRef s i = none
  distinct : rest.Nodup

/-- The turn of `serv_init` for one slot. -/
theorem initLeft_step {tick : Nat} {answers : Nat → Option Nat} {rest : List Nat} (h : InitLeft log (i :: rest) s)
    (hstep : initSlot tick answers s i = some (s', out)) : InitLeft (log ++ out) rest s' := by
  obtain ⟨hstarted, hother⟩ := initSlot_frame hstep
  have hdistinct := List.nodup_cons.1 h.distinct
  refine ⟨inv_initSlot h.inv (h.empty i List.mem_cons_self) hstep, hstarted.trans h.started, fun j hj => ?_, hdistinct.2⟩
  have hne : j ≠ i := by
    rintro rfl
    exact hdistinct.1 hj
  rw [slotRef, hother j hne]
  exact h.empty j (List.mem_cons_of_mem i hj)

/-! ### Reconnecting -/

/-- What a turn of `serv_check_reconnect` does: the slot is left alone, or counted, or counted and connected. -/
theorem checkSlot_cases {tick : Nat} {answers : Nat → Option Nat} (hstep : checkSlot tick answers s i = some (s', out)) :
    ((∀ slot, s.serverList[i]? = some slot → slot.servConn ≠ none) ∧ s' = s ∧ out = []) ∨
      ∃ slot, s.serverList[i]? = some slot ∧ slot.servConn = none ∧
        ((slot.idleCnt + 1 < slot.reconnectCnt ∧ out = [] ∧
            s' = s.modifySlot i fun slot' => { slot' with idleCnt := slot.idleCnt + 1 }) ∨
          slot.reconnectCnt ≤ slot.idleCnt + 1 ∧
            (s.modifySlot i fun slot' => { slot' with idleCnt := slot.idleCnt + 1 }).connect tick i slot (answers i) =
              some (s', out)) := by
  unfold checkSlot at hstep
  cases hslot : s.serverList[i]? with
  | none =>
    rw [hslot] at hstep
    cases hstep
    refine .inl ⟨fun slot h => ?_, rfl, rfl⟩
    cases h
  | some slot =>
    simp only [hslot] at hstep
    cases hconn : slot.servConn with
    | some c =>
      rw [hconn] at hstep
      cases hstep
      refine .inl ⟨fun slot' h => ?_, rfl, rfl⟩
      cases h
      rw [hconn]
      exact Option.some_ne_none c
    | none =>
      simp only [hconn] at hstep
      refine .inr ⟨slot, rfl, hconn, ?_⟩
      split at hstep
      next hdue => exact .inr ⟨hdue, hstep⟩
      next hwait =>
        cases hstep
        exact .inl ⟨by omega, rfl, rfl⟩

/-- The check of one slot keeps the invariant. -/
theorem inv_checkSlot {tick : Nat} {answers : Nat → Option Nat} (h : Inv log s)
    (hstep : checkSlot tick answers s i = some (s', out)) : Inv (log ++ out) s' := by
  rcases checkSlot_cases hstep with ⟨-, rfl, rfl⟩ | ⟨slot, hslot, hnull, ⟨hwait, rfl, rfl⟩ | ⟨-, hconnect⟩⟩
  · rw [List.append_nil]
    exact h
  · rw [List.append_nil]
    refine inv_modifySlot h i (fun slot' => rfl) fun slot' hslot' => ?_
    rw [hslot] at hslot'
    cases hslot'
    exact ⟨h.positive slot (List.mem_of_getElem? hslot), fun _ => hwait⟩
  · refine inv_connect h hslot hnull (fun slot' => ?_) hconnect
    rfl

/-- And starts no server. -/
theorem checkSlot_started {tick : Nat} {answers : Nat → Option Nat} (hstep : checkSlot tick answers s i = some (s', out)) :
    s'.started = s.started := by
  rcases checkSlot_cases hstep with ⟨-, rfl, rfl⟩ | ⟨slot, hslot, hnull, ⟨-, rfl, rfl⟩ | ⟨-, hconnect⟩⟩
  · rfl
  · rfl
  · exact (connect_frame hconnect).1

/-- What a slot is while `serv_check_reconnect` makes its turns, as long as no attempt is made for it: counted, once its turn
is over. -/
def CountedAfter (i : Nat) (slot : Slot) (log : List Effect) (rest : List Nat) (s : State) : Prop :=
  rest.Nodup ∧ ((∀ ip port answer, .connect i ip port answer ∉ log) →
    s.serverList[i]? = some { slot with idleCnt := slot.idleCnt + if i ∈ rest then 0 else 1 })

/-- A slot waiting for its turn keeps its count. -/
theorem countedAfter_step {tick : Nat} {answers : Nat → Option Nat} {rest : List Nat} (hnull : slot.servConn = none)
    (h : CountedAfter i slot log (j :: rest) s) (hstep : checkSlot tick answers s j = some (s', out)) :
    CountedAfter i slot (log ++ out) rest s' := by
  obtain ⟨hnotin, hnodup⟩ := List.nodup_cons.1 h.1
  refine ⟨hnodup, fun hsilent => ?_⟩
  have hslot := h.2 fun ip port answer hmem => hsilent ip port answer (List.mem_append_left out hmem)
  by_cases hj : j = i
  · -- the turn of the slot
    subst hj
    rw [if_pos List.mem_cons_self, Nat.add_zero] at hslot
    rw [if_neg hnotin]
    rcases checkSlot_cases hstep with ⟨hfull, -, -⟩ | ⟨slot', hslot', -, ⟨-, -, rfl⟩ | ⟨-, hconnect⟩⟩
    · exact absurd hnull (hfull slot hslot)
    · rw [hslot] at hslot'
      cases hslot'
      rw [getElem?_modifySlot, hslot]
      simp
    · obtain ⟨-, -, hout⟩ := connect_frame hconnect
      exact absurd (List.mem_append_right log (hout ▸ List.mem_singleton_self _)) (hsilent _ _ _)
  · -- the turn of another slot
    have hmem : i ∈ j :: rest ↔ i ∈ rest := by simp [Ne.symm hj]
    have hsame : s'.serverList[i]? = s.serverList[i]? := by
      rcases checkSlot_cases hstep with ⟨-, rfl, -⟩ | ⟨slot', -, -, ⟨-, -, rfl⟩ | ⟨-, hconnect⟩⟩
      · rfl
      · exact getElem?_modifySlot_ne s _ hj
      · exact ((connect_frame hconnect).2.1 i (Ne.symm hj)).trans (getElem?_modifySlot_ne s _ hj)
    rw [hsame, hslot]
    simp only [hmem]

/-! ## Steps -/

/-- What the map finds is a live connection. -/
theorem find_some {hd : Nat} (hfind : s.find hd = some (c, conn)) : s.connMap[hd]? = some c ∧ s.conns c = some conn := by
  unfold find at hfind
  cases hmap : s.connMap[hd]? with
  | none =>
    rw [hmap] at hfind
    cases hfind
  | some c' =>
    rw [hmap] at hfind
    obtain ⟨conn', hconn, heq⟩ := Option.map_eq_some_iff.1 hfind
    cases heq
    exact ⟨rfl, hconn⟩

/-- The invariant; and before `serv_init` all slots are empty. -/
structure Reached (log : List Effect) (s : State) : Prop extends Inv log s where
  notStarted : s.started = false → ∀ i, slotRef s i = none

/-- The beginning is reached. -/
theorem reached_init (config : List (String × Nat)) : Reached [] (State.init config) := by
  refine ⟨inv_init config, fun _ i => ?_⟩
  cases hi : (State.init config).serverList[i]? with
  | none => rw [slotRef, hi, Option.bind_none]
  | some slot =>
    obtain ⟨server, -, rfl⟩ := List.mem_map.1 (List.mem_of_getElem? hi)
    rw [slotRef_eq hi]

/-- A connection of the map belongs to a slot, so `serv_init` has been. -/
theorem started_of_mapped {hd : Nat} (h : Reached log s) (hmap : s.connMap[hd]? = some c) : s.started = true := by
  cases hstarted : s.started with
  | true => rfl
  | false =>
    obtain ⟨-, conn, -, -, -, href⟩ := h.mapped hd c hmap
    rw [h.notStarted hstarted] at href
    cases href

/-- What the steps are for an invariant that only holds once started. -/
theorem reached_of_started (h : Inv log s) (hstarted : s.started = true) : Reached log s :=
  ⟨h, fun hf => by rw [hstarted] at hf; cases hf⟩

/-- And so is what each step leads to. -/
theorem reached_step {e : Event} (h : Reached log s) (hstep : State.step s e = some (s', out)) : Reached (log ++ out) s' := by
  cases e with
  | servInit tick answers =>
    simp only [State.step] at hstep
    split at hstep
    · cases hstep
    next hnot =>
      have hnull := h.notStarted (Bool.eq_false_iff.2 hnot)
      have hleft : InitLeft log s.indices { s with started := true } :=
        ⟨⟨h.fresh, h.mapped, h.slots, h.positive, h.idle, h.failed⟩, rfl, fun i _ => hnull i, List.nodup_range⟩
      have hend := Machine.steps_invariant_rest (I := InitLeft) initLeft_step hleft hstep
      exact reached_of_started hend.inv hend.started
  | timer tick answers =>
    simp only [State.step] at hstep
    split at hstep
    next hstarted =>
      cases htimers : Machine.steps (State.onTimer tick) s s.connMap.toList with
      | none =>
        rw [htimers] at hstep
        cases hstep
      | some next =>
        obtain ⟨s1, out1⟩ := next
        simp only [htimers] at hstep
        have hleft := timersLeft h.toInv htimers
        have hinv := hleft.inv
        rw [hleft.silent] at hinv
        have hend := Machine.steps_invariant_log (P := fun _ => True)
          (I := fun log s => Inv log s ∧ s.started = true)
          (fun hi _ hs => ⟨inv_checkSlot hi.1 hs, (checkSlot_started hs).trans hi.2⟩)
          ⟨hinv, hleft.started.trans hstarted⟩ (fun _ _ => trivial) hstep
        exact reached_of_started hend.1 hend.2
    · cases hstep
  | confirm handle =>
    simp only [State.step] at hstep
    split at hstep
    · cases hstep
      rw [List.append_nil]
      exact h
    next c conn hfind =>
      cases hstep
      rw [List.append_nil]
      obtain ⟨hmap, hc⟩ := find_some hfind
      have hstarted := started_of_mapped h hmap
      have hset : Inv log (s.setConn c { conn with isOpen := true }) := inv_setConn h.toInv hc rfl rfl rfl
      obtain ⟨-, conn', hc', -, -, href⟩ := h.mapped handle c hmap
      rw [hc] at hc'
      cases hc'
      refine reached_of_started (inv_modifySlot hset conn.servIdx (fun _ => rfl) fun slot hslot => ⟨by simp [minReconnectCnt], ?_⟩)
        hstarted
      intro hnull
      rw [slotRef, show s.serverList[conn.servIdx]? = some slot from hslot, Option.bind_some, hnull] at href
      cases href
  | close handle =>
    simp only [State.step] at hstep
    split at hstep
    · cases hstep
      rw [List.append_nil]
      exact h
    next c conn hfind =>
      cases hstep
      rw [List.append_nil]
      obtain ⟨hmap, hc⟩ := find_some hfind
      exact reached_of_started (inv_close h.toInv hmap hc) (close_started.trans (started_of_mapped h hmap))
  | read handle tick =>
    simp only [State.step] at hstep
    split at hstep
    · cases hstep
      rw [List.append_nil]
      exact h
    next c conn hfind =>
      cases hstep
      rw [List.append_nil]
      obtain ⟨hmap, hc⟩ := find_some hfind
      have hstarted := started_of_mapped h hmap
      exact reached_of_started (inv_setConn h.toInv hc rfl rfl rfl) hstarted

/-- A step that makes no attempt for an empty slot leaves it empty, and counts the timer. -/
theorem empty_step {e : Event} (h : Reached log s) (hstarted : s.started = true) (hslot : s.serverList[i]? = some slot)
    (hnull : slot.servConn = none) (hstep : State.step s e = some (s', out))
    (hsilent : ∀ ip port answer, .connect i ip port answer ∉ out) :
    s'.started = true ∧
      s'.serverList[i]? = some { slot with idleCnt := slot.idleCnt + if e.isTimer = true then 1 else 0 } := by
  have hne : ∀ {hd c conn}, s.find hd = some (c, conn) → conn.servIdx ≠ i := by
    rintro hd c conn hfind rfl
    obtain ⟨hmap, hc⟩ := find_some hfind
    obtain ⟨-, conn', hc', -, -, href⟩ := h.mapped hd c hmap
    rw [hc] at hc'
    cases hc'
    rw [slotRef_eq hslot, hnull] at href
    cases href
  cases e with
  | servInit tick answers =>
    simp only [State.step, if_pos hstarted] at hstep
    cases hstep
  | timer tick answers =>
    simp only [State.step, if_pos hstarted] at hstep
    cases htimers : Machine.steps (State.onTimer tick) s s.connMap.toList with
    | none =>
      rw [htimers] at hstep
      cases hstep
    | some next =>
      obtain ⟨s1, out1⟩ := next
      simp only [htimers] at hstep
      have hleft := timersLeft h.toInv htimers
      have hslot1 := hleft.empty i slot hslot hnull
      have hmem : i ∈ s1.indices := List.mem_range.2 (List.getElem?_eq_some_iff.1 hslot1).1
      have hbegin : CountedAfter i slot [] s1.indices s1 := by
        refine ⟨List.nodup_range, fun _ => ?_⟩
        rw [if_pos hmem]
        exact hslot1
      have hend := Machine.steps_invariant_rest (I := CountedAfter i slot) (countedAfter_step hnull) hbegin hstep
      have hstarted' := Machine.steps_invariant (P := fun _ => True) (I := fun s => s.started = true)
        (fun hi _ hs => (checkSlot_started hs).trans hi) (hleft.started.trans hstarted) (fun _ _ => trivial) hstep
      exact ⟨hstarted', by simpa [Event.isTimer] using hend.2 hsilent⟩
  | confirm handle =>
    simp only [State.step] at hstep
    split at hstep
    · cases hstep
      exact ⟨hstarted, hslot⟩
    next c conn hfind =>
      cases hstep
      exact ⟨hstarted, (getElem?_modifySlot_ne _ _ (hne hfind)).trans hslot⟩
  | close handle =>
    simp only [State.step] at hstep
    split at hstep
    · cases hstep
      exact ⟨hstarted, hslot⟩
    next c conn hfind =>
      cases hstep
      obtain ⟨hmap, hc⟩ := find_some hfind
      exact ⟨close_started.trans hstarted, close_staysEmpty h.toInv hmap hc i slot hslot hnull⟩
  | read handle tick =>
    simp only [State.step] at hstep
    split at hstep <;> cases hstep <;> exact ⟨hstarted, hslot⟩

/-- As long as no attempt is made for an empty slot, the timers that are called are fewer than the slot says. -/
theorem ticks_lt {es : List Event} (h : Reached log s) (hstarted : s.started = true) (hslot : s.serverList[i]? = some slot)
    (hnull : slot.servConn = none) (hsteps : Machine.steps State.step s es = some (s', out))
    (hsilent : ∀ ip port answer, .connect i ip port answer ∉ out) :
    slot.idleCnt + es.countP Event.isTimer < slot.reconnectCnt := by
  induction es generalizing log s slot out with
  | nil => exact h.idle slot (List.mem_of_getElem? hslot) hnull
  | cons e es ih =>
    rw [Machine.steps] at hsteps
    cases hfirst : State.step s e with
    | none =>
      rw [hfirst] at hsteps
      cases hsteps
    | some next =>
      obtain ⟨s1, out1⟩ := next
      simp only [hfirst] at hsteps
      cases hrest : Machine.steps State.step s1 es with
      | none =>
        rw [hrest] at hsteps
        cases hsteps
      | some last =>
        obtain ⟨s2, out2⟩ := last
        rw [hrest] at hsteps
        cases hsteps
        obtain ⟨hstarted1, hslot1⟩ := empty_step h hstarted hslot hnull hfirst fun ip port answer hmem =>
          hsilent ip port answer (List.mem_append_left out2 hmem)
        have := ih (reached_step h hfirst) hstarted1 hslot1 hnull hrest fun ip port answer hmem =>
          hsilent ip port answer (List.mem_append_right out1 hmem)
        rw [List.countP_cons]
        simp only at this
        omega

end ServInfoAux

open ServInfoAux

/-- In every run, after `serv_init` the slots can be retried, if and only if no attempt to connect has failed at once. -/
theorem slots_retriable_iff (config : List (String × Nat)) {log : List Effect} {s : State}
    (h : Machine.Run State.step (fun _ _ => True) (State.init config) log s) : Retriable s ↔ ¬Failed log := by
  have hreached : Reached log s := h.invariant (I := Reached) (reached_init config) fun hinv _ hs => reached_step hinv hs
  constructor
  · intro hretriable hfailed
    obtain ⟨i, c, conn, href, hc, hnone⟩ := hreached.failed.1 hfailed
    obtain ⟨slot, hslot, hpoints⟩ := Option.bind_eq_some_iff.1 href
    have hstarted : s.started = true := by
      cases hs : s.started with
      | true => rfl
      | false =>
        rw [hreached.notStarted hs] at href
        cases href
    obtain ⟨conn', hd, hc', -, hhandle, -⟩ := (hretriable hstarted i slot hslot).1 c hpoints
    rw [hc] at hc'
    cases hc'
    rw [hnone] at hhandle
    cases hhandle
  · intro hfailed hstarted i slot hslot
    refine ⟨fun c hpoints => ?_, fun hnull es s' out hsteps hticks => ?_⟩
    · have href := (slotRef_eq hslot).trans hpoints
      obtain ⟨conn, hc, halive, hidx, hmap⟩ := hreached.slots i c href
      cases hhandle : conn.handle with
      | none => exact absurd (hreached.failed.2 ⟨i, c, conn, href, hc, hhandle⟩) hfailed
      | some hd => exact ⟨conn, hd, hc, halive, hhandle, hmap hd hhandle⟩
    · by_contra hno
      have := ticks_lt hreached hstarted hslot hnull hsteps fun ip port answer hmem => hno ⟨ip, port, answer, hmem⟩
      omega

/-- One server, and the attempt for it fails at once. -/
def refused : Option (State × List Effect) :=
  Machine.steps State.step (State.init [("10.0.0.1", 8600)]) [.servInit 0 fun _ => none]

/-- One server, and the attempt for it does not fail at once. -/
def accepted : Option (State × List Effect) :=
  Machine.steps State.step (State.init [("10.0.0.1", 8600)]) [.servInit 0 fun _ => some 7]

/-- The run in which a connection is accepted leaves every slot retriable. -/
theorem slots_retriable_iff_accepted : ∃ s log, accepted = some (s, log) ∧ Retriable s := by
  cases hrun : accepted with
  | none =>
    have hsome : accepted.isSome = true := by decide
    rw [hrun] at hsome
    cases hsome
  | some last =>
    obtain ⟨s, log⟩ := last
    have hlog : accepted.map Prod.snd = some [.connect 0 "10.0.0.1" 8600 (some 7)] := by decide
    rw [hrun] at hlog
    cases hlog
    refine ⟨s, _, rfl, (slots_retriable_iff _ (Machine.Run.of_steps (fun _ _ => trivial) .start hrun)).2 ?_⟩
    simp [Failed]

/-- The attempt fails at once, and the slot holds a connection that is in no map. -/
theorem slots_not_retriable : ¬∀ config log s,
    Machine.Run State.step (fun _ _ => True) (State.init config) log s → Retriable s := by
  intro hclaim
  cases hrun : refused with
  | none =>
    have hsome : refused.isSome = true := by decide
    rw [hrun] at hsome
    cases hsome
  | some last =>
    obtain ⟨s, log⟩ := last
    have hretriable := hclaim _ _ s (Machine.Run.of_steps (fun _ _ => trivial) .start hrun)
    have hstarted : refused.map (fun last => last.1.started) = some true := by decide
    have hslots : refused.map (fun last => (last.1.serverList[0]?).map Slot.servConn) = some (some (some 0)) := by decide
    have hconn : refused.map (fun last => (last.1.conns 0).map ServConn.handle) = some (some none) := by decide
    rw [hrun] at hstarted hslots hconn
    obtain ⟨slot, hslot, hpoints⟩ := Option.map_eq_some_iff.1 (Option.some.inj hslots)
    obtain ⟨conn, hd, hc, -, hhandle, -⟩ := (hretriable (Option.some.inj hstarted) 0 slot hslot).1 0 hpoints
    obtain ⟨conn', hc', hnone⟩ := Option.map_eq_some_iff.1 (Option.some.inj hconn)
    rw [hc] at hc'
    cases hc'
    rw [hnone] at hhandle
    cases hhandle

end TeamTalk.ServInfo
