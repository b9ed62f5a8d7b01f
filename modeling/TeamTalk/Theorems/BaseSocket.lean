import TeamTalk.Base.BaseSocket
import TeamTalk.Lib.Potential

/-!
# The references of sockets

A socket has as many references as it has holders: the map, the event that is dispatched, and the calls of `netlib_option` that kept one.
So no deleted socket is used, and a socket is deleted, once, when the last holder lets go. A socket that has left the map and is not
dispatched makes no more callbacks.
-/

namespace TeamTalk.Netlib

open Potential

/-! ## The holders -/

/-- The map, and the event that is dispatched. -/
def holders (s : State) (id : SocketId) (b : BaseSocket) : Nat :=
  (s.socketMap b.socket == some id).toNat + (s.dispatch.any (·.socket == id)).toNat

/-- Whether a socket has been deleted. -/
def deletions (b : BaseSocket) : Nat := if b.refCount = 0 then 1 else 0

/-- The socket that makes a callback, is deleted, is kept, or is not watched. -/
def Output.socket : Output → Option SocketId
  | .callback id _ _ _ _ | .deleted id | .kept id | .unwatched id => some id
  | .undefined => none

namespace BaseSocketAux

variable {s : State} {held held' : List SocketId} {log out : List Output} {id : SocketId} {b b' : BaseSocket} {handle : Handle}

/-- The references, the descriptors and the deletions are in order, with the references that the step in progress holds. -/
structure Inv (held : List SocketId) (log : List Output) (s : State) : Prop where
  fds : ∀ h, s.opened h = (s.socketMap h).isSome ∧ s.watched h = (s.socketMap h).any fun id => .unwatched id ∉ log
  mapped : ∀ h id, s.socketMap h = some id → ∃ b, s.sockets[id]? = some b ∧ b.socket = h
  refs : ∀ id b, s.sockets[id]? = some b → b.refCount = holders s id b + log.count (.kept id) + held.count id
  known : ∀ id ∈ held, id < s.sockets.length
  dispatched : ∀ d, s.dispatch = some d → d.socket < s.sockets.length
  deleted : ∀ id, log.count (.deleted id) = (s.sockets[id]?).elim 0 deletions
  kept : ∀ id, s.sockets.length ≤ id → log.count (.kept id) = 0 ∧ .unwatched id ∉ log
  defined : Output.undefined ∉ log

/-- The invariant holds before the first socket. -/
theorem inv_init : Inv [] [] State.init := by
  refine ⟨fun h => ⟨rfl, rfl⟩, ?_, ?_, ?_, ?_, fun id => rfl, fun id _ => ⟨rfl, List.not_mem_nil⟩, List.not_mem_nil⟩
  · intro h id hid
    cases hid
  · intro id b hb
    cases hb
  · intro id hid
    cases hid
  · intro d hd
    cases hd

/-- A held socket has not been deleted. -/
theorem Inv.live (h : Inv held log s) (hid : id ∈ held) : ∃ b, s.sockets[id]? = some b ∧ b.refCount ≠ 0 := by
  have hb := List.getElem?_eq_getElem (h.known id hid)
  refine ⟨_, hb, ?_⟩
  have hrefs := h.refs id _ hb
  have hpos : 0 < held.count id := List.count_pos_iff.2 hid
  omega

/-- Nor has one that is in the map. -/
theorem Inv.live_of_mapped (h : Inv held log s) (hmap : s.socketMap handle = some id) :
    ∃ b, s.sockets[id]? = some b ∧ b.socket = handle ∧ b.refCount ≠ 0 := by
  obtain ⟨b, hb, hsocket⟩ := h.mapped handle id hmap
  refine ⟨b, hb, hsocket, ?_⟩
  have hrefs := h.refs id b hb
  rw [holders, hsocket, hmap, beq_self_eq_true, Bool.toNat_true] at hrefs
  omega

/-- A method of a live socket runs. -/
theorem use_eq {f : BaseSocket → State × List Output} (hb : s.sockets[id]? = some b) (hlive : b.refCount ≠ 0) : s.use id f = f b := by
  rw [State.use, hb]
  exact if_neg hlive

/-- Which descriptors are watched does not depend on what else is put out. -/
theorem watched_append (hout : ∀ j, .unwatched j ∉ out) (o : Option SocketId) :
    (o.any fun id => decide (.unwatched id ∉ log ++ out)) = o.any fun id => decide (.unwatched id ∉ log) := by
  cases o with
  | none => rfl
  | some id => simp [hout id]

/-- One socket changes, with the references to it. -/
theorem Inv.set (h : Inv held log s) (hb : s.sockets[id]? = some b) (hsocket : b'.socket = b.socket)
    (hheld : ∀ j, j ≠ id → held'.count j = held.count j) (hknown : ∀ j ∈ held', j < s.sockets.length)
    (hrefs : b'.refCount + held.count id = b.refCount + held'.count id) (hout : ∀ j, j ≠ id → out.count (.deleted j) = 0)
    (hdeleted : deletions b + out.count (.deleted id) = deletions b') (hkept : ∀ j, out.count (.kept j) = 0)
    (hunwatched : ∀ j, .unwatched j ∉ out) (hdefined : .undefined ∉ out) :
    Inv held' (log ++ out) { s with sockets := s.sockets.set id b' } := by
  refine ⟨fun x => by rw [watched_append hunwatched]; exact h.fds x, fun x j hj => ?_, fun j c hc => ?_, ?_, ?_, fun j => ?_, fun j hj => ?_, ?_⟩
  · obtain ⟨c, hc, hcs⟩ := h.mapped x j hj
    by_cases hji : j = id
    · subst hji
      obtain rfl := Option.some.inj (hb.symm.trans hc)
      exact ⟨b', getElem?_set_self_of_some hb b', hsocket.trans hcs⟩
    · exact ⟨c, (getElem?_set_of_ne hji b').trans hc, hcs⟩
  · rw [List.count_append, hkept, Nat.add_zero]
    rcases getElem?_set_some hc with ⟨rfl, rfl⟩ | ⟨hji, hc⟩
    · have hbefore := h.refs j b hb
      simp only [holders] at hbefore ⊢
      rw [hsocket]
      omega
    · rw [hheld j hji]
      exact h.refs j c hc
  · simpa using hknown
  · simpa using h.dispatched
  · rw [List.count_append, h.deleted]
    by_cases hji : j = id
    · subst hji
      simp only [hb, getElem?_set_self_of_some hb b', Option.elim_some]
      exact hdeleted
    · rw [hout j hji, Nat.add_zero]
      simp only [getElem?_set_of_ne hji b']
  · obtain ⟨hcount, hmem⟩ := h.kept j (by simpa using hj)
    rw [List.count_append, hkept, Nat.add_zero, List.mem_append, not_or]
    exact ⟨hcount, hmem, hunwatched j⟩
  · simp only [List.mem_append, not_or]
    exact ⟨h.defined, hdefined⟩

/-- Outputs that are neither a deletion nor a reference that is kept. -/
theorem Inv.callbacks (h : Inv held log s)
    (hout : ∀ o ∈ out, ∃ id callback data msg handle, o = .callback id callback data msg handle) :
    Inv held (log ++ out) s := by
  have hnone : ∀ o : Output, (∀ id callback data msg handle, o ≠ .callback id callback data msg handle) → out.count o = 0 := by
    intro o ho
    refine List.count_eq_zero.2 fun hmem => ?_
    obtain ⟨id, callback, data, msg, handle, rfl⟩ := hout o hmem
    exact ho _ _ _ _ _ rfl
  have hdeleted : ∀ id, out.count (.deleted id) = 0 := fun id => hnone _ (by intros; intro heq; cases heq)
  have hkept : ∀ id, out.count (.kept id) = 0 := fun id => hnone _ (by intros; intro heq; cases heq)
  have hunwatched : ∀ id, .unwatched id ∉ out := fun id => List.count_eq_zero.1 (hnone _ (by intros; intro heq; cases heq))
  refine ⟨fun x => by rw [watched_append hunwatched]; exact h.fds x, h.mapped, fun id b hb => ?_, h.known, h.dispatched, fun id => ?_,
    fun id hid => ?_, ?_⟩
  · rw [List.count_append, hkept, Nat.add_zero]
    exact h.refs id b hb
  · rw [List.count_append, hdeleted, Nat.add_zero]
    exact h.deleted id
  · rw [List.count_append, hkept, Nat.add_zero, List.mem_append, not_or]
    exact ⟨(h.kept id hid).1, (h.kept id hid).2, hunwatched id⟩
  · simp only [List.mem_append, not_or]
    exact ⟨h.defined, List.count_eq_zero.1 (hnone _ (by intros; intro heq; cases heq))⟩

/-- Something other than the references of a socket changes. -/
theorem Inv.update (h : Inv held log s) (hb : s.sockets[id]? = some b) (hsocket : b'.socket = b.socket)
    (hrefs : b'.refCount = b.refCount) : Inv held log { s with sockets := s.sockets.set id b' } := by
  have hset : Inv held (log ++ []) { s with sockets := s.sockets.set id b' } :=
    h.set hb hsocket (fun _ _ => rfl) h.known (by rw [hrefs]) (fun _ _ => rfl) (by simp [deletions, hrefs]) (fun _ => rfl)
      (fun _ => List.not_mem_nil) List.not_mem_nil
  rwa [List.append_nil] at hset

/-- The event stays with its socket. -/
theorem Inv.redispatch (h : Inv held log s) {d : Dispatch} {rest : List Handler} (hd : s.dispatch = some d) :
    Inv held log { s with dispatch := some ⟨d.socket, rest⟩ } := by
  obtain ⟨fds, mapped, refs, known, dispatched, deleted, kept, defined⟩ := h
  refine ⟨fds, mapped, fun id b hb => ?_, known, fun e he => ?_, deleted, kept, defined⟩
  · have hbefore := refs id b hb
    rw [holders, hd, Option.any_some] at hbefore
    rw [holders, Option.any_some]
    exact hbefore
  · cases he
    exact dispatched d hd

/-! ## References -/

/-- One more reference, and one more holder. -/
theorem Inv.addRef (h : Inv held log s) (hb : s.sockets[id]? = some b) (hlive : b.refCount ≠ 0) :
    Inv (id :: held) (log ++ (s.addRef id).2) (s.addRef id).1 := by
  obtain ⟨hid, -⟩ := List.getElem?_eq_some_iff.1 hb
  rw [State.addRef, use_eq hb hlive]
  refine h.set hb rfl (fun j hj => List.count_cons_of_ne (Ne.symm hj)) ?_ ?_ (fun _ _ => rfl) ?_ (fun _ => rfl)
    (fun _ => List.not_mem_nil) List.not_mem_nil
  · exact List.forall_mem_cons.2 ⟨hid, h.known⟩
  · simp only [List.count_cons_self]
    omega
  · simp [deletions, hlive]

/-- One holder less, and the socket goes with the last. -/
theorem Inv.releaseRef (h : Inv (id :: held) log s) : Inv held (log ++ (s.releaseRef id).2) (s.releaseRef id).1 := by
  obtain ⟨b, hb, hlive⟩ := h.live List.mem_cons_self
  rw [State.releaseRef, use_eq hb hlive]
  refine h.set hb rfl (fun j hj => (List.count_cons_of_ne (Ne.symm hj)).symm) (fun j hj => h.known j (List.mem_cons_of_mem id hj)) ?_
    (fun j hj => ?_) ?_ (fun j => ?_) (fun j => ?_) ?_
  · simp only [List.count_cons_self]
    omega
  · split
    · exact List.count_eq_zero.2 fun hmem => hj (Output.deleted.inj (List.mem_singleton.1 hmem))
    · rfl
  · by_cases hone : b.refCount = 1
    · simp [deletions, hone]
    · have htwo : b.refCount - 1 ≠ 0 := by omega
      simp [deletions, hone, hlive, htwo]
  · split <;> simp
  · split <;> simp
  · split <;> simp

/-- After a use, the next one finds what the first has left. -/
theorem Inv.andThen {x : State × List Output} {f : State → State × List Output} (hx : Inv held (log ++ x.2) x.1)
    (hf : ∀ log s, Inv held log s → Inv held' (log ++ (f s).2) (f s).1) :
    Inv held' (log ++ (Netlib.andThen x f).2) (Netlib.andThen x f).1 := by
  unfold Netlib.andThen
  rw [← List.append_assoc]
  exact hf _ _ hx

/-- A socket that is found is held while it is used. -/
theorem Inv.withSocket {f : SocketId → State → State × List Output} (h : Inv held log s)
    (hf : ∀ id log s', s.socketMap handle = some id → s'.socketMap = s.socketMap → s'.dispatch = s.dispatch → Inv (id :: held) log s' →
      Inv held (log ++ (f id s').2) (f id s').1) : Inv held (log ++ (s.withSocket handle f).2) (s.withSocket handle f).1 := by
  rw [State.withSocket]
  cases hmap : s.socketMap handle with
  | none =>
    rw [List.append_nil]
    exact h
  | some id =>
    obtain ⟨b, hb, -, hlive⟩ := h.live_of_mapped hmap
    have hadd := h.addRef hb hlive
    have heq : s.addRef id = ({ s with sockets := s.sockets.set id { b with refCount := b.refCount + 1 } }, []) := use_eq hb hlive
    unfold Netlib.andThen
    rw [← List.append_assoc]
    exact hf id _ _ hmap (by rw [heq]) (by rw [heq]) hadd

/-- A use that only looks. -/
theorem Inv.look (h : Inv held log s) (hid : id ∈ held) :
    Inv held (log ++ (s.use id fun _ => (s, [])).2) (s.use id fun _ => (s, [])).1 := by
  obtain ⟨b, hb, hlive⟩ := h.live hid
  rw [use_eq hb hlive, List.append_nil]
  exact h

/-! ## The functions of netlib -/

/-- `newSocket` puts out one thing at most: that its socket is not watched. -/
theorem mem_newSocket {added : Bool} {o : Output} (ho : o ∈ (s.newSocket b added).2) : added = false ∧ o = .unwatched s.sockets.length := by
  cases added with
  | true => exact absurd ho List.not_mem_nil
  | false => exact ⟨rfl, List.mem_singleton.1 ho⟩

/-- A new socket has one reference, from the map. -/
theorem Inv.newSocket (h : Inv held log s) (hopen : s.opened b.socket = false) (hone : b.refCount = 1) (added : Bool) :
    Inv held (log ++ (s.newSocket b added).2) (s.newSocket b added).1 := by
  have hnone : s.socketMap b.socket = none := by
    have hfds := (h.fds b.socket).1
    rw [hopen] at hfds
    exact Option.not_isSome_iff_eq_none.1 (by rw [← hfds]; exact Bool.false_ne_true)
  have hmap : addBaseSocket s.socketMap b.socket s.sockets.length = put s.socketMap b.socket (some s.sockets.length) := by
    rw [addBaseSocket, hnone]
    rfl
  have hold : ∀ {id c}, s.sockets[id]? = some c → id < s.sockets.length := fun hc => (List.getElem?_eq_some_iff.1 hc).1
  have hcount : ∀ o, (∀ id, o ≠ .unwatched id) → (s.newSocket b added).2.count o = 0 :=
    fun o ho => List.count_eq_zero.2 fun hmem => ho _ (mem_newSocket hmem).2
  have hdeleted : ∀ id, (s.newSocket b added).2.count (.deleted id) = 0 := fun id => hcount _ fun _ heq => by cases heq
  have hkept : ∀ id, (s.newSocket b added).2.count (.kept id) = 0 := fun id => hcount _ fun _ heq => by cases heq
  have hother : ∀ id, id ≠ s.sockets.length → .unwatched id ∉ (s.newSocket b added).2 :=
    fun id hne hmem => hne (Output.unwatched.inj (mem_newSocket hmem).2)
  obtain ⟨fds, mapped, refs, known, dispatched, deleted, kept, defined⟩ := h
  refine ⟨fun x => ?_, fun x j hj => ?_, fun j c hc => ?_, fun j hj => ?_, fun d hd => ?_, fun j => ?_, fun j hj => ?_, ?_⟩
  · simp only [State.newSocket, hmap, put]
    split
    · refine ⟨rfl, ?_⟩
      -- nothing was known of the new socket
      have hnew := (kept _ le_rfl).2
      cases added <;> simp [hnew]
    · refine ⟨(fds x).1, ?_⟩
      rw [(fds x).2]
      cases hx : s.socketMap x with
      | none => rfl
      | some id =>
        obtain ⟨c, hc, -⟩ := mapped x id hx
        have hne := (hold hc).ne
        cases added <;> simp [hne]
  · simp only [State.newSocket, hmap, put] at hj ⊢
    split at hj
    · rename_i hx
      cases hj
      exact ⟨b, List.getElem?_concat_length, hx.symm⟩
    · obtain ⟨c, hc, hcs⟩ := mapped x j hj
      exact ⟨c, (List.getElem?_append_left (hold hc)).trans hc, hcs⟩
  · rw [List.count_append, hkept, Nat.add_zero]
    simp only [State.newSocket, hmap] at hc ⊢
    rcases lt_or_ge j s.sockets.length with hlt | hge
    · have hc' : s.sockets[j]? = some c := by rwa [List.getElem?_append_left hlt] at hc
      have hbefore := refs j c hc'
      simp only [holders, put] at hbefore ⊢
      by_cases hsame : c.socket = b.socket
      · -- an old socket with the same number is no longer in the map
        have hother : (some s.sockets.length == some j) = false := beq_false_of_ne fun heq => hlt.ne (Option.some.inj heq).symm
        rw [hsame, hnone] at hbefore
        rw [if_pos hsame, hother]
        exact hbefore
      · rw [if_neg hsame]
        exact hbefore
    · rw [List.getElem?_append_right hge] at hc
      obtain rfl := List.mem_singleton.1 (List.mem_of_getElem? hc)
      obtain ⟨hz, -⟩ := List.getElem?_eq_some_iff.1 hc
      rw [List.length_singleton] at hz
      obtain rfl : j = s.sockets.length := Nat.le_antisymm (Nat.sub_eq_zero_iff_le.1 (Nat.lt_one_iff.1 hz)) hge
      have hheld : held.count s.sockets.length = 0 := List.count_eq_zero.2 fun hmem => absurd (known _ hmem) (lt_irrefl _)
      have hdispatch : s.dispatch.any (·.socket == s.sockets.length) = false := by
        cases hd : s.dispatch with
        | none => rfl
        | some d => simpa using (dispatched d hd).ne
      simp [holders, put, hone, hheld, hdispatch, (kept _ le_rfl).1]
  · simp only [State.newSocket, List.length_append, List.length_singleton]
    exact (known j hj).trans (Nat.lt_succ_self _)
  · simp only [State.newSocket, List.length_append, List.length_singleton]
    exact (dispatched d hd).trans (Nat.lt_succ_self _)
  · rw [List.count_append, hdeleted, Nat.add_zero, deleted j]
    simp only [State.newSocket]
    rcases lt_trichotomy j s.sockets.length with hlt | rfl | hgt
    · rw [List.getElem?_append_left hlt]
    · simp [deletions, hone]
    · rw [List.getElem?_eq_none hgt.le, List.getElem?_eq_none (by simpa using hgt)]
  · have hlt : s.sockets.length < j := by
      simp only [State.newSocket, List.length_append, List.length_singleton] at hj
      exact hj
    rw [List.count_append, hkept, Nat.add_zero, List.mem_append, not_or]
    exact ⟨(kept j hlt.le).1, (kept j hlt.le).2, hother j hlt.ne'⟩
  · rw [List.mem_append, not_or]
    exact ⟨defined, fun hmem => by cases (mem_newSocket hmem).2⟩

/-- Closing takes a socket out of the map, and its reference with it. -/
theorem Inv.closeSocket (h : Inv held log s) (hid : id ∈ held) (hmap : s.socketMap handle = some id) :
    Inv held (log ++ (s.closeSocket id).2) (s.closeSocket id).1 := by
  obtain ⟨b, hb, hsocket, hlive⟩ := h.live_of_mapped hmap
  have hin := h.known id hid
  rw [State.closeSocket, use_eq hb hlive]
  refine Inv.releaseRef ?_
  rw [hsocket]
  obtain ⟨fds, mapped, refs, known, dispatched, deleted, kept, defined⟩ := h
  refine ⟨fun x => ?_, fun x j hj => ?_, fun j c hc => ?_, List.forall_mem_cons.2 ⟨hin, known⟩, dispatched, deleted, kept, defined⟩
  · simp only [put]
    split
    · exact ⟨rfl, rfl⟩
    · exact fds x
  · simp only [put] at hj
    split at hj
    · cases hj
    · exact mapped x j hj
  · have hbefore := refs j c hc
    simp only [holders, put] at hbefore ⊢
    by_cases hji : j = id
    · subst hji
      obtain rfl := Option.some.inj (hb.symm.trans hc)
      rw [hsocket, hmap, beq_self_eq_true, Bool.toNat_true] at hbefore
      rw [if_pos hsocket, List.count_cons_self]
      have hout : ((none : Option SocketId) == some j).toNat = 0 := rfl
      omega
    · rw [List.count_cons_of_ne (Ne.symm hji)]
      by_cases hsame : c.socket = handle
      · have hother : (some id == some j) = false := beq_false_of_ne fun heq => hji (Option.some.inj heq).symm
        rw [hsame, hmap, hother] at hbefore
        rw [if_pos hsame]
        exact hbefore
      · rw [if_neg hsame]
        exact hbefore

/-- Reads and writes keep the invariant. -/
theorem Inv.transfer (h : Inv held log s) : Inv held (log ++ (s.transfer handle).2) (s.transfer handle).1 := by
  refine h.withSocket fun id log s' _ _ _ h => ?_
  exact (h.look List.mem_cons_self).andThen fun log s h => h.releaseRef

/-- Closing keeps it. -/
theorem Inv.close (h : Inv held log s) : Inv held (log ++ (s.close handle).2) (s.close handle).1 := by
  refine h.withSocket fun id log s' hmap hsame _ h => ?_
  exact (h.closeSocket List.mem_cons_self ((congrFun hsame handle).trans hmap)).andThen fun log s h => h.releaseRef

/-- A reference that is not released is held for ever. -/
theorem Inv.keep (h : Inv (id :: held) log s) : Inv held (log ++ [.kept id]) s := by
  obtain ⟨fds, mapped, refs, known, dispatched, deleted, kept, defined⟩ := h
  have hid := known id List.mem_cons_self
  have hunwatched : ∀ j, Output.unwatched j ∉ [Output.kept id] := fun j hmem => by cases List.mem_singleton.1 hmem
  refine ⟨fun x => by rw [watched_append hunwatched]; exact fds x, mapped, fun j b hb => ?_,
    fun j hj => known j (List.mem_cons_of_mem id hj), dispatched, fun j => ?_, fun j hj => ?_, ?_⟩
  · have hbefore := refs j b hb
    rw [List.count_append]
    by_cases hji : j = id
    · subst hji
      rw [List.count_cons_self] at hbefore
      rw [List.count_singleton_self]
      omega
    · rw [List.count_cons_of_ne (Ne.symm hji)] at hbefore
      rw [List.count_singleton, if_neg (by simpa using Ne.symm hji)]
      exact hbefore
  · rw [List.count_append, deleted j]
    rfl
  · have hji : id ≠ j := fun heq => absurd hid (heq ▸ Nat.not_lt.2 hj)
    rw [List.count_append, (kept j hj).1, List.count_singleton, if_neg (by simpa using hji), List.mem_append, not_or]
    exact ⟨rfl, (kept j hj).2, hunwatched j⟩
  · simpa using defined

/-- A held socket is changed, but for its descriptor and its references. -/
theorem Inv.useHeld {g : BaseSocket → BaseSocket} (h : Inv held log s) (hid : id ∈ held) (hsocket : ∀ b, (g b).socket = b.socket)
    (hrefs : ∀ b, (g b).refCount = b.refCount) :
    Inv held (log ++ (s.use id fun b => ({ s with sockets := s.sockets.set id (g b) }, [])).2)
      (s.use id fun b => ({ s with sockets := s.sockets.set id (g b) }, [])).1 := by
  obtain ⟨b, hb, hlive⟩ := h.live hid
  rw [use_eq hb hlive, List.append_nil]
  exact h.update hb (hsocket b) (hrefs b)

/-- So does setting an option. -/
theorem Inv.option {opt : Opt} (h : Inv held log s) : Inv held (log ++ (s.option handle opt).2) (s.option handle opt).1 := by
  refine h.withSocket fun id log s' _ _ _ h => ?_
  cases opt with
  | setCallback callback =>
    refine Inv.andThen ?_ fun log s h => h.releaseRef
    exact h.useHeld (g := fun b => { b with callback }) List.mem_cons_self (fun _ => rfl) fun _ => rfl
  | setCallbackData callbackData =>
    refine Inv.andThen ?_ fun log s h => h.releaseRef
    exact h.useHeld (g := fun b => { b with callbackData }) List.mem_cons_self (fun _ => rfl) fun _ => rfl
  | other optval =>
    cases optval with
    | false => exact h.keep
    | true => exact (h.look List.mem_cons_self).andThen fun log s h => h.releaseRef

/-! ## The dispatch -/

/-- The holders of a socket, with one more in front. -/
theorem count_cons_toNat (j : SocketId) : (id :: held).count j = held.count j + (id == j).toNat := by
  rw [List.count_cons]
  cases id == j <;> rfl

/-- The reference of the dispatch is one that was held. -/
theorem Inv.take (h : Inv held log s) {flags : Flags} (hidle : s.dispatch = none) :
    Inv held (log ++ (s.take handle flags).2) (s.take handle flags).1 := by
  refine h.withSocket fun id log s' _ _ hsame h => ?_
  rw [List.append_nil]
  rw [hidle] at hsame
  obtain ⟨fds, mapped, refs, known, dispatched, deleted, kept, defined⟩ := h
  refine ⟨fds, mapped, fun j b hb => ?_, fun j hj => known j (List.mem_cons_of_mem id hj), fun d hd => ?_, deleted, kept, defined⟩
  · have hbefore := refs j b hb
    rw [holders, hsame, Option.any_none, Bool.toNat_false, count_cons_toNat] at hbefore
    simp only [holders, Option.any_some]
    omega
  · cases hd
    exact known id List.mem_cons_self

/-- At the end of the dispatch its reference is held again. -/
theorem Inv.undispatch (h : Inv held log s) {d : Dispatch} (hd : s.dispatch = some d) :
    Inv (d.socket :: held) log { s with dispatch := none } := by
  obtain ⟨fds, mapped, refs, known, dispatched, deleted, kept, defined⟩ := h
  refine ⟨fds, mapped, fun j b hb => ?_, List.forall_mem_cons.2 ⟨dispatched d hd, known⟩, fun e he => ?_, deleted, kept, defined⟩
  · have hbefore := refs j b hb
    rw [holders, hd, Option.any_some] at hbefore
    simp only [holders, Option.any_none, Bool.toNat_false, count_cons_toNat]
    omega
  · cases he

/-- Leaving a dispatch gives its reference back. -/
theorem undispatch_releaseRef :
    Netlib.andThen (s.releaseRef id) (fun s => ({ s with dispatch := none }, [])) =
      ({ s with dispatch := none } : State).releaseRef id := by
  unfold Netlib.andThen State.releaseRef State.use
  cases s.sockets[id]? with
  | none => rfl
  | some b =>
    simp only
    split
    · rfl
    · exact Prod.ext rfl (List.append_nil _)

/-- A method changes the state of its socket, and makes its callback. -/
theorem Inv.turn (h : Inv held log s) {d : Dispatch} {rest : List Handler} {msg : Msg} (hd : s.dispatch = some d)
    (hb : s.sockets[id]? = some b) (hsocket : b'.socket = b.socket) (hrefs : b'.refCount = b.refCount) :
    Inv held (log ++ [b.call id msg handle]) { s with sockets := s.sockets.set id b', dispatch := some ⟨d.socket, rest⟩ } :=
  Inv.callbacks (Inv.redispatch (h.update hb hsocket hrefs) hd) fun _ ho => ⟨_, _, _, _, _, List.mem_singleton.1 ho⟩

/-- A method may only make its callback. -/
theorem Inv.call (h : Inv held log s) {d : Dispatch} {rest : List Handler} {msg : Msg} (hd : s.dispatch = some d) :
    Inv held (log ++ [b.call id msg handle]) { s with dispatch := some ⟨d.socket, rest⟩ } :=
  Inv.callbacks (h.redispatch hd) fun _ ho => ⟨_, _, _, _, _, List.mem_singleton.1 ho⟩

/-- One method of the event. -/
theorem Inv.method (h : Inv [] log s) {d : Dispatch} (hd : s.dispatch = some d) {answer : Answer} {rest : List Handler} {handler : Handler}
    (hfresh : ∀ handle, answer.accepted = some handle → s.opened handle = false) :
    Inv [] (log ++ (s.handle d.socket answer rest handler).2) (s.handle d.socket answer rest handler).1 := by
  obtain ⟨b, hb, hlive⟩ : ∃ b, s.sockets[d.socket]? = some b ∧ b.refCount ≠ 0 := (h.undispatch hd).live List.mem_cons_self
  cases handler with
  | onClose =>
    rw [State.handle, use_eq hb hlive]
    exact h.turn hd hb rfl rfl
  | onRead =>
    rw [State.handle, use_eq hb hlive]
    split
    · rw [List.append_nil]
      exact h.redispatch hd
    · exact h.call hd
  | onWrite =>
    rw [State.handle, use_eq hb hlive]
    split
    · split
      · exact h.call hd
      · exact h.turn hd hb rfl rfl
    · exact h.call hd
  | acceptNewSocket =>
    rw [State.handle, use_eq hb hlive]
    cases haccept : answer.accepted with
    | none =>
      rw [List.append_nil]
      exact h.redispatch hd
    | some handle =>
      have hnew := h.newSocket (b := { socket := handle, state := .connected, callback := b.callback, callbackData := b.callbackData })
        (hfresh handle haccept) rfl answer.added
      unfold Netlib.andThen
      rw [← List.append_assoc]
      exact hnew.call hd

/-- Every step keeps the invariant. -/
theorem Inv.step {e : Event} {s' : State} (h : Inv [] log s) (hs : s.step e = some (s', out)) : Inv [] (log ++ out) s' := by
  unfold State.step at hs
  split at hs
  · cases hs
  · rename_i hfresh
    have hopen : ∀ handle, e.fresh = some handle → s.opened handle = false := by
      intro handle heq
      rw [heq, Option.any_some] at hfresh
      exact Bool.eq_false_iff.2 hfresh
    have hstart : ∀ {state callback data added}, ∀ o : Option Handle, e.fresh = o →
        Inv [] (log ++ (s.start state callback data added o).2) (s.start state callback data added o).1 := by
      intro state callback data added o ho
      cases o with
      | none =>
        show Inv [] (log ++ []) s
        rw [List.append_nil]
        exact h
      | some handle => exact h.newSocket (hopen handle ho) rfl added
    cases e with
    | listen callback data o added =>
      obtain ⟨rfl, rfl⟩ := Prod.mk.inj (Option.some.inj hs)
      exact hstart o rfl
    | connect callback data o added =>
      obtain ⟨rfl, rfl⟩ := Prod.mk.inj (Option.some.inj hs)
      exact hstart o rfl
    | transfer handle =>
      obtain ⟨rfl, rfl⟩ := Prod.mk.inj (Option.some.inj hs)
      exact h.transfer
    | close handle =>
      obtain ⟨rfl, rfl⟩ := Prod.mk.inj (Option.some.inj hs)
      exact h.close
    | option handle opt =>
      obtain ⟨rfl, rfl⟩ := Prod.mk.inj (Option.some.inj hs)
      exact h.option
    | take handle flags =>
      simp only at hs
      split at hs
      · cases hs
      · rename_i hidle
        obtain ⟨rfl, rfl⟩ := Prod.mk.inj (Option.some.inj hs)
        exact h.take (Option.not_isSome_iff_eq_none.1 hidle)
    | next answer =>
      obtain ⟨d, hd, hnext⟩ := Option.map_eq_some_iff.1 hs
      obtain ⟨rfl, rfl⟩ := Prod.mk.inj hnext
      split
      · rw [undispatch_releaseRef]
        exact (h.undispatch hd).releaseRef
      · exact h.method hd hopen

/-! ## Sockets that are gone -/

variable {idle : Prop} {j : SocketId}

/-- A socket that was made and is no longer in the map; when it is `idle`, it is not dispatched either. -/
def Gone (idle : Prop) (id : SocketId) (s : State) : Prop :=
  id < s.sockets.length ∧ (∀ h, s.socketMap h ≠ some id) ∧ (idle → ∀ d, s.dispatch = some d → d.socket ≠ id)

/-- The socket is still gone, and when it is idle, nothing but its deletion is seen of it. -/
def Quiet (idle : Prop) (id : SocketId) (x : State × List Output) : Prop :=
  Gone idle id x.1 ∧ (idle → ∀ o ∈ x.2, o.socket = some id → o = .deleted id)

/-- A closed socket that nothing touches stays silent. -/
theorem Gone.quiet (h : Gone idle id s) : Quiet idle id (s, []) := ⟨h, fun _ _ ho => absurd ho List.not_mem_nil⟩

/-- What is put out is about another socket. -/
theorem Gone.quiet_of_ne {o : Output} (h : Gone idle id s) (ho : idle → o.socket ≠ some id) : Quiet idle id (s, [o]) := by
  refine ⟨h, fun hidle o' ho' heq => ?_⟩
  rw [List.mem_singleton.1 ho'] at heq
  exact absurd heq (ho hidle)

/-- And a method of any socket leaves it so. -/
theorem Gone.use {f : BaseSocket → State × List Output} (h : Gone idle id s) (hf : ∀ b, Quiet idle id (f b)) :
    Quiet idle id (s.use j f) := by
  have hundefined : Quiet idle id (s, [.undefined]) := h.quiet_of_ne fun _ heq => by cases heq
  unfold State.use
  split
  · exact hundefined
  · split
    · exact hundefined
    · exact hf _

/-- Silence composes. -/
theorem Quiet.andThen {x : State × List Output} {f : State → State × List Output} (hx : Quiet idle id x)
    (hf : ∀ s, Gone idle id s → Quiet idle id (f s)) : Quiet idle id (Netlib.andThen x f) := by
  obtain ⟨hgone, hout⟩ := hf _ hx.1
  exact ⟨hgone, fun hidle o ho => (List.mem_append.1 ho).elim (hx.2 hidle o) (hout hidle o)⟩

/-- A socket stored elsewhere leaves a closed one closed. -/
theorem Gone.set (h : Gone idle id s) (b : BaseSocket) : Gone idle id { s with sockets := s.sockets.set j b } :=
  ⟨by rw [List.length_set]; exact h.1, h.2⟩

/-- A reference taken elsewhere leaves it silent. -/
theorem Gone.addRef (h : Gone idle id s) : Quiet idle id (s.addRef j) := h.use fun _ => (h.set _).quiet

/-- And one given back. -/
theorem Gone.releaseRef (h : Gone idle id s) : Quiet idle id (s.releaseRef j) := by
  refine h.use fun b => ⟨h.set _, fun _ o ho heq => ?_⟩
  simp only at ho
  split at ho
  · rw [List.mem_singleton.1 ho] at heq ⊢
    exact congrArg Output.deleted (Option.some.inj heq)
  · exact absurd ho List.not_mem_nil

/-- The socket that is found is another one. -/
theorem Gone.withSocket {f : SocketId → State → State × List Output} (h : Gone idle id s)
    (hf : ∀ j s', j ≠ id → Gone idle id s' → Quiet idle id (f j s')) : Quiet idle id (s.withSocket handle f) := by
  unfold State.withSocket
  split
  · exact h.quiet
  · rename_i j hmap
    exact h.addRef.andThen fun s' h' => hf j s' (fun heq => h.2.1 handle (heq ▸ hmap)) h'

/-- A new socket is another one. -/
theorem Gone.newSocket (h : Gone idle id s) (added : Bool) : Quiet idle id (s.newSocket b added) := by
  refine ⟨⟨?_, fun x => ?_, h.2.2⟩, fun _ o ho heq => ?_⟩
  · show id < (s.sockets ++ [b]).length
    rw [List.length_append]
    exact Nat.lt_add_right _ h.1
  · show addBaseSocket s.socketMap b.socket s.sockets.length x ≠ some id
    unfold addBaseSocket
    split
    · exact h.2.1 x
    · simp only [put]
      split
      · exact fun heq => h.1.ne (Option.some.inj heq).symm
      · exact h.2.1 x
  · rw [(mem_newSocket ho).2] at heq
    exact absurd (Option.some.inj heq) h.1.ne'

/-- Closing another socket does not bring it back. -/
theorem Gone.closeSocket (h : Gone idle id s) : Quiet idle id (s.closeSocket j) := by
  refine h.use fun c => Gone.releaseRef ⟨h.1, fun x => ?_, h.2.2⟩
  simp only [put]
  split
  · exact (Option.some_ne_none id).symm
  · exact h.2.1 x

/-- The dispatch is at another socket. -/
theorem Gone.dispatch {rest : List Handler} (h : Gone idle id s) (hj : idle → j ≠ id) :
    Gone idle id { s with dispatch := some ⟨j, rest⟩ } := by
  refine ⟨h.1, h.2.1, fun hidle d hd => ?_⟩
  cases hd
  exact hj hidle

/-- A handler's method leaves it silent. -/
theorem Gone.method {answer : Answer} {rest : List Handler} {handler : Handler} (h : Gone idle id s) (hj : idle → j ≠ id) :
    Quiet idle id (s.handle j answer rest handler) := by
  have hcall : ∀ (b : BaseSocket) msg handle, idle → (b.call j msg handle).socket ≠ some id :=
    fun _ _ _ hidle heq => hj hidle (Option.some.inj heq)
  cases handler with
  | onClose => exact h.use fun b => ((h.set _).dispatch hj).quiet_of_ne (hcall _ _ _)
  | onRead =>
    refine h.use fun b => ?_
    split
    · exact (h.dispatch hj).quiet
    · exact (h.dispatch hj).quiet_of_ne (hcall _ _ _)
  | onWrite =>
    refine h.use fun b => ?_
    split
    · split
      · exact (h.dispatch hj).quiet_of_ne (hcall _ _ _)
      · exact ((h.set _).dispatch hj).quiet_of_ne (hcall _ _ _)
    · exact (h.dispatch hj).quiet_of_ne (hcall _ _ _)
  | acceptNewSocket =>
    refine h.use fun b => ?_
    split
    · exact (h.dispatch hj).quiet
    · exact (h.newSocket _).andThen fun s h => (h.dispatch hj).quiet_of_ne (hcall _ _ _)

/-- Every step leaves a closed socket silent. -/
theorem Gone.step {e : Event} {s' : State} (h : Gone idle id s) (hs : s.step e = some (s', out)) : Quiet idle id (s', out) := by
  have hstart : ∀ {state callback data added} (o : Option Handle), Quiet idle id (s.start state callback data added o) := by
    intro state callback data added o
    cases o with
    | none => exact h.quiet
    | some handle => exact h.newSocket added
  unfold State.step at hs
  split at hs
  · cases hs
  · cases e with
    | listen callback data o added => exact Option.some.inj hs ▸ hstart o
    | connect callback data o added => exact Option.some.inj hs ▸ hstart o
    | transfer handle =>
      refine Option.some.inj hs ▸ h.withSocket fun j s hj h => ?_
      exact (h.use fun _ => h.quiet).andThen fun s h => h.releaseRef
    | close handle =>
      refine Option.some.inj hs ▸ h.withSocket fun j s hj h => ?_
      exact h.closeSocket.andThen fun s h => h.releaseRef
    | option handle opt =>
      refine Option.some.inj hs ▸ h.withSocket fun j s hj h => ?_
      cases opt with
      | setCallback callback => exact (h.use fun b => (h.set _).quiet).andThen fun s h => h.releaseRef
      | setCallbackData callbackData => exact (h.use fun b => (h.set _).quiet).andThen fun s h => h.releaseRef
      | other optval =>
        cases optval with
        | false => exact h.quiet_of_ne fun _ heq => hj (Option.some.inj heq)
        | true => exact (h.use fun _ => h.quiet).andThen fun s h => h.releaseRef
    | take handle flags =>
      simp only at hs
      split at hs
      · cases hs
      · exact Option.some.inj hs ▸ h.withSocket fun j s hj h => (h.dispatch fun _ => hj).quiet
    | next answer =>
      obtain ⟨d, hd, hnext⟩ := Option.map_eq_some_iff.1 hs
      refine hnext ▸ ?_
      unfold State.next
      split
      · refine h.releaseRef.andThen fun s h => Gone.quiet ⟨h.1, h.2.1, fun _ d hd => ?_⟩
        cases hd
      · exact h.method fun hidle => h.2.2 hidle d hd

/-- So it is in a run. -/
theorem Gone.run {log' : List Output} {s' : State} (h : Gone idle id s) (hrun : Machine.Run State.step (fun _ _ => True) s log' s') :
    Quiet idle id (s', log') := by
  refine hrun.invariant (I := fun l s => Quiet idle id (s, l)) h.quiet fun hquiet _ hs => ?_
  obtain ⟨hgone, hout⟩ := hquiet.1.step hs
  exact ⟨hgone, fun hidle o ho => (List.mem_append.1 ho).elim (hquiet.2 hidle o) (hout hidle o)⟩

/-- `netlib_close` takes its socket out of the map, which has it in no other place. -/
theorem Inv.gone_close (h : Inv [] log s) (hmap : s.socketMap handle = some id) : Gone False id (s.close handle).1 := by
  obtain ⟨b, hb, hsocket, hlive⟩ := h.live_of_mapped hmap
  have hadd : s.addRef id = ({ s with sockets := s.sockets.set id { b with refCount := b.refCount + 1 } }, []) := use_eq hb hlive
  have hclose : Quiet False id ((s.addRef id).1.closeSocket id) := by
    rw [hadd, State.closeSocket, use_eq (getElem?_set_self_of_some hb _) (Nat.succ_ne_zero _)]
    refine Gone.releaseRef ⟨?_, fun x => ?_, False.elim⟩
    · show id < (s.sockets.set id _).length
      rw [List.length_set]
      exact (List.getElem?_eq_some_iff.1 hb).1
    · show (if x = b.socket then none else s.socketMap x) ≠ some id
      split
      · exact (Option.some_ne_none id).symm
      · intro hx
        obtain ⟨c, hc, hcx⟩ := h.mapped x id hx
        obtain rfl := Option.some.inj (hb.symm.trans hc)
        exact absurd hcx.symm ‹_›
  unfold State.close State.withSocket
  rw [hmap]
  exact (hclose.andThen fun s h => h.releaseRef).1

/-- A run goes on in order. -/
theorem Inv.run {rest : List Output} {s' : State} (h : Inv [] log s) (hrun : Machine.Run State.step (fun _ _ => True) s rest s') :
    Inv [] (log ++ rest) s' := by
  refine hrun.invariant (I := fun l s => Inv [] (log ++ l) s) ?_ fun hinv _ hs => ?_
  · rw [List.append_nil]
    exact h
  · rw [← List.append_assoc]
    exact hinv.step hs

/-- Only a kept reference can still keep a socket that is gone. -/
theorem Inv.deleted_of_gone (h : Inv [] log s) (hgone : Gone True id s) :
    log.count (.deleted id) = if log.count (.kept id) = 0 then 1 else 0 := by
  obtain ⟨hid, hunmapped, hidle⟩ := hgone
  have hb := List.getElem?_eq_getElem hid
  have hrefs := h.refs id _ hb
  have hmap : (s.socketMap s.sockets[id].socket == some id) = false := beq_false_of_ne (hunmapped _)
  have hdispatch : s.dispatch.any (·.socket == id) = false := by
    cases hd : s.dispatch with
    | none => rfl
    | some d => exact beq_false_of_ne (hidle trivial d hd)
  rw [holders, hmap, hdispatch, Bool.toNat_false, List.count_nil, Nat.zero_add, Nat.add_zero] at hrefs
  rw [h.deleted, hb, Option.elim_some, deletions, hrefs]

end BaseSocketAux

open BaseSocketAux

variable {log : List Output} {s : State}

/-- The invariant holds all along a run. -/
theorem inv_of_run (h : Machine.Run State.step (fun _ _ => True) State.init log s) : Inv [] log s := inv_init.run h

/-- In every run that has kept fewer than 2^31 - 3 references to each socket, no deleted socket is used; a descriptor is open as long as
the map has a socket for it, which is the socket with that descriptor, and it is watched then, unless `epoll_ctl` failed to add it; a
socket has one reference for each holder and for each reference that was kept, so few that an `int` counts them, with one more; and it is
deleted once, when it has none left. -/
theorem sockets_sound (h : Machine.Run State.step (fun _ _ => True) State.init log s)
    (hfew : ∀ id, log.count (.kept id) + 3 < 2 ^ 31) :
    .undefined ∉ log ∧ (∀ handle, s.opened handle = (s.socketMap handle).isSome ∧
        s.watched handle = (s.socketMap handle).any fun id => .unwatched id ∉ log) ∧
      (∀ handle id, s.socketMap handle = some id → ∃ b, s.sockets[id]? = some b ∧ b.socket = handle) ∧
      ∀ id b, s.sockets[id]? = some b →
        b.refCount = holders s id b + log.count (.kept id) ∧ b.refCount + 1 < 2 ^ 31 ∧
          log.count (.deleted id) = if b.refCount = 0 then 1 else 0 := by
  have hinv := inv_of_run h
  refine ⟨hinv.defined, hinv.fds, hinv.mapped, fun id b hb => ?_⟩
  have hrefs : b.refCount = holders s id b + log.count (.kept id) := hinv.refs id b hb
  have hholders : holders s id b ≤ 2 := Nat.add_le_add (Bool.toNat_le _) (Bool.toNat_le _)
  have hkept := hfew id
  refine ⟨hrefs, by omega, ?_⟩
  rw [hinv.deleted id, hb]
  rfl

/-- A server that has accepted a connection, which `epoll_ctl` fails to add; its event is still dispatched, and a call of
`netlib_option` has kept a reference to the connection. -/
def accepted : State where
  sockets := [⟨3, .listening, 7, 70, 2⟩, ⟨4, .connected, 7, 70, 2⟩]
  socketMap := put (put (fun _ => none) 3 (some 0)) 4 (some 1)
  watched := put (put (fun _ => false) 3 true) 4 false
  opened := put (put (fun _ => false) 3 true) 4 true
  dispatch := some ⟨0, [.acceptNewSocket]⟩

/-- What could be seen. -/
def acceptedLog : List Output := [.unwatched 1, .callback 0 7 70 .connect 4, .kept 1]

/-- A listening socket accepts a connection. -/
theorem run_accepted : Machine.Run State.step (fun _ _ => True) State.init acceptedLog accepted := by
  have hsteps : Machine.steps State.step State.init [.listen 7 70 (some 3) true, .take 3 ⟨false, true, false, false⟩,
      .next ⟨false, false, none, false⟩, .next ⟨false, false, some 4, false⟩, .option 4 (.other false)] =
      some (accepted, acceptedLog) := rfl
  exact Machine.Run.of_steps (fun _ _ => trivial) .start hsteps

/-- The listening socket has two holders, and the connection one and the reference that was kept; it is open, and not watched. -/
theorem sockets_sound_accepted : holders accepted 0 ⟨3, .listening, 7, 70, 2⟩ = 2 ∧
    holders accepted 1 ⟨4, .connected, 7, 70, 2⟩ + acceptedLog.count (.kept 1) = 2 ∧ accepted.opened 4 = true ∧
    accepted.watched 4 = (accepted.socketMap 4).any fun id => .unwatched id ∉ acceptedLog := by
  have hfew : ∀ id, acceptedLog.count (.kept id) + 3 < 2 ^ 31 := fun id => by
    have hle : acceptedLog.count (.kept id) ≤ 3 := List.count_le_length
    omega
  obtain ⟨-, hfds, -, hrefs⟩ := sockets_sound run_accepted hfew
  exact ⟨(hrefs 0 _ rfl).1.symm, (hrefs 1 _ rfl).1.symm, (hfds 4).1, (hfds 4).2⟩

/-- From `netlib_close` on, as soon as the socket is not dispatched any more, it has been deleted, unless a reference to it was kept; and
nothing is seen of it in the rest of the run. -/
theorem closed_sockets_silent {s1 s2 s3 : State} {out during rest : List Output} {handle : Handle} {id : SocketId}
    (h : Machine.Run State.step (fun _ _ => True) State.init log s) (hmap : s.socketMap handle = some id)
    (hclose : s.step (.close handle) = some (s1, out)) (hduring : Machine.Run State.step (fun _ _ => True) s1 during s2)
    (hidle : ∀ d, s2.dispatch = some d → d.socket ≠ id) (hrest : Machine.Run State.step (fun _ _ => True) s2 rest s3) :
    (.deleted id ∈ log ++ out ++ during ↔ .kept id ∉ log ++ out ++ during) ∧ ∀ o ∈ rest, o.socket ≠ some id := by
  have hinv := inv_of_run h
  have hgone : Gone False id s1 := by
    have hgone := hinv.gone_close hmap
    rwa [Option.some.inj hclose] at hgone
  obtain ⟨hlast, -⟩ := hgone.run hduring
  have hidle2 : Gone True id s2 := ⟨hlast.1, hlast.2.1, fun _ => hidle⟩
  obtain ⟨hidle3, hquiet⟩ := hidle2.run hrest
  have hinv2 := (hinv.step hclose).run hduring
  have hbefore := hinv2.deleted_of_gone hidle2
  have hafter := (hinv2.run hrest).deleted_of_gone hidle3
  have hkept : rest.count (.kept id) = 0 := List.count_eq_zero.2 fun hmem => by cases hquiet trivial _ hmem rfl
  generalize log ++ out ++ during = before at hbefore hafter ⊢
  rw [List.count_append, List.count_append, hkept, Nat.add_zero, hbefore] at hafter
  refine ⟨?_, fun o ho heq => ?_⟩
  · rw [← List.count_pos_iff, ← List.count_eq_zero, hbefore]
    split <;> simp [*]
  · obtain rfl := hquiet trivial o ho heq
    have hpos := List.count_pos_iff.2 ho
    omega

/-- A server that has accepted a connection. -/
def served : State where
  sockets := [⟨3, .listening, 7, 70, 1⟩, ⟨4, .connected, 7, 70, 1⟩]
  socketMap := put (put (fun _ => none) 3 (some 0)) 4 (some 1)
  watched := put (put (fun _ => false) 3 true) 4 true
  opened := put (put (fun _ => false) 3 true) 4 true
  dispatch := none

/-- A connection is confirmed. -/
theorem run_served : Machine.Run State.step (fun _ _ => True) State.init [.callback 0 7 70 .connect 4] served := by
  have hsteps : Machine.steps State.step State.init [.listen 7 70 (some 3) true, .take 3 ⟨false, true, false, false⟩,
      .next ⟨false, false, none, false⟩, .next ⟨false, false, some 4, true⟩, .next ⟨false, false, none, false⟩,
      .next ⟨false, false, none, false⟩] = some (served, [.callback 0 7 70 .connect 4]) := rfl
  exact Machine.Run.of_steps (fun _ _ => trivial) .start hsteps

/-- The connection has been read, and its event is not done yet. -/
def reading : State :=
  { served with sockets := [⟨3, .listening, 7, 70, 1⟩, ⟨4, .connected, 7, 70, 2⟩], dispatch := some ⟨1, []⟩ }

/-- It was closed, and its event is done. -/
def closed : State where
  sockets := [⟨3, .listening, 7, 70, 1⟩, ⟨4, .connected, 7, 70, 0⟩]
  socketMap := put served.socketMap 4 none
  watched := put served.watched 4 false
  opened := put served.opened 4 false
  dispatch := none

/-- Its descriptor is used again. -/
def reconnected : State where
  sockets := closed.sockets ++ [⟨4, .connected, 8, 80, 2⟩]
  socketMap := put closed.socketMap 4 (some 2)
  watched := put closed.watched 4 true
  opened := put closed.opened 4 true
  dispatch := some ⟨2, []⟩

/-- The run in which a socket is deleted and its descriptor taken by the next. -/
theorem closed_sockets_silent_reconnected :
    (.deleted 1 ∈ ([.callback 0 7 70 .connect 4, .callback 1 7 70 .read 4] ++ [] ++ [.deleted 1] : List Output) ↔
      .kept 1 ∉ ([.callback 0 7 70 .connect 4, .callback 1 7 70 .read 4] ++ [] ++ [.deleted 1] : List Output)) ∧
      ∀ o ∈ [Output.callback 2 8 80 .confirm 4], o.socket ≠ some 1 := by
  have hread : Machine.steps State.step served [.take 4 ⟨false, true, false, false⟩, .next ⟨true, false, none, false⟩] =
      some (reading, [.callback 1 7 70 .read 4]) := rfl
  have hclose : reading.step (.close 4) = some ((reading.close 4).1, []) := rfl
  have hduring : Machine.steps State.step (reading.close 4).1 [.next ⟨false, false, none, false⟩] = some (closed, [.deleted 1]) := rfl
  have hrest : Machine.steps State.step closed [.connect 8 80 (some 4) true, .take 4 ⟨false, false, true, false⟩,
      .next ⟨false, false, none, false⟩] = some (reconnected, [.callback 2 8 80 .confirm 4]) := rfl
  exact closed_sockets_silent (Machine.Run.of_steps (fun _ _ => trivial) run_served hread) rfl hclose
    (Machine.Run.of_steps (fun _ _ => trivial) .start hduring) (fun d hd => absurd hd (Option.some_ne_none d).symm)
    (Machine.Run.of_steps (fun _ _ => trivial) .start hrest)

end TeamTalk.Netlib
