import TeamTalk.DbProxy.MessageContent
import TeamTalk.DbProxy.SessionModel
import TeamTalk.Lib.Machine

/-!
# Recent sessions

`CSessionModel::getRecentSession` with the functions that it calls, and a client that asks for the sessions that changed since
the latest time it has got, between changes of the sessions. Sessions are changed together with what they show: messages,
deleted users, members of groups. No storage call fails, and ids and times are below 2^31.
-/

namespace TeamTalk.DbProxy.Recent

open Sessions (Session)
open Content (Message)

/-- What sessions are shown with: the messages; `IMUser`'s status of a user; and the status of a user's rows of
`IMGroupMember`, in the order of the result. -/
structure World where
  store : Content.Store
  userStatus : Nat → Option Nat
  memberStatus : Nat → Nat → List Nat

/-- `IM::BaseDefine::ContactSessionInfo`. -/
structure ContactSessionInfo where
  sessionId : Nat
  sessionType : Nat
  sessionStatus : Nat
  updatedTime : Nat
  latestMsgId : Nat
  latestMsgData : String
  latestMsgType : Nat
  latestMsgFromUserId : Nat
  deriving DecidableEq, Repr

/-! ## `getRecentSession` -/

/-- The rows that match the query. -/
def recentRows (rows : List Session) (userId lastTime : Nat) : List Session :=
  rows.filter fun row => row.userId = userId ∧ row.status = 0 ∧ lastTime < row.updated

/-- A result of the query, before the limit: where two times are the same, the order is open. -/
def Ordered (rows : List Session) (userId lastTime : Nat) (result : List Session) : Prop :=
  result.Perm (recentRows rows userId lastTime) ∧ result.Pairwise fun a b => b.updated ≤ a.updated

instance (rows : List Session) (userId lastTime : Nat) (result : List Session) :
    Decidable (Ordered rows userId lastTime result) :=
  inferInstanceAs (Decidable (_ ∧ _))

/-- The limit of the query. -/
def limit : Nat := 100

/-- `Judgment`: the status that it reads; of a type that no session has, none. -/
def judgmentStatus (w : World) (userId peerId sessionType : Nat) : Option Nat :=
  if sessionType = sessionTypeSingle then w.userStatus peerId
  else if sessionType = sessionTypeGroup then (w.memberStatus peerId userId).head?
  else none

/-- `Judgment`. -/
def judgment (w : World) (userId peerId sessionType : Nat) : Bool :=
  match judgmentStatus w userId peerId sessionType with
  | some status => ¬(status = 3 ∨ status = 1)
  | none => true

/-- The list that `getRecentSession` makes of the rows. -/
def contacts (w : World) (userId : Nat) (rows : List Session) : List ContactSessionInfo :=
  rows.filterMap fun row =>
    if judgment w userId row.peerId row.type ∧ Actions.sessionTypeIsValid row.type then
      some { sessionId := row.peerId, sessionType := row.type, sessionStatus := row.status, updatedTime := row.updated
             latestMsgId := 0, latestMsgData := "", latestMsgType := 0, latestMsgFromUserId := 0 }
    else none

/-- The row from which `fillSessionMsg` fills its variables; `none` when they stay as they are. -/
def lastMsg (w : World) (userId sessionId sessionType : Nat) : Option Message :=
  if sessionType = sessionTypeSingle then Content.getLastMsg w.store sessionId userId
  else Content.getGroupLastMsg w.store sessionId

/-- What both `getLastMsg` take for the content of a message: audio messages are all shown with the same text. -/
def msgData (strAudioEnc : String) (sessionType : Nat) (row : Message) : String :=
  if row.type = (if sessionType = sessionTypeSingle then msgTypeSingleAudio else msgTypeGroupAudio) then strAudioEnc
  else row.content

/-- One round of `fillSessionMsg`, when its message type starts as it may; `none` when the entry is erased. -/
def fillOne (strAudioEnc : String) (w : World) (userId uninit : Nat) (it : ContactSessionInfo) : Option ContactSessionInfo :=
  let last := lastMsg w userId it.sessionId it.sessionType
  let msgType := (last.map Message.type).getD uninit
  if Actions.msgTypeIsValid msgType then
    some { it with
      latestMsgFromUserId :=
        if it.sessionType = sessionTypeSingle then it.sessionId else (last.map Message.fromId).getD 0
      latestMsgId := (last.map Message.msgId).getD 0
      latestMsgData := (last.map (msgData strAudioEnc it.sessionType)).getD ""
      latestMsgType := msgType }
  else none

/-- `CSessionModel::fillSessionMsg`; the message type of each round starts as it may. -/
def fillSessionMsg (strAudioEnc : String) (w : World) (userId : Nat) (uninit : Nat → Nat) :
    List ContactSessionInfo → List ContactSessionInfo
  | [] => []
  | it :: rest =>
    match fillOne strAudioEnc w userId (uninit 0) it with
    | some filled => filled :: fillSessionMsg strAudioEnc w userId (fun i => uninit (i + 1)) rest
    | none => fillSessionMsg strAudioEnc w userId (fun i => uninit (i + 1)) rest

/-- `CSessionModel::getRecentSession`, for a result of the query. -/
def getRecentSession (strAudioEnc : String) (w : World) (userId : Nat) (uninit : Nat → Nat) (result : List Session) :
    List ContactSessionInfo :=
  fillSessionMsg strAudioEnc w userId uninit (contacts w userId (result.take limit))

/-! ## A client -/

/-- The tables, the clock, and the latest time that the client has got. -/
structure State where
  world : World
  rows : List Session
  now : Nat
  lastTime : Nat

/-- What can happen: time passes; a session is added, updated or removed, and what sessions are shown with may change; the
client asks, for one result of the query, and gets the answer. -/
inductive Event where
  | tick (now : Nat)
  | add (userId peerId type : Nat) (world : World)
  | update (id : Nat) (world : World)
  | remove (id : Nat) (world : World)
  | request (uninit : Nat → Nat) (result : List Session)

/-- Before there is a session, and before the client has asked. -/
def State.init (world : World) (now : Nat) : State := { world, rows := [], now, lastTime := 0 }

/-- One step; what the client gets is put out. `addSession` is called for both types and for no other. -/
def State.step (strAudioEnc : String) (userId : Nat) (s : State) : Event → Option (State × List ContactSessionInfo)
  | .tick now => if s.now ≤ now then some ({ s with now }, []) else none
  | .add user peerId type world =>
    if Actions.sessionTypeIsValid type then
      some ({ s with rows := (Sessions.addSession s.rows user peerId type s.now).1, world }, [])
    else none
  | .update id world => some ({ s with rows := Sessions.updateSession s.rows (some id) s.now, world }, [])
  | .remove id world => some ({ s with rows := Sessions.removeSession s.rows id s.now, world }, [])
  | .request uninit result =>
    if Ordered s.rows userId s.lastTime result then
      let response := getRecentSession strAudioEnc s.world userId uninit result
      some ({ s with lastTime := response.foldl (fun t e => max t e.updatedTime) s.lastTime }, response)
    else none

/-! ## What an answer holds -/

namespace RecentAux

variable {strAudioEnc : String} {w : World} {userId : Nat}

/-- Every entry of an answer comes from one of the list. -/
theorem mem_fillSessionMsg {uninit : Nat → Nat} {ls : List ContactSessionInfo} {e : ContactSessionInfo} :
    e ∈ fillSessionMsg strAudioEnc w userId uninit ls ↔
      ∃ (i : Nat) (it : ContactSessionInfo), ls[i]? = some it ∧ fillOne strAudioEnc w userId (uninit i) it = some e := by
  induction ls generalizing uninit with
  | nil => simp [fillSessionMsg]
  | cons it rest ih =>
    have hrest : (∃ (i : Nat) (it' : ContactSessionInfo), (it :: rest)[i]? = some it' ∧
        fillOne strAudioEnc w userId (uninit i) it' = some e) ↔ fillOne strAudioEnc w userId (uninit 0) it = some e ∨
          e ∈ fillSessionMsg strAudioEnc w userId (fun i => uninit (i + 1)) rest := by
      rw [ih]
      constructor
      · rintro ⟨i, it', hit, hfill⟩
        cases i with
        | zero =>
          simp only [List.getElem?_cons_zero, Option.some.injEq] at hit
          subst hit
          exact .inl hfill
        | succ i => exact .inr ⟨i, it', by simpa using hit, hfill⟩
      · rintro (hfill | ⟨i, it', hit, hfill⟩)
        · exact ⟨0, it, rfl, hfill⟩
        · exact ⟨i + 1, it', by simpa using hit, hfill⟩
    rw [hrest, fillSessionMsg]
    cases hfill : fillOne strAudioEnc w userId (uninit 0) it with
    | some filled => simp only [List.mem_cons, Option.some.injEq, eq_comm]
    | none => simp

/-- The list has an entry for each row that passes, and no other. -/
theorem mem_contacts {rows : List Session} {it : ContactSessionInfo} :
    it ∈ contacts w userId rows ↔ ∃ row ∈ rows, judgment w userId row.peerId row.type = true ∧
      Actions.sessionTypeIsValid row.type = true ∧ it = {
        sessionId := row.peerId, sessionType := row.type, sessionStatus := row.status, updatedTime := row.updated
        latestMsgId := 0, latestMsgData := "", latestMsgType := 0, latestMsgFromUserId := 0 } := by
  rw [contacts, List.mem_filterMap]
  refine exists_congr fun row => and_congr_right fun _ => ?_
  split
  next hpass => simp only [Option.some.injEq, hpass.1, hpass.2, true_and, eq_comm]
  next hstop =>
    constructor
    · intro h
      cases h
    · exact fun h => absurd ⟨h.1, h.2.1⟩ hstop

/-- An entry with a last message of a valid type is filled with it. -/
theorem fillOne_some {uninit : Nat} {it : ContactSessionInfo} {m : Message}
    (hlast : lastMsg w userId it.sessionId it.sessionType = some m) (hvalid : Actions.msgTypeIsValid m.type = true) :
    fillOne strAudioEnc w userId uninit it = some { it with
      latestMsgFromUserId := if it.sessionType = sessionTypeSingle then it.sessionId else m.fromId
      latestMsgId := m.msgId
      latestMsgData := msgData strAudioEnc it.sessionType m
      latestMsgType := m.type } := by
  simp [fillOne, hlast, hvalid]

/-- An entry without one is kept or erased as its message type happens to be. -/
theorem fillOne_none {uninit : Nat} {it : ContactSessionInfo} (hlast : lastMsg w userId it.sessionId it.sessionType = none)
    (hvalid : Actions.msgTypeIsValid uninit = false) : fillOne strAudioEnc w userId uninit it = none := by
  simp [fillOne, hlast, hvalid]

theorem fillOne_session {uninit : Nat} {it e : ContactSessionInfo} (h : fillOne strAudioEnc w userId uninit it = some e) :
    e.sessionId = it.sessionId ∧ e.sessionType = it.sessionType := by
  unfold fillOne at h
  simp only [Option.ite_none_right_eq_some, Option.some.injEq] at h
  obtain ⟨-, rfl⟩ := h
  exact ⟨rfl, rfl⟩

/-! ## What changes of sessions do -/

/-- Every row stays, or gets the time that it is. -/
def Changes (now : Nat) (rows rows' : List Session) : Prop :=
  ∀ (id : Nat) (row' : Session), rows'[id]? = some row' → rows[id]? = some row' ∨ row'.updated = now ∧
    (Actions.sessionTypeIsValid row'.type = true ∨ ∃ row, rows[id]? = some row ∧ row.type = row'.type)

theorem changes_modify {now : Nat} {rows : List Session} {id : Nat} {f : Session → Session}
    (hf : ∀ row, (f row).updated = now ∧ (f row).type = row.type) : Changes now rows (rows.modify id f) := by
  intro j row' hj
  rw [List.getElem?_modify] at hj
  split at hj
  next =>
    obtain ⟨row, hrow, rfl⟩ := Option.map_eq_some_iff.1 hj
    exact .inr ⟨(hf row).1, .inr ⟨row, hrow, (hf row).2.symm⟩⟩
  next => exact .inl (by simpa using hj)

theorem changes_addSession {now : Nat} {rows : List Session} {user peerId type : Nat}
    (htype : Actions.sessionTypeIsValid type = true) : Changes now rows (Sessions.addSession rows user peerId type now).1 := by
  rw [Sessions.addSession]
  split
  next => exact changes_modify fun row => ⟨rfl, rfl⟩
  next =>
    intro j row' hj
    rw [List.getElem?_append] at hj
    split at hj
    · exact .inl hj
    · obtain rfl := List.mem_singleton.1 (List.mem_of_getElem? hj)
      exact .inr ⟨rfl, .inl htype⟩

end RecentAux

end TeamTalk.DbProxy.Recent
