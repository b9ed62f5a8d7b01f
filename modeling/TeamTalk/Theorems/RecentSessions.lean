import TeamTalk.DbProxy.RecentSessions

/-!
# No session is missed

When a client that asks for its sessions again and again, each time from the latest time it has got, has got all of them with
their last messages. It asks for later times only, gets a hundred sessions at most, and the answer also depends on a variable
that nobody has set.
-/

namespace TeamTalk.DbProxy.Recent

open Sessions (Session)
open Content (Message)

/-! ## The property -/

/-- A session that the user is to get, with its last message: it is visible, and so is the message; the other user is not
deleted, or the user is in the group. -/
structure Due (w : World) (userId : Nat) (row : Session) (m : Message) : Prop where
  user : row.userId = userId
  visible : row.status = 0
  last : lastMsg w userId row.peerId row.type = some m
  peer : if row.type = sessionTypeSingle then w.userStatus row.peerId ≠ some 3 else 0 ∈ w.memberStatus row.peerId userId

/-- An entry shows a session with a message. -/
def Shows (strAudioEnc : String) (row : Session) (m : Message) (e : ContactSessionInfo) : Prop :=
  e.sessionId = row.peerId ∧ e.sessionType = row.type ∧ e.latestMsgId = m.msgId ∧ e.latestMsgType = m.type ∧
    e.latestMsgData = msgData strAudioEnc row.type m ∧ e.latestMsgFromUserId = m.fromId

/-- After an answer the client has got every session that it is to get; and the answer has none without a last message. -/
structure Synced (strAudioEnc : String) (userId : Nat) (s : State) (got response : List ContactSessionInfo) : Prop where
  complete : ∀ row ∈ s.rows, ∀ m, Due s.world userId row m → ∃ e ∈ got, Shows strAudioEnc row m e
  shown : ∀ e ∈ response, ∃ m, lastMsg s.world userId e.sessionId e.sessionType = some m

/-- In every run whose steps meet `ok`, this holds after every request. -/
def SessionsSynced (strAudioEnc : String) (userId : Nat) (ok : State → Event → Prop) : Prop :=
  ∀ world now log s, Machine.Run (State.step strAudioEnc userId) ok (State.init world now) log s →
    ∀ uninit result s' response, ok s (.request uninit result) →
      s.step strAudioEnc userId (.request uninit result) = some (s', response) →
      Synced strAudioEnc userId s' (log ++ response) response

/-! ## The condition -/

/-- A change: a session that comes to be due, or gets another last message, gets a later time than all that the client has. -/
def ChangeMeets (userId : Nat) (s : State) (rows' : List Session) (world' : World) : Prop :=
  ∀ (id : Nat) (row' : Session) m, rows'[id]? = some row' → Due world' userId row' m →
    s.lastTime < row'.updated ∨ ∃ row, s.rows[id]? = some row ∧ row.peerId = row'.peerId ∧ row.type = row'.type ∧
      Due s.world userId row m

/-- A request: the limit cuts off no session that is due; one that is due passes `Judgment`, its message has a valid type and
comes from the other user; and where there is no message, the variable happens to hold an invalid type. -/
structure RequestMeets (userId : Nat) (s : State) (uninit : Nat → Nat) (result : List Session) : Prop where
  within : ∀ row ∈ result.drop limit, ∀ m, ¬Due s.world userId row m
  passes : ∀ row ∈ result.take limit, ∀ m, Due s.world userId row m →
    judgment s.world userId row.peerId row.type = true ∧ Actions.msgTypeIsValid m.type = true ∧
      (row.type = sessionTypeSingle → m.fromId = row.peerId)
  erased : ∀ (i : Nat) (it : ContactSessionInfo), (contacts s.world userId (result.take limit))[i]? = some it →
    lastMsg s.world userId it.sessionId it.sessionType = none → Actions.msgTypeIsValid (uninit i) = false

/-- The condition on a step. -/
def Meets (userId : Nat) (s : State) : Event → Prop
  | .tick _ => True
  | .add user peerId type world => ChangeMeets userId s (Sessions.addSession s.rows user peerId type s.now).1 world
  | .update id world => ChangeMeets userId s (Sessions.updateSession s.rows (some id) s.now) world
  | .remove id world => ChangeMeets userId s (Sessions.removeSession s.rows id s.now) world
  | .request uninit result => RequestMeets userId s uninit result

namespace RecentRunAux

open RecentAux

variable {strAudioEnc : String} {userId : Nat} {s s' : State} {got response : List ContactSessionInfo}

/-! ## One step -/

/-- What holds in every state: no row is later than the clock, types are valid, and a session that is due was got or is later
than all that was got. -/
structure Covered (strAudioEnc : String) (userId : Nat) (got : List ContactSessionInfo) (s : State) : Prop where
  times : ∀ (id : Nat) (row : Session), s.rows[id]? = some row → row.updated ≤ s.now
  types : ∀ (id : Nat) (row : Session), s.rows[id]? = some row → Actions.sessionTypeIsValid row.type = true
  due : ∀ (id : Nat) (row : Session) m, s.rows[id]? = some row → Due s.world userId row m →
    s.lastTime < row.updated ∨ ∃ e ∈ got, Shows strAudioEnc row m e

theorem covered_init (world : World) (now : Nat) : Covered strAudioEnc userId [] (State.init world now) := by
  refine ⟨fun id row h => ?_, fun id row h => ?_, fun id row m h => ?_⟩
  all_goals
    rw [State.init] at h
    cases h

/-- A change that meets the condition keeps all this. -/
theorem covered_change (h : Covered strAudioEnc userId got s) {rows' : List Session} {world' : World}
    (hchanges : Changes s.now s.rows rows') (hok : ChangeMeets userId s rows' world') :
    Covered strAudioEnc userId got { s with rows := rows', world := world' } := by
  refine ⟨fun id row' hrow' => ?_, fun id row' hrow' => ?_, fun id row' m hrow' hdue => ?_⟩
  · rcases hchanges id row' hrow' with hsame | ⟨hnow, -⟩
    · exact h.times id row' hsame
    · exact hnow.le
  · rcases hchanges id row' hrow' with hsame | ⟨-, hvalid | ⟨row, hrow, htype⟩⟩
    · exact h.types id row' hsame
    · exact hvalid
    · rw [← htype]
      exact h.types id row hrow
  · rcases hok id row' m hrow' hdue with hlater | ⟨row, hrow, hpeer, htype, hdue0⟩
    · exact .inl hlater
    · rcases h.due id row m hrow hdue0 with hlater | ⟨e, he, hshows⟩
      · refine .inl ?_
        rcases hchanges id row' hrow' with hsame | ⟨hnow, -⟩
        · rw [hrow] at hsame
          obtain rfl := Option.some.inj hsame
          exact hlater
        · rw [hnow]
          exact hlater.trans_le (h.times id row hrow)
      · refine .inr ⟨e, he, ?_⟩
        rw [Shows, ← hpeer, ← htype]
        exact hshows

/-- A session that is due and later than all that was got is in the answer. -/
theorem shows_of_later {uninit : Nat → Nat} {result : List Session} (hresult : Ordered s.rows userId s.lastTime result)
    (hok : RequestMeets userId s uninit result) {row : Session} {m : Message} (hrow : row ∈ s.rows)
    (htype : Actions.sessionTypeIsValid row.type = true) (hdue : Due s.world userId row m) (hlater : s.lastTime < row.updated) :
    ∃ e ∈ getRecentSession strAudioEnc s.world userId uninit result, Shows strAudioEnc row m e := by
  have hmem : row ∈ result := by
    rw [hresult.1.mem_iff, recentRows, List.mem_filter]
    exact ⟨hrow, decide_eq_true ⟨hdue.user, hdue.visible, hlater⟩⟩
  rw [← List.take_append_drop limit result, List.mem_append] at hmem
  have hwithin := hmem.resolve_right fun hcut => hok.within row hcut m hdue
  obtain ⟨hjudged, hvalid, hsender⟩ := hok.passes row hwithin m hdue
  have hcontact := mem_contacts.2 ⟨row, hwithin, hjudged, htype, rfl⟩
  obtain ⟨i, hi⟩ := List.mem_iff_getElem?.1 hcontact
  refine ⟨_, mem_fillSessionMsg.2 ⟨i, _, hi, fillOne_some hdue.last hvalid⟩, rfl, rfl, rfl, rfl, rfl, ?_⟩
  dsimp only
  split
  next hsingle => exact (hsender hsingle).symm
  next => rfl

/-- No entry of the answer is without a last message. -/
theorem lastMsg_of_answer {uninit : Nat → Nat} {result : List Session} (hok : RequestMeets userId s uninit result)
    {e : ContactSessionInfo} (he : e ∈ getRecentSession strAudioEnc s.world userId uninit result) :
    ∃ m, lastMsg s.world userId e.sessionId e.sessionType = some m := by
  obtain ⟨i, it, hit, hfill⟩ := mem_fillSessionMsg.1 he
  obtain ⟨hid, htype⟩ := fillOne_session hfill
  rw [hid, htype]
  cases hlast : lastMsg s.world userId it.sessionId it.sessionType with
  | some m => exact ⟨m, rfl⟩
  | none =>
    rw [fillOne_none hlast (hok.erased i it hit hlast)] at hfill
    cases hfill

/-- After a request that meets the condition the client has got everything. -/
theorem synced_request (h : Covered strAudioEnc userId got s) {uninit : Nat → Nat} {result : List Session}
    (hok : RequestMeets userId s uninit result)
    (hstep : s.step strAudioEnc userId (.request uninit result) = some (s', response)) :
    Synced strAudioEnc userId s' (got ++ response) response ∧ s'.rows = s.rows ∧ s'.world = s.world ∧ s'.now = s.now := by
  simp only [State.step, Option.ite_none_right_eq_some, Option.some.injEq, Prod.mk.injEq] at hstep
  obtain ⟨hresult, rfl, rfl⟩ := hstep
  refine ⟨⟨fun row hrow m hdue => ?_, fun e he => lastMsg_of_answer hok he⟩, rfl, rfl, rfl⟩
  obtain ⟨id, hid⟩ := List.mem_iff_getElem?.1 hrow
  rcases h.due id row m hid hdue with hlater | ⟨e, he, hshows⟩
  · obtain ⟨e, he, hshows⟩ := shows_of_later hresult hok hrow (h.types id row hid) hdue hlater
    exact ⟨e, List.mem_append_right got he, hshows⟩
  · exact ⟨e, List.mem_append_left _ he, hshows⟩

theorem covered_step {e : Event} (h : Covered strAudioEnc userId got s) (hok : Meets userId s e)
    (hstep : s.step strAudioEnc userId e = some (s', response)) : Covered strAudioEnc userId (got ++ response) s' := by
  cases e with
  | tick now =>
    simp only [State.step, Option.ite_none_right_eq_some, Option.some.injEq, Prod.mk.injEq] at hstep
    obtain ⟨hnow, rfl, rfl⟩ := hstep
    rw [List.append_nil]
    exact ⟨fun id row hrow => (h.times id row hrow).trans hnow, h.types, h.due⟩
  | add user peerId type world =>
    simp only [State.step, Option.ite_none_right_eq_some, Option.some.injEq, Prod.mk.injEq] at hstep
    obtain ⟨htype, rfl, rfl⟩ := hstep
    rw [List.append_nil]
    exact covered_change h (changes_addSession htype) hok
  | update id world =>
    simp only [State.step, Option.some.injEq, Prod.mk.injEq] at hstep
    obtain ⟨rfl, rfl⟩ := hstep
    rw [List.append_nil]
    exact covered_change h (changes_modify fun row => ⟨rfl, rfl⟩) hok
  | remove id world =>
    simp only [State.step, Option.some.injEq, Prod.mk.injEq] at hstep
    obtain ⟨rfl, rfl⟩ := hstep
    rw [List.append_nil]
    exact covered_change h (changes_modify fun row => ⟨rfl, rfl⟩) hok
  | request uninit result =>
    obtain ⟨hsynced, hrows, hworld, hnow⟩ := synced_request h hok hstep
    refine ⟨fun id row hrow => ?_, fun id row hrow => ?_, fun id row m hrow hdue => .inr ?_⟩
    · rw [hrows] at hrow
      rw [hnow]
      exact h.times id row hrow
    · rw [hrows] at hrow
      exact h.types id row hrow
    · exact hsynced.complete row (List.mem_of_getElem? hrow) m hdue

/-! ## Two changes in one second -/

/-- A message to user 1. -/
def said (relateId fromId : Nat) : Message :=
  { id := relateId, relateId, msgId := 1, fromId, created := 5, type := msgTypeSingleText, status := 0, content := "hello" }

/-- Users 2 and 3 have each written to user 1. -/
def twoFriends : World :=
  { store := {
      relations := [{ id := 1, smallId := 1, bigId := 2, status := 0 }, { id := 2, smallId := 1, bigId := 3, status := 0 }]
      messages := fun table => if table = 1 then [said 1 2] else if table = 2 then [said 2 3] else []
      groupMessages := fun _ => []
      groupMember := fun _ _ => none
      audio := id }
    userStatus := fun _ => some 0
    memberStatus := fun _ _ => [] }

/-- The session of user 1 with one of them. -/
def sessionWith (peerId : Nat) : Session :=
  { userId := 1, peerId, type := sessionTypeSingle, status := 0, created := 5, updated := 5 }

/-- The session with user 2 is added, user 1 asks, and in the same second the session with user 3 is added. -/
def sameSecond : List Event :=
  [.add 1 2 sessionTypeSingle twoFriends, .request (fun _ => 0) [sessionWith 2], .add 1 3 sessionTypeSingle twoFriends]

theorem sameSecond_world {s : State} {log : List ContactSessionInfo}
    (h : Machine.steps (State.step "" 1) (State.init twoFriends 5) sameSecond = some (s, log)) : s.world = twoFriends := by
  have hworld :
      (Machine.steps (State.step "" 1) (State.init twoFriends 5) sameSecond).map (fun p => p.1.world) = some twoFriends := rfl
  rw [h] at hworld
  exact Option.some.inj hworld

/-- The session with user 3, when it is added a second later. -/
def laterSession : Session := { sessionWith 3 with created := 6, updated := 6 }

/-- User 1 has asked for the session with user 2, and a second later the session with user 3 is added. -/
def addedLater : State := { world := twoFriends, rows := [sessionWith 2, laterSession], now := 6, lastTime := 5 }

/-- What is computed of the two sessions: after `sameSecond` the next request finds nothing; both friends' messages are the last ones
of their sessions; and with a second between the two, each request asks for one of them. -/
theorem friends_evaluated :
    ((Machine.steps (State.step "" 1) (State.init twoFriends 5) sameSecond).any fun (s, log) =>
      s.rows.contains (sessionWith 3) && log.all (fun e => e.sessionId = 2) &&
        (s.step "" 1 (.request (fun _ => 0) [])).any fun (s', response) => s'.rows = s.rows ∧ response = []) = true ∧
    (lastMsg twoFriends 1 2 sessionTypeSingle = some (said 1 2) ∧ lastMsg twoFriends 1 3 sessionTypeSingle = some (said 2 3)) ∧
    Ordered [sessionWith 2] 1 0 [sessionWith 2] ∧ Ordered addedLater.rows 1 addedLater.lastTime [laterSession] ∧
    (getRecentSession "" twoFriends 1 (fun _ => 0) [sessionWith 2]).foldl (fun t e => max t e.updatedTime) 0 = 5 := by
  decide +kernel

theorem lastMsg_two : lastMsg twoFriends 1 2 sessionTypeSingle = some (said 1 2) := friends_evaluated.2.1.1

theorem lastMsg_three : lastMsg twoFriends 1 3 sessionTypeSingle = some (said 2 3) := friends_evaluated.2.1.2

theorem due_sessionWith : Due twoFriends 1 (sessionWith 3) (said 2 3) := ⟨rfl, rfl, lastMsg_three, by decide⟩

theorem requestMeets_two : RequestMeets 1 { world := twoFriends, rows := [sessionWith 2], now := 5, lastTime := 0 } (fun _ => 0)
    [sessionWith 2] := by
  refine ⟨fun row hrow => absurd hrow List.not_mem_nil, fun row hrow m hdue => ?_, fun _ _ _ _ => by decide⟩
  obtain rfl := List.mem_singleton.1 hrow
  obtain rfl := Option.some.inj (lastMsg_two.symm.trans hdue.last)
  decide

theorem requestMeets_three : RequestMeets 1 addedLater (fun _ => 0) [laterSession] := by
  refine ⟨fun row hrow => absurd hrow List.not_mem_nil, fun row hrow m hdue => ?_, fun _ _ _ _ => by decide⟩
  obtain rfl := List.mem_singleton.1 hrow
  obtain rfl := Option.some.inj (lastMsg_three.symm.trans hdue.last)
  decide

theorem step_two : State.step "" 1 { world := twoFriends, rows := [sessionWith 2], now := 5, lastTime := 0 }
    (.request (fun _ => 0) [sessionWith 2]) =
      some ({ world := twoFriends, rows := [sessionWith 2], now := 5, lastTime := 5 },
        getRecentSession "" twoFriends 1 (fun _ => 0) [sessionWith 2]) := by
  obtain ⟨-, -, hordered, -, htime⟩ := friends_evaluated
  rw [State.step, if_pos hordered]
  simp only [htime]

theorem run_addedLater : Machine.Run (State.step "" 1) (Meets 1) (State.init twoFriends 5)
    ([] ++ [] ++ getRecentSession "" twoFriends 1 (fun _ => 0) [sessionWith 2] ++ [] ++ []) addedLater := by
  have hadd : Machine.Run (State.step "" 1) (Meets 1) (State.init twoFriends 5) ([] ++ [])
      { world := twoFriends, rows := [sessionWith 2], now := 5, lastTime := 0 } := by
    refine .step (e := .add 1 2 sessionTypeSingle twoFriends) .start (fun id row' m hrow hdue => .inl ?_) rfl
    rw [show row' = sessionWith 2 from List.mem_singleton.1 (List.mem_of_getElem? hrow)]
    decide
  have hasked := Machine.Run.step (e := Event.request (fun _ => 0) [sessionWith 2]) hadd requestMeets_two step_two
  have hlater := Machine.Run.step (e := Event.tick 6) hasked trivial rfl
  refine .step (e := .add 1 3 sessionTypeSingle twoFriends) hlater (fun id row' m hrow hdue => ?_) rfl
  cases id with
  | zero =>
    obtain rfl := Option.some.inj hrow
    exact .inr ⟨sessionWith 2, rfl, rfl, rfl, hdue⟩
  | succ id =>
    refine .inl ?_
    cases id with
    | zero =>
      obtain rfl := Option.some.inj hrow
      decide
    | succ id => cases hrow

end RecentRunAux

open RecentRunAux

/-- In every run whose steps meet the condition, the client has got all its sessions after every request. -/
theorem sessions_synced (strAudioEnc : String) (userId : Nat) : SessionsSynced strAudioEnc userId (Meets userId) := by
  intro world now log s hrun uninit result s' response hok hstep
  have hcovered : Covered strAudioEnc userId log s :=
    hrun.invariant (I := fun log s => Covered strAudioEnc userId log s) (covered_init world now) covered_step
  exact (synced_request hcovered hok hstep).1

/-- A session that changes in a later second is got by the next request, and the other one was got before. -/
theorem sessions_synced_later : ∃ log s' response,
    Machine.Run (State.step "" 1) (Meets 1) (State.init twoFriends 5) log addedLater ∧
      addedLater.step "" 1 (.request (fun _ => 0) [laterSession]) = some (s', response) ∧
      Synced "" 1 s' (log ++ response) response ∧ ∃ e ∈ log ++ response, Shows "" laterSession (said 2 3) e := by
  obtain ⟨⟨s', response⟩, hstep⟩ : ∃ next, addedLater.step "" 1 (.request (fun _ => 0) [laterSession]) = some next := by
    rw [State.step, if_pos friends_evaluated.2.2.2.1]
    exact ⟨_, rfl⟩
  have hrows : s'.rows = addedLater.rows ∧ s'.world = twoFriends := by
    simp only [State.step, Option.ite_none_right_eq_some, Option.some.injEq, Prod.mk.injEq] at hstep
    obtain ⟨-, rfl, -⟩ := hstep
    exact ⟨rfl, rfl⟩
  have hsynced := sessions_synced "" 1 twoFriends 5 _ _ run_addedLater _ _ _ _ requestMeets_three hstep
  have hdue : Due s'.world 1 laterSession (said 2 3) := by
    rw [hrows.2]
    exact ⟨rfl, rfl, lastMsg_three, by decide⟩
  have hmem : laterSession ∈ s'.rows := by
    rw [hrows.1]
    exact List.mem_cons_of_mem _ List.mem_cons_self
  exact ⟨_, _, _, run_addedLater, hstep, hsynced, hsynced.complete laterSession hmem _ hdue⟩

/-- A session that changes in the second up to which the client has asked is missed. -/
theorem sessions_not_synced : ¬∀ strAudioEnc userId, SessionsSynced strAudioEnc userId fun _ _ => True := by
  intro hall
  obtain ⟨⟨s, log⟩, hsteps, hmisses⟩ := (Option.any_eq_true ..).1 friends_evaluated.1
  obtain ⟨hfound, hnext⟩ := Bool.and_eq_true_iff.1 hmisses
  obtain ⟨hrow, hgot⟩ := Bool.and_eq_true_iff.1 hfound
  obtain ⟨⟨s', response⟩, hstep, hresponse⟩ := (Option.any_eq_true ..).1 hnext
  obtain ⟨hrows, rfl⟩ := of_decide_eq_true hresponse
  have hrun : Machine.Run (State.step "" 1) (fun _ _ => True) (State.init twoFriends 5) ([] ++ log) s :=
    Machine.Run.of_steps (fun _ _ => trivial) .start hsteps
  have hsynced := hall "" 1 twoFriends 5 _ s hrun _ _ s' [] trivial hstep
  have hworld : s'.world = twoFriends := by
    simp only [State.step, Option.ite_none_right_eq_some, Option.some.injEq, Prod.mk.injEq] at hstep
    rw [← hstep.2.1]
    exact sameSecond_world hsteps
  have hmem : sessionWith 3 ∈ s'.rows := by
    rw [hrows]
    exact List.contains_iff_mem.1 hrow
  obtain ⟨e, he, hid, -⟩ := hsynced.complete (sessionWith 3) hmem (said 2 3) (by rw [hworld]; exact due_sessionWith)
  rw [List.append_nil, List.nil_append] at he
  have htwo : e.sessionId = 2 := of_decide_eq_true (List.all_eq_true.1 hgot e he)
  rw [hid] at htwo
  exact absurd htwo (by decide)

end TeamTalk.DbProxy.Recent
