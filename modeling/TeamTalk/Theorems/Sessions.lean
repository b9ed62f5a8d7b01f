import TeamTalk.DbProxy.SessionModel

/-!
# Sessions after a message

When a message from one user to another sets the time of both sessions. The id that is kept is the sender's, until a session of
the receiver is added: then it is the receiver's, and the sender's is not set.
-/

namespace TeamTalk.DbProxy.Sessions

/-- A message that is answered with an id: both have a session, of the time of the request. -/
def SendRefreshes (env : SendEnv) (rows : List Session) (type : SingleType) (msgLen fromId toId now : Nat) : Prop :=
  ∀ msgId, (sendMessage env rows type msgLen fromId toId now).2 = some msgId → msgId ≠ 0 →
    HasTime (sendMessage env rows type msgLen fromId toId now).1 fromId toId sessionTypeSingle now ∧
      HasTime (sendMessage env rows type msgLen fromId toId now).1 toId fromId sessionTypeSingle now

/-- The condition, where the message is stored: the receiver sees the session already, or the sender's has the time of the
request by itself. -/
def SendMeets (env : SendEnv) (rows : List Session) (msgLen fromId toId now : Nat) : Prop :=
  msgLen ≠ 0 → fromId ≠ toId → env.relateId ≠ 0 → env.msgId ≠ 0 →
    getSessionId rows toId fromId sessionTypeSingle false = none →
      if getSessionId rows fromId toId sessionTypeSingle false = none then
        env.senderNow = now ∨
          HasOther rows (getSessionId rows fromId toId sessionTypeSingle true) fromId toId sessionTypeSingle now
      else HasTime rows fromId toId sessionTypeSingle now

namespace SessionsAux

/-! ## One statement -/

/-- What `addSession` did where no session was seen. -/
structure Added (rows rows' : List Session) (id userId peerId type now : Nat) : Prop
    extends Differ rows rows' id userId peerId type where
  time : ∀ row, rows'[id]? = some row → row.updated = now
  found : ∀ (j : Nat) (row : Session), rows[j]? = some row → row.Of userId peerId type →
    (j = id ↔ getSessionId rows userId peerId type true = some j)

/-- A change of one row leaves the others. -/
theorem differ_modify {rows : List Session} {id u p type : Nat} {row : Session} (f : Session → Session)
    (hrow : rows[id]? = some row) (hof : row.Of u p type) (hf : (f row).Of u p type) :
    Differ rows (rows.modify id f) id u p type where
  same j hj := by
    rw [List.getElem?_modify]
    simp [Ne.symm hj]
  before row' hrow' := by
    rw [hrow] at hrow'
    cases hrow'
    exact hof
  after := ⟨f row, by simp [hrow], hf⟩

theorem updateSession_spec {rows : List Session} {id u p type : Nat} {row : Session} (hrow : rows[id]? = some row)
    (hof : row.Of u p type) (now : Nat) :
    Differ rows (updateSession rows (some id) now) id u p type ∧ HasTime (updateSession rows (some id) now) u p type now := by
  refine ⟨differ_modify _ hrow hof hof, id, { row with updated := now }, ?_, hof, rfl⟩
  simp [updateSession, hrow]

/-- Where no session is seen, `addSession` gives one, with its id. -/
theorem addSession_spec {rows : List Session} {u p type : Nat} (h : getSessionId rows u p type false = none) (now : Nat) :
    ∃ rows' id, addSession rows u p type now = (rows', some id) ∧ Added rows rows' id u p type now := by
  cases hall : getSessionId rows u p type true with
  | some id =>
    obtain ⟨row, hrow, hof, -⟩ := getSessionId_some hall
    have hhidden : row.status ≠ 0 := (getSessionId_none h hrow hof).2
    have hnew : (rows.modify id fun row => { row with status := 0, updated := now })[id]? =
        some { row with status := 0, updated := now } := by simp [hrow]
    have hdiffer : Differ rows (rows.modify id fun row => { row with status := 0, updated := now }) id u p type :=
      differ_modify _ hrow hof hof
    have hchanged : (rows.modify id fun row => { row with status := 0, updated := now }) ≠ rows := by
      intro heq
      rw [heq, hrow] at hnew
      exact hhidden (congrArg Session.status (Option.some.inj hnew))
    refine ⟨_, id, ?_, hdiffer, ?_, ?_⟩
    · simp only [addSession, hall, if_neg hchanged]
    · intro row' hrow'
      rw [hnew] at hrow'
      cases hrow'
      rfl
    · intro j row' _ _
      rw [hall, Option.some.injEq]
      exact eq_comm
  | none =>
    have hend : rows[rows.length]? = none := List.getElem?_eq_none le_rfl
    have hnew : (rows ++ [{ userId := u, peerId := p, type, status := 0, created := now, updated := now }])[rows.length]? =
        some { userId := u, peerId := p, type, status := 0, created := now, updated := now } := by simp
    refine ⟨_, rows.length, by rw [addSession, hall], ⟨?_, ?_, ?_⟩, ?_, ?_⟩
    · intro j hj
      rcases Nat.lt_or_gt_of_ne hj with hlt | hgt
      · rw [List.getElem?_append_left hlt]
      · rw [List.getElem?_eq_none (by simp; omega), List.getElem?_eq_none (by omega)]
    · intro row hrow
      rw [hend] at hrow
      cases hrow
    · exact ⟨_, hnew, rfl, rfl, rfl⟩
    · intro row hrow
      rw [hnew] at hrow
      cases hrow
      rfl
    · intro j row hrow hof
      exact absurd (getSessionId_none hall hrow hof).1 (by decide)

/-- What was added has the time of the clock, and the other rows keep theirs. -/
theorem Added.hasTime_iff {rows rows' : List Session} {id u p type now : Nat} (h : Added rows rows' id u p type now) (t : Nat) :
    HasTime rows' u p type t ↔ now = t ∨ HasOther rows (getSessionId rows u p type true) u p type t := by
  constructor
  · rintro ⟨j, row, hrow, hof, htime⟩
    by_cases hj : j = id
    · subst hj
      exact .inl ((h.time row hrow).symm.trans htime)
    · rw [h.same j hj] at hrow
      exact .inr ⟨j, row, hrow, hof, htime, fun hid => hj ((h.found j row hrow hof).2 hid)⟩
  · rintro (rfl | ⟨j, row, hrow, hof, htime, hother⟩)
    · obtain ⟨row, hrow, hof⟩ := h.after
      exact ⟨id, row, hrow, hof, h.time row hrow⟩
    · have hj : j ≠ id := fun hid => hother ((h.found j row hrow hof).1 hid)
      rw [← h.same j hj] at hrow
      exact ⟨j, row, hrow, hof, htime⟩

/-! ## The two sides -/

/-- The sender's side gives the sender's id, and touches no row of others. -/
theorem senderSession_spec (env : SendEnv) (rows : List Session) (f t : Nat) :
    ∃ rows' id row, senderSession env rows f t = (rows', some id) ∧ rows'[id]? = some row ∧ row.Of f t sessionTypeSingle ∧
      ∀ u' p', ¬(u' = f ∧ p' = t) → (getSessionId rows' u' p' sessionTypeSingle false = none ↔
        getSessionId rows u' p' sessionTypeSingle false = none) := by
  unfold senderSession
  cases hseen : getSessionId rows f t sessionTypeSingle false with
  | some id =>
    obtain ⟨row, hrow, hof, -⟩ := getSessionId_some hseen
    exact ⟨rows, id, row, rfl, hrow, hof, fun _ _ _ => Iff.rfl⟩
  | none =>
    obtain ⟨rows', id, heq, hadded⟩ := addSession_spec hseen env.senderNow
    obtain ⟨row, hrow, hof⟩ := hadded.after
    exact ⟨rows', id, row, heq, hrow, hof, fun u' p' hne => hadded.unseen_iff hne⟩

/-- The sender's session has the time of the request: it had it before, or the clock gave it. -/
theorem senderSession_hasTime (env : SendEnv) (rows : List Session) (f t now : Nat) :
    HasTime (senderSession env rows f t).1 f t sessionTypeSingle now ↔
      if getSessionId rows f t sessionTypeSingle false = none then
        env.senderNow = now ∨ HasOther rows (getSessionId rows f t sessionTypeSingle true) f t sessionTypeSingle now
      else HasTime rows f t sessionTypeSingle now := by
  unfold senderSession
  cases hseen : getSessionId rows f t sessionTypeSingle false with
  | some id => rw [if_neg (Option.some_ne_none id)]
  | none =>
    obtain ⟨rows', id, heq, hadded⟩ := addSession_spec hseen env.senderNow
    rw [if_pos rfl]
    simp only [heq]
    exact hadded.hasTime_iff now

/-- The receiver sees the session: both are set. -/
theorem both_set {rows : List Session} {f t a b : Nat} (hne : f ≠ t) {row row' : Session} (hrow : rows[a]? = some row)
    (hof : row.Of f t sessionTypeSingle) (hrow' : rows[b]? = some row') (hof' : row'.Of t f sessionTypeSingle) (now : Nat) :
    HasTime (updateSession (updateSession rows (some a) now) (some b) now) f t sessionTypeSingle now ∧
      HasTime (updateSession (updateSession rows (some a) now) (some b) now) t f sessionTypeSingle now := by
  obtain ⟨hdiffer, hset⟩ := updateSession_spec hrow hof now
  obtain ⟨hpeer, hofPeer⟩ := (hdiffer.row_iff (fun h => hne h.2) b row').2 ⟨hrow', hof'⟩
  obtain ⟨hdiffer', hset'⟩ := updateSession_spec hpeer hofPeer now
  exact ⟨(hdiffer'.hasTime_iff (fun h => hne h.1) now).2 hset, hset'⟩

/-- A message that is stored sets the session whose id was kept, and the one that the receiver saw. -/
theorem sendSingle_stored {env : SendEnv} {f t : Nat} (hne : f ≠ t) (hrelate : env.relateId ≠ 0) (hmsg : env.msgId ≠ 0)
    {rows rows' rows'' : List Session} {id id' : Nat} (hsender : senderSession env rows f t = (rows', some id))
    (hpeer : peerSession env rows' f t (some id) = (rows'', some id')) (now : Nat) :
    sendSingle env rows f t now =
      (updateSession (updateSession rows'' (some id') now) (getSessionId rows' t f sessionTypeSingle false) now, env.msgId) := by
  simp only [sendSingle, if_pos hne, hsender, hpeer]
  rw [if_pos ⟨Option.some_ne_none id', hrelate⟩, if_pos hmsg]

/-- A message that is stored: both are set exactly where the receiver sees the session or the sender's side has the time. -/
theorem sendSingle_iff {env : SendEnv} {f t : Nat} (hne : f ≠ t) (hrelate : env.relateId ≠ 0) (hmsg : env.msgId ≠ 0)
    (rows : List Session) (now : Nat) :
    (sendSingle env rows f t now).2 = env.msgId ∧
      ((HasTime (sendSingle env rows f t now).1 f t sessionTypeSingle now ∧
          HasTime (sendSingle env rows f t now).1 t f sessionTypeSingle now) ↔
        (getSessionId rows t f sessionTypeSingle false = none →
          HasTime (senderSession env rows f t).1 f t sessionTypeSingle now)) := by
  obtain ⟨rows', id, row, hsender, hrow, hof, hunseen⟩ := senderSession_spec env rows f t
  have hiff := hunseen t f fun h => hne h.2
  cases hpeer : getSessionId rows' t f sessionTypeSingle false with
  | some peer =>
    obtain ⟨row', hrow', hof', -⟩ := getSessionId_some hpeer
    have hkept : peerSession env rows' f t (some id) = (rows', some id) := by rw [peerSession, hpeer]
    rw [sendSingle_stored hne hrelate hmsg hsender hkept now, hpeer]
    refine ⟨rfl, fun _ hnone => ?_, fun _ => both_set hne hrow hof hrow' hof' now⟩
    rw [hiff.2 hnone] at hpeer
    cases hpeer
  | none =>
    obtain ⟨rows'', peer, heq, hadded⟩ := addSession_spec hpeer env.peerNow
    obtain ⟨row', hrow', hof'⟩ := hadded.after
    obtain ⟨hdiffer, hset⟩ := updateSession_spec hrow' hof' now
    have htaken : peerSession env rows' f t (some id) = (rows'', some peer) := by rw [peerSession, hpeer, heq]
    rw [sendSingle_stored hne hrelate hmsg hsender htaken now, hpeer, hsender]
    refine ⟨rfl, ?_⟩
    have hother : HasTime (updateSession rows'' (some peer) now) f t sessionTypeSingle now ↔
        HasTime rows' f t sessionTypeSingle now :=
      (hdiffer.hasTime_iff (fun h => hne h.1) now).trans (hadded.toDiffer.hasTime_iff (fun h => hne h.1) now)
    constructor
    · exact fun h _ => hother.1 h.1
    · exact fun h => ⟨hother.2 (h (hiff.1 hpeer)), hset⟩

/-- A message that is not stored is not answered with an id. -/
theorem sendSingle_zero {env : SendEnv} {f t : Nat} (h : f = t ∨ env.relateId = 0 ∨ env.msgId = 0) (rows : List Session)
    (now : Nat) : (sendSingle env rows f t now).2 = 0 := by
  rw [sendSingle]
  split
  next hne =>
    dsimp only
    split
    next hids =>
      split
      next hmsg => exact absurd (h.resolve_left hne) (not_or.2 ⟨hids.2, hmsg⟩)
      next => rfl
    next => rfl
  next => rfl

/-- Both kinds of message are handled alike. -/
theorem sendMessage_eq (env : SendEnv) (rows : List Session) (type : SingleType) {msgLen : Nat} (h : msgLen ≠ 0)
    (f t now : Nat) :
    sendMessage env rows type msgLen f t now = ((sendSingle env rows f t now).1, some (sendSingle env rows f t now).2) := by
  unfold sendMessage
  rw [if_pos h]
  cases type <;> rfl

end SessionsAux

open SessionsAux

/-- A message that is answered with an id sets both sessions exactly under the condition. -/
theorem sendMessage_refreshes_iff (env : SendEnv) (rows : List Session) (type : SingleType) (msgLen fromId toId now : Nat) :
    SendRefreshes env rows type msgLen fromId toId now ↔ SendMeets env rows msgLen fromId toId now := by
  unfold SendRefreshes SendMeets
  by_cases hlen : msgLen = 0
  · subst hlen
    refine iff_of_true (fun msgId h => ?_) fun h => absurd rfl h
    unfold sendMessage at h
    rw [if_neg (not_not.2 rfl)] at h
    cases h
  rw [sendMessage_eq env rows type hlen fromId toId now]
  by_cases hzero : fromId = toId ∨ env.relateId = 0 ∨ env.msgId = 0
  · refine iff_of_true (fun msgId h hid => ?_) fun _ hne hrelate hmsg => ?_
    · rw [sendSingle_zero hzero] at h
      exact absurd (Option.some.inj h).symm hid
    · exact absurd hzero (not_or.2 ⟨hne, not_or.2 ⟨hrelate, hmsg⟩⟩)
  obtain ⟨hne, hrest⟩ := not_or.1 hzero
  obtain ⟨hrelate, hmsg⟩ := not_or.1 hrest
  obtain ⟨hid, hiff⟩ := sendSingle_iff hne hrelate hmsg rows now
  rw [senderSession_hasTime] at hiff
  rw [hid]
  constructor
  · exact fun h _ _ _ _ => hiff.1 (h env.msgId rfl hmsg)
  · exact fun h _ _ _ => hiff.2 (h hlen hne hrelate hmsg)

/-- Only user 1 has a session with user 2, of an earlier time: it keeps it. -/
theorem not_sendMessage_refreshes :
    ¬∀ (env : SendEnv) (rows : List Session) (type : SingleType) (msgLen fromId toId now : Nat),
      now ≤ env.senderNow → env.senderNow ≤ env.peerNow → SendRefreshes env rows type msgLen fromId toId now := by
  intro h
  have hrefresh := h { relateId := 1, msgId := 1, senderNow := 20, peerNow := 20 }
    [{ userId := 1, peerId := 2, type := 1, status := 0, created := 10, updated := 10 }] .text 5 1 2 20 le_rfl le_rfl 1
    (by decide) (by decide)
  obtain ⟨⟨id, row, hrow, hof, htime⟩, -⟩ := hrefresh
  have hno : ∀ row ∈ (sendMessage { relateId := 1, msgId := 1, senderNow := 20, peerNow := 20 }
      [{ userId := 1, peerId := 2, type := 1, status := 0, created := 10, updated := 10 }] .text 5 1 2 20).1,
      ¬(row.Of 1 2 sessionTypeSingle ∧ row.updated = 20) := by decide
  exact hno row (List.mem_of_getElem? hrow) ⟨hof, htime⟩

end TeamTalk.DbProxy.Sessions
