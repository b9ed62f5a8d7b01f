import TeamTalk.DbProxy.ContactSync

/-!
# No change of a contact is lost

When a client has every user and every department as the tables have them, after it has asked for what changed. A request for
users is only looked into when the sync centre's time is later than the client's, and only users of status zero move that time;
departments are only reported when their status is zero, and later than the client's time.
-/

namespace TeamTalk.DbProxy.Contacts

open Std (TreeMap)

/-! ## The property -/

/-- What a client is to have of a user: him as he is, or, when he is deleted and the client has him, that he is. -/
def UserGood (copy : Nat → Option UserInfo) (id : Nat) (row : User) : Prop :=
  if row.status ≠ 3 then copy id = some (userInfo id row) else ∀ info, copy id = some info → info.status = 3

/-- The same of a department, whose status is not zero when it is deleted. -/
def DepartGood (copy : Nat → Option DepartInfo) (id : Nat) (row : Depart) : Prop :=
  if row.status = 0 then copy id = departInfo id row else ∀ info, copy id = some info → info.deptStatus ≠ 0

def UsersSynced (s : State) : Prop := ∀ (id : Nat) row, s.users[id]? = some row → UserGood s.userClient.copy id row

def DepartsSynced (s : State) : Prop := ∀ (id : Nat) row, s.departs[id]? = some row → DepartGood s.departClient.copy id row

/-! ## After the last change -/

/-- An event that changes no row. -/
def Event.Quiet : Event → Prop
  | .updateUser _ _ => False
  | .updateDepart _ _ => False
  | _ => True

/-- A state leads to another by events of a kind. -/
def Leads (P : Event → Prop) (s s' : State) : Prop :=
  ∃ es out, (∀ e ∈ es, P e) ∧ Machine.steps State.step s es = some (s', out)

/-- A cycle begins and comes to its end, and no row changes. -/
def CycleDone (s s' : State) : Prop :=
  ∃ s1 s2 s3 out out', s.step .cycleBegin = some (s1, out) ∧ Leads Event.Quiet s1 s2 ∧ s2.step .cycleEnd = some (s3, out') ∧
    Leads Event.Quiet s3 s'

/-- A request for users comes in and is answered, and no row changes. -/
def UsersAsked (s s' : State) : Prop :=
  ∃ s1 s2 out out', s.step .userRequest = some (s1, out) ∧ Leads (fun e => e.Quiet ∧ e ≠ .userAnswer) s1 s2 ∧
    s2.step .userAnswer = some (s', out')

/-- A request for departments comes in and is answered, and no row changes. -/
def DepartsAsked (s s' : State) : Prop :=
  ∃ s1 s2 out out', s.step .departRequest = some (s1, out) ∧ Leads (fun e => e.Quiet ∧ e ≠ .departAnswer) s1 s2 ∧
    s2.step .departAnswer = some (s', out')

/-- In every run: after a cycle and then a request, with no change of a row, the client has all users exactly when `users`; and
after a request it has all departments exactly when `departs`. -/
def ContactsSynced (lastUpdate : Nat) (users : State → State → Prop) (departs : State → Prop) : Prop :=
  ∀ log s, Machine.Run State.step (fun _ _ => True) (State.init lastUpdate) log s →
    (∀ s1 s2, CycleDone s s1 → UsersAsked s1 s2 → (UsersSynced s2 ↔ users s s1)) ∧
    ∀ s1, DepartsAsked s s1 → (DepartsSynced s1 ↔ departs s)

/-! ## The condition -/

/-- For users: the client lacks nothing when it asks; or the sync centre's time was later than the client's before the cycle, or
a user of status zero was changed later. -/
def UsersMeet (s s1 : State) : Prop :=
  UsersSynced s1 ∨ s1.userClient.latestUpdateTime < s.lastUpdate ∨
    ∃ (id : Nat) (row : User), s1.users[id]? = some row ∧ row.status = 0 ∧ s1.userClient.latestUpdateTime < row.updated

/-- For departments: each that the client lacks has status zero, and was changed later than the client's time. -/
def DepartsMeet (s : State) : Prop :=
  ∀ (id : Nat) row, s.departs[id]? = some row → DepartGood s.departClient.copy id row ∨
    row.status = 0 ∧ s.departClient.latestUpdateTime < row.updated

namespace ContactsRunAux

open ContactsAux

variable {s s' : State} {out : List Response}

/-! ## What one step leaves -/

/-- What each kind of event leaves as it is. -/
structure Leaves (s : State) (e : Event) (s' : State) : Prop where
  clock : (∀ now, e ≠ .tick now) → s'.now = s.now
  tables : e.Quiet → s'.users = s.users ∧ s'.departs = s.departs
  centre : e ≠ .cycleBegin → e ≠ .cycleEnd → s'.lastUpdate = s.lastUpdate ∧ s'.cycle = s.cycle
  userClient : e ≠ .userRequest → e ≠ .userAnswer → s'.userClient = s.userClient
  departClient : e ≠ .departRequest → e ≠ .departAnswer → s'.departClient = s.departClient

/-- What each event leaves as it was. -/
theorem leaves_step {e : Event} (h : s.step e = some (s', out)) : Leaves s e s' := by
  cases e with
  | tick now =>
    simp only [State.step, Option.ite_none_right_eq_some, Option.some.injEq, Prod.mk.injEq] at h
    obtain ⟨-, rfl, -⟩ := h
    exact ⟨fun he => absurd rfl (he now), fun _ => ⟨rfl, rfl⟩, fun _ _ => ⟨rfl, rfl⟩, fun _ _ => rfl, fun _ _ => rfl⟩
  | updateUser id row =>
    cases h
    exact ⟨fun _ => rfl, fun he => he.elim, fun _ _ => ⟨rfl, rfl⟩, fun _ _ => rfl, fun _ _ => rfl⟩
  | updateDepart id row =>
    cases h
    exact ⟨fun _ => rfl, fun he => he.elim, fun _ _ => ⟨rfl, rfl⟩, fun _ _ => rfl, fun _ _ => rfl⟩
  | cycleBegin =>
    simp only [State.step] at h
    split at h
    · cases h
      exact ⟨fun _ => rfl, fun _ => ⟨rfl, rfl⟩, fun he _ => absurd rfl he, fun _ _ => rfl, fun _ _ => rfl⟩
    · cases h
  | cycleEnd =>
    simp only [State.step] at h
    split at h
    · cases h
    · cases h
      exact ⟨fun _ => rfl, fun _ => ⟨rfl, rfl⟩, fun _ he => absurd rfl he, fun _ _ => rfl, fun _ _ => rfl⟩
  | userRequest =>
    simp only [State.step] at h
    split at h
    · cases h
      exact ⟨fun _ => rfl, fun _ => ⟨rfl, rfl⟩, fun _ _ => ⟨rfl, rfl⟩, fun he _ => absurd rfl he, fun _ _ => rfl⟩
    · cases h
  | userAnswer =>
    simp only [State.step] at h
    split at h
    · cases h
    · cases h
      exact ⟨fun _ => rfl, fun _ => ⟨rfl, rfl⟩, fun _ _ => ⟨rfl, rfl⟩, fun _ he => absurd rfl he, fun _ _ => rfl⟩
  | departRequest =>
    simp only [State.step] at h
    split at h
    · cases h
      exact ⟨fun _ => rfl, fun _ => ⟨rfl, rfl⟩, fun _ _ => ⟨rfl, rfl⟩, fun _ _ => rfl, fun he _ => absurd rfl he⟩
    · cases h
  | departAnswer =>
    simp only [State.step] at h
    split at h
    · cases h
    · cases h
      exact ⟨fun _ => rfl, fun _ => ⟨rfl, rfl⟩, fun _ _ => ⟨rfl, rfl⟩, fun _ _ => rfl, fun _ he => absurd rfl he⟩

/-- What an event of the kind keeps, a sequence of them keeps. -/
theorem leads_invariant {P : Event → Prop} {I : State → Prop} (h : Leads P s s') (hI : I s)
    (hstep : ∀ {s s' e out}, I s → P e → State.step s e = some (s', out) → I s') : I s' := by
  obtain ⟨es, out, hes, hsteps⟩ := h
  exact Machine.steps_invariant hstep hI hes hsteps

/-- What a request or an answer, a cycle's begin or its end does. -/
theorem userRequest_ok (h : s.step .userRequest = some (s', out)) : s.userClient.asked = none ∧
    s' = { s with userClient := { s.userClient with asked := some (changedUsers s s.userClient.latestUpdateTime) } } := by
  simp only [State.step] at h
  split at h
  next hnone =>
    cases h
    exact ⟨hnone, rfl⟩
  next => cases h

/-- The answer with the users. -/
theorem userAnswer_ok (h : s.step .userAnswer = some (s', out)) : ∃ nLastTime lsIds,
    s.userClient.asked = some (nLastTime, lsIds) ∧
    s' = { s with userClient := s.userClient.answer UserInfo.userId nLastTime (getUsers s.users lsIds) } := by
  simp only [State.step] at h
  split at h
  next => cases h
  next nLastTime lsIds hasked =>
    cases h
    exact ⟨nLastTime, lsIds, hasked, rfl⟩

/-- The request for the departments. -/
theorem departRequest_ok (h : s.step .departRequest = some (s', out)) : s' = { s with departClient := { s.departClient with
    asked := some (getChgedDeptId s.departs s.departClient.latestUpdateTime) } } := by
  simp only [State.step] at h
  split at h
  next =>
    cases h
    rfl
  next => cases h

/-- And its answer. -/
theorem departAnswer_ok (h : s.step .departAnswer = some (s', out)) : ∃ nLastTime lsIds,
    s.departClient.asked = some (nLastTime, lsIds) ∧
    s' = { s with departClient := s.departClient.answer DepartInfo.deptId nLastTime (getDepts s.departs lsIds) } := by
  simp only [State.step] at h
  split at h
  next => cases h
  next nLastTime lsIds hasked =>
    cases h
    exact ⟨nLastTime, lsIds, hasked, rfl⟩

/-- A cycle begins with the count it found. -/
theorem cycleBegin_ok (h : s.step .cycleBegin = some (s', out)) :
    s' = { s with cycle := some (sycLastUpdate s.users s.lastUpdate) } := by
  simp only [State.step] at h
  split at h
  next =>
    cases h
    rfl
  next => cases h

/-- And ends with the new time. -/
theorem cycleEnd_ok (h : s.step .cycleEnd = some (s', out)) :
    ∃ nUpdated, s.cycle = some nUpdated ∧ s' = { s with lastUpdate := nUpdated, cycle := none } := by
  simp only [State.step] at h
  split at h
  next => cases h
  next nUpdated hcycle =>
    cases h
    exact ⟨nUpdated, hcycle, rfl⟩

/-! ## The sync centre -/

/-- The times before the sync centre's, once it has seen the users as they are in a state. -/
def Seen (s : State) (t : Nat) : Prop :=
  t < s.lastUpdate ∨ ∃ (id : Nat) (row : User), s.users[id]? = some row ∧ row.status = 0 ∧ t < row.updated

/-- What holds while no row changes: the centre's time has not gone back, and neither it nor what a cycle has found is later than
what is seen. -/
structure Seeing (s s' : State) : Prop where
  users : s'.users = s.users
  kept : ∀ t, t < s.lastUpdate → t < s'.lastUpdate
  within : ∀ t, t < s'.lastUpdate → Seen s t
  found : ∀ nUpdated, s'.cycle = some nUpdated → ∀ t, t < nUpdated ↔ Seen s t

/-- A cycle that begins finds what is seen. -/
theorem seeing_cycleBegin {s0 : State} (hs : Seeing s0 s) (h : s.step .cycleBegin = some (s', out)) : Seeing s0 s' := by
  obtain rfl := cycleBegin_ok h
  refine ⟨hs.users, hs.kept, hs.within, fun nUpdated hfound t => ?_⟩
  obtain rfl := Option.some.inj hfound
  rw [lt_sycLastUpdate_iff, hs.users]
  constructor
  · rintro (hlt | hlater)
    · exact hs.within t hlt
    · exact .inr hlater
  · rintro (hlt | hlater)
    · exact .inl (hs.kept t hlt)
    · exact .inr hlater

/-- At the end of a cycle the centre has seen it. -/
theorem seeing_cycleEnd {s0 : State} (hs : Seeing s0 s) (h : s.step .cycleEnd = some (s', out)) :
    Seeing s0 s' ∧ ∀ t, Seen s0 t → t < s'.lastUpdate := by
  obtain ⟨nUpdated, hcycle, rfl⟩ := cycleEnd_ok h
  have hfound := hs.found nUpdated hcycle
  refine ⟨⟨hs.users, fun t hlt => (hfound t).2 (.inl hlt), fun t hlt => (hfound t).1 hlt, fun nUpdated hnone => ?_⟩,
    fun t ht => (hfound t).2 ht⟩
  cases hnone

/-- What another event leaves. -/
theorem seeing_other {s0 : State} {e : Event} (hs : Seeing s0 s) (he : e.Quiet) (hbegin : e ≠ .cycleBegin)
    (hend : e ≠ .cycleEnd) (h : s.step e = some (s', out)) : Seeing s0 s' := by
  have hleaves := leaves_step h
  obtain ⟨hlast, hcycle⟩ := hleaves.centre hbegin hend
  refine ⟨(hleaves.tables he).1.trans hs.users, ?_, ?_, ?_⟩
  · rw [hlast]
    exact hs.kept
  · rw [hlast]
    exact hs.within
  · rw [hcycle]
    exact hs.found

/-- A quiet event leaves the client seeing the same users. -/
theorem seeing_step {s0 : State} {e : Event} (hs : Seeing s0 s) (he : e.Quiet) (h : s.step e = some (s', out)) :
    Seeing s0 s' := by
  by_cases hbegin : e = .cycleBegin
  · subst hbegin
    exact seeing_cycleBegin hs h
  · by_cases hend : e = .cycleEnd
    · subst hend
      exact (seeing_cycleEnd hs h).1
    · exact seeing_other hs he hbegin hend h

/-- After a cycle, and while no row changes, the centre's time is what is seen. -/
theorem seen_of_cycleDone {s1 : State} (h : CycleDone s s1) : s1.users = s.users ∧ ∀ t, t < s1.lastUpdate ↔ Seen s t := by
  obtain ⟨sa, sb, sc, out, out', hbegin, hes, hend, hes'⟩ := h
  have hsa : Seeing s sa := by
    obtain rfl := cycleBegin_ok hbegin
    refine ⟨rfl, fun t ht => ht, fun t ht => .inl ht, fun nUpdated hfound t => ?_⟩
    obtain rfl := Option.some.inj hfound
    exact lt_sycLastUpdate_iff
  have hsc := seeing_cycleEnd (leads_invariant hes hsa seeing_step) hend
  have hs1 : Seeing s s1 ∧ ∀ t, Seen s t → t < s1.lastUpdate := by
    refine leads_invariant (I := fun x => Seeing s x ∧ ∀ t, Seen s t → t < x.lastUpdate) hes' hsc
      fun {sd se e out} hI he hstep => ⟨seeing_step hI.1 he hstep, ?_⟩
    by_cases hended : e = .cycleEnd
    · subst hended
      exact (seeing_cycleEnd hI.1 hstep).2
    · by_cases hbegun : e = .cycleBegin
      · subst hbegun
        obtain rfl := cycleBegin_ok hstep
        exact hI.2
      · rw [((leaves_step hstep).centre hbegun hended).1]
        exact hI.2
  exact ⟨hs1.1.users, fun t => ⟨hs1.1.within t, hs1.2 t⟩⟩

/-! ## The users -/

/-- Whether a user is right in the copy depends on its own entry. -/
theorem userGood_congr {copy copy' : Nat → Option UserInfo} {id : Nat} (h : copy' id = copy id) (row : User) :
    UserGood copy' id row ↔ UserGood copy id row := by
  rw [UserGood, UserGood, h]

/-- A user that the client has just got is as he is. -/
theorem userGood_of_got {copy : Nat → Option UserInfo} {id : Nat} {row : User} (h : copy id = some (userInfo id row)) :
    UserGood copy id row := by
  rw [UserGood]
  split
  next => exact h
  next hdeleted =>
    intro info hinfo
    rw [h] at hinfo
    obtain rfl := Option.some.inj hinfo
    exact not_not.1 hdeleted

/-- What the copy holds for an id after an answer. -/
theorem receive_getUsers (users : TreeMap Nat User) (lsIds : List Nat) (copy : Nat → Option UserInfo) (id : Nat) :
    receive UserInfo.userId (getUsers users lsIds) copy id =
      (if id ∈ lsIds then (users[id]?).bind fun row => some (userInfo id row) else none).or (copy id) := by
  refine receive_fetch (fun id row info hinfo => ?_) copy lsIds id
  obtain rfl := Option.some.inj hinfo
  rfl

/-- Who is asked for is as he is afterwards, and of others the client has what it had. -/
theorem userGood_receive {users : TreeMap Nat User} {lsIds : List Nat} {copy : Nat → Option UserInfo} {id : Nat} {row : User}
    (hrow : users[id]? = some row) : UserGood (receive UserInfo.userId (getUsers users lsIds) copy) id row ↔
      id ∈ lsIds ∨ UserGood copy id row := by
  have hgot := receive_getUsers users lsIds copy id
  by_cases hasked : id ∈ lsIds
  · rw [if_pos hasked, hrow] at hgot
    exact ⟨fun _ => .inl hasked, fun _ => userGood_of_got hgot⟩
  · rw [if_neg hasked, Option.none_or] at hgot
    rw [userGood_congr hgot, or_iff_right hasked]

/-- Which ids an answer names. -/
theorem mem_getChangedId {users : TreeMap Nat User} {nLastTime id : Nat} : id ∈ (getChangedId users nLastTime).2 ↔
    ∃ row, users[id]? = some row ∧ if nLastTime = 0 then row.status ≠ 3 else nLastTime ≤ row.updated := by
  rw [getChangedId, mem_changedIds]
  refine exists_congr fun row => and_congr_right fun _ => ?_
  split
  · exact decide_eq_true_iff
  · exact decide_eq_true_iff

/-- The time and the ids that the client gets next: those of its request, when one is under way. -/
def next (s : State) : Nat × List Nat := s.userClient.asked.getD (s.userClient.latestUpdateTime, [])

/-- What holds in every state: times are positive and not later than the clock; a client with time zero has nothing; and a user
that the client does not have as he is, and that is not sent to it next, is not earlier than its time. -/
structure Kept (s : State) : Prop where
  clock : 0 < s.now
  times : ∀ (id : Nat) (row : User), s.users[id]? = some row → 0 < row.updated ∧ row.updated ≤ s.now
  reached : (next s).1 ≤ s.now
  fresh : (next s).1 = 0 → (next s).2 = [] ∧ ∀ id, s.userClient.copy id = none
  later : (next s).1 ≠ 0 → ∀ (id : Nat) (row : User), id ∉ (next s).2 → s.users[id]? = some row →
    UserGood s.userClient.copy id row ∨ (next s).1 ≤ row.updated

/-- Nothing is missing at the start. -/
theorem kept_init (lastUpdate : Nat) : Kept (State.init lastUpdate) := by
  refine ⟨Nat.one_pos, fun id row h => ?_, Nat.zero_le 1, fun _ => ⟨rfl, fun _ => rfl⟩, fun hne => absurd rfl hne⟩
  change (∅ : TreeMap Nat User)[id]? = some row at h
  rw [TreeMap.getElem?_emptyc] at h
  cases h

/-- Where the users and the client stay as they are, and the clock does not go back. -/
theorem kept_of_eq (h : Kept s) (husers : s'.users = s.users) (hclient : s'.userClient = s.userClient) (hnow : s.now ≤ s'.now) :
    Kept s' := by
  have hnext : next s' = next s := by rw [next, next, hclient]
  refine ⟨h.clock.trans_le hnow, fun id row hrow => ?_, ?_, ?_, ?_⟩
  · rw [husers] at hrow
    exact ⟨(h.times id row hrow).1, (h.times id row hrow).2.trans hnow⟩
  · rw [hnext]
    exact h.reached.trans hnow
  · rw [hnext, hclient]
    exact h.fresh
  · rw [hnext, hclient, husers]
    exact h.later

/-- An update of a user's row is later than every answer before it. -/
theorem kept_updateUser (h : Kept s) (id : Nat) (row : User) :
    Kept { s with users := s.users.insert id { row with updated := s.now } } := by
  have hcases : ∀ (j : Nat) (row' : User), (s.users.insert id { row with updated := s.now })[j]? = some row' →
      row'.updated = s.now ∨ s.users[j]? = some row' := by
    intro j row' hj
    rw [TreeMap.getElem?_insert] at hj
    split at hj
    · obtain rfl := Option.some.inj hj
      exact .inl rfl
    · exact .inr hj
  refine ⟨h.clock, fun j row' hj => ?_, h.reached, h.fresh, fun hne j row' hids hj => ?_⟩
  · rcases hcases j row' hj with hnow | hold
    · rw [hnow]
      exact ⟨h.clock, Nat.le_refl _⟩
    · exact h.times j row' hold
  · rcases hcases j row' hj with hnow | hold
    · rw [hnow]
      exact .inr h.reached
    · exact h.later hne j row' hids hold

/-- A user that `getChangedId` leaves out is one that the client has as he is. -/
theorem good_of_not_changed (h : Kept s) (hnone : s.userClient.asked = none) {id : Nat} {row : User}
    (hrow : s.users[id]? = some row) (hnot : id ∉ (getChangedId s.users s.userClient.latestUpdateTime).2) :
    UserGood s.userClient.copy id row := by
  have hnext : next s = (s.userClient.latestUpdateTime, []) := by rw [next, hnone, Option.getD_none]
  by_cases hzero : s.userClient.latestUpdateTime = 0
  · have hcopy : s.userClient.copy id = none := by
      have hfresh := h.fresh
      rw [hnext] at hfresh
      exact (hfresh hzero).2 id
    have hdeleted : ¬row.status ≠ 3 := fun hstatus =>
      hnot (mem_getChangedId.2 ⟨row, hrow, by rw [if_pos hzero]; exact hstatus⟩)
    rw [UserGood, if_neg hdeleted, hcopy]
    intro info hinfo
    cases hinfo
  · have hlater := h.later
    rw [hnext] at hlater
    refine (hlater hzero id row List.not_mem_nil hrow).resolve_right fun hle => hnot ?_
    exact mem_getChangedId.2 ⟨row, hrow, by rw [if_neg hzero]; exact hle⟩

/-- A request keeps what was kept. -/
theorem kept_userRequest (h : Kept s) (hstep : s.step .userRequest = some (s', out)) : Kept s' := by
  obtain ⟨hnone, rfl⟩ := userRequest_ok hstep
  have hnext : next s = (s.userClient.latestUpdateTime, []) := by rw [next, hnone, Option.getD_none]
  have hgood := @good_of_not_changed s h hnone
  obtain ⟨hclock, htimes, hreached, hfresh, hlater⟩ := h
  rw [hnext] at hreached hfresh hlater
  by_cases hgate : s.lastUpdate > s.userClient.latestUpdateTime
  · have hchanged : changedUsers s s.userClient.latestUpdateTime = getChangedId s.users s.userClient.latestUpdateTime :=
      if_pos hgate
    have hsent : ∀ id ∈ (getChangedId s.users s.userClient.latestUpdateTime).2,
        0 < (getChangedId s.users s.userClient.latestUpdateTime).1 := by
      intro id hid
      obtain ⟨⟨id, row⟩, hmem, rfl⟩ := List.mem_map.1 hid
      have hrow := TreeMap.mem_toList_iff_getElem?_eq_some.1 (List.mem_filter.1 hmem).1
      exact lt_latest_iff.2 (.inr ⟨(id, row), hmem, (htimes id row hrow).1⟩)
    refine ⟨hclock, htimes, ?_, ?_, ?_⟩
    all_goals rw [hchanged]
    · refine latest_le hreached fun e he => ?_
      exact (htimes e.1 e.2 (TreeMap.mem_toList_iff_getElem?_eq_some.1 (List.mem_filter.1 he).1)).2
    · intro hzero
      have hlast : s.userClient.latestUpdateTime = 0 := Nat.le_zero.1 ((le_latest ..).trans_eq hzero)
      refine ⟨List.eq_nil_iff_forall_not_mem.2 fun id hid => ?_, (hfresh hlast).2⟩
      exact absurd hzero (hsent id hid).ne'
    · exact fun _ id row hnot hrow => .inl (hgood hrow hnot)
  · have hchanged : changedUsers s s.userClient.latestUpdateTime = (s.userClient.latestUpdateTime, []) := if_neg hgate
    rw [hchanged]
    exact ⟨hclock, htimes, hreached, hfresh, hlater⟩

/-- And so does its answer. -/
theorem kept_userAnswer (h : Kept s) (hstep : s.step .userAnswer = some (s', out)) : Kept s' := by
  obtain ⟨nLastTime, lsIds, hasked, rfl⟩ := userAnswer_ok hstep
  have hnext : next s = (nLastTime, lsIds) := by rw [next, hasked, Option.getD_some]
  obtain ⟨hclock, htimes, hreached, hfresh, hlater⟩ := h
  rw [hnext] at hreached hfresh hlater
  refine ⟨hclock, htimes, hreached, fun hzero => ⟨rfl, fun id => ?_⟩, fun hne id row _ hrow => ?_⟩
  · obtain ⟨rfl, hcopy⟩ := hfresh hzero
    change receive UserInfo.userId (getUsers s.users []) s.userClient.copy id = none
    rw [receive_getUsers, if_neg List.not_mem_nil, hcopy id]
    rfl
  · change UserGood (receive UserInfo.userId (getUsers s.users lsIds) s.userClient.copy) id row ∨ nLastTime ≤ row.updated
    rw [userGood_receive hrow]
    by_cases hid : id ∈ lsIds
    · exact .inl (.inl hid)
    · exact (hlater hne id row hid hrow).imp_left .inr

/-- Each event keeps it. -/
theorem kept_step {e : Event} (h : Kept s) (hstep : s.step e = some (s', out)) : Kept s' := by
  have hleaves := leaves_step hstep
  cases e with
  | tick now =>
    simp only [State.step, Option.ite_none_right_eq_some, Option.some.injEq, Prod.mk.injEq] at hstep
    obtain ⟨hnow, rfl, -⟩ := hstep
    exact kept_of_eq h rfl rfl hnow
  | updateUser id row =>
    cases hstep
    exact kept_updateUser h id row
  | updateDepart id row =>
    cases hstep
    exact kept_of_eq h rfl rfl (Nat.le_refl _)
  | userRequest => exact kept_userRequest h hstep
  | userAnswer => exact kept_userAnswer h hstep
  | _ => exact kept_of_eq h (hleaves.tables trivial).1 (hleaves.userClient (by simp) (by simp)) (hleaves.clock (by simp)).ge

/-- What the client has after a request, while no row changes. -/
theorem usersSynced_iff {s1 s2 : State} (h : Kept s1) (hasked : UsersAsked s1 s2) :
    UsersSynced s2 ↔ UsersSynced s1 ∨ s1.userClient.latestUpdateTime < s1.lastUpdate := by
  obtain ⟨sa, sb, out, out', hrequest, hes, hanswer⟩ := hasked
  obtain ⟨hnone, rfl⟩ := userRequest_ok hrequest
  -- while the request is under way, neither the users nor the client change
  obtain ⟨husers, hclient⟩ : sb.users = s1.users ∧ sb.userClient =
      { s1.userClient with asked := some (changedUsers s1 s1.userClient.latestUpdateTime) } := by
    refine leads_invariant (I := fun x => x.users = s1.users ∧ x.userClient =
      { s1.userClient with asked := some (changedUsers s1 s1.userClient.latestUpdateTime) }) hes ⟨rfl, rfl⟩
      fun {sc sd e out} hI he hstep => ?_
    have hleaves := leaves_step hstep
    refine ⟨(hleaves.tables he.1).1.trans hI.1, (hleaves.userClient ?_ he.2).trans hI.2⟩
    rintro rfl
    have hfree := (userRequest_ok hstep).1
    rw [hI.2] at hfree
    cases hfree
  obtain ⟨nLastTime, lsIds, hids, rfl⟩ := userAnswer_ok hanswer
  rw [hclient] at hids
  have hids : changedUsers s1 s1.userClient.latestUpdateTime = (nLastTime, lsIds) := Option.some.inj hids
  have hgood : ∀ (id : Nat) row, s1.users[id]? = some row →
      (UserGood (sb.userClient.answer UserInfo.userId nLastTime (getUsers s1.users lsIds)).copy id row ↔
        id ∈ lsIds ∨ UserGood s1.userClient.copy id row) := by
    intro id row hrow
    rw [hclient]
    exact userGood_receive hrow
  rw [UsersSynced]
  dsimp only
  rw [husers]
  by_cases hgate : s1.lastUpdate > s1.userClient.latestUpdateTime
  · refine iff_of_true (fun id row hrow => (hgood id row hrow).2 ?_) (.inr hgate)
    rw [changedUsers, if_pos hgate] at hids
    by_cases hid : id ∈ lsIds
    · exact .inl hid
    · exact .inr (good_of_not_changed h hnone hrow (by rw [hids]; exact hid))
  · rw [changedUsers, if_neg hgate] at hids
    obtain ⟨-, rfl⟩ := Prod.mk.inj hids
    rw [or_iff_left hgate, UsersSynced]
    refine forall_congr' fun id => forall_congr' fun row => forall_congr' fun hrow => ?_
    rw [hgood id row hrow, or_iff_right List.not_mem_nil]

/-! ## The departments -/

/-- The same for a department. -/
theorem departGood_congr {copy copy' : Nat → Option DepartInfo} {id : Nat} (h : copy' id = copy id) (row : Depart) :
    DepartGood copy' id row ↔ DepartGood copy id row := by
  rw [DepartGood, DepartGood, h]

/-- And what the copy holds of it after an answer. -/
theorem receive_getDepts (departs : TreeMap Nat Depart) (lsDeptIds : List Nat) (copy : Nat → Option DepartInfo) (id : Nat) :
    receive DepartInfo.deptId (getDepts departs lsDeptIds) copy id =
      (if id ∈ lsDeptIds then (departs[id]?).bind (departInfo id) else none).or (copy id) := by
  refine receive_fetch (fun id row info hinfo => ?_) copy lsDeptIds id
  unfold departInfo at hinfo
  simp only [Option.ite_none_right_eq_some, Option.some.injEq] at hinfo
  obtain ⟨-, rfl⟩ := hinfo
  rfl

/-- What the client has after a request, while no row changes. -/
theorem departsSynced_iff {s1 : State} (hasked : DepartsAsked s s1) : DepartsSynced s1 ↔ DepartsMeet s := by
  obtain ⟨sa, sb, out, out', hrequest, hes, hanswer⟩ := hasked
  obtain rfl := departRequest_ok hrequest
  obtain ⟨hdeparts, hclient⟩ : sb.departs = s.departs ∧ sb.departClient =
      { s.departClient with asked := some (getChgedDeptId s.departs s.departClient.latestUpdateTime) } := by
    refine leads_invariant (I := fun x => x.departs = s.departs ∧ x.departClient =
      { s.departClient with asked := some (getChgedDeptId s.departs s.departClient.latestUpdateTime) }) hes ⟨rfl, rfl⟩
      fun {sc sd e out} hI he hstep => ?_
    have hleaves := leaves_step hstep
    refine ⟨(hleaves.tables he.1).2.trans hI.1, (hleaves.departClient ?_ he.2).trans hI.2⟩
    rintro rfl
    simp only [State.step, hI.2] at hstep
    cases hstep
  obtain ⟨nLastTime, lsIds, hids, rfl⟩ := departAnswer_ok hanswer
  rw [hclient] at hids
  have hids : getChgedDeptId s.departs s.departClient.latestUpdateTime = (nLastTime, lsIds) := Option.some.inj hids
  have hasked : ∀ (id : Nat) row, s.departs[id]? = some row →
      (id ∈ lsIds ↔ row.status = 0 ∧ s.departClient.latestUpdateTime < row.updated) := by
    intro id row hrow
    have hmem : id ∈ (getChgedDeptId s.departs s.departClient.latestUpdateTime).2 ↔ _ := mem_changedIds
    rw [hids] at hmem
    rw [hmem]
    constructor
    · rintro ⟨row', hrow', hp⟩
      rw [hrow] at hrow'
      obtain rfl := Option.some.inj hrow'
      exact (of_decide_eq_true hp).symm
    · exact fun h => ⟨row, hrow, decide_eq_true h.symm⟩
  rw [DepartsSynced]
  dsimp only
  rw [hdeparts, hclient]
  refine forall_congr' fun id => forall_congr' fun row => forall_congr' fun hrow => ?_
  have hgot := receive_getDepts s.departs lsIds s.departClient.copy id
  by_cases hid : id ∈ lsIds
  · have hstatus := ((hasked id row hrow).1 hid).1
    have hinfo : departInfo id row = some _ := if_pos (.inl hstatus)
    rw [if_pos hid, hrow, Option.bind_some, hinfo, Option.some_or] at hgot
    refine iff_of_true ?_ (.inr ((hasked id row hrow).1 hid))
    rw [DepartGood, if_pos hstatus, hinfo]
    exact hgot
  · rw [if_neg hid, Option.none_or] at hgot
    rw [← hasked id row hrow, or_iff_left hid]
    exact departGood_congr hgot row

/-! ## Two changes in one second -/

/-- A user in the table, under one nickname or another. -/
def named (nick : String) : User :=
  { sex := 1, name := "li", domain := "li", nick, phone := "", email := "", avatar := "", signInfo := "", departId := 1,
    status := 0, updated := 1 }

/-- A cycle, and a request of the client. -/
def cycle : List Event := [.cycleBegin, .cycleEnd]

def request : List Event := [.userRequest, .userAnswer]

/-- The client asks for user 1, who changes the nickname in the same second; then there is a cycle, and the client asks again. -/
def renamed : List Event := [.updateUser 1 (named "old")] ++ cycle ++ request ++ [.updateUser 1 (named "new")]

/-- In what a list of events leads to. -/
def after (s : State) (es : List Event) (p : State → Bool) : Bool := (Machine.steps State.step s es).any fun r => p r.1

/-- A run that was evaluated is a run. -/
theorem of_after {s : State} {es : List Event} {p : State → Bool} (h : after s es p = true) :
    ∃ s' out, Machine.steps State.step s es = some (s', out) ∧ p s' = true := by
  obtain ⟨⟨s', out⟩, hsteps, hp⟩ := (Option.any_eq_true ..).1 h
  exact ⟨s', out, hsteps, hp⟩

/-- The client still has the old nickname. -/
def Stale (s : State) : Bool :=
  s.users[1]? = some (named "new") ∧ s.userClient.copy 1 = some (userInfo 1 (named "old"))

/-- The copy is stale after the rename, whatever is asked next. -/
theorem stale_after_renamed :
    after (State.init 0) renamed fun s => after s [.cycleBegin] fun s1 => after s1 [.cycleEnd] fun s2 =>
      after s2 [.userRequest] fun s3 => after s3 [.userAnswer] Stale := by
  decide

/-- A run of one event is a step. -/
theorem step_of_steps {e : Event} (h : Machine.steps State.step s [e] = some (s', out)) :
    ∃ out', s.step e = some (s', out') := by
  rw [Machine.steps] at h
  cases hstep : s.step e with
  | none =>
    rw [hstep] at h
    cases h
  | some next =>
    obtain ⟨s1, out1⟩ := next
    rw [hstep] at h
    cases h
    exact ⟨out1, rfl⟩

/-- A state leads to itself. -/
theorem leads_self (P : Event → Prop) (s : State) : Leads P s s := ⟨[], [], by simp, rfl⟩

end ContactsRunAux

open ContactsRunAux

/-- In every run, the client has all users after a cycle and a request exactly when it lacked none, or the sync centre's time
came to be later than its own; and all departments after a request exactly when each that it lacks has status zero and a later
time than its own. -/
theorem contacts_synced_iff (lastUpdate : Nat) : ContactsSynced lastUpdate UsersMeet DepartsMeet := by
  intro log s hrun
  have hkept : Kept s := hrun.invariant (I := fun _ x => Kept x) (kept_init lastUpdate) fun h _ hstep => kept_step h hstep
  refine ⟨fun s1 s2 hcycle hasked => ?_, fun s1 hasked => departsSynced_iff hasked⟩
  have hkept1 : Kept s1 := by
    obtain ⟨sa, sb, sc, out, out', hbegin, hes, hend, hes'⟩ := hcycle
    have hsb := leads_invariant hes (kept_step hkept hbegin) fun h _ hstep => kept_step h hstep
    exact leads_invariant hes' (kept_step hsb hend) fun h _ hstep => kept_step h hstep
  obtain ⟨husers, hseen⟩ := seen_of_cycleDone hcycle
  rw [usersSynced_iff hkept1 hasked, hseen, UsersMeet, Seen, husers]

/-- A change of a user in the second up to which the client has asked is not sent to it. -/
theorem not_contacts_synced : ¬∀ lastUpdate, ContactsSynced lastUpdate (fun _ _ => True) fun _ => True := by
  intro hall
  obtain ⟨s, log, hrenamed, h⟩ := of_after stale_after_renamed
  obtain ⟨s1, out1, hbegin, h⟩ := of_after h
  obtain ⟨s2, out2, hend, h⟩ := of_after h
  obtain ⟨s3, out3, hrequest, h⟩ := of_after h
  obtain ⟨s4, out4, hanswer, hstale⟩ := of_after h
  obtain ⟨hrow, hold⟩ := of_decide_eq_true hstale
  have hrun : Machine.Run State.step (fun _ _ => True) (State.init 0) ([] ++ log) s :=
    Machine.Run.of_steps (fun _ _ => trivial) .start hrenamed
  obtain ⟨out1, hbegin⟩ := step_of_steps hbegin
  obtain ⟨out2, hend⟩ := step_of_steps hend
  obtain ⟨out3, hrequest⟩ := step_of_steps hrequest
  obtain ⟨out4, hanswer⟩ := step_of_steps hanswer
  have hcycle : CycleDone s s2 := ⟨s1, s1, s2, out1, out2, hbegin, leads_self _ _, hend, leads_self _ _⟩
  have hasked : UsersAsked s2 s4 := ⟨s3, s3, out3, out4, hrequest, leads_self _ _, hanswer⟩
  have hsynced : UsersSynced s4 := ((hall 0 _ s hrun).1 s2 s4 hcycle hasked).2 trivial
  have hgood := hsynced 1 (named "new") hrow
  rw [UserGood, if_pos (by decide), hold] at hgood
  revert hgood
  decide

end TeamTalk.DbProxy.Contacts
