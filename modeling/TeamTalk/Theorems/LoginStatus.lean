import Mathlib
import TeamTalk.RouteServer.Table

/-!
# Login status notifications of route_server

When what a msg_server was told last about a user's PC clients is what route_server knows. Only `_HandleUserStatusUpdate`
tells the msg_servers anything: a list of users and the close of a connection change who is online on a PC, too.
-/

namespace TeamTalk.RouteServer

open Std (TreeMap TreeSet)

/-- Every connected msg_server with a client of a user was told last what is true of the user now. -/
def InStep (p : Table) : Prop :=
  ∀ c ∈ p.server.routeConnMap, ∀ u, p.Reported c u → p.notified c u = p.server.pcLogin u

/-- No msg_server has a client of the user, or it is the last one of the connection that takes it back. -/
def NobodyElse (p : Table) (c : RouteConn) (stat : UserStat) : Prop :=
  ∀ d ∈ p.server.routeConnMap, p.Reported d stat.userId → d = c ∧ p.LastReported c stat

/-- The condition on an entry of a list. Online: when the user's first PC client comes, nobody else has reported him; and a
msg_server that has not reported him before was told last what becomes true. Offline: when the last PC client that is counted
goes, no client is left. -/
def EntryMeets (p : Table) (c : RouteConn) (stat : UserStat) : Prop :=
  if stat.status = userStatusOffline then
    ∀ user, p.server.userMap stat.userId = some user → c ∈ user.routeConnSet → user.isPCClientLogin = true →
      (user.removeClientType stat.clientType).isPCClientLogin = false → NobodyElse p c stat
  else
    (checkClientTypePc stat.clientType = true → p.server.pcLogin stat.userId = false →
      ∀ d ∈ p.server.routeConnMap, ¬p.Reported d stat.userId) ∧
    (¬p.Reported c stat.userId →
      p.notified c stat.userId = (p.server.pcLogin stat.userId || checkClientTypePc stat.clientType))

/-- The condition on a status update. Online: a msg_server that has not reported the user before, and reports a client that is
no PC while the user is on none, was not told last that he is. Offline: when the user's entry is deleted with his last PC
client, no client is left. -/
def StatusMeets (p : Table) (c : RouteConn) (stat : UserStat) : Prop :=
  if stat.status = userStatusOffline then
    ∀ user, p.server.userMap stat.userId = some user → c ∈ user.routeConnSet → (∀ d ∈ user.routeConnSet, d = c) →
      user.LastCounted stat.clientType → user.isPCClientLogin = true → NobodyElse p c stat
  else
    checkClientTypePc stat.clientType = false → p.server.pcLogin stat.userId = false → ¬p.Reported c stat.userId →
      p.notified c stat.userId = false

/-- The condition on a close: no other msg_server has a client of a user whose entry goes while he is on a PC. -/
def GoingMeets (p : Table) (c : RouteConn) : Prop :=
  ∀ u user, p.server.userMap u = some user → user.isPCClientLogin = true → (∀ d ∈ user.routeConnSet, d = c) →
    ∀ d ∈ p.server.routeConnMap, d ≠ c → ¬p.Reported d u

/-- The condition on a step. -/
def InStepMeets (p : Table) : Event → Prop
  | .close c => GoingMeets p c
  | .onlineUserInfo c stats => p.AllMeet EntryMeets c stats
  | .userStatusUpdate c stat => StatusMeets p c stat
  | _ => True

namespace LoginStatusAux

open PresenceAux TableAux

/-! ## Who is on a PC -/

section Login

variable {s : State} {c : RouteConn} {stat : UserStat}

theorem isPCClientLogin_addClientType (user : UserInfo) (t : Nat) :
    (user.addClientType t).isPCClientLogin = (user.isPCClientLogin || checkClientTypePc t) := by
  rw [Bool.eq_iff_iff, Bool.or_eq_true, isPCClientLogin_iff, isPCClientLogin_iff]
  simp only [getElem?_addClientType]
  constructor
  · rintro ⟨t', n, hpc, hn⟩
    split at hn
    · rename_i heq
      exact .inr (heq ▸ hpc)
    · exact .inl ⟨t', n, hpc, hn⟩
  · rintro (⟨t', n, hpc, hn⟩ | hpc)
    · by_cases heq : t = t'
      · exact ⟨t', _, hpc, if_pos heq⟩
      · exact ⟨t', n, hpc, by rw [if_neg heq, hn]⟩
    · exact ⟨t, _, hpc, if_pos rfl⟩

/-- Which types are counted once one is taken back. -/
theorem getElem?_removeClientType_some {user : UserInfo} {t t' n : Nat}
    (h : (user.removeClientType t).clientTypeList[t']? = some n) : ∃ m, user.clientTypeList[t']? = some m := by
  rw [UserInfo.removeClientType] at h
  cases ht : user.clientTypeList[t]? with
  | none =>
    rw [ht] at h
    exact ⟨n, h⟩
  | some m =>
    simp only [ht] at h
    by_cases heq : t = t'
    · exact ⟨m, heq ▸ ht⟩
    · split at h
      · rw [TreeMap.getElem?_insert, if_neg (by simpa using heq)] at h
        exact ⟨n, h⟩
      · rw [TreeMap.getElem?_erase, if_neg (by simpa using heq)] at h
        exact ⟨n, h⟩

/-- Taking back a client of another type leaves a type alone. -/
theorem getElem?_removeClientType_ne {user : UserInfo} {t t' : Nat} (h : t ≠ t') :
    (user.removeClientType t).clientTypeList[t']? = user.clientTypeList[t']? := by
  rw [UserInfo.removeClientType]
  cases ht : user.clientTypeList[t]? with
  | none => rfl
  | some m =>
    dsimp only
    split
    · rw [TreeMap.getElem?_insert, if_neg (by simpa using h)]
    · rw [TreeMap.getElem?_erase, if_neg (by simpa using h)]

/-- Nobody comes to be on a PC when a client is taken back. -/
theorem isPCClientLogin_of_removeClientType {user : UserInfo} {t : Nat}
    (h : (user.removeClientType t).isPCClientLogin = true) : user.isPCClientLogin = true := by
  obtain ⟨t', n, hpc, hn⟩ := (isPCClientLogin_iff _).1 h
  obtain ⟨m, hm⟩ := getElem?_removeClientType_some hn
  exact (isPCClientLogin_iff _).2 ⟨t', m, hpc, hm⟩

/-- A client that is no PC changes nothing of it. -/
theorem isPCClientLogin_removeClientType {user : UserInfo} {t : Nat} (h : checkClientTypePc t = false) :
    (user.removeClientType t).isPCClientLogin = user.isPCClientLogin := by
  refine Bool.eq_iff_iff.2 ⟨isPCClientLogin_of_removeClientType, fun hlogin => ?_⟩
  obtain ⟨t', n, hpc, hn⟩ := (isPCClientLogin_iff _).1 hlogin
  refine (isPCClientLogin_iff _).2 ⟨t', n, hpc, ?_⟩
  rw [getElem?_removeClientType_ne, hn]
  rintro rfl
  rw [h] at hpc
  cases hpc

/-- When the last client is taken back, nobody is on a PC. -/
theorem isPCClientLogin_of_lastCounted {user : UserInfo} {t : Nat} (h : user.LastCounted t) :
    (user.removeClientType t).isPCClientLogin = false := by
  rw [← lastCounted_iff, UserInfo.isMsgConnNull, TreeMap.isEmpty_iff_forall_not_mem] at h
  rw [Bool.eq_false_iff]
  intro hlogin
  obtain ⟨t', n, -, hn⟩ := (isPCClientLogin_iff _).1 hlogin
  exact h t' (TreeMap.mem_iff_isSome_getElem?.2 (by rw [hn]; rfl))

theorem pcLogin_setUser (u : Nat) (user? : Option UserInfo) (u' : Nat) :
    (s.setUser u user?).pcLogin u' = if u' = u then user?.any UserInfo.isPCClientLogin else s.pcLogin u' := by
  simp only [State.pcLogin, userMap_setUser]
  by_cases hu : u' = u
  · simp only [if_pos hu]
    cases user? <;> rfl
  · simp only [if_neg hu]

theorem pcLogin_online (hon : stat.status ≠ userStatusOffline) (u : Nat) : (s.updateUserStatus c stat).pcLogin u =
    if u = stat.userId then s.pcLogin stat.userId || checkClientTypePc stat.clientType else s.pcLogin u := by
  obtain ⟨user, hupd, -, hlist⟩ := updateUserStatus_online (c := c) s hon
  have hsame : user.isPCClientLogin =
      (((s.userMap stat.userId).getD UserInfo.new).addClientType stat.clientType).isPCClientLogin := by
    rw [UserInfo.isPCClientLogin, hlist, UserInfo.isPCClientLogin]
  have hbefore : ((s.userMap stat.userId).getD UserInfo.new).isPCClientLogin = s.pcLogin stat.userId := by
    rw [State.pcLogin]
    cases s.userMap stat.userId with
    | none => rfl
    | some user0 => rfl
  rw [hupd, pcLogin_setUser, Option.any_some, hsame, isPCClientLogin_addClientType, hbefore]

theorem pcLogin_offline {user : UserInfo} (hoff : stat.status = userStatusOffline)
    (hu : s.userMap stat.userId = some user) (hc : c ∈ user.routeConnSet) (u : Nat) :
    (s.updateUserStatus c stat).pcLogin u =
      if u = stat.userId then (user.removeClientType stat.clientType).isPCClientLogin else s.pcLogin u := by
  rw [updateUserStatus_known hoff hu hc, pcLogin_setUser]
  congr 1
  cases hnull : (user.removeClientType stat.clientType).isMsgConnNull with
  | false => rfl
  | true =>
    -- the entry may be deleted, but then nobody is on a PC either
    have hnone := isPCClientLogin_of_lastCounted ((lastCounted_iff user _).1 hnull)
    rw [if_pos rfl, hnone]
    split
    · rfl
    · exact hnone

theorem pcLogin_close (u : Nat) : (s.close c).pcLogin u = true ↔
    ∃ user, s.userMap u = some user ∧ user.isPCClientLogin = true ∧ ∃ d ∈ user.routeConnSet, d ≠ c := by
  have hmap := userMap_close_eq_some (s := s) (c := c) u
  rw [State.pcLogin]
  constructor
  · intro hlogin
    cases hu' : (s.close c).userMap u with
    | none =>
      rw [hu'] at hlogin
      cases hlogin
    | some user' =>
      rw [hu'] at hlogin
      obtain ⟨user, hu, rfl, hother⟩ := (hmap user').1 hu'
      exact ⟨user, hu, hlogin, hother⟩
  · rintro ⟨user, hu, hlogin, hother⟩
    rw [(hmap _).2 ⟨user, hu, rfl, hother⟩]
    exact hlogin

end Login

/-! ## Updates -/

section Update

variable {p : Table} {c : RouteConn} {stat : UserStat}

/-- Other users are not concerned. -/
theorem inStep_of_user (h : InStep p) {q : Table} {u : Nat} (hconns : q.server.routeConnMap = p.server.routeConnMap)
    (hothers : ∀ d ∈ p.server.routeConnMap, ∀ v, v ≠ u → (q.Reported d v → p.Reported d v) ∧
      q.notified d v = p.notified d v ∧ q.server.pcLogin v = p.server.pcLogin v) :
    InStep q ↔ ∀ d ∈ p.server.routeConnMap, q.Reported d u → q.notified d u = q.server.pcLogin u := by
  constructor
  · intro hq d hd hr
    exact hq d (hconns ▸ hd) u hr
  · intro hu d hd v hr
    by_cases hv : v = u
    · subst hv
      exact hu d (hconns ▸ hd) hr
    · obtain ⟨hreported, hnotified, hlogin⟩ := hothers d (hconns ▸ hd) v hv
      rw [hnotified, hlogin]
      exact h d (hconns ▸ hd) v (hreported hr)

/-- An entry of a list: nobody is told anything. -/
theorem inStep_entry_iff (h : InStep p) (hc : c ∈ p.server.routeConnMap) :
    InStep (p.report c stat) ↔ EntryMeets p c stat := by
  by_cases hoff : stat.status = userStatusOffline
  · rw [EntryMeets, if_pos hoff]
    by_cases hk : p.server.Knows stat.userId c
    · obtain ⟨user, hu, hcu⟩ := hk
      have hbefore : p.server.pcLogin stat.userId = user.isPCClientLogin := by rw [State.pcLogin, hu]
      rw [inStep_of_user h (routeConnMap_report p c stat) (u := stat.userId)]
      · simp only [reported_offline hoff, notified_report, server_report, pcLogin_offline hoff hu hcu, if_true, true_and]
        constructor
        · intro hall user' hu' _ hlogin hgone d hd hr
          rw [hu] at hu'
          cases hu'
          by_contra hnot
          have hnow := hall d hd ⟨hr, hnot⟩
          rw [h d hd _ hr, hbefore, hlogin, hgone] at hnow
          cases hnow
        · rintro hmeets d hd ⟨hr, hnot⟩
          rw [h d hd _ hr, hbefore]
          cases hlogin : user.isPCClientLogin with
          | false =>
            refine (Bool.eq_false_iff.2 fun hstill => ?_).symm
            rw [isPCClientLogin_of_removeClientType hstill] at hlogin
            cases hlogin
          | true =>
            cases hstill : (user.removeClientType stat.clientType).isPCClientLogin with
            | true => rfl
            | false => exact absurd (hmeets user hu hcu hlogin hstill d hd hr) hnot
      · intro d _ v hv
        refine ⟨fun hr => ((reported_offline hoff d v).1 hr).1, rfl, ?_⟩
        rw [server_report, pcLogin_offline hoff hu hcu, if_neg hv]
    · refine iff_of_true ?_ fun user hu hcu => absurd ⟨user, hu, hcu⟩ hk
      intro d hd v hr
      simp only [server_report, updateUserStatus_unknown hoff hk] at hd ⊢
      exact h d hd v ((reported_offline hoff d v).1 hr).1
  · rw [EntryMeets, if_neg hoff, inStep_of_user h (routeConnMap_report p c stat) (u := stat.userId)]
    · simp only [reported_online hoff, notified_report, server_report, pcLogin_online hoff, if_true, and_true]
      constructor
      · intro hall
        refine ⟨fun hpc hlogin d hd hr => ?_, fun _ => hall c hc (.inl rfl)⟩
        have hnow := hall d hd (.inr hr)
        rw [h d hd _ hr, hlogin, hpc] at hnow
        cases hnow
      · rintro ⟨hfirst, hnew⟩ d hd hr
        by_cases hbefore : p.Reported d stat.userId
        · rw [h d hd _ hbefore]
          cases hlogin : p.server.pcLogin stat.userId with
          | true => rfl
          | false =>
            cases hpc : checkClientTypePc stat.clientType with
            | false => rfl
            | true => exact absurd hbefore (hfirst hpc hlogin d hd)
        · obtain rfl := hr.resolve_right hbefore
          exact hnew hbefore
    · intro d _ v hv
      refine ⟨fun hr => ((reported_online hoff d v).1 hr).resolve_left fun h => hv h.2, rfl, ?_⟩
      rw [server_report, pcLogin_online hoff, if_neg hv]

theorem statusNotifications_eq (s : State) (stat : UserStat) : s.statusNotifications stat =
    (if (s.userMap stat.userId).isSome then
      if stat.status = userStatusOffline then
        if checkClientTypePc stat.clientType ∧ !s.pcLogin stat.userId then [.loginStatusNotify stat.userId false] else []
      else if s.pcLogin stat.userId then [.loginStatusNotify stat.userId true] else []
    else []) ++
    if checkClientTypePc stat.clientType then
      if (s.userMap stat.userId).isSome ∧ stat.status = userStatusOffline ∧ s.pcLogin stat.userId then []
      else [.statusNotify stat.userId stat.status]
    else [] := rfl

/-- What a msg_server was told last, once the status is updated. -/
theorem notified_notifyAll (stat : UserStat) (q : Table) {d : RouteConn} (hd : d ∈ q.server.routeConnMap) (u : Nat) :
    (q.notifyAll (q.server.statusNotifications stat)).notified d u =
      if u = stat.userId ∧ (q.server.userMap stat.userId).isSome = true then
        if stat.status = userStatusOffline then
          if checkClientTypePc stat.clientType = true ∧ q.server.pcLogin stat.userId = false then false else q.notified d u
        else if q.server.pcLogin stat.userId = true then true else q.notified d u
      else q.notified d u := by
  rw [statusNotifications_eq, Table.notifyAll, List.foldl_append]
  by_cases hu : u = stat.userId <;> cases hsome : (q.server.userMap stat.userId).isSome <;>
    by_cases hoff : stat.status = userStatusOffline <;> cases hpc : checkClientTypePc stat.clientType <;>
      cases hl : q.server.pcLogin stat.userId <;> simp [Table.notify, *]

@[simp] theorem reported_notifyAll_iff (q : Table) (out : List Sent) (d : RouteConn) (u : Nat) :
    (q.notifyAll out).Reported d u ↔ q.Reported d u := by simp [Table.Reported]

/-- When the entry of a user is deleted. -/
theorem userMap_offline {s : State} {user : UserInfo} (hoff : stat.status = userStatusOffline)
    (hu : s.userMap stat.userId = some user) (hc : c ∈ user.routeConnSet) :
    ((s.updateUserStatus c stat).userMap stat.userId).isSome = false ↔
      user.LastCounted stat.clientType ∧ ∀ d ∈ user.routeConnSet, d = c := by
  rw [updateUserStatus_known hoff hu hc, userMap_setUser, if_pos rfl, ← lastCounted_iff]
  cases hnull : (user.removeClientType stat.clientType).isMsgConnNull with
  | false => simp
  | true =>
    have hsize : ((user.removeClientType stat.clientType).removeRouteConn c).routeConnSet.size = 0 ↔
        ∀ d ∈ user.routeConnSet, d = c := by
      simp [size_eq_zero_iff, mem_removeRouteConn, not_imp_not]
    rw [if_pos rfl, ← hsize]
    split
    · simp [*]
    · rename_i hne
      exact iff_of_false (by simp) fun h => hne h.2

/-- A status update: the msg_servers are told, unless the entry is deleted. -/
theorem inStep_status_iff (h : InStep p) (hc : c ∈ p.server.routeConnMap) :
    InStep ((p.report c stat).notifyAll ((p.server.updateUserStatus c stat).statusNotifications stat)) ↔ StatusMeets p c stat := by
  have hconns : ((p.report c stat).notifyAll ((p.server.updateUserStatus c stat).statusNotifications stat)).server.routeConnMap =
      p.server.routeConnMap := by rw [server_notifyAll, routeConnMap_report]
  have hnotified : ∀ {d : RouteConn}, d ∈ p.server.routeConnMap → ∀ u,
      ((p.report c stat).notifyAll ((p.server.updateUserStatus c stat).statusNotifications stat)).notified d u =
        if u = stat.userId ∧ ((p.server.updateUserStatus c stat).userMap stat.userId).isSome = true then
          if stat.status = userStatusOffline then
            if checkClientTypePc stat.clientType = true ∧ (p.server.updateUserStatus c stat).pcLogin stat.userId = false then
              false
            else p.notified d u
          else if (p.server.updateUserStatus c stat).pcLogin stat.userId = true then true else p.notified d u
        else p.notified d u := fun hd u =>
    notified_notifyAll stat (p.report c stat) ((routeConnMap_report p c stat).symm ▸ hd) u
  by_cases hoff : stat.status = userStatusOffline
  · rw [StatusMeets, if_pos hoff]
    by_cases hk : p.server.Knows stat.userId c
    · obtain ⟨user, hu, hcu⟩ := hk
      have hbefore : p.server.pcLogin stat.userId = user.isPCClientLogin := by rw [State.pcLogin, hu]
      rw [inStep_of_user h hconns (u := stat.userId)]
      · simp only [reported_notifyAll_iff, reported_offline hoff, server_notifyAll, server_report,
          pcLogin_offline hoff hu hcu, if_true, true_and]
        by_cases hgone : user.LastCounted stat.clientType ∧ ∀ d ∈ user.routeConnSet, d = c
        · have hnone := (userMap_offline hoff hu hcu).2 hgone
          rw [isPCClientLogin_of_lastCounted hgone.1]
          constructor
          · intro hall user' hu' _ _ _ hlogin d hd hr
            rw [hu] at hu'
            cases hu'
            by_contra hnot
            have hnow := hall d hd ⟨hr, hnot⟩
            rw [hnotified hd, hnone, if_neg (by simp), h d hd _ hr, hbefore, hlogin] at hnow
            cases hnow
          · rintro hmeets d hd ⟨hr, hnot⟩
            rw [hnotified hd, hnone, if_neg (by simp), h d hd _ hr, hbefore]
            refine Bool.eq_false_iff.2 fun hlogin => hnot ?_
            exact hmeets user hu hcu hgone.2 hgone.1 hlogin d hd hr
        · have hsome : ((p.server.updateUserStatus c stat).userMap stat.userId).isSome = true := by
            rw [← Bool.not_eq_false]
            exact fun hnone => hgone ((userMap_offline hoff hu hcu).1 hnone)
          refine iff_of_true ?_ fun user' hu' _ honly hlast => ?_
          · rintro d hd ⟨hr, -⟩
            rw [hnotified hd, hsome, if_pos ⟨rfl, rfl⟩, if_pos hoff, pcLogin_offline hoff hu hcu, if_pos rfl, h d hd _ hr,
              hbefore]
            cases hstill : (user.removeClientType stat.clientType).isPCClientLogin with
            | true => simp [isPCClientLogin_of_removeClientType hstill]
            | false =>
              cases hpc : checkClientTypePc stat.clientType with
              | true => simp
              | false => simp [← hstill, isPCClientLogin_removeClientType hpc]
          · rw [hu] at hu'
            cases hu'
            exact absurd ⟨hlast, honly⟩ hgone
      · intro d hd v hv
        refine ⟨fun hr => ((reported_offline hoff d v).1 ((reported_notifyAll_iff _ _ d v).1 hr)).1, ?_, ?_⟩
        · rw [hnotified hd, if_neg fun h => hv h.1]
        · rw [server_notifyAll, server_report, pcLogin_offline hoff hu hcu, if_neg hv]
    · refine iff_of_true ?_ fun user hu hcu => absurd ⟨user, hu, hcu⟩ hk
      intro d hd u hr
      rw [hconns] at hd
      rw [reported_notifyAll_iff, reported_offline hoff] at hr
      rw [hnotified hd, server_notifyAll, server_report, updateUserStatus_unknown hoff hk, h d hd u hr.1]
      by_cases hu : u = stat.userId
      · subst hu
        cases p.server.pcLogin stat.userId <;> simp [hoff]
      · rw [if_neg fun h => hu h.1]
  · rw [StatusMeets, if_neg hoff, inStep_of_user h hconns (u := stat.userId)]
    · have hsome : ((p.server.updateUserStatus c stat).userMap stat.userId).isSome = true := by
        obtain ⟨user, hupd, -, -⟩ := updateUserStatus_online (c := c) p.server hoff
        rw [hupd, userMap_setUser, if_pos rfl]
        rfl
      have hnow : ∀ d ∈ p.server.routeConnMap,
          ((p.report c stat).notifyAll ((p.server.updateUserStatus c stat).statusNotifications stat)).notified d stat.userId =
            if (p.server.pcLogin stat.userId || checkClientTypePc stat.clientType) = true then true
            else p.notified d stat.userId := by
        intro d hd
        rw [hnotified hd, hsome, if_pos ⟨rfl, rfl⟩, if_neg hoff, pcLogin_online hoff, if_pos rfl]
      simp only [reported_notifyAll_iff, reported_online hoff, server_notifyAll, server_report, pcLogin_online hoff, if_true,
        and_true]
      constructor
      · intro hall hpc hlogin hnot
        have hafter := hall c hc (.inl rfl)
        rw [hnow c hc, hlogin, hpc] at hafter
        exact hafter
      · intro hmeets d hd hr
        rw [hnow d hd]
        cases hlogin : p.server.pcLogin stat.userId with
        | true => rfl
        | false =>
          cases hpc : checkClientTypePc stat.clientType with
          | true => rfl
          | false =>
            by_cases hbefore : p.Reported d stat.userId
            · rw [h d hd _ hbefore, hlogin]
              rfl
            · obtain rfl := hr.resolve_right hbefore
              rw [hmeets hpc hlogin hbefore]
              rfl
    · intro d hd v hv
      refine ⟨fun hr => ((reported_online hoff d v).1 ((reported_notifyAll_iff _ _ d v).1 hr)).resolve_left fun h => hv h.2,
        ?_, ?_⟩
      · rw [hnotified hd, if_neg fun h => hv h.1]
      · rw [server_notifyAll, server_report, pcLogin_online hoff, if_neg hv]

end Update

/-! ## Steps -/

theorem inStep_connect {p : Table} {c : RouteConn} (h : InStep p) :
    InStep { p with
      server := { p.server with routeConnMap := insert c p.server.routeConnMap }
      reported := fun d u t => if d = c then 0 else p.reported d u t } := by
  rintro d hd u ⟨t, ht⟩
  by_cases hdc : d = c
  · simp [hdc] at ht
  · dsimp only at ht
    rw [if_neg hdc] at ht
    exact h d (Finset.mem_of_mem_insert_of_ne hd hdc) u ⟨t, ht⟩

/-- A close: nobody is told anything. -/
theorem inStep_close_iff {p : Table} {c : RouteConn} (h : InStep p) :
    InStep { p with server := p.server.close c } ↔ GoingMeets p c := by
  have hconns : ∀ d, d ∈ (p.server.close c).routeConnMap ↔ d ≠ c ∧ d ∈ p.server.routeConnMap := fun d => Finset.mem_erase
  constructor
  · intro hall u user hu hlogin honly d hd hdc hr
    have hnow : p.notified d u = (p.server.close c).pcLogin u := hall d ((hconns d).2 ⟨hdc, hd⟩) u hr
    have hbefore : p.server.pcLogin u = true := by rw [State.pcLogin, hu]; exact hlogin
    rw [h d hd u hr, hbefore] at hnow
    obtain ⟨user', hu', -, e, he, hec⟩ := (pcLogin_close u).1 hnow.symm
    rw [hu] at hu'
    cases hu'
    exact hec (honly e he)
  · intro hmeets d hd u hr
    obtain ⟨hdc, hd⟩ := (hconns d).1 hd
    change p.notified d u = (p.server.close c).pcLogin u
    rw [h d hd u hr, Bool.eq_iff_iff, pcLogin_close, State.pcLogin]
    cases hu : p.server.userMap u with
    | none => simp
    | some user =>
      simp only [Option.some.injEq, exists_eq_left']
      refine ⟨fun hlogin => ⟨hlogin, ?_⟩, fun h => h.1⟩
      by_contra honly
      refine hmeets u user hu hlogin (fun e he => ?_) d hd hdc hr
      by_contra hec
      exact honly ⟨e, he, hec⟩

/-- One step. -/
theorem inStep_step {p p' : Table} {e : Event} {out : List Sent} (h : InStep p) (hstep : p.step e = some (p', out)) :
    p.Throughout InStep e p' ↔ InStepMeets p e := by
  cases e with
  | connect c =>
    simp only [Table.step] at hstep
    split at hstep
    · cases hstep
    · cases hstep
      exact iff_of_true (inStep_connect h) trivial
  | close c =>
    simp only [Table.step] at hstep
    split at hstep
    · cases hstep
      exact inStep_close_iff h
    · cases hstep
  | onlineUserInfo c stats =>
    simp only [Table.step] at hstep
    split at hstep
    · exact reportAll_iff inStep_entry_iff c stats h ‹_›
    · cases hstep
  | userStatusUpdate c stat =>
    simp only [Table.step] at hstep
    split at hstep
    · cases hstep
      exact inStep_status_iff h ‹_›
    · cases hstep
  | usersStatusRequest c users =>
    simp only [Table.step] at hstep
    split at hstep
    · cases hstep
      exact iff_of_true h trivial
    · cases hstep

theorem inStep_init : InStep Table.init := by
  intro c hc
  cases hc

/-- A msg_server connects, and reports that user 7 is online on a PC. -/
def listed : List Event := [.connect 1, .onlineUserInfo 1 [⟨7, userStatusOnline, 1⟩]]

/-- It has not been told so. -/
theorem listed_not_notified : (Machine.steps Table.step Table.init listed).any fun (p, _) =>
    1 ∈ p.server.routeConnMap ∧ 0 < p.reported 1 7 1 ∧ p.notified 1 7 = false ∧ p.server.pcLogin 7 = true := by
  decide

end LoginStatusAux

open LoginStatusAux TableAux

/-- The msg_servers are in step after every event, and between the entries of every list, exactly when every step meets the
condition. -/
theorem in_step_iff (es : List Event) :
    Machine.Along Table.step (fun p e p' => p.Throughout InStep e p') Table.init es ↔
      Machine.Along Table.step (fun p e _ => InStepMeets p e) Table.init es := by
  refine Machine.along_iff inStep_step ?_ inStep_init
  intro p e p' out h hstep hmeets
  exact throughout_last hstep ((inStep_step h hstep).2 hmeets)

/-- A msg_server that has reported a PC client in its list of users is not told that the user is on a PC. -/
theorem not_in_step : ¬∀ es, Machine.Along Table.step (fun _ _ p' => InStep p') Table.init es := by
  intro hall
  obtain ⟨⟨p, log⟩, hsteps, hlisted⟩ := (Option.any_eq_true ..).1 listed_not_notified
  obtain ⟨hconn, hreported, hnotified, hlogin⟩ := of_decide_eq_true hlisted
  have hnow := (hall listed).last inStep_init hsteps 1 hconn 7 ⟨1, hreported⟩
  rw [hnotified, hlogin] at hnow
  cases hnow

end TeamTalk.RouteServer
