import Mathlib
import TeamTalk.RouteServer.UserInfo

/-!
# Presence in route_server

Who is online is counted over all msg_servers, but what each of them has contributed is not kept. The counts are exact as long
as nobody takes back what he has not reported, and nobody who has reported something leaves while others know the user too.
-/

namespace TeamTalk.RouteServer

open Std (TreeMap TreeSet)

/-- route_server, and how many more online than offline transitions each connection has reported for a user and a client
type. -/
structure Presence where
  server : State
  surplus : RouteConn → Nat → Nat → Int

namespace Presence

/-- Before any msg_server has connected. -/
def init : Presence := { server := State.init, surplus := fun _ _ _ => 0 }

/-- One transition is reported. -/
def report (p : Presence) (c : RouteConn) (stat : UserStat) : Presence :=
  { server := p.server.updateUserStatus c stat
    surplus := fun d u t => p.surplus d u t +
      if d = c ∧ u = stat.userId ∧ t = stat.clientType then if stat.status = userStatusOffline then -1 else 1 else 0 }

/-- All transitions of a list are reported. -/
def reportAll (p : Presence) (c : RouteConn) (stats : List UserStat) : Presence :=
  stats.foldl (fun p stat => p.report c stat) p

/-- What is counted for a user and a client type. -/
def count (p : Presence) (u t : Nat) : Nat :=
  match p.server.userMap u with
  | some user => user.getCountByClientType t
  | none => 0

end Presence

/-- What can happen. -/
inductive Event where
  | connect (c : RouteConn)
  | close (c : RouteConn)
  | onlineUserInfo (c : RouteConn) (stats : List UserStat)
  | userStatusUpdate (c : RouteConn) (stat : UserStat)
  | usersStatusRequest (c : RouteConn) (users : List Nat)

/-- One event: a connection that has not been made reports nothing. -/
def step (p : Presence) : Event → Option (Presence × List Sent)
  | .connect c =>
    if c ∈ p.server.routeConnMap then none
    else some ({ server := { p.server with routeConnMap := insert c p.server.routeConnMap }
                 surplus := fun d u t => if d = c then 0 else p.surplus d u t }, [])
  | .close c =>
    if c ∈ p.server.routeConnMap then
      some ({ server := p.server.close c, surplus := fun d u t => if d = c then 0 else p.surplus d u t }, [])
    else none
  | .onlineUserInfo c stats => if c ∈ p.server.routeConnMap then some (p.reportAll c stats, []) else none
  | .userStatusUpdate c stat =>
    if c ∈ p.server.routeConnMap then some (p.report c stat, (p.report c stat).server.statusNotifications stat) else none
  | .usersStatusRequest c users =>
    if c ∈ p.server.routeConnMap then
      some (p, [.usersStatusResponse c (users.map fun u => (u, p.server.statusOf u))])
    else none

/-- A transition that is counted rightly: whoever reports a user offline has reported him online more often, and the count
does not wrap around. -/
def ReportMeets (p : Presence) (c : RouteConn) (stat : UserStat) : Prop :=
  if stat.status = userStatusOffline then 0 < p.surplus c stat.userId stat.clientType
  else p.count stat.userId stat.clientType + 1 < uint32Size

/-- The same, for each of a list. -/
def ReportAllMeets (p : Presence) (c : RouteConn) : List UserStat → Prop
  | [] => True
  | stat :: stats => ReportMeets p c stat ∧ ReportAllMeets (p.report c stat) c stats

/-- When a connection closes for which a user is online, no other connection knows the user. -/
def CloseMeets (p : Presence) (c : RouteConn) : Prop :=
  ∀ u t user d, 0 < p.surplus c u t → p.server.userMap u = some user → d ∈ user.routeConnSet → d = c

/-- The condition on a step. -/
def PresenceMeets (p : Presence) : Event → Prop
  | .close c => CloseMeets p c
  | .onlineUserInfo c stats => ReportAllMeets p c stats
  | .userStatusUpdate c stat => ReportMeets p c stat
  | _ => True

/-- A user is online on a PC for some connected msg_server. -/
def Presence.OnPC (p : Presence) (u : Nat) : Prop :=
  ∃ c ∈ p.server.routeConnMap, ∃ t, checkClientTypePc t = true ∧ 0 < p.surplus c u t

/-- Presence is exact: a user is reported as online on a PC exactly when he is for some connected msg_server, and what is
counted is what the connected msg_servers have contributed. -/
structure PresenceExact (p : Presence) : Prop where
  pcLogin_iff : ∀ u, (∃ user, p.server.userMap u = some user ∧ user.isPCClientLogin = true) ↔ p.OnPC u
  status_iff : ∀ u, p.server.statusOf u = userStatusOnline ↔ p.OnPC u
  count_eq : ∀ u t, (p.count u t : Int) = ∑ c ∈ p.server.routeConnMap, p.surplus c u t

/-- Every run whose steps all meet `ok` keeps presence exact. -/
def PresenceKept (ok : Presence → Event → Prop) : Prop :=
  ∀ (log : List Sent) (p : Presence), Machine.Run step ok Presence.init log p → PresenceExact p

namespace PresenceAux

/-! ## Users -/

/-- One more client of a type, up to the largest count. -/
theorem getElem?_addClientType (user : UserInfo) (t t' : Nat) : (user.addClientType t).clientTypeList[t']? =
    if t = t' then some (match user.clientTypeList[t]? with
      | some n => countUp n
      | none => 1)
    else user.clientTypeList[t']? := by
  rw [UserInfo.addClientType]
  cases user.clientTypeList[t]? with
  | some n =>
    simp only [TreeMap.getElem?_insert, Nat.compare_eq_eq]
  | none =>
    simp only [TreeMap.getElem?_insert, Nat.compare_eq_eq]

/-- Taking back one of a positive count. -/
theorem getElem?_removeClientType {user : UserInfo} {t n : Nat} (h : user.clientTypeList[t]? = some n) (hpos : 0 < n)
    (hlt : n < uint32Size) (t' : Nat) : (user.removeClientType t).clientTypeList[t']? =
    if t = t' then if n = 1 then none else some (n - 1) else user.clientTypeList[t']? := by
  simp only [UserInfo.removeClientType, h, countDown_of_pos hpos hlt]
  by_cases hn : n = 1
  · rw [if_neg (by omega), if_pos hn]
    simp only [TreeMap.getElem?_erase, Nat.compare_eq_eq]
  · rw [if_pos (by omega), if_neg hn]
    simp only [TreeMap.getElem?_insert, Nat.compare_eq_eq]

/-- Counting a client moves no connection. -/
@[simp] theorem routeConnSet_addClientType (user : UserInfo) (t : Nat) :
    (user.addClientType t).routeConnSet = user.routeConnSet := by
  rw [UserInfo.addClientType]
  split
  · rfl
  · rfl

/-- Nor does counting it out. -/
@[simp] theorem routeConnSet_removeClientType (user : UserInfo) (t : Nat) :
    (user.removeClientType t).routeConnSet = user.routeConnSet := by
  rw [UserInfo.removeClientType]
  split
  · split
    · rfl
    · rfl
  · rfl

/-- The connections with one more. -/
theorem mem_addRouteConn (user : UserInfo) (c d : RouteConn) :
    d ∈ (user.addRouteConn c).routeConnSet ↔ d = c ∨ d ∈ user.routeConnSet := by
  rw [UserInfo.addRouteConn, TreeSet.mem_insert, Nat.compare_eq_eq, eq_comm]

/-- And with one less. -/
theorem mem_removeRouteConn (user : UserInfo) (c d : RouteConn) :
    d ∈ (user.removeRouteConn c).routeConnSet ↔ d ≠ c ∧ d ∈ user.routeConnSet := by
  rw [UserInfo.removeRouteConn, TreeSet.mem_erase, ne_eq, Nat.compare_eq_eq]
  exact and_congr_left fun _ => not_congr eq_comm

/-- A set of size zero is empty. -/
theorem size_eq_zero_iff (set : TreeSet RouteConn) : set.size = 0 ↔ ∀ d, d ∉ set := by
  rw [← TreeSet.isEmpty_iff_forall_not_mem, TreeSet.isEmpty_eq_size_eq_zero, beq_iff_eq]

/-- What is counted, from the list of client types. -/
theorem count_eq_of_getElem? {p : Presence} {u t n : Nat} {user : UserInfo} (hu : p.server.userMap u = some user)
    (h : user.clientTypeList[t]? = some n) : p.count u t = n := by
  simp only [Presence.count, hu, UserInfo.getCountByClientType, TreeMap.getD_eq_getD_getElem?, h, Option.getD_some]

/-- A type that is not listed counts nothing. -/
theorem count_eq_zero {p : Presence} {u t : Nat} {user : UserInfo} (hu : p.server.userMap u = some user)
    (h : user.clientTypeList[t]? = none) : p.count u t = 0 := by
  simp only [Presence.count, hu, UserInfo.getCountByClientType, TreeMap.getD_eq_getD_getElem?, h, Option.getD_none]

/-- A user is online on a PC when a PC client type is in the list. -/
theorem isPCClientLogin_iff (user : UserInfo) :
    user.isPCClientLogin = true ↔ ∃ t n, checkClientTypePc t = true ∧ user.clientTypeList[t]? = some n := by
  rw [UserInfo.isPCClientLogin, List.any_eq_true]
  constructor
  · rintro ⟨t, ht, hpc⟩
    rw [TreeMap.mem_keys] at ht
    exact ⟨t, user.clientTypeList[t], hpc, TreeMap.getElem?_eq_some_getElem ht⟩
  · rintro ⟨t, n, hpc, hn⟩
    refine ⟨t, ?_, hpc⟩
    rw [TreeMap.mem_keys, TreeMap.mem_iff_isSome_getElem?, hn]
    rfl

/-! ## The invariant -/

/-- Nobody has reported more offline than online transitions; who has a surplus is known with the user; and every count is the
sum of what the connections have contributed. -/
structure Exact (p : Presence) : Prop where
  nonneg : ∀ c u t, 0 ≤ p.surplus c u t
  known : ∀ c u t, 0 < p.surplus c u t → c ∈ p.server.routeConnMap ∧
    ∃ user, p.server.userMap u = some user ∧ c ∈ user.routeConnSet
  counted : ∀ u user t, p.server.userMap u = some user →
    (user.clientTypeList[t]? = none ∧ ∑ c ∈ p.server.routeConnMap, p.surplus c u t = 0) ∨
    ∃ n, user.clientTypeList[t]? = some n ∧ 0 < n ∧ n < uint32Size ∧
      (n : Int) = ∑ c ∈ p.server.routeConnMap, p.surplus c u t

/-- A sum is positive exactly when a contribution is. -/
theorem sum_pos_iff {p : Presence} (h : Exact p) (u t : Nat) : 0 < ∑ c ∈ p.server.routeConnMap, p.surplus c u t ↔
    ∃ c ∈ p.server.routeConnMap, 0 < p.surplus c u t := by
  constructor
  · intro hpos
    obtain ⟨c, hc, hne⟩ := Finset.exists_ne_zero_of_sum_ne_zero (Int.ne_of_gt hpos)
    exact ⟨c, hc, lt_of_le_of_ne (h.nonneg c u t) hne.symm⟩
  · rintro ⟨c, hc, hpos⟩
    exact lt_of_lt_of_le hpos (Finset.single_le_sum (fun d _ => h.nonneg d u t) hc)

/-- Presence is exact when the invariant holds. -/
theorem presenceExact_of_exact {p : Presence} (h : Exact p) : PresenceExact p := by
  have hpc : ∀ u, (∃ user, p.server.userMap u = some user ∧ user.isPCClientLogin = true) ↔ p.OnPC u := by
    intro u
    constructor
    · rintro ⟨user, hu, hlogin⟩
      obtain ⟨t, n, hpc, hn⟩ := (isPCClientLogin_iff user).1 hlogin
      rcases h.counted u user t hu with ⟨hnone, -⟩ | ⟨n', hn', hpos, -, hsum⟩
      · rw [hn] at hnone
        cases hnone
      · obtain ⟨c, hc, hc'⟩ := (sum_pos_iff h u t).1 (hsum ▸ Int.natCast_pos.2 hpos)
        exact ⟨c, hc, t, hpc, hc'⟩
    · rintro ⟨c, hc, t, hpc, hpos⟩
      obtain ⟨-, user, hu, -⟩ := h.known c u t hpos
      refine ⟨user, hu, (isPCClientLogin_iff user).2 ?_⟩
      have hsum := (sum_pos_iff h u t).2 ⟨c, hc, hpos⟩
      rcases h.counted u user t hu with ⟨-, hzero⟩ | ⟨n, hn, -, -, -⟩
      · rw [hzero] at hsum
        exact absurd hsum (lt_irrefl 0)
      · exact ⟨t, n, hpc, hn⟩
  refine ⟨hpc, ?_, ?_⟩
  · intro u
    rw [← hpc u, State.statusOf]
    cases hu : p.server.userMap u with
    | none => simp
    | some user =>
      simp only [UserInfo.getStatus, Option.some.injEq, exists_eq_left']
      split
      · simp [*]
      · simp [*]
  · intro u t
    cases hu : p.server.userMap u with
    | none =>
      have hzero : p.count u t = 0 := by simp only [Presence.count, hu]
      rw [hzero]
      refine (Finset.sum_eq_zero fun c hc => ?_).symm
      by_contra hne
      obtain ⟨-, user, hu', -⟩ := h.known c u t (lt_of_le_of_ne (h.nonneg c u t) (Ne.symm hne))
      rw [hu] at hu'
      cases hu'
    | some user =>
      rcases h.counted u user t hu with ⟨hnone, hzero⟩ | ⟨n, hn, -, -, hsum⟩
      · rw [count_eq_zero hu hnone, hzero]
        rfl
      · rw [count_eq_of_getElem? hu hn, hsum]

/-! ## One transition -/

section Report

variable {p : Presence} {c : RouteConn} {stat : UserStat}

/-- A stored user is found under its own id only. -/
theorem userMap_setUser (s : State) (u : Nat) (user : Option UserInfo) (u' : Nat) :
    (s.setUser u user).userMap u' = if u' = u then user else s.userMap u' := rfl

/-- A user goes online: he is known, and counted once more. -/
theorem updateUserStatus_online (s : State) (h : stat.status ≠ userStatusOffline) :
    ∃ user, s.updateUserStatus c stat = s.setUser stat.userId (some user) ∧
      (∀ d, d ∈ user.routeConnSet ↔ d = c ∨ d ∈ ((s.userMap stat.userId).getD UserInfo.new).routeConnSet) ∧
      user.clientTypeList = (((s.userMap stat.userId).getD UserInfo.new).addClientType stat.clientType).clientTypeList := by
  -- adding the connection leaves the counts alone
  have hadd : ∀ user : UserInfo, ((user.addRouteConn c).addClientType stat.clientType).clientTypeList =
      (user.addClientType stat.clientType).clientTypeList := by
    intro user
    simp only [UserInfo.addClientType, UserInfo.addRouteConn]
    split <;> rfl
  rw [State.updateUserStatus]
  cases hu : s.userMap stat.userId with
  | none =>
    refine ⟨(UserInfo.new.addRouteConn c).addClientType stat.clientType, by simp only [if_pos h], ?_, hadd _⟩
    intro d
    rw [routeConnSet_addClientType, mem_addRouteConn]
    rfl
  | some user =>
    by_cases hfind : user.findRouteConn c = true
    · refine ⟨user.addClientType stat.clientType, by simp only [if_pos hfind, if_neg h], ?_, rfl⟩
      intro d
      rw [routeConnSet_addClientType]
      exact (or_iff_right_of_imp fun hd => hd ▸ TreeSet.contains_iff_mem.1 hfind).symm
    · refine ⟨(user.addRouteConn c).addClientType stat.clientType, by simp only [if_neg hfind, if_pos h], ?_, hadd user⟩
      intro d
      rw [routeConnSet_addClientType, mem_addRouteConn]
      rfl

/-- A user goes offline for a connection that knows him: he is counted once less; and when nothing is counted any more, the
connection no longer knows him. -/
theorem updateUserStatus_offline {s : State} {user : UserInfo} (h : stat.status = userStatusOffline)
    (hu : s.userMap stat.userId = some user) (hc : c ∈ user.routeConnSet) :
    ∃ user?, s.updateUserStatus c stat = s.setUser stat.userId user? ∧
      ((user.removeClientType stat.clientType).isMsgConnNull = false →
        user? = some (user.removeClientType stat.clientType)) ∧
      ((user.removeClientType stat.clientType).isMsgConnNull = true → ∀ user', user? = some user' →
        user'.clientTypeList = (user.removeClientType stat.clientType).clientTypeList) := by
  have hfind : user.findRouteConn c = true := TreeSet.contains_iff_mem.2 hc
  simp only [State.updateUserStatus, hu, if_pos hfind, if_pos h]
  cases hnull : (user.removeClientType stat.clientType).isMsgConnNull with
  | false => exact ⟨_, rfl, fun _ => rfl, fun h => by cases h⟩
  | true =>
    simp only [if_true]
    split
    · exact ⟨none, rfl, fun h => (by cases h), fun _ user' h => by cases h⟩
    · refine ⟨_, rfl, fun h => (by cases h), fun _ user' h => ?_⟩
      rw [← Option.some.inj h]
      rfl

/-- A user's new state leaves the connections alone. -/
theorem routeConnMap_updateUserStatus (s : State) : (s.updateUserStatus c stat).routeConnMap = s.routeConnMap := by
  rw [State.updateUserStatus]
  split
  · split
    · split
      · dsimp only
        split
        · split <;> rfl
        · rfl
      · rfl
    · split <;> rfl
  · split <;> rfl

/-- The sum changes by what is reported. -/
theorem sum_report (hc : c ∈ p.server.routeConnMap) (u t : Nat) :
    ∑ d ∈ (p.report c stat).server.routeConnMap, (p.report c stat).surplus d u t =
      ∑ d ∈ p.server.routeConnMap, p.surplus d u t +
        if u = stat.userId ∧ t = stat.clientType then if stat.status = userStatusOffline then -1 else 1 else 0 := by
  simp only [Presence.report, routeConnMap_updateUserStatus]
  rw [Finset.sum_add_distrib]
  by_cases hut : u = stat.userId ∧ t = stat.clientType
  · simp only [hut, and_true, and_self, if_true]
    rw [Finset.sum_ite_eq', if_pos hc]
  · simp [hut]

/-- What is counted for a user and a client type is the sum of what the connections have contributed: nothing is listed for an
empty sum, and no count is zero or beyond its type. -/
def CountsTo (p : Presence) (u : Nat) (user : UserInfo) (t : Nat) : Prop :=
  (user.clientTypeList[t]? = none ∧ ∑ d ∈ p.server.routeConnMap, p.surplus d u t = 0) ∨
    ∃ n, user.clientTypeList[t]? = some n ∧ 0 < n ∧ n < uint32Size ∧
      (n : Int) = ∑ d ∈ p.server.routeConnMap, p.surplus d u t

/-- What a connection has contributed changes by what it reports. -/
theorem surplus_report (d : RouteConn) (u t : Nat) : (p.report c stat).surplus d u t = p.surplus d u t +
    if d = c ∧ u = stat.userId ∧ t = stat.clientType then if stat.status = userStatusOffline then -1 else 1 else 0 := rfl

/-- Who reports a user offline has reported him online, so that no surplus turns negative. -/
theorem nonneg_report (h : Exact p) (hmeets : ReportMeets p c stat) (d : RouteConn) (u t : Nat) :
    0 ≤ (p.report c stat).surplus d u t := by
  have h0 := h.nonneg d u t
  rw [surplus_report]
  split
  · rename_i heq
    obtain ⟨rfl, rfl, rfl⟩ := heq
    split
    · rename_i hoff
      rw [ReportMeets, if_pos hoff] at hmeets
      omega
    · omega
  · omega

/-- The users after a report that stores one of them. -/
theorem userMap_report {user? : Option UserInfo} (h : p.server.updateUserStatus c stat = p.server.setUser stat.userId user?)
    (u : Nat) : (p.report c stat).server.userMap u = if u = stat.userId then user? else p.server.userMap u := by
  change (p.server.updateUserStatus c stat).userMap u = _
  rw [h, userMap_setUser]

/-- The other users' counts are as they were. -/
theorem countsTo_other (h : Exact p) (hc : c ∈ p.server.routeConnMap) {u : Nat} (hne : u ≠ stat.userId) {user : UserInfo}
    (hu : p.server.userMap u = some user) (t : Nat) : CountsTo (p.report c stat) u user t := by
  rw [CountsTo, sum_report hc, if_neg fun h => hne h.1, Int.add_zero]
  exact h.counted u user t hu

/-! ### Offline -/

/-- The counts of a user who has gone offline for a connection that had a surplus. -/
theorem countsTo_offline (h : Exact p) (hc : c ∈ p.server.routeConnMap) (hoff : stat.status = userStatusOffline)
    (hsurplus : 0 < p.surplus c stat.userId stat.clientType) {user : UserInfo}
    (hu : p.server.userMap stat.userId = some user) (t : Nat) :
    CountsTo (p.report c stat) stat.userId (user.removeClientType stat.clientType) t := by
  have hcount : ∃ n, user.clientTypeList[stat.clientType]? = some n ∧ 0 < n ∧ n < uint32Size ∧
      (n : Int) = ∑ d ∈ p.server.routeConnMap, p.surplus d stat.userId stat.clientType := by
    rcases h.counted _ user stat.clientType hu with ⟨-, hzero⟩ | hn
    · have := (sum_pos_iff h stat.userId stat.clientType).2 ⟨c, hc, hsurplus⟩
      omega
    · exact hn
  obtain ⟨n, hn, hpos, hlt, hsum⟩ := hcount
  rw [CountsTo, sum_report hc, getElem?_removeClientType hn hpos hlt, if_pos hoff]
  by_cases ht : stat.clientType = t
  · subst ht
    simp only [and_self, if_true, ← hsum]
    by_cases h1 : n = 1
    · exact .inl ⟨if_pos h1, by omega⟩
    · exact .inr ⟨n - 1, if_neg h1, by omega, by omega, by omega⟩
  · rw [if_neg ht, if_neg (fun h => ht h.2.symm), Int.add_zero]
    exact h.counted _ user t hu

/-- A user with a surplus somewhere is still listed. -/
theorem listed_of_surplus {q : Presence} {d : RouteConn} {u t : Nat} {user : UserInfo} (hcounts : CountsTo q u user t)
    (hnonneg : ∀ e, 0 ≤ q.surplus e u t) (hd : d ∈ q.server.routeConnMap) (hpos : 0 < q.surplus d u t) :
    user.isMsgConnNull = false := by
  rw [Bool.eq_false_iff]
  intro hnull
  have hsum : 0 < ∑ e ∈ q.server.routeConnMap, q.surplus e u t :=
    lt_of_lt_of_le hpos (Finset.single_le_sum (fun e _ => hnonneg e) hd)
  rcases hcounts with ⟨-, hzero⟩ | ⟨m, hm, -⟩
  · omega
  · have hmem : t ∈ user.clientTypeList := by
      rw [TreeMap.mem_iff_isSome_getElem?, hm]
      rfl
    exact TreeMap.isEmpty_iff_forall_not_mem.1 hnull t hmem

theorem exact_offline (h : Exact p) (hc : c ∈ p.server.routeConnMap) (hmeets : ReportMeets p c stat)
    (hoff : stat.status = userStatusOffline) : Exact (p.report c stat) := by
  have hsurplus : 0 < p.surplus c stat.userId stat.clientType := by rwa [ReportMeets, if_pos hoff] at hmeets
  -- he who reports the user offline is known with him
  obtain ⟨-, user, hu, hcu⟩ := h.known c _ _ hsurplus
  obtain ⟨user?, hupd, hsome, hnull⟩ := updateUserStatus_offline (s := p.server) hoff hu hcu
  have hmap := userMap_report (p := p) hupd
  have hcounts := countsTo_offline h hc hoff hsurplus hu
  have hconns : (p.report c stat).server.routeConnMap = p.server.routeConnMap := routeConnMap_updateUserStatus _
  refine ⟨nonneg_report h hmeets, ?_, ?_⟩
  · intro d u t hd
    have hd0 : 0 < p.surplus d u t := by
      rw [surplus_report, if_pos hoff] at hd
      split at hd <;> omega
    obtain ⟨hdc, user0, hu0, hdu⟩ := h.known d u t hd0
    refine ⟨by rwa [hconns], ?_⟩
    rw [hmap]
    by_cases heq : u = stat.userId
    · subst heq
      rw [hu] at hu0
      obtain rfl := Option.some.inj hu0
      have hlisted := listed_of_surplus (hcounts t) (fun e => nonneg_report h hmeets e _ t) (by rwa [hconns]) hd
      rw [if_pos rfl]
      exact ⟨_, hsome hlisted, by rwa [routeConnSet_removeClientType]⟩
    · rw [if_neg heq]
      exact ⟨user0, hu0, hdu⟩
  · intro u user' t hu'
    rw [hmap] at hu'
    split at hu'
    · rename_i heq
      subst heq
      cases hn' : (user.removeClientType stat.clientType).isMsgConnNull with
      | false =>
        rw [hsome hn'] at hu'
        obtain rfl := Option.some.inj hu'
        exact hcounts t
      | true =>
        rw [hnull hn' user' hu']
        exact hcounts t
    · rename_i heq
      exact countsTo_other h hc heq hu' t

/-! ### Online -/

/-- What was counted for a user before, also when he was not known. -/
theorem countsTo_before (h : Exact p) (u t : Nat) : CountsTo p u ((p.server.userMap u).getD UserInfo.new) t := by
  cases hu : p.server.userMap u with
  | some user => exact h.counted u user t hu
  | none =>
    refine .inl ⟨TreeMap.getElem?_emptyc, Finset.sum_eq_zero fun d _ => ?_⟩
    by_contra hne
    obtain ⟨-, user, hu', -⟩ := h.known d u t (lt_of_le_of_ne (h.nonneg d u t) (Ne.symm hne))
    rw [hu] at hu'
    cases hu'

/-- A listed count is what the server counts. -/
theorem count_eq_of_before {u t n : Nat} (hn : ((p.server.userMap u).getD UserInfo.new).clientTypeList[t]? = some n) :
    p.count u t = n := by
  cases hu : p.server.userMap u with
  | none =>
    rw [hu] at hn
    rw [show (none.getD UserInfo.new).clientTypeList[t]? = none from TreeMap.getElem?_emptyc] at hn
    cases hn
  | some user =>
    rw [hu] at hn
    exact count_eq_of_getElem? hu hn

/-- The counts of a user who has gone online, while the count has room. -/
theorem countsTo_online (h : Exact p) (hc : c ∈ p.server.routeConnMap) (hon : stat.status ≠ userStatusOffline)
    (hroom : p.count stat.userId stat.clientType + 1 < uint32Size) {user : UserInfo}
    (hlist : user.clientTypeList =
      (((p.server.userMap stat.userId).getD UserInfo.new).addClientType stat.clientType).clientTypeList) (t : Nat) :
    CountsTo (p.report c stat) stat.userId user t := by
  have hbefore := countsTo_before h stat.userId t
  rw [CountsTo, sum_report hc, if_neg hon, hlist, getElem?_addClientType]
  by_cases ht : stat.clientType = t
  · subst ht
    simp only [if_true, and_self]
    rcases hbefore with ⟨hnone, hzero⟩ | ⟨m, hm, hpos, hlt, hsum⟩
    · rw [hnone, hzero]
      exact .inr ⟨1, rfl, Nat.one_pos, by decide, rfl⟩
    · rw [count_eq_of_before hm] at hroom
      rw [hm, ← hsum]
      exact .inr ⟨m + 1, congrArg some (countUp_of_lt hroom), Nat.succ_pos m, hroom, by push_cast; rfl⟩
  · rw [if_neg ht, if_neg (fun h => ht h.2.symm), Int.add_zero]
    exact hbefore

theorem exact_online (h : Exact p) (hc : c ∈ p.server.routeConnMap) (hmeets : ReportMeets p c stat)
    (hon : stat.status ≠ userStatusOffline) : Exact (p.report c stat) := by
  have hroom : p.count stat.userId stat.clientType + 1 < uint32Size := by rwa [ReportMeets, if_neg hon] at hmeets
  obtain ⟨user, hupd, hset, hlist⟩ := updateUserStatus_online (c := c) p.server hon
  have hmap := userMap_report (p := p) hupd
  have hconns : (p.report c stat).server.routeConnMap = p.server.routeConnMap := routeConnMap_updateUserStatus _
  refine ⟨nonneg_report h hmeets, ?_, ?_⟩
  · intro d u t hd
    rw [surplus_report, if_neg hon] at hd
    rw [hmap, hconns]
    by_cases heq : u = stat.userId
    · rw [if_pos heq]
      by_cases hdc : d = c
      · rw [hdc]
        exact ⟨hc, user, rfl, (hset c).2 (.inl rfl)⟩
      · rw [if_neg fun h => hdc h.1, Int.add_zero] at hd
        obtain ⟨hd', user0, hu0, hdu⟩ := h.known d u t hd
        refine ⟨hd', user, rfl, (hset d).2 (.inr ?_)⟩
        rw [← heq, hu0]
        exact hdu
    · rw [if_neg heq]
      rw [if_neg fun h => heq h.2.1, Int.add_zero] at hd
      exact h.known d u t hd
  · intro u user' t hu'
    rw [hmap] at hu'
    split at hu'
    · rename_i heq
      subst heq
      obtain rfl := Option.some.inj hu'
      exact countsTo_online h hc hon hroom hlist t
    · rename_i heq
      exact countsTo_other h hc heq hu' t

/-- One transition keeps presence exact. -/
theorem exact_report (h : Exact p) (hc : c ∈ p.server.routeConnMap) (hmeets : ReportMeets p c stat) :
    Exact (p.report c stat) := by
  by_cases hoff : stat.status = userStatusOffline
  · exact exact_offline h hc hmeets hoff
  · exact exact_online h hc hmeets hoff

end Report

/-! ## The events -/

/-- A server's list of users keeps the counts exact. -/
theorem exact_reportAll {p : Presence} {c : RouteConn} {stats : List UserStat} (h : Exact p)
    (hc : c ∈ p.server.routeConnMap) (hmeets : ReportAllMeets p c stats) : Exact (p.reportAll c stats) := by
  induction stats generalizing p with
  | nil => exact h
  | cons stat stats ih =>
    refine ih (exact_report h hc hmeets.1) ?_ hmeets.2
    change c ∈ (p.server.updateUserStatus c stat).routeConnMap
    rwa [routeConnMap_updateUserStatus]

/-- Closing a connection takes what it has contributed: who is online for it is known to nobody else, and is forgotten. -/
theorem exact_close {p : Presence} {c : RouteConn} (h : Exact p) (hc : c ∈ p.server.routeConnMap) (hmeets : CloseMeets p c) :
    Exact { server := p.server.close c, surplus := fun d u t => if d = c then 0 else p.surplus d u t } := by
  have hmap : ∀ u user', (p.server.close c).userMap u = some user' ↔
      ∃ user, p.server.userMap u = some user ∧ user' = user.removeRouteConn c ∧ user'.routeConnSet.size ≠ 0 := by
    intro u user'
    simp only [State.close]
    cases p.server.userMap u with
    | none => simp
    | some user =>
      simp only [Option.some.injEq, exists_eq_left']
      split
      · rename_i hsize
        refine ⟨fun h => (by cases h), ?_⟩
        rintro ⟨rfl, hne⟩
        exact absurd hsize hne
      · rename_i hsize
        constructor
        · rintro heq
          obtain rfl := Option.some.inj heq
          exact ⟨rfl, hsize⟩
        · rintro ⟨rfl, -⟩
          rfl
  refine ⟨?_, ?_, ?_⟩
  · intro d u t
    dsimp only
    split
    · exact le_refl 0
    · exact h.nonneg d u t
  · intro d u t hd
    dsimp only at hd
    split at hd
    · exact absurd hd (lt_irrefl 0)
    · rename_i hdc
      obtain ⟨hd', user, hu, hdu⟩ := h.known d u t hd
      have hmem : d ∈ (user.removeRouteConn c).routeConnSet := (mem_removeRouteConn user c d).2 ⟨hdc, hdu⟩
      refine ⟨Finset.mem_erase.2 ⟨hdc, hd'⟩, _, (hmap u _).2 ⟨user, hu, rfl, fun hsize => ?_⟩, hmem⟩
      exact (size_eq_zero_iff _).1 hsize d hmem
  · intro u user' t hu'
    obtain ⟨user, hu, rfl, hsize⟩ := (hmap u user').1 hu'
    -- somebody else knows the user, so the connection has no surplus
    have hzero : ∀ t, p.surplus c u t = 0 := by
      intro t
      by_contra hne
      have hpos := lt_of_le_of_ne (h.nonneg c u t) (Ne.symm hne)
      refine hsize ((size_eq_zero_iff _).2 fun d hd => ?_)
      obtain ⟨hdc, hdu⟩ := (mem_removeRouteConn user c d).1 hd
      exact hdc (hmeets u t user d hpos hu hdu)
    have hsum : ∑ d ∈ (p.server.close c).routeConnMap, (if d = c then 0 else p.surplus d u t) =
        ∑ d ∈ p.server.routeConnMap, p.surplus d u t := by
      rw [← Finset.add_sum_erase _ _ hc, hzero t, Int.zero_add]
      refine Finset.sum_congr rfl fun d hd => ?_
      rw [if_neg (Finset.mem_erase.1 hd).1]
    dsimp only
    rw [hsum]
    exact h.counted u user t hu

/-- A new server has reported nothing. -/
theorem exact_connect {p : Presence} {c : RouteConn} (h : Exact p) (hc : c ∉ p.server.routeConnMap) :
    Exact { server := { p.server with routeConnMap := insert c p.server.routeConnMap }
            surplus := fun d u t => if d = c then 0 else p.surplus d u t } := by
  refine ⟨?_, ?_, ?_⟩
  · intro d u t
    dsimp only
    split
    · exact le_refl 0
    · exact h.nonneg d u t
  · intro d u t hd
    dsimp only at hd
    split at hd
    · exact absurd hd (lt_irrefl 0)
    · obtain ⟨hd', hknown⟩ := h.known d u t hd
      exact ⟨Finset.mem_insert_of_mem hd', hknown⟩
  · intro u user t hu
    have hsum : ∑ d ∈ insert c p.server.routeConnMap, (if d = c then 0 else p.surplus d u t) =
        ∑ d ∈ p.server.routeConnMap, p.surplus d u t := by
      rw [Finset.sum_insert hc, if_pos rfl, Int.zero_add]
      refine Finset.sum_congr rfl fun d hd => ?_
      rw [if_neg fun heq : d = c => hc (heq ▸ hd)]
    dsimp only
    rw [hsum]
    exact h.counted u user t hu

/-- Each step keeps them exact. -/
theorem exact_step {p p' : Presence} {e : Event} {out : List Sent} (h : Exact p) (hmeets : PresenceMeets p e)
    (hstep : step p e = some (p', out)) : Exact p' := by
  cases e with
  | connect c =>
    simp only [step] at hstep
    split at hstep
    · cases hstep
    · obtain ⟨rfl, -⟩ := Prod.mk.inj (Option.some.inj hstep)
      exact exact_connect h ‹_›
  | close c =>
    simp only [step] at hstep
    split at hstep
    · obtain ⟨rfl, -⟩ := Prod.mk.inj (Option.some.inj hstep)
      exact exact_close h ‹_› hmeets
    · cases hstep
  | onlineUserInfo c stats =>
    simp only [step] at hstep
    split at hstep
    · obtain ⟨rfl, -⟩ := Prod.mk.inj (Option.some.inj hstep)
      exact exact_reportAll h ‹_› hmeets
    · cases hstep
  | userStatusUpdate c stat =>
    simp only [step] at hstep
    split at hstep
    · obtain ⟨rfl, -⟩ := Prod.mk.inj (Option.some.inj hstep)
      exact exact_report h ‹_› hmeets
    · cases hstep
  | usersStatusRequest c users =>
    simp only [step] at hstep
    split at hstep
    · obtain ⟨rfl, -⟩ := Prod.mk.inj (Option.some.inj hstep)
      exact h
    · cases hstep

/-- And they are at the start. -/
theorem exact_init : Exact Presence.init :=
  ⟨fun _ _ _ => le_refl 0, fun _ _ _ h => absurd h (lt_irrefl 0), fun _ _ _ h => by cases h⟩

/-! ## Two servers that know one user -/

/-- User 7 is online on a PC at server 1, and on a phone at server 2; then server 1 leaves. -/
def leaving : List Event :=
  [.connect 1, .connect 2, .userStatusUpdate 1 ⟨7, userStatusOnline, 1⟩, .userStatusUpdate 2 ⟨7, userStatusOnline, 0x11⟩,
    .close 1]

/-- User 7 is still reported as online on a PC. -/
theorem leaving_stays : (Machine.steps step Presence.init leaving).any fun (p, _) => p.server.statusOf 7 = userStatusOnline := by
  decide

end PresenceAux

open PresenceAux

/-- Presence is exact in every run in which whoever is reported offline was reported online more often by the same connection,
and in which nobody who is online for a connection is known to another one when it closes. -/
theorem presence_exact (log : List Sent) (p : Presence) (hrun : Machine.Run step PresenceMeets Presence.init log p) :
    PresenceExact p := by
  exact presenceExact_of_exact (hrun.invariant (I := fun _ p => PresenceAux.Exact p) exact_init fun h hmeets hstep =>
    exact_step h hmeets hstep)

/-- User 7 goes online on a PC, and offline again; then his server leaves. -/
theorem presence_exact_leaving : ∃ log p, Machine.Run step PresenceMeets Presence.init log p ∧
    p.server.statusOf 7 = userStatusOffline ∧ PresenceExact p := by
  let online : UserStat := ⟨7, userStatusOnline, 1⟩
  let offline : UserStat := ⟨7, userStatusOffline, 1⟩
  let p1 : Presence := ⟨{ State.init with routeConnMap := {1} }, fun d _ _ => if d = 1 then 0 else 0⟩
  have honline : ReportMeets p1 1 online := by
    rw [ReportMeets, if_neg (by decide)]
    decide
  have hoffline : ReportMeets (p1.report 1 online) 1 offline := by
    rw [ReportMeets, if_pos (by rfl)]
    decide
  -- nobody is online any more when the connection closes
  have hclose : CloseMeets ((p1.report 1 online).report 1 offline) 1 := by
    intro u t user d hpos hu hd
    have hsur : 0 < (0 : Int) + (if 1 = 1 ∧ u = 7 ∧ t = 1 then 1 else 0) + (if 1 = 1 ∧ u = 7 ∧ t = 1 then -1 else 0) := hpos
    split at hsur
    · exact absurd hsur (by decide)
    · exact absurd hsur (by decide)
  have hrun : ∃ log p, Machine.Run step PresenceMeets Presence.init log p ∧ p.server.statusOf 7 = userStatusOffline :=
    ⟨_, _, .step (.step (.step (.step .start (e := .connect 1) trivial rfl) (e := .userStatusUpdate 1 online) honline rfl)
      (e := .userStatusUpdate 1 offline) hoffline rfl) (e := .close 1) hclose rfl, by rfl⟩
  obtain ⟨log, p, hrun, hstatus⟩ := hrun
  exact ⟨log, p, hrun, hstatus, presence_exact log p hrun⟩

/-- A connection that has gone leaves its users online. -/
theorem presence_not_exact : ¬PresenceKept fun _ _ => True := by
  intro hall
  obtain ⟨⟨p, log⟩, hsteps, hstatus⟩ := (Option.any_eq_true ..).1 leaving_stays
  obtain ⟨c, hc, t, hpc, hpos⟩ := ((hall log p (Machine.Run.of_steps (fun _ _ => trivial) .start hsteps)).status_iff 7).1
    (of_decide_eq_true hstatus)
  -- the only connection left has reported a phone
  obtain ⟨rfl, -⟩ := Prod.mk.inj (Option.some.inj hsteps)
  have hsur : 0 < (if c = 1 then (0 : Int) else
      (if c = 2 then 0 else if c = 1 then 0 else 0) + (if c = 1 ∧ 7 = 7 ∧ t = 1 then 1 else 0) +
        (if c = 2 ∧ 7 = 7 ∧ t = 0x11 then 1 else 0)) := hpos
  have hmobile : c = 2 ∧ t = 0x11 := by
    split at hsur
    · omega
    · by_contra hne
      simp_all
  rw [hmobile.2] at hpc
  cases hpc

end TeamTalk.RouteServer
