import Mathlib
import TeamTalk.Theorems.Presence

/-!
# The user table of route_server, beside what was reported

What each msg_server has reported, and what it was told last about a user's PC clients. Both are kept beside the state of
route_server; no step depends on them.
-/

namespace TeamTalk.RouteServer

open Std (TreeMap TreeSet)

/-- route_server; how many clients of a user and a client type each msg_server has reported and not taken back; and the last
login status that it was sent for a user. -/
structure Table where
  server : State
  reported : RouteConn → Nat → Nat → Nat
  notified : RouteConn → Nat → Bool

namespace Table

/-- Before any msg_server has connected. -/
def init : Table := { server := State.init, reported := fun _ _ _ => 0, notified := fun _ _ => false }

/-- One transition is reported. An offline report of a client that has not been reported takes nothing back. -/
def report (p : Table) (c : RouteConn) (stat : UserStat) : Table :=
  { p with
    server := p.server.updateUserStatus c stat
    reported := fun d u t =>
      if d = c ∧ u = stat.userId ∧ t = stat.clientType then
        if stat.status = userStatusOffline then p.reported d u t - 1 else p.reported d u t + 1
      else p.reported d u t }

/-- All transitions of a list are reported. -/
def reportAll (p : Table) (c : RouteConn) (stats : List UserStat) : Table := stats.foldl (fun p stat => p.report c stat) p

/-- What is sent reaches every msg_server that is connected. -/
def notify (p : Table) : Sent → Table
  | .loginStatusNotify userId on =>
    { p with notified := fun d u => if d ∈ p.server.routeConnMap ∧ u = userId then on else p.notified d u }
  | _ => p

/-- Everything that is sent, in order. -/
def notifyAll (p : Table) (out : List Sent) : Table := out.foldl notify p

/-- One event. A msg_server that connects, or connects again, has reported nothing on its new connection. -/
def step (p : Table) : Event → Option (Table × List Sent)
  | .connect c =>
    if c ∈ p.server.routeConnMap then none
    else some ({ p with
                 server := { p.server with routeConnMap := insert c p.server.routeConnMap }
                 reported := fun d u t => if d = c then 0 else p.reported d u t }, [])
  | .close c => if c ∈ p.server.routeConnMap then some ({ p with server := p.server.close c }, []) else none
  | .onlineUserInfo c stats => if c ∈ p.server.routeConnMap then some (p.reportAll c stats, []) else none
  | .userStatusUpdate c stat =>
    if c ∈ p.server.routeConnMap then
      let out := (p.report c stat).server.statusNotifications stat
      some ((p.report c stat).notifyAll out, out)
    else none
  | .usersStatusRequest c users =>
    if c ∈ p.server.routeConnMap then
      some (p, [.usersStatusResponse c (users.map fun u => (u, p.server.statusOf u))])
    else none

/-- A msg_server has reported a client of the user. -/
def Reported (p : Table) (c : RouteConn) (u : Nat) : Prop := ∃ t, 0 < p.reported c u t

/-- The connection's last client of the user: there is none of another type, and one of this type at most. -/
def LastReported (p : Table) (c : RouteConn) (stat : UserStat) : Prop :=
  ∀ t, p.reported c stat.userId t ≤ if t = stat.clientType then 1 else 0

/-- In the state after an event, and between the entries of a list. -/
def Throughout (Q : Table → Prop) (p : Table) (e : Event) (p' : Table) : Prop :=
  match e with
  | .onlineUserInfo c stats => ∀ done rest, stats = done ++ rest → Q (p.reportAll c done)
  | _ => Q p'

/-- Every transition of a list meets a condition, on the state before it. -/
def AllMeet (M : Table → RouteConn → UserStat → Prop) (p : Table) (c : RouteConn) : List UserStat → Prop
  | [] => True
  | stat :: stats => M p c stat ∧ AllMeet M (p.report c stat) c stats

end Table

/-- The user's entry has the connection. -/
def State.Knows (s : State) (u : Nat) (c : RouteConn) : Prop := ∃ user, s.userMap u = some user ∧ c ∈ user.routeConnSet

/-- Every user has a connection. -/
def State.Occupied (s : State) : Prop := ∀ u user, s.userMap u = some user → ∃ c, c ∈ user.routeConnSet

/-- What `IsPCClientLogin` says of a user, when there is an entry. -/
def State.pcLogin (s : State) (u : Nat) : Bool :=
  match s.userMap u with
  | some user => user.isPCClientLogin
  | none => false

/-- The only client that is counted for the user is one of this type. -/
def UserInfo.LastCounted (user : UserInfo) (t : Nat) : Prop :=
  ∀ t' n, user.clientTypeList[t']? = some n → t' = t ∧ countDown n = 0

namespace TableAux

open PresenceAux

/-! ## What is kept beside the state -/

@[simp] theorem server_report (p : Table) (c : RouteConn) (stat : UserStat) :
    (p.report c stat).server = p.server.updateUserStatus c stat := rfl

@[simp] theorem notified_report (p : Table) (c : RouteConn) (stat : UserStat) : (p.report c stat).notified = p.notified := rfl

@[simp] theorem server_notify (p : Table) (sent : Sent) : (p.notify sent).server = p.server := by
  cases sent <;> rfl

@[simp] theorem reported_notify (p : Table) (sent : Sent) : (p.notify sent).reported = p.reported := by
  cases sent <;> rfl

@[simp] theorem notifyAll_cons (p : Table) (sent : Sent) (out : List Sent) :
    p.notifyAll (sent :: out) = (p.notify sent).notifyAll out := rfl

@[simp] theorem server_notifyAll (p : Table) (out : List Sent) : (p.notifyAll out).server = p.server := by
  induction out generalizing p with
  | nil => rfl
  | cons sent out ih => simp [ih]

@[simp] theorem reported_notifyAll (p : Table) (out : List Sent) : (p.notifyAll out).reported = p.reported := by
  induction out generalizing p with
  | nil => rfl
  | cons sent out ih => simp [ih]

@[simp] theorem routeConnMap_report (p : Table) (c : RouteConn) (stat : UserStat) :
    (p.report c stat).server.routeConnMap = p.server.routeConnMap := routeConnMap_updateUserStatus _

theorem server_reportAll (c : RouteConn) (stats : List UserStat) (p : Table) (q : Presence) (h : p.server = q.server) :
    (p.reportAll c stats).server = (q.reportAll c stats).server := by
  induction stats generalizing p q with
  | nil => exact h
  | cons stat stats ih => exact ih (p.report c stat) (q.report c stat) (by simp [Presence.report, h])

/-- The steps of route_server are the same, whatever is kept beside it. -/
theorem step_server (p : Table) (q : Presence) (e : Event) (h : p.server = q.server) :
    (p.step e).map (fun next => (next.1.server, next.2)) = (step q e).map fun next => (next.1.server, next.2) := by
  cases e with
  | connect c =>
    simp only [Table.step, step, h]
    split <;> rfl
  | close c =>
    simp only [Table.step, step, h]
    split <;> rfl
  | onlineUserInfo c stats =>
    simp only [Table.step, step, h]
    split <;> simp [server_reportAll c stats p q h]
  | userStatusUpdate c stat =>
    simp only [Table.step, step, h]
    split <;> simp [Presence.report, h]
  | usersStatusRequest c users =>
    simp only [Table.step, step, h]
    split <;> simp [h]

/-! ## What was reported -/

section Report

variable {p : Table} {c : RouteConn} {stat : UserStat}

theorem reported_online (hon : stat.status ≠ userStatusOffline) (d : RouteConn) (u : Nat) :
    (p.report c stat).Reported d u ↔ (d = c ∧ u = stat.userId) ∨ p.Reported d u := by
  simp only [Table.Reported, Table.report, if_neg hon]
  by_cases hdu : d = c ∧ u = stat.userId
  · refine iff_of_true ⟨stat.clientType, ?_⟩ (.inl hdu)
    rw [if_pos ⟨hdu.1, hdu.2, rfl⟩]
    exact Nat.succ_pos _
  · have hother : ∀ t, ¬(d = c ∧ u = stat.userId ∧ t = stat.clientType) := fun t h => hdu ⟨h.1, h.2.1⟩
    simp [hother, hdu]

theorem reported_offline (hoff : stat.status = userStatusOffline) (d : RouteConn) (u : Nat) :
    (p.report c stat).Reported d u ↔ p.Reported d u ∧ ¬(d = c ∧ u = stat.userId ∧ p.LastReported c stat) := by
  simp only [Table.Reported, Table.report, if_pos hoff]
  by_cases hdu : d = c ∧ u = stat.userId
  · obtain ⟨rfl, rfl⟩ := hdu
    simp only [true_and]
    constructor
    · rintro ⟨t, ht⟩
      refine ⟨⟨t, ?_⟩, fun hlast => ?_⟩
      · split at ht <;> omega
      · have hle := hlast t
        split at ht <;> simp_all
    · rintro ⟨-, hlast⟩
      simp only [Table.LastReported, not_forall, Nat.not_le] at hlast
      obtain ⟨t, ht⟩ := hlast
      refine ⟨t, ?_⟩
      split at ht
      · rw [if_pos ‹_›]
        omega
      · rw [if_neg ‹_›]
        exact ht
  · have hother : ∀ t, ¬(d = c ∧ u = stat.userId ∧ t = stat.clientType) := fun t h => hdu ⟨h.1, h.2.1⟩
    have hnot : ¬(d = c ∧ u = stat.userId ∧ p.LastReported c stat) := fun h => hdu ⟨h.1, h.2.1⟩
    simp [hother, hnot]

end Report

/-! ## What is known -/

theorem lastCounted_iff (user : UserInfo) (t : Nat) : (user.removeClientType t).isMsgConnNull = true ↔ user.LastCounted t := by
  rw [UserInfo.isMsgConnNull, TreeMap.isEmpty_iff_forall_not_mem, UserInfo.LastCounted, UserInfo.removeClientType]
  cases ht : user.clientTypeList[t]? with
  | none =>
    constructor
    · intro h t' n hn
      exact absurd (TreeMap.mem_iff_isSome_getElem?.2 (by rw [hn]; rfl)) (h t')
    · intro h t' hmem
      obtain ⟨n, hn⟩ := Option.isSome_iff_exists.1 (TreeMap.mem_iff_isSome_getElem?.1 hmem)
      rw [(h t' n hn).1, ht] at hn
      cases hn
  | some n =>
    dsimp only
    split
    · rename_i hpos
      refine iff_of_false (fun h => h t ?_) (fun h => ?_)
      · simp [TreeMap.mem_insert]
      · rw [(h t n ht).2] at hpos
        exact absurd hpos (Nat.lt_irrefl 0)
    · rename_i hzero
      constructor
      · intro h t' m hm
        by_cases heq : t' = t
        · subst heq
          rw [ht] at hm
          cases hm
          exact ⟨rfl, Nat.eq_zero_of_not_pos hzero⟩
        · refine absurd ?_ (h t')
          rw [TreeMap.mem_erase, TreeMap.mem_iff_isSome_getElem?, hm]
          exact ⟨by simpa using Ne.symm heq, rfl⟩
      · intro h t' hmem
        rw [TreeMap.mem_erase] at hmem
        obtain ⟨m, hm⟩ := Option.isSome_iff_exists.1 (TreeMap.mem_iff_isSome_getElem?.1 hmem.2)
        exact absurd (h t' m hm).1 (by simpa using Ne.symm (show t ≠ t' by simpa using hmem.1))

section State

variable {s : State} {c : RouteConn} {stat : UserStat}

theorem knows_online (hon : stat.status ≠ userStatusOffline) (u : Nat) (d : RouteConn) :
    (s.updateUserStatus c stat).Knows u d ↔ (d = c ∧ u = stat.userId) ∨ s.Knows u d := by
  obtain ⟨user, hupd, hset, -⟩ := updateUserStatus_online (c := c) s hon
  rw [hupd]
  simp only [State.Knows, userMap_setUser]
  by_cases hu : u = stat.userId
  · subst hu
    simp only [if_true, Option.some.injEq, exists_eq_left', hset, and_true]
    cases s.userMap stat.userId with
    | none => simp [UserInfo.new]
    | some user0 => simp
  · simp [hu]

/-- A user goes offline for a connection that knows him: what the entry is then. -/
theorem updateUserStatus_known {user : UserInfo} (hoff : stat.status = userStatusOffline)
    (hu : s.userMap stat.userId = some user) (hc : c ∈ user.routeConnSet) :
    s.updateUserStatus c stat = s.setUser stat.userId
      (if (user.removeClientType stat.clientType).isMsgConnNull then
        if ((user.removeClientType stat.clientType).removeRouteConn c).routeConnSet.size = 0 then none
        else some ((user.removeClientType stat.clientType).removeRouteConn c)
      else some (user.removeClientType stat.clientType)) := by
  have hfind : user.findRouteConn c = true := TreeSet.contains_iff_mem.2 hc
  simp only [State.updateUserStatus, hu, if_pos hfind, if_pos hoff]
  split
  · split <;> rfl
  · rfl

/-- Nothing is taken back for a connection that does not know the user. -/
theorem updateUserStatus_unknown (hoff : stat.status = userStatusOffline) (h : ¬s.Knows stat.userId c) :
    s.updateUserStatus c stat = s := by
  rw [State.updateUserStatus]
  cases hu : s.userMap stat.userId with
  | none => simp [hoff]
  | some user =>
    have hfind : ¬user.findRouteConn c = true := fun hc => h ⟨user, hu, TreeSet.contains_iff_mem.1 hc⟩
    simp [hfind, hoff]

theorem knows_offline {user : UserInfo} (hoff : stat.status = userStatusOffline)
    (hu : s.userMap stat.userId = some user) (hc : c ∈ user.routeConnSet) (u : Nat) (d : RouteConn) :
    (s.updateUserStatus c stat).Knows u d ↔
      s.Knows u d ∧ ¬(d = c ∧ u = stat.userId ∧ user.LastCounted stat.clientType) := by
  rw [updateUserStatus_known hoff hu hc, ← lastCounted_iff]
  simp only [State.Knows, userMap_setUser]
  by_cases hus : u = stat.userId
  · subst hus
    simp only [if_true, hu, Option.some.injEq, exists_eq_left', true_and]
    cases hnull : (user.removeClientType stat.clientType).isMsgConnNull with
    | false => simp
    | true =>
      simp only [if_true, and_true]
      split
      · rename_i hsize
        have hnone := (size_eq_zero_iff _).1 hsize d
        rw [mem_removeRouteConn, routeConnSet_removeClientType, and_comm] at hnone
        simpa using hnone
      · simp [mem_removeRouteConn, and_comm]
  · simp [hus]

theorem occupied_updateUserStatus (h : s.Occupied) : (s.updateUserStatus c stat).Occupied := by
  intro u user hu
  by_cases hoff : stat.status = userStatusOffline
  · by_cases hk : s.Knows stat.userId c
    · obtain ⟨user0, hu0, hc⟩ := hk
      rw [updateUserStatus_known hoff hu0 hc, userMap_setUser] at hu
      split at hu
      · split at hu
        · split at hu
          · cases hu
          · rename_i hsize
            cases hu
            by_contra hnone
            exact hsize ((size_eq_zero_iff _).2 (not_exists.1 hnone))
        · cases hu
          exact ⟨c, by rwa [routeConnSet_removeClientType]⟩
      · exact h u user hu
    · rw [updateUserStatus_unknown hoff hk] at hu
      exact h u user hu
  · obtain ⟨user', hupd, hset, -⟩ := updateUserStatus_online (c := c) s hoff
    rw [hupd, userMap_setUser] at hu
    split at hu
    · cases hu
      exact ⟨c, (hset c).2 (.inl rfl)⟩
    · exact h u user hu

/-- Who is left when a connection closes. -/
theorem userMap_close_eq_some (u : Nat) (user' : UserInfo) : (s.close c).userMap u = some user' ↔
    ∃ user, s.userMap u = some user ∧ user' = user.removeRouteConn c ∧ ∃ d ∈ user.routeConnSet, d ≠ c := by
  simp only [State.close]
  cases s.userMap u with
  | none => simp
  | some user =>
    simp only [Option.some.injEq, exists_eq_left']
    have hsize : (user.removeRouteConn c).routeConnSet.size = 0 ↔ ¬∃ d ∈ user.routeConnSet, d ≠ c := by
      simp [size_eq_zero_iff, mem_removeRouteConn, not_imp_not]
    by_cases hother : ∃ d ∈ user.routeConnSet, d ≠ c
    · rw [if_neg fun h => hsize.1 h hother]
      rw [Option.some.injEq, eq_comm]
      exact (and_iff_left hother).symm
    · rw [if_pos (hsize.2 hother)]
      exact iff_of_false (fun h => by cases h) fun h => hother h.2

theorem knows_close (u : Nat) (d : RouteConn) : (s.close c).Knows u d ↔ d ≠ c ∧ s.Knows u d := by
  simp only [State.Knows, userMap_close_eq_some]
  constructor
  · rintro ⟨_, ⟨user, hu, rfl, -⟩, hd⟩
    rw [mem_removeRouteConn] at hd
    exact ⟨hd.1, user, hu, hd.2⟩
  · rintro ⟨hdc, user, hu, hd⟩
    exact ⟨_, ⟨user, hu, rfl, d, hd, hdc⟩, (mem_removeRouteConn user c d).2 ⟨hdc, hd⟩⟩

theorem occupied_close : (s.close c).Occupied := by
  intro u user' hu'
  obtain ⟨user, -, rfl, d, hd, hdc⟩ := (userMap_close_eq_some u user').1 hu'
  exact ⟨d, (mem_removeRouteConn user c d).2 ⟨hdc, hd⟩⟩

end State

/-! ## Lists -/

/-- A property that each transition keeps exactly when a condition is met holds throughout a list exactly when each transition
of it meets the condition. -/
theorem reportAll_iff {Q : Table → Prop} {M : Table → RouteConn → UserStat → Prop}
    (hone : ∀ {p c stat}, Q p → c ∈ p.server.routeConnMap → (Q (p.report c stat) ↔ M p c stat)) (c : RouteConn)
    (stats : List UserStat) {p : Table} (h : Q p) (hc : c ∈ p.server.routeConnMap) :
    (∀ done rest, stats = done ++ rest → Q (p.reportAll c done)) ↔ p.AllMeet M c stats := by
  induction stats generalizing p with
  | nil =>
    refine iff_of_true ?_ trivial
    intro done rest hsplit
    rw [(List.append_eq_nil_iff.1 hsplit.symm).1]
    exact h
  | cons stat stats ih =>
    have hc' : c ∈ (p.report c stat).server.routeConnMap := by rwa [routeConnMap_report]
    constructor
    · intro hall
      have hq : Q (p.report c stat) := hall [stat] stats rfl
      refine ⟨(hone h hc).1 hq, (ih hq hc').1 fun done rest hsplit => hall (stat :: done) rest ?_⟩
      rw [hsplit, List.cons_append]
    · rintro ⟨hm, hrest⟩ done rest hsplit
      have hq := (hone h hc).2 hm
      cases done with
      | nil => exact h
      | cons stat' done =>
        rw [List.cons_append, List.cons.injEq] at hsplit
        rw [← hsplit.1]
        exact (ih hq hc').2 hrest done rest hsplit.2

/-- What holds throughout a step holds after it. -/
theorem throughout_last {Q : Table → Prop} {p p' : Table} {e : Event} {out : List Sent} (hstep : p.step e = some (p', out))
    (h : p.Throughout Q e p') : Q p' := by
  cases e with
  | onlineUserInfo c stats =>
    simp only [Table.step] at hstep
    split at hstep
    · cases hstep
      exact h stats [] (List.append_nil stats).symm
    · cases hstep
  | _ => exact h

end TableAux

end TeamTalk.RouteServer
