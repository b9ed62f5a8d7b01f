import Mathlib
import TeamTalk.RouteServer.Table

/-!
# The user table of route_server

When the user map has exactly the users who are online somewhere, each with exactly the connections that have reported him. A
connection leaves a user's set when nothing at all is counted for him any more, not when it has taken back its own last client.
-/

namespace TeamTalk.RouteServer

open Std (TreeMap TreeSet)

/-- The user map has exactly the users with a reported client, and a user's set exactly the connections that reported one. -/
structure TableExact (p : Table) : Prop where
  user_iff : ∀ u, (∃ user, p.server.userMap u = some user) ↔ ∃ c ∈ p.server.routeConnMap, p.Reported c u
  conn_iff : ∀ u c, p.server.Knows u c ↔ c ∈ p.server.routeConnMap ∧ p.Reported c u

/-- The condition on an update: a connection takes back its last client of a user exactly when this is the last one that is
counted for him. -/
def UpdateMeets (p : Table) (c : RouteConn) (stat : UserStat) : Prop :=
  stat.status = userStatusOffline → ∀ user, p.server.userMap stat.userId = some user → c ∈ user.routeConnSet →
    (user.LastCounted stat.clientType ↔ p.LastReported c stat)

/-- The condition on a step. -/
def TableMeets (p : Table) : Event → Prop
  | .onlineUserInfo c stats => p.AllMeet UpdateMeets c stats
  | .userStatusUpdate c stat => UpdateMeets p c stat
  | _ => True

namespace UserTableAux

open PresenceAux TableAux

/-- A user without a connection is in no table, so the connections say it all. -/
theorem tableExact_iff {p : Table} (h : p.server.Occupied) :
    TableExact p ↔ ∀ u c, p.server.Knows u c ↔ c ∈ p.server.routeConnMap ∧ p.Reported c u := by
  refine ⟨fun hexact => hexact.conn_iff, fun hconn => ⟨fun u => ?_, hconn⟩⟩
  constructor
  · rintro ⟨user, hu⟩
    obtain ⟨c, hc⟩ := h u user hu
    exact ⟨c, (hconn u c).1 ⟨user, hu, hc⟩⟩
  · rintro ⟨c, hc⟩
    obtain ⟨user, hu, -⟩ := (hconn u c).2 hc
    exact ⟨user, hu⟩

theorem TableExact.occupied {p : Table} (h : TableExact p) : p.server.Occupied := by
  intro u user hu
  obtain ⟨c, hc⟩ := (h.user_iff u).1 ⟨user, hu⟩
  obtain ⟨user', hu', hc'⟩ := (h.conn_iff u c).2 hc
  rw [hu] at hu'
  cases hu'
  exact ⟨c, hc'⟩

/-- One update. -/
theorem tableExact_report_iff {p : Table} {c : RouteConn} {stat : UserStat} (h : TableExact p)
    (hc : c ∈ p.server.routeConnMap) : TableExact (p.report c stat) ↔ UpdateMeets p c stat := by
  rw [tableExact_iff (occupied_updateUserStatus (TableExact.occupied h))]
  by_cases hoff : stat.status = userStatusOffline
  · by_cases hk : p.server.Knows stat.userId c
    · obtain ⟨user, hu, hcu⟩ := hk
      have hmeets : UpdateMeets p c stat ↔ (user.LastCounted stat.clientType ↔ p.LastReported c stat) := by
        constructor
        · exact fun hall => hall hoff user hu hcu
        · intro hiff _ user' hu' _
          rw [hu] at hu'
          cases hu'
          exact hiff
      simp only [server_report, routeConnMap_updateUserStatus, knows_offline hoff hu hcu, reported_offline hoff, h.conn_iff,
        hmeets]
      constructor
      · intro hall
        have hhere := hall stat.userId c
        have hreported := (h.conn_iff stat.userId c).1 ⟨user, hu, hcu⟩
        simp only [hreported, true_and] at hhere
        exact not_iff_not.1 hhere
      · intro hiff u d
        rw [hiff, and_assoc]
    · -- a connection that does not know the user has not reported him
      have hnot : ¬p.Reported c stat.userId := fun hr => hk ((h.conn_iff _ _).2 ⟨hc, hr⟩)
      refine iff_of_true (fun u d => ?_) fun _ user hu hcu => absurd ⟨user, hu, hcu⟩ hk
      simp only [server_report, updateUserStatus_unknown hoff hk, reported_offline hoff, h.conn_iff]
      refine and_congr_right fun _ => (and_iff_left_of_imp ?_).symm
      rintro hr ⟨rfl, rfl, -⟩
      exact hnot hr
  · refine iff_of_true (fun u d => ?_) fun hoff' => absurd hoff' hoff
    simp only [server_report, routeConnMap_updateUserStatus, knows_online hoff, reported_online hoff, h.conn_iff]
    constructor
    · rintro (⟨rfl, rfl⟩ | ⟨hd, hr⟩)
      · exact ⟨hc, .inl ⟨rfl, rfl⟩⟩
      · exact ⟨hd, .inr hr⟩
    · rintro ⟨hd, hr | hr⟩
      · exact .inl hr
      · exact .inr ⟨hd, hr⟩

/-- The table is a matter of the state and of what was reported. -/
theorem TableExact.congr {p q : Table} (h : TableExact p) (hserver : q.server = p.server) (hreported : q.reported = p.reported) :
    TableExact q := by
  have hiff : ∀ c u, q.Reported c u ↔ p.Reported c u := by simp [Table.Reported, hreported]
  refine ⟨fun u => ?_, fun u c => ?_⟩
  · simp only [hserver, hiff]
    exact h.user_iff u
  · simp only [hserver, hiff]
    exact h.conn_iff u c

theorem tableExact_connect {p : Table} {c : RouteConn} (h : TableExact p) (hc : c ∉ p.server.routeConnMap) :
    TableExact { p with
      server := { p.server with routeConnMap := insert c p.server.routeConnMap }
      reported := fun d u t => if d = c then 0 else p.reported d u t } := by
  refine Iff.mpr (tableExact_iff ?_) fun u d => (h.conn_iff u d).trans ?_
  · exact fun u user hu => TableExact.occupied h u user hu
  simp only [Table.Reported, Finset.mem_insert]
  by_cases hdc : d = c
  · simp [hdc, hc]
  · simp [hdc]

theorem tableExact_close {p : Table} {c : RouteConn} (h : TableExact p) :
    TableExact { p with server := p.server.close c } := by
  refine (tableExact_iff occupied_close).2 fun u d => (knows_close u d).trans ?_
  rw [h.conn_iff, ← and_assoc, State.close, Finset.mem_erase]
  rfl

/-- One step. -/
theorem tableExact_step {p p' : Table} {e : Event} {out : List Sent} (h : TableExact p) (hstep : p.step e = some (p', out)) :
    p.Throughout TableExact e p' ↔ TableMeets p e := by
  cases e with
  | connect c =>
    simp only [Table.step] at hstep
    split at hstep
    · cases hstep
    · cases hstep
      exact iff_of_true (tableExact_connect h ‹_›) trivial
  | close c =>
    simp only [Table.step] at hstep
    split at hstep
    · cases hstep
      exact iff_of_true (tableExact_close h) trivial
    · cases hstep
  | onlineUserInfo c stats =>
    simp only [Table.step] at hstep
    split at hstep
    · exact reportAll_iff tableExact_report_iff c stats h ‹_›
    · cases hstep
  | userStatusUpdate c stat =>
    simp only [Table.step] at hstep
    split at hstep
    · cases hstep
      refine Iff.trans ⟨fun hexact => ?_, fun hexact => ?_⟩ (tableExact_report_iff h ‹_›)
      · exact TableExact.congr hexact (server_notifyAll _ _).symm (reported_notifyAll _ _).symm
      · exact TableExact.congr hexact (server_notifyAll _ _) (reported_notifyAll _ _)
    · cases hstep
  | usersStatusRequest c users =>
    simp only [Table.step] at hstep
    split at hstep
    · cases hstep
      exact iff_of_true h trivial
    · cases hstep

theorem tableExact_init : TableExact Table.init := by
  refine ⟨fun u => ?_, fun u c => ?_⟩ <;> simp [Table.init, State.init, State.Knows]

/-- User 7 has a client at each of two msg_servers; the first one takes its client back. -/
def movedOn : List Event :=
  [.connect 1, .connect 2, .userStatusUpdate 1 ⟨7, userStatusOnline, 1⟩, .userStatusUpdate 2 ⟨7, userStatusOnline, 0x11⟩,
    .userStatusUpdate 1 ⟨7, userStatusOffline, 1⟩]

/-- The connection to the first one stays in the user's set. -/
theorem movedOn_knows : (Machine.steps Table.step Table.init movedOn).any fun (p, _) =>
    (p.server.userMap 7).any fun user => user.findRouteConn 1 := by
  decide

end UserTableAux

open UserTableAux TableAux

/-- The table is exact after every event, and between the entries of every list, exactly when all updates meet the
condition. -/
theorem table_exact_iff (es : List Event) :
    Machine.Along Table.step (fun p e p' => p.Throughout TableExact e p') Table.init es ↔
      Machine.Along Table.step (fun p e _ => TableMeets p e) Table.init es := by
  refine Machine.along_iff tableExact_step ?_ tableExact_init
  intro p e p' out h hstep hmeets
  exact throughout_last hstep ((tableExact_step h hstep).2 hmeets)

/-- A connection that has taken back its only client of a user stays in the user's set, when there is another one. -/
theorem table_not_exact : ¬∀ es, Machine.Along Table.step (fun _ _ p' => TableExact p') Table.init es := by
  intro hall
  obtain ⟨⟨p, log⟩, hsteps, hknows⟩ := (Option.any_eq_true ..).1 movedOn_knows
  obtain ⟨user, hu, hfind⟩ := (Option.any_eq_true ..).1 hknows
  have hexact := (hall movedOn).last tableExact_init hsteps
  obtain ⟨-, t, ht⟩ := (hexact.conn_iff 7 1).1 ⟨user, hu, TreeSet.contains_iff_mem.1 hfind⟩
  obtain ⟨rfl, -⟩ := Prod.mk.inj (Option.some.inj hsteps)
  by_cases hpc : t = 1
  · subst hpc
    exact absurd ht (by decide)
  · simp [Table.report, Table.init, hpc] at ht

end TeamTalk.RouteServer
