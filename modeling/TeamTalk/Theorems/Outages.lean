import TeamTalk.DbProxy.Returns

/-!
# Outages of the storage

Any of the calls of a handler can fail: `GetDBConn`, `GetCacheConn` and `ExecuteQuery` answer `NULL`, statements and commands are
refused. A run is a handler with the answers it gets; it ends, or stops at a method that is called on a null pointer.
-/

namespace TeamTalk.DbProxy

open Prog Actions

/-- What is held after the calls of a run. -/
def heldAfter (tr : List (Entry calls)) : List Held := tr.foldl (fun held e => heldNext held e.1 e.2) []

/-- The run ends, and has given back what it obtained. -/
def Unharmed (tr : List (Entry calls)) (res : Option Unit) : Prop := res = some () ∧ heldAfter tr = []

/-- Every null pointer among the answers is looked at, and `removeRepeatUser` gives its connection back. -/
def Foreseen (tr : List (Entry calls)) : Prop := ∀ e ∈ tr, nullUnseen e.1 e.2 = false ∧ neverGivenBack e.1 e.2 = false

namespace OutagesAux

/-- The monitor watches what is held. -/
theorem after_held (tr : List (Entry calls)) (s : Watch) :
    (monitor.after s tr).held = tr.foldl (fun held e => heldNext held e.1 e.2) s.held := by
  induction tr generalizing s with
  | nil => rfl
  | cons e tr ih => exact ih (s.next e.1 e.2)

/-- The monitor notes the null pointers that are not looked at. -/
theorem after_null (tr : List (Entry calls)) (s : Watch) :
    (monitor.after s tr).null = (s.null || tr.any fun e => nullUnseen e.1 e.2) := by
  induction tr generalizing s with
  | nil => exact (Bool.or_false _).symm
  | cons e tr ih =>
    rw [List.any_cons, ← Bool.or_assoc]
    exact ih (s.next e.1 e.2)

/-- The monitor notes the connections that are not given back. -/
theorem after_leak (tr : List (Entry calls)) (s : Watch) :
    (monitor.after s tr).leak = (s.leak || tr.any fun e => neverGivenBack e.1 e.2) := by
  induction tr generalizing s with
  | nil => exact (Bool.or_false _).symm
  | cons e tr ih =>
    rw [List.any_cons, ← Bool.or_assoc]
    exact ih (s.next e.1 e.2)

/-- A call without an answer is a method called on a null pointer. -/
theorem eq_nullCall {o : Op} (h : IsEmpty o.Reply) : o = .nullCall := by
  cases o with
  | nullCall => rfl
  | getConn pool site => exact (h.false (none : Option Nat)).elim
  | relConn conn => exact (h.false ()).elim
  | executeQuery conn site q => exact (h.false (none : Option (List Nat))).elim
  | executeUpdate conn u => exact (h.false (none : Option Nat)).elim
  | cache conn site cmd =>
    cases cmd with
    | isExists key => exact (h.false true).elim
    | hget key field => exact (h.false "").elim
    | incrBy key value => exact (h.false (0 : Int)).elim
    | set key value => exact (h.false "").elim
    | hgetAll => exact (h.false (none : Option Nat)).elim
    | other => exact (h.false (0 : Nat)).elim
  | uploadByteFile data => exact (h.false "").elim
  | time => exact (h.false (0 : Nat)).elim
  | pick => exact (h.false (0 : Nat)).elim

theorem foreseen_iff (tr : List (Entry calls)) :
    Foreseen tr ↔ (monitor.after Watch.start tr).null = false ∧ (monitor.after Watch.start tr).leak = false := by
  rw [after_null, after_leak]
  simp only [Watch.start, Bool.false_or, List.any_eq_false, Bool.not_eq_true, Foreseen]
  exact ⟨fun h => ⟨fun e he => (h e he).1, fun e he => (h e he).2⟩, fun h e he => ⟨h.1 e he, h.2 e he⟩⟩

end OutagesAux

open OutagesAux

/-- A run comes through an outage exactly when every null pointer is looked at and every connection is given back. -/
theorem outage_survived (job : Job) {tr : List (Entry calls)} {res : Option Unit} (h : Prog.Exec job.program tr res) :
    Unharmed tr res ↔ Foreseen tr := by
  rw [foreseen_iff]
  have hheld : heldAfter tr = (monitor.after Watch.start tr).held := (after_held tr Watch.start).symm
  rcases job.safe.exec h with ⟨_, rfl, hleft⟩ | ⟨rfl, o, hempty, hallows⟩
  · -- the run ends, and holds a connection only if it is never given back
    unfold Unharmed
    rw [hheld]
    exact ⟨fun h => ⟨hleft.null, hleft.held.mp h.2⟩, fun h => ⟨rfl, hleft.held.mpr h.2⟩⟩
  · -- the run stops after a null pointer that is not looked at
    obtain rfl := eq_nullCall hempty
    have hnull : (monitor.after Watch.start tr).null = true := hallows
    refine ⟨fun h => ?_, fun h => ?_⟩
    · cases h.1
    · exact absurd (hnull.symm.trans h.1) (by decide)

/-- The calls of `hasOfflineFile` when no connection can be had. -/
def noConnections : List (Entry calls) :=
  [⟨.getConn .slave .other, none⟩, ⟨.getConn .slave .other, none⟩, ⟨.getConn .slave .hasOfflineFile, none⟩]

/-- With no connection to be had, `getRecentSession` comes through. -/
theorem outage_survived_getRecentSession :
    Unharmed [⟨.getConn .slave .getRecentSession, none⟩] (some ()) ↔ Foreseen [⟨.getConn .slave .getRecentSession, none⟩] :=
  outage_survived (.request (.getRecentSession 1)) (Prog.Exec.of_result rfl rfl)

/-- With no connection to be had, `hasOfflineFile` calls a method on a null pointer. -/
theorem outage_not_survived : ¬ ∀ (job : Job) (tr : List (Entry calls)) (res : Option Unit),
    Prog.Exec job.program tr res → Unharmed tr res := by
  intro h
  have hexec : Prog.Exec (Job.request .hasOfflineFile).program noConnections none :=
    Prog.Exec.of_next (o := .nullCall) rfl rfl ⟨fun r : Empty => by cases r⟩
  cases (h _ _ _ hexec).1

end TeamTalk.DbProxy
