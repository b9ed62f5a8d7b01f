import TeamTalk.DbProxy.SyncInit
import TeamTalk.Theorems.Tokens

/-!
# Sync times across a restart

When the times that `CSyncCenter` has stored are those that it has after a restart. The users' time is read under another key
than it is written under, and the groups' time is read when nothing was stored.
-/

namespace TeamTalk.DbProxy

/-- After a restart, each time is the last one stored, or that of the restart when none was. -/
def SurvivesRestart (s : SyncTimes) (calls : List SyncCall) (memory constructed now now' : Nat) : Prop :=
  (restart s calls memory constructed now now').lastUpdate = (lastTotal calls).getD now ∧
    (restart s calls memory constructed now now').lastUpdateGroup = (lastGroup calls).getD now'

/-- db_proxy_server as it starts with an empty cache. -/
def emptyCache (memory now : Nat) : SyncTimes := SyncTimes.construct memory now fun _ => none

/-- The condition: what was stored last was stored in the second of the restart; and when no group time was stored, the clock
stands at zero. -/
def RestartMeets (calls : List SyncCall) (now now' : Nat) : Prop :=
  (∀ n, lastTotal calls = some n → n = now) ∧
    match lastGroup calls with
    | some n => n = now'
    | none => now' = 0

namespace SyncRestartAux

open TokensAux

/-! ## Keys -/

theorem cStr_total : cStr "total_user_update".toList = "total_user_update".toList := by decide

theorem cStr_updated : cStr "total_user_updated".toList = "total_user_updated".toList := by decide

theorem cStr_group : cStr "last_update_group".toList = "last_update_group".toList := by decide

/-- Storing a users' time is seen under its key only. -/
theorem get_updateTotalUpdate (s : SyncTimes) (n : Nat) {key : Text} (h : cStr key ≠ "total_user_update".toList) :
    (s.updateTotalUpdate n).cache.get key = s.cache.get key := by
  simp only [SyncTimes.updateTotalUpdate, Cache.get, Cache.set, cStr_total, if_neg h]

/-- Storing a groups' time is seen under its key only. -/
theorem get_updateLastUpdateGroup (s : SyncTimes) (n : Nat) {key : Text} (h : cStr key ≠ "last_update_group".toList) :
    (s.updateLastUpdateGroup n).cache.get key = s.cache.get key := by
  simp only [SyncTimes.updateLastUpdateGroup, Cache.get, Cache.set, cStr_group, if_neg h]

/-- A groups' time that was stored is what is read. -/
theorem get_group (s : SyncTimes) (n : Nat) :
    (s.updateLastUpdateGroup n).cache.get "last_update_group".toList = int2string n := by
  have htext : cStr (int2string n) = int2string n := cStr_eq (noNul_int2string n)
  simp only [SyncTimes.updateLastUpdateGroup, Cache.get, Cache.set, if_true, Option.getD_some, htext]

/-! ## What is stored -/

/-- The key that is read for the users' time is never written. -/
theorem run_updated (s : SyncTimes) (calls : List SyncCall) :
    (calls.foldl SyncCall.run s).cache.get "total_user_updated".toList = s.cache.get "total_user_updated".toList := by
  induction calls generalizing s with
  | nil => rfl
  | cons call calls ih =>
    rw [List.foldl_cons, ih]
    cases call with
    | updateTotalUpdate n => exact get_updateTotalUpdate s n (by rw [cStr_updated]; decide)
    | updateLastUpdateGroup n => exact get_updateLastUpdateGroup s n (by rw [cStr_updated]; decide)

/-- What is read for the groups' time is the last one stored. -/
theorem run_group (s : SyncTimes) (calls : List SyncCall) :
    (calls.foldl SyncCall.run s).cache.get "last_update_group".toList =
      match lastGroup calls with
      | some n => int2string n
      | none => s.cache.get "last_update_group".toList := by
  induction calls using List.reverseRecOn with
  | nil => rfl
  | append_singleton calls call ih =>
    rw [List.foldl_append, List.foldl_cons, List.foldl_nil]
    cases call with
    | updateTotalUpdate n =>
      have hlast : lastGroup (calls ++ [.updateTotalUpdate n]) = lastGroup calls := by simp [lastGroup]
      rw [hlast, ← ih]
      exact get_updateTotalUpdate _ n (by rw [cStr_group]; decide)
    | updateLastUpdateGroup n =>
      have hlast : lastGroup (calls ++ [.updateLastUpdateGroup n]) = some n := by simp [lastGroup]
      rw [hlast]
      exact get_group _ n

/-! ## What is read -/

/-- The users' time after a restart is that of the restart. -/
theorem restart_lastUpdate (memory t : Nat) (calls : List SyncCall) (m c now now' : Nat) :
    (restart (emptyCache memory t) calls m c now now').lastUpdate = now := by
  have hread : ((calls.foldl SyncCall.run (emptyCache memory t)).cache).get "total_user_updated".toList = [] :=
    run_updated (emptyCache memory t) calls
  unfold restart SyncTimes.init
  simp only [SyncTimes.construct, hread, ne_eq, not_true_eq_false, if_false]
  split <;> rfl

/-- The groups' time after a restart is that of the restart when one was stored, and zero when none was. -/
theorem restart_lastUpdateGroup (memory t : Nat) (calls : List SyncCall) (m c now now' : Nat) :
    (restart (emptyCache memory t) calls m c now now').lastUpdateGroup =
      match lastGroup calls with
      | some _ => now'
      | none => 0 := by
  have hread := run_group (emptyCache memory t) calls
  unfold restart SyncTimes.init
  simp only [SyncTimes.construct]
  cases hlast : lastGroup calls with
  | some n =>
    rw [hlast] at hread
    have hne : int2string n ≠ [] := Nat.toDigits_ne_nil
    have hempty : (int2string n).isEmpty = false := by rw [List.isEmpty_eq_false_iff]; exact hne
    simp only [hread, hempty, Bool.false_eq_true, if_false]
    rfl
  | none =>
    rw [hlast] at hread
    have hnil : (emptyCache memory t).cache.get "last_update_group".toList = [] := rfl
    rw [hnil] at hread
    simp only [hread, List.isEmpty_nil, if_true]
    rfl

end SyncRestartAux

open SyncRestartAux

/-- The sync times survive a restart exactly when they were stored in the second of the restart. -/
theorem survives_restart_iff (m₀ t₀ : Nat) (calls : List SyncCall) (memory constructed now now' : Nat) :
    SurvivesRestart (emptyCache m₀ t₀) calls memory constructed now now' ↔ RestartMeets calls now now' := by
  unfold SurvivesRestart RestartMeets
  rw [restart_lastUpdate, restart_lastUpdateGroup]
  refine and_congr ?_ ?_
  · cases lastTotal calls with
    | none => simp
    | some n => simp [eq_comm]
  · cases lastGroup calls with
    | none => simp [eq_comm]
    | some n => simp [eq_comm]

/-- Both times were stored at 100, and db_proxy_server is started again at 200: it then has 200 for both. -/
theorem not_survives_restart :
    ¬∀ (m₀ t₀ : Nat) (calls : List SyncCall) (memory constructed now now' : Nat), constructed ≤ now → now ≤ now' →
      SurvivesRestart (emptyCache m₀ t₀) calls memory constructed now now' := by
  intro h
  have hsurvives := h 0 0 [.updateTotalUpdate 100, .updateLastUpdateGroup 100] 0 200 200 200 le_rfl le_rfl
  exact absurd hsurvives.2 (by decide)

end TeamTalk.DbProxy
