import TeamTalk.DbProxy.Pools

/-!
# Pools that cannot deadlock

`getRecentSession` asks for another connection of `teamtalk_slave` for each session, and sending to a group for another one of
`teamtalk_master`, while they hold one. No pool is deadlocked as long as these never hold all connections of their pool, and
`removeRepeatUser` always has a user.
-/

namespace TeamTalk.DbProxy

open Prog Actions

/-- All connections of a pool are held by threads that wait for another one of it. -/
def Deadlocked (s : Proxy) (pool : Pool) : Prop :=
  (s.pools pool).freeList = [] ∧ (s.pools pool).maxConnCnt ≤ (s.pools pool).curConnCnt ∧
    ∀ id < (s.pools pool).maxConnCnt, ∃ th ∈ s.threads, (⟨pool, id⟩ : Conn) ∈ th.held.map Held.conn ∧ th.asksFor pool = true

/-- A call beside which another connection of the pool is asked for leaves one connection to others. -/
def SparesOne (s : Proxy) : Event → Prop
  | .answer _ (.getConn pool site) (some id) =>
    (site.outer = true → s.outerHeld pool + 1 < (s.pools pool).maxConnCnt) ∧
      neverGivenBack (.getConn pool site) (some id) = false
  | _ => True

namespace DeadlockAux

open Proxy

/-- The connections of a pool that a thread holds while another one may be asked for. -/
def outerIds (pool : Pool) (held : List Held) : List Nat := idsOf pool (held.filter (·.site.outer))

theorem outerHeld_split (pools : Pool → ConnPool) (l₁ l₂ : List Thread) (th : Thread) (pool : Pool) :
    outerHeld ⟨pools, l₁ ++ th :: l₂⟩ pool = (l₁.flatMap fun th => outerIds pool th.held).length +
      ((outerIds pool th.held).length + (l₂.flatMap fun th => outerIds pool th.held).length) := by
  simp only [outerHeld, outerIds, List.flatMap_append, List.flatMap_cons, List.length_append]

/-- Only an answer to a call of `GetDBConn` or `GetCacheConn` adds to what is held. -/
theorem outerIds_next (pool : Pool) (held : List Held) (o : Op) (r : o.Reply) :
    (outerIds pool (heldNext held o r)).length ≤ (outerIds pool held).length ∨
      ∃ site, ∃ id : Nat, o = .getConn pool site ∧ HEq r (some id) ∧ site.outer = true ∧
        (outerIds pool (heldNext held o r)).length = (outerIds pool held).length + 1 := by
  cases o with
  | getConn pool' site =>
    cases r with
    | none => exact Or.inl le_rfl
    | some id =>
      by_cases houter : site.outer = true
      · by_cases hpool : pool' = pool
        · subst hpool
          refine Or.inr ⟨site, id, rfl, HEq.rfl, houter, ?_⟩
          simp only [heldNext, outerIds, idsOf, List.filter_cons, houter, if_true, List.filterMap_cons, List.length_cons]
        · refine Or.inl (le_of_eq ?_)
          simp only [heldNext, outerIds, idsOf, List.filter_cons, houter, if_true, List.filterMap_cons, if_neg hpool]
      · refine Or.inl (le_of_eq ?_)
        simp only [heldNext, outerIds, List.filter_cons, houter]
        rfl
  | relConn conn =>
    refine Or.inl ?_
    exact ((List.eraseP_sublist.filter _).filterMap _).length_le
  | executeQuery conn site q => exact Or.inl le_rfl
  | executeUpdate conn u => exact Or.inl le_rfl
  | cache conn site cmd => exact Or.inl le_rfl
  | uploadByteFile data => exact Or.inl le_rfl
  | time => exact Or.inl le_rfl
  | pick => exact Or.inl le_rfl
  | nullCall => cases r

/-- The maximum of a pool stays. -/
theorem serve_max {pools pools' : Pool → ConnPool} {o : Op} {r : o.Reply} (h : serve pools o r = some pools') (pool : Pool) :
    (pools' pool).maxConnCnt = (pools pool).maxConnCnt := by
  cases o with
  | getConn pool' site =>
    rw [serve] at h
    split at h
    · rename_i p hget
      obtain rfl := Option.some.inj h
      dsimp only
      split
      · rename_i heq
        subst heq
        unfold ConnPool.get at hget
        split at hget
        · split at hget
          · obtain rfl := Option.some.inj hget
            rfl
          · cases hget
        · split at hget
          · cases hget
          · split at hget
            · split at hget
              · obtain rfl := Option.some.inj hget
                rfl
              · cases hget
            · obtain rfl := Option.some.inj hget
              rfl
      · rfl
    · cases h
  | relConn conn =>
    obtain rfl := Option.some.inj h
    dsimp only [ConnPool.rel]
    split
    · split <;> rfl
    · rfl
  | executeQuery conn site q =>
    obtain rfl := Option.some.inj h
    rfl
  | executeUpdate conn u =>
    obtain rfl := Option.some.inj h
    rfl
  | cache conn site cmd =>
    obtain rfl := Option.some.inj h
    rfl
  | uploadByteFile data =>
    obtain rfl := Option.some.inj h
    rfl
  | time =>
    obtain rfl := Option.some.inj h
    rfl
  | pick =>
    obtain rfl := Option.some.inj h
    rfl
  | nullCall => cases r

/-! ## Runs -/

/-- What holds in every state of a run. -/
structure Inv (s : Proxy) : Prop where
  spare : ∀ pool, s.outerHeld pool < (s.pools pool).maxConnCnt
  goesOn : ∀ th ∈ s.threads, GoesOn False th

theorem inv_start {maxConnCnt : Pool → Nat} (hmax : ∀ pool, 2 ≤ maxConnCnt pool) (threads : Nat) :
    Inv (start maxConnCnt threads) := by
  have hidle : ∀ th ∈ List.replicate threads Thread.idle, th = .idle := fun th hth => List.eq_of_mem_replicate hth
  refine ⟨fun pool => ?_, fun th hth => ?_⟩
  · have houter : (start maxConnCnt threads).outerHeld pool = 0 := by
      refine List.length_eq_zero_iff.mpr (List.flatMap_eq_nil_iff.mpr fun th hth => ?_)
      rw [hidle th hth]
      rfl
    rw [houter]
    exact Nat.lt_of_lt_of_le Nat.zero_lt_two (hmax pool)
  · rw [hidle th hth]
    exact goesOn_idle False

/-- A thread that goes on takes the place of a thread. -/
theorem goesOn_replace {l₁ l₂ : List Thread} {th th' : Thread} (hs : ∀ th₀ ∈ l₁ ++ th :: l₂, GoesOn False th₀)
    (h : GoesOn False th') : ∀ th₀ ∈ l₁ ++ th' :: l₂, GoesOn False th₀ := by
  intro th₀ hth
  rcases List.mem_append.mp hth with h1 | h1
  · exact hs th₀ (List.mem_append_left _ h1)
  · rcases List.mem_cons.mp h1 with rfl | h2
    · exact h
    · exact hs th₀ (List.mem_append_right _ (List.mem_cons_of_mem _ h2))

theorem inv_step {s s' : Proxy} {e : Event} {out : List Unit} (hs : Inv s) (hok : SparesOne s e)
    (h : s.step e = some (s', out)) : Inv s' := by
  rcases step_cases h with ⟨t, job, th, l₁, l₂, rfl, hended, hthreads, rfl⟩ |
    ⟨t, o, r, th, k, pools, l₁, l₂, rfl, hprog, hserve, hthreads, rfl⟩
  · obtain ⟨pools, threads⟩ := s
    dsimp only at hthreads
    subst hthreads
    have hheld : th.held = [] := (hs.goesOn th (by simp)).ended hended
    refine ⟨fun pool => ?_, goesOn_replace hs.goesOn ⟨Watch.start, hheld.symm, rfl, fun _ => rfl, job.safe⟩⟩
    have hspare := hs.spare pool
    rw [outerHeld_split] at hspare ⊢
    exact hspare
  · obtain ⟨pools0, threads⟩ := s
    dsimp only at hthreads
    subst hthreads
    have hgoes : GoesOn False th := hs.goesOn th (by simp)
    have hleft : neverGivenBack o r = false := by
      cases o with
      | getConn pool site =>
        cases r with
        | none => cases site with
          | removeRepeatUser users => cases users <;> rfl
          | _ => rfl
        | some id => exact hok.2
      | nullCall => cases r
      | _ => rfl
    refine ⟨fun pool => ?_, goesOn_replace hs.goesOn (hgoes.answer hprog nofun hleft)⟩
    have hspare := hs.spare pool
    rw [serve_max hserve pool]
    rw [outerHeld_split] at hspare ⊢
    dsimp only at hspare ⊢
    rcases outerIds_next pool th.held o r with hle | ⟨site, id, rfl, hr, houter, heq⟩
    · omega
    · obtain rfl := eq_of_heq hr
      have hone := hok.1 houter
      rw [outerHeld_split] at hone
      dsimp only at hone
      omega

/-- A pool is not deadlocked as long as one connection is spared. -/
theorem Inv.not_deadlocked {s : Proxy} (hs : Inv s) (pool : Pool) : ¬ Deadlocked s pool := by
  rintro ⟨-, -, hall⟩
  have hsub : List.range (s.pools pool).maxConnCnt ⊆ s.threads.flatMap fun th => outerIds pool th.held := by
    intro id hid
    obtain ⟨th, hth, hmem, hasks⟩ := hall id (List.mem_range.mp hid)
    refine List.mem_flatMap.mpr ⟨th, hth, ?_⟩
    obtain ⟨h, hh, hconn⟩ := List.mem_map.mp hmem
    have houter : h.site.outer = true := (hs.goesOn th hth).fits hasks h hh (by rw [hconn])
    refine List.mem_filterMap.mpr ⟨h, List.mem_filter.mpr ⟨hh, houter⟩, ?_⟩
    rw [hconn, if_pos rfl]
  have hle := (List.subperm_of_subset List.nodup_range hsub).length_le
  rw [List.length_range] at hle
  exact absurd (hs.spare pool) (Nat.not_lt.mpr hle)

end DeadlockAux

open DeadlockAux

/-- No pool is deadlocked, whatever the threads, the maximum of each pool and the interleaving. -/
theorem pools_live {maxConnCnt : Pool → Nat} (hmax : ∀ pool, 2 ≤ maxConnCnt pool) {threads : Nat} {log : List Unit} {s : Proxy}
    (h : Machine.Run Proxy.step SparesOne (Proxy.start maxConnCnt threads) log s) (pool : Pool) : ¬ Deadlocked s pool := by
  have hinv : Inv s := h.invariant (I := fun _ s => Inv s) (inv_start hmax threads) (fun hs hok hstep => inv_step hs hok hstep)
  exact hinv.not_deadlocked pool

/-- One of two threads asks for its recent sessions, and judges one. -/
theorem pools_live_getRecentSession :
    ∃ log s, Machine.Run Proxy.step SparesOne (Proxy.start (fun _ => 2) 2) log s ∧ ∀ pool, ¬ Deadlocked s pool := by
  have h0 : Machine.Run Proxy.step SparesOne (Proxy.start (fun _ => 2) 2) [] (Proxy.start (fun _ => 2) 2) := .start
  have h1 := h0.step (e := Event.run 0 (.request (.getRecentSession 1))) trivial rfl
  have h2 := h1.step (e := Event.answer 0 (.getConn .slave .getRecentSession) (some 0)) ⟨fun _ => by decide, rfl⟩ rfl
  have h3 := h2.step (e := Event.answer 0 (.executeQuery ⟨.slave, 0⟩ .other .other) (some [5])) trivial rfl
  have h4 := h3.step (e := Event.answer 0 (.getConn .slave .other) (some 1)) ⟨nofun, rfl⟩ rfl
  exact ⟨_, _, h4, fun pool => pools_live (fun _ => le_rfl) h4 pool⟩

/-- Two threads ask for recent sessions at the same time. -/
def askTwice : List Event :=
  [.run 0 (.request (.getRecentSession 1)), .run 1 (.request (.getRecentSession 2)),
    .answer 0 (.getConn .slave .getRecentSession) (some 0), .answer 1 (.getConn .slave .getRecentSession) (some 1),
    .answer 0 (.executeQuery ⟨.slave, 0⟩ .other .other) (some [5]),
    .answer 1 (.executeQuery ⟨.slave, 1⟩ .other .other) (some [6])]

instance (s : Proxy) (pool : Pool) : Decidable (Deadlocked s pool) := inferInstanceAs (Decidable (_ ∧ _ ∧ _))

/-- Each of them holds one of the two connections, and waits for the other. -/
theorem pools_not_live : ¬ ∀ log s pool,
    Machine.Run Proxy.step (fun _ _ => True) (Proxy.start (fun _ => 2) 2) log s → ¬ Deadlocked s pool := by
  intro h
  have hsteps : ((Machine.steps Proxy.step (Proxy.start (fun _ => 2) 2) askTwice).map fun r => decide (Deadlocked r.1 .slave)) =
      some true := rfl
  cases hr : Machine.steps Proxy.step (Proxy.start (fun _ => 2) 2) askTwice with
  | none =>
    rw [hr] at hsteps
    cases hsteps
  | some r =>
    rw [hr] at hsteps
    have hdead : Deadlocked r.1 .slave := of_decide_eq_true (Option.some.inj hsteps)
    exact h _ _ _ (Machine.Run.of_steps (fun _ _ => trivial) .start hr) hdead

end TeamTalk.DbProxy
