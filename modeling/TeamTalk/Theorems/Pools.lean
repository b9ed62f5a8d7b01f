import TeamTalk.DbProxy.Pools

/-!
# One holder for each connection

In every run in which `removeRepeatUser` gets its connection for a single user, and `HGETALL` fails in `clearMessageCount`, each
connection of a pool is free or held by one thread, and a thread that has finished holds none.
-/

namespace TeamTalk.DbProxy

open Prog Actions

/-- No answer leads to a connection that is used when it has been given back, or that is not given back. -/
def GivenBackOnce (_ : Proxy) : Event → Prop
  | .run _ _ => True
  | .answer _ o r => usedAgain o r = false ∧ neverGivenBack o r = false

/-- The connections of the pools are owned by one holder. -/
structure Owned (s : Proxy) : Prop where
  /-- No connection is free twice, held twice, or free and held. -/
  once : ∀ pool, ((s.pools pool).freeList ++ s.heldIds pool).Nodup
  /-- Free connections and held connections are all. -/
  count : ∀ pool, (s.pools pool).freeList.length + (s.heldIds pool).length = (s.pools pool).curConnCnt
  /-- A connection is used, and given back, by a thread that holds it. -/
  holder : ∀ th ∈ s.threads, ∀ o conn, th.prog.next = some o → o.on = some conn → conn ∈ th.held.map Held.conn
  /-- A thread that has finished has given back what it obtained. -/
  ended : ∀ th ∈ s.threads, th.ended = true → th.held = []
  /-- With all threads finished a pool is back at full size. -/
  full : (∀ th ∈ s.threads, th.ended = true) → ∀ pool, (s.pools pool).freeList.length = (s.pools pool).curConnCnt

namespace PoolsAux

/-- The connections of a pool are free or held, each in one place. -/
def AllThere (s : Proxy) (pool : Pool) : Prop :=
  ((s.pools pool).freeList ++ s.heldIds pool).Perm (List.range (s.pools pool).curConnCnt)

/-! ## Held connections -/

open Proxy

theorem heldIds_split (pools : Pool → ConnPool) (l₁ l₂ : List Thread) (th : Thread) (pool : Pool) :
    heldIds ⟨pools, l₁ ++ th :: l₂⟩ pool =
      l₁.flatMap (fun th => idsOf pool th.held) ++ (idsOf pool th.held ++ l₂.flatMap (fun th => idsOf pool th.held)) := by
  simp only [heldIds, List.flatMap_append, List.flatMap_cons]

theorem idsOf_cons_ne {pool : Pool} {h : Held} {held : List Held} (hne : h.conn.pool ≠ pool) :
    idsOf pool (h :: held) = idsOf pool held := by
  simp only [idsOf, List.filterMap_cons, if_neg hne]

theorem idsOf_cons_eq {pool : Pool} {h : Held} {held : List Held} (heq : h.conn.pool = pool) :
    idsOf pool (h :: held) = h.conn.id :: idsOf pool held := by
  simp only [idsOf, List.filterMap_cons, if_pos heq]

/-- What is given back leaves its pool. -/
theorem idsOf_erase {conn : Conn} {held : List Held} (hmem : conn ∈ held.map Held.conn) :
    (idsOf conn.pool held).Perm (conn.id :: idsOf conn.pool (held.eraseP (·.conn = conn))) := by
  induction held with
  | nil => cases hmem
  | cons h held ih =>
    by_cases heq : h.conn = conn
    · rw [List.eraseP_cons_of_pos (p := fun h' : Held => decide (h'.conn = conn)) (decide_eq_true heq),
        idsOf_cons_eq (congrArg Conn.pool heq), heq]
    · rw [List.eraseP_cons_of_neg (p := fun h' : Held => decide (h'.conn = conn)) (by simpa using heq)]
      have hmem' := ih ((List.mem_cons.mp hmem).resolve_left fun h' => heq h'.symm)
      by_cases hpool : h.conn.pool = conn.pool
      · rw [idsOf_cons_eq hpool, idsOf_cons_eq hpool]
        exact (hmem'.cons _).trans (.swap _ _ _)
      · rw [idsOf_cons_ne hpool, idsOf_cons_ne hpool]
        exact hmem'

/-- What is given back leaves no other pool. -/
theorem idsOf_erase_ne {conn : Conn} {pool : Pool} (hne : conn.pool ≠ pool) (held : List Held) :
    idsOf pool (held.eraseP (·.conn = conn)) = idsOf pool held := by
  induction held with
  | nil => rfl
  | cons h held ih =>
    by_cases heq : h.conn = conn
    · rw [List.eraseP_cons_of_pos (p := fun h' : Held => decide (h'.conn = conn)) (decide_eq_true heq),
        idsOf_cons_ne (by rw [heq]; exact hne)]
    · rw [List.eraseP_cons_of_neg (p := fun h' : Held => decide (h'.conn = conn)) (by simpa using heq)]
      by_cases hpool : h.conn.pool = pool
      · rw [idsOf_cons_eq hpool, idsOf_cons_eq hpool, ih]
      · rw [idsOf_cons_ne hpool, idsOf_cons_ne hpool, ih]

/-! ## Pools -/

/-- A connection that is obtained goes from the free ones, or from those not yet made, to the held ones. -/
theorem get_cases {p p' : ConnPool} {answer : Option Nat} (h : p.get answer = some p') :
    (∃ id, answer = some id ∧ p.freeList = id :: p'.freeList ∧ p'.curConnCnt = p.curConnCnt) ∨
    (answer = some p.curConnCnt ∧ p.freeList = [] ∧ p'.freeList = [] ∧ p'.curConnCnt = p.curConnCnt + 1) ∨
    (answer = none ∧ p' = p) := by
  unfold ConnPool.get at h
  split at h
  · rename_i id rest hfree
    split at h
    · rename_i hanswer
      obtain rfl := Option.some.inj h
      exact Or.inl ⟨id, hanswer, hfree, rfl⟩
    · cases h
  · rename_i hfree
    split at h
    · cases h
    · split at h
      · split at h
        · rename_i hid
          obtain rfl := Option.some.inj h
          subst hid
          exact Or.inr (Or.inl ⟨rfl, hfree, hfree, rfl⟩)
        · cases h
      · exact Or.inr (Or.inr ⟨rfl, (Option.some.inj h).symm⟩)

/-- A connection that a thread obtains, or gives back, changes places. -/
theorem allThere_moves {free free' ids ids' before after : List Nat} {cur cur' : Nat}
    (h : (free ++ (before ++ (ids ++ after))).Perm (List.range cur))
    (hmoves : ∀ a, free'.count a + ids'.count a + (List.range cur).count a =
      free.count a + ids.count a + (List.range cur').count a) :
    (free' ++ (before ++ (ids' ++ after))).Perm (List.range cur') := by
  rw [List.perm_iff_count] at h ⊢
  intro a
  have h1 := h a
  have h2 := hmoves a
  simp only [List.count_append] at h1 ⊢
  omega

/-- A step of a thread keeps the connections together. -/
theorem allThere_answer {pools pools' : Pool → ConnPool} {th : Thread} {l₁ l₂ : List Thread} {o : Op}
    {k : o.Reply → Handler Unit} {r : o.Reply} (hs : ∀ pool, AllThere ⟨pools, l₁ ++ th :: l₂⟩ pool) (hgoes : GoesOn True th)
    (hprog : th.prog = .call o k) (hserve : serve pools o r = some pools') (pool : Pool) :
    AllThere ⟨pools', l₁ ++ ⟨k r, heldNext th.held o r⟩ :: l₂⟩ pool := by
  have hpool := hs pool
  unfold AllThere at hpool ⊢
  rw [heldIds_split] at hpool ⊢
  refine allThere_moves hpool fun a => ?_
  dsimp only
  cases o with
  | getConn pool' site =>
    rw [serve] at hserve
    split at hserve
    · rename_i p hget
      obtain rfl := Option.some.inj hserve
      by_cases heq : pool' = pool
      · subst heq
        dsimp only
        rw [if_pos rfl]
        rcases get_cases hget with ⟨id, rfl, hfree, hcur⟩ | ⟨rfl, hfree, hfree', hcur⟩ | ⟨rfl, rfl⟩
        · rw [heldNext, idsOf_cons_eq (h := ⟨⟨pool', id⟩, site⟩) rfl, hfree, hcur]
          simp only [List.count_cons]
          omega
        · rw [heldNext, idsOf_cons_eq (h := ⟨⟨pool', _⟩, site⟩) rfl, hfree, hfree', hcur, List.range_succ]
          simp only [List.count_cons, List.count_append, List.count_nil]
          omega
        · rfl
      · dsimp only
        rw [if_neg (Ne.symm heq)]
        cases r with
        | none => rfl
        | some id => rw [heldNext, idsOf_cons_ne heq]
    · cases hserve
  | relConn conn =>
    obtain rfl := Option.some.inj hserve
    have hmem : conn ∈ th.held.map Held.conn := hgoes.holder trivial (by rw [hprog]; rfl) rfl
    dsimp only [heldNext]
    by_cases heq : pool = conn.pool
    · subst heq
      rw [if_pos rfl]
      have hids := idsOf_erase hmem
      -- what is held is not free
      have hnew : conn.id ∉ (pools conn.pool).freeList := by
        have hnodup := hpool.nodup_iff.mpr List.nodup_range
        intro hfree
        refine (List.nodup_append.mp hnodup).2.2 conn.id hfree conn.id ?_ rfl
        exact List.mem_append_right _ (List.mem_append_left _ (hids.mem_iff.mpr List.mem_cons_self))
      rw [ConnPool.rel, if_neg hnew, hids.count_eq]
      simp only [List.count_append, List.count_cons, List.count_nil]
      omega
    · rw [if_neg heq, idsOf_erase_ne (Ne.symm heq)]
  | executeQuery conn site q =>
    obtain rfl := Option.some.inj hserve
    rfl
  | executeUpdate conn u =>
    obtain rfl := Option.some.inj hserve
    rfl
  | cache conn site cmd =>
    obtain rfl := Option.some.inj hserve
    rfl
  | uploadByteFile data =>
    obtain rfl := Option.some.inj hserve
    rfl
  | time =>
    obtain rfl := Option.some.inj hserve
    rfl
  | pick =>
    obtain rfl := Option.some.inj hserve
    rfl
  | nullCall => cases r

/-! ## Runs -/

/-- What holds in every state of a run. -/
structure Inv (s : Proxy) : Prop where
  conns : ∀ pool, AllThere s pool
  goesOn : ∀ th ∈ s.threads, GoesOn True th

theorem inv_start (maxConnCnt : Pool → Nat) (threads : Nat) : Inv (start maxConnCnt threads) := by
  have hidle : ∀ th ∈ List.replicate threads Thread.idle, th = .idle := fun th hth => List.eq_of_mem_replicate hth
  refine ⟨fun pool => ?_, fun th hth => ?_⟩
  · have hheld : (start maxConnCnt threads).heldIds pool = [] := by
      refine List.flatMap_eq_nil_iff.mpr fun th hth => ?_
      rw [hidle th hth]
      rfl
    unfold AllThere
    rw [hheld, List.append_nil]
    exact List.Perm.refl _
  · rw [hidle th hth]
    exact goesOn_idle True

theorem inv_step {s s' : Proxy} {e : Event} {out : List Unit} (hs : Inv s) (hok : GivenBackOnce s e)
    (h : s.step e = some (s', out)) : Inv s' := by
  rcases step_cases h with ⟨t, job, th, l₁, l₂, rfl, hended, hthreads, rfl⟩ |
    ⟨t, o, r, th, k, pools, l₁, l₂, rfl, hprog, hserve, hthreads, rfl⟩
  · -- a new job starts with nothing in hand
    obtain ⟨pools, threads⟩ := s
    dsimp only at hthreads
    subst hthreads
    have hheld : th.held = [] := (hs.goesOn th (by simp)).ended hended
    refine ⟨fun pool => ?_, fun th' hth' => ?_⟩
    · have hpool := hs.conns pool
      unfold AllThere at hpool ⊢
      rw [heldIds_split] at hpool ⊢
      exact hpool
    · rcases List.mem_append.mp hth' with h1 | h1
      · exact hs.goesOn th' (List.mem_append_left _ h1)
      · rcases List.mem_cons.mp h1 with rfl | h2
        · exact ⟨Watch.start, hheld.symm, rfl, fun _ => rfl, job.safe⟩
        · exact hs.goesOn th' (List.mem_append_right _ (List.mem_cons_of_mem _ h2))
  · obtain ⟨pools0, threads⟩ := s
    dsimp only at hthreads
    subst hthreads
    have hgoes : GoesOn True th := hs.goesOn th (by simp)
    refine ⟨allThere_answer hs.conns hgoes hprog hserve, fun th' hth' => ?_⟩
    rcases List.mem_append.mp hth' with h1 | h1
    · exact hs.goesOn th' (List.mem_append_left _ h1)
    · rcases List.mem_cons.mp h1 with rfl | h2
      · exact hgoes.answer hprog (fun _ => hok.1) hok.2
      · exact hs.goesOn th' (List.mem_append_right _ (List.mem_cons_of_mem _ h2))

theorem Inv.owned {s : Proxy} (hs : Inv s) : Owned s := by
  have hcount : ∀ pool, (s.pools pool).freeList.length + (s.heldIds pool).length = (s.pools pool).curConnCnt := by
    intro pool
    have h := (hs.conns pool).length_eq
    rwa [List.length_append, List.length_range] at h
  refine ⟨fun pool => (hs.conns pool).nodup_iff.mpr List.nodup_range, hcount,
    fun th hth o conn hnext hon => (hs.goesOn th hth).holder trivial hnext hon,
    fun th hth hended => (hs.goesOn th hth).ended hended, fun hall pool => ?_⟩
  have hheld : s.heldIds pool = [] := by
    refine List.flatMap_eq_nil_iff.mpr fun th hth => ?_
    rw [(hs.goesOn th hth).ended (hall th hth)]
    rfl
  rw [← hcount pool, hheld, List.length_nil, Nat.add_zero]

end PoolsAux

open PoolsAux

/-- Every connection has one holder, whatever the threads, the maximum of each pool and the interleaving. -/
theorem conns_owned {maxConnCnt : Pool → Nat} {threads : Nat} {log : List Unit} {s : Proxy}
    (h : Machine.Run Proxy.step GivenBackOnce (Proxy.start maxConnCnt threads) log s) : Owned s := by
  have hinv : Inv s := h.invariant (I := fun _ s => Inv s) (inv_start maxConnCnt threads)
    (fun hs hok hstep => inv_step hs hok hstep)
  exact hinv.owned

/-- One of three threads looks up a user. -/
theorem conns_owned_getUserInfo :
    ∃ log s, Machine.Run Proxy.step GivenBackOnce (Proxy.start (fun _ => 4) 3) log s ∧ Owned s := by
  have h0 : Machine.Run Proxy.step GivenBackOnce (Proxy.start (fun _ => 4) 3) [] (Proxy.start (fun _ => 4) 3) := .start
  have h1 := h0.step (e := Event.run 1 (.request (.getUserInfo 1))) trivial rfl
  have h2 := h1.step (e := Event.answer 1 (.getConn .slave .other) (some 0)) ⟨rfl, rfl⟩ rfl
  have h3 := h2.step (e := Event.answer 1 (.executeQuery ⟨.slave, 0⟩ .other .other) (some [1])) ⟨rfl, rfl⟩ rfl
  have h4 := h3.step (e := Event.answer 1 (.relConn ⟨.slave, 0⟩) ()) ⟨rfl, rfl⟩ rfl
  exact ⟨_, _, h4, conns_owned h4⟩

/-- Two members are added to a group: after the first the connection is given back, and then used for the second. -/
def addTwo : List Event :=
  [.run 0 (.request (.modifyMember true 1 7 groupModifyTypeAdd 2)),
    .answer 0 (.getConn .groupMember .other) (some 0), .answer 0 (.cache ⟨.groupMember, 0⟩ .other (.isExists (.groupMember 7))) true,
    .answer 0 (.relConn ⟨.groupMember, 0⟩) (), .answer 0 (.getConn .slave .other) (some 0),
    .answer 0 (.executeQuery ⟨.slave, 0⟩ .other .other) (some [1]), .answer 0 .pick (1 : Nat),
    .answer 0 (.relConn ⟨.slave, 0⟩) (), .answer 0 (.getConn .groupMember (.removeRepeatUser 2)) (some 1),
    .answer 0 (.cache ⟨.groupMember, 1⟩ .other .other) (1 : Nat), .answer 0 (.relConn ⟨.groupMember, 1⟩) ()]

/-- The next call of the first thread is on a connection that is free. -/
theorem conns_not_owned : ¬ ∀ log s, Machine.Run Proxy.step (fun _ _ => True) (Proxy.start (fun _ => 2) 1) log s → Owned s := by
  intro h
  have hsteps : ((Machine.steps Proxy.step (Proxy.start (fun _ => 2) 1) addTwo).map fun r =>
      r.1.threads.map fun th => (th.prog.next, th.held)) =
      some [(some (.cache ⟨.groupMember, 1⟩ .other .other), [])] := rfl
  cases hr : Machine.steps Proxy.step (Proxy.start (fun _ => 2) 1) addTwo with
  | none =>
    rw [hr] at hsteps
    cases hsteps
  | some r =>
    rw [hr] at hsteps
    obtain ⟨th, hthreads, hth⟩ := List.map_eq_singleton_iff.mp (Option.some.inj hsteps)
    obtain ⟨hnext, hheld⟩ := Prod.mk.inj hth
    have howned := h _ _ (Machine.Run.of_steps (fun _ _ => trivial) .start hr)
    have hmem := howned.holder th (by rw [hthreads]; exact List.mem_cons_self) _ ⟨.groupMember, 1⟩ hnext rfl
    rw [hheld] at hmem
    cases hmem

end TeamTalk.DbProxy
