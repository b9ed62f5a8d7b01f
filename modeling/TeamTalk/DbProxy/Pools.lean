import Mathlib
import TeamTalk.DbProxy.Returns
import TeamTalk.Lib.Machine

/-!
# Worker threads over the connection pools

`CDBPool` and `CachePool` have the same methods, and one model. The threads run handlers one after the other, and take turns in any
order between their calls. Besides its program, the connections stand with a thread that it has obtained and not given back.
-/

namespace TeamTalk.DbProxy

open Prog Actions

/-- `MIN_DB_CONN_CNT` and `MIN_CACHE_CONN_CNT`. -/
def minConnCnt : Nat := 2

/-- A pool: its connections are numbered in the order in which they are made. -/
structure ConnPool where
  freeList : List Nat
  curConnCnt : Nat
  maxConnCnt : Nat
  deriving Repr

namespace ConnPool

/-- `Init`. -/
def init (maxConnCnt : Nat) : ConnPool := ⟨List.range minConnCnt, minConnCnt, maxConnCnt⟩

/-- `GetDBConn` and `GetCacheConn`: the pool after an answer, if it can come. With no free connection, and no more allowed, the
thread waits. -/
def get (p : ConnPool) (answer : Option Nat) : Option ConnPool :=
  match p.freeList with
  | id :: rest => if answer = some id then some { p with freeList := rest } else none
  | [] =>
    if p.maxConnCnt ≤ p.curConnCnt then none
    else
      match answer with
      | some id => if id = p.curConnCnt then some { p with curConnCnt := p.curConnCnt + 1 } else none
      -- the new connection cannot be made
      | none => some p

/-- `RelDBConn` and `RelCacheConn`. -/
def rel (p : ConnPool) (id : Nat) : ConnPool :=
  if id ∈ p.freeList then p else { p with freeList := p.freeList ++ [id] }

end ConnPool

/-- A worker thread, or the thread of `CSyncCenter`: what is left to run, and what it holds. -/
structure Thread where
  prog : Handler Unit
  held : List Held

namespace Thread

/-- A thread with nothing to do. -/
def idle : Thread := ⟨pure (), []⟩

/-- The handler is finished. -/
def ended (th : Thread) : Bool := th.prog.result.isSome

/-- The next call asks for a connection of the pool. -/
def asksFor (th : Thread) (pool : Pool) : Bool :=
  match th.prog.next with
  | some (.getConn pool' _) => pool' = pool
  | _ => false

end Thread

/-- The process. -/
structure Proxy where
  pools : Pool → ConnPool
  threads : List Thread

/-- A thread starts with a job, or gets an answer to its next call. -/
inductive Event where
  | run (t : Nat) (job : Job)
  | answer (t : Nat) (o : Op) (r : o.Reply)

namespace Proxy

/-- At the start: so many threads, and the pools with their maximum. -/
def start (maxConnCnt : Pool → Nat) (threads : Nat) : Proxy :=
  ⟨fun pool => .init (maxConnCnt pool), List.replicate threads .idle⟩

/-- The pools after a call, if they can give this answer. -/
def serve (pools : Pool → ConnPool) : (o : Op) → o.Reply → Option (Pool → ConnPool)
  | .getConn pool _, r =>
    match (pools pool).get r with
    | some p => some fun pool' => if pool' = pool then p else pools pool'
    | none => none
  | .relConn conn, _ => some fun pool => if pool = conn.pool then (pools pool).rel conn.id else pools pool
  | _, _ => some pools

/-- One step. -/
def step (s : Proxy) : Event → Option (Proxy × List Unit)
  | .run t job =>
    match s.threads[t]? with
    | some th => if th.ended then some ({ s with threads := s.threads.set t ⟨job.program, th.held⟩ }, []) else none
    | none => none
  | .answer t o r =>
    match s.threads[t]? with
    | some th =>
      match th.prog.give o r, serve s.pools o r with
      | some prog, some pools => some (⟨pools, s.threads.set t ⟨prog, heldNext th.held o r⟩⟩, [])
      | _, _ => none
    | none => none

/-- The numbers of the connections of a pool among those that are held. -/
def idsOf (pool : Pool) (held : List Held) : List Nat :=
  held.filterMap fun h => if h.conn.pool = pool then some h.conn.id else none

/-- The connections of a pool that are held by any thread. -/
def heldIds (s : Proxy) (pool : Pool) : List Nat := s.threads.flatMap fun th => idsOf pool th.held

/-- How many connections of a pool are held while another one may be asked for. -/
def outerHeld (s : Proxy) (pool : Pool) : Nat :=
  (s.threads.flatMap fun th => idsOf pool (th.held.filter (·.site.outer))).length


/-- What a step can do. -/
theorem step_cases {s s' : Proxy} {e : Event} {out : List Unit} (h : s.step e = some (s', out)) :
    (∃ t job th l₁ l₂, e = .run t job ∧ th.ended = true ∧ s.threads = l₁ ++ th :: l₂ ∧
      s' = ⟨s.pools, l₁ ++ ⟨job.program, th.held⟩ :: l₂⟩) ∨
    (∃ t o r th k pools l₁ l₂, e = .answer t o r ∧ th.prog = .call o k ∧ serve s.pools o r = some pools ∧
      s.threads = l₁ ++ th :: l₂ ∧ s' = ⟨pools, l₁ ++ ⟨k r, heldNext th.held o r⟩ :: l₂⟩) := by
  have hsplit : ∀ {t : Nat} {th : Thread}, s.threads[t]? = some th → ∀ th',
      ∃ l₁ l₂, s.threads = l₁ ++ th :: l₂ ∧ s.threads.set t th' = l₁ ++ th' :: l₂ := by
    intro t th hth th'
    obtain ⟨hlt, rfl⟩ := List.getElem?_eq_some_iff.mp hth
    refine ⟨s.threads.take t, s.threads.drop (t + 1), ?_, List.set_eq_take_append_cons_drop.trans (if_pos hlt)⟩
    rw [← List.drop_eq_getElem_cons hlt, List.take_append_drop]
  cases e with
  | run t job =>
    rw [step] at h
    split at h
    · rename_i th hth
      split at h
      · rename_i hended
        obtain ⟨rfl, -⟩ := Prod.mk.inj (Option.some.inj h)
        obtain ⟨l₁, l₂, hthreads, hset⟩ := hsplit hth ⟨job.program, th.held⟩
        exact Or.inl ⟨t, job, th, l₁, l₂, rfl, hended, hthreads, by rw [hset]⟩
      · cases h
    · cases h
  | answer t o r =>
    rw [step] at h
    split at h
    · rename_i th hth
      split at h
      · rename_i prog pools hgive hserve
        obtain ⟨rfl, -⟩ := Prod.mk.inj (Option.some.inj h)
        obtain ⟨k, hprog, rfl⟩ := give_eq_some hgive
        obtain ⟨l₁, l₂, hthreads, hset⟩ := hsplit hth ⟨k r, heldNext th.held o r⟩
        exact Or.inr ⟨t, o, r, th, k, pools, l₁, l₂, rfl, hprog, hserve, hthreads, by rw [hset]⟩
      · cases h
    · cases h

end Proxy

/-! ## Threads -/

/-- A thread goes on safely, and has no connection that is never given back; `once` asks that none is used again either. -/
def GoesOn (once : Prop) (th : Thread) : Prop :=
  ∃ w : Watch, w.held = th.held ∧ w.leak = false ∧ (once → w.reuse = false) ∧ Safe monitor w th.prog fun _ s => Left s

theorem goesOn_idle (once : Prop) : GoesOn once .idle :=
  ⟨Watch.start, rfl, rfl, fun _ => rfl, safe_pure ⟨by simp [Watch.start], rfl⟩⟩

/-- A thread that has finished holds nothing. -/
theorem GoesOn.ended {once : Prop} {th : Thread} (h : GoesOn once th) (hended : th.ended = true) : th.held = [] := by
  obtain ⟨w, hheld, hleak, -, hsafe⟩ := h
  unfold Thread.ended at hended
  cases hprog : th.prog with
  | done a =>
    rw [hprog] at hsafe
    rw [← hheld]
    exact hsafe.held.mpr hleak
  | call o k =>
    rw [hprog] at hended
    cases hended

/-- What is called on is held. -/
theorem GoesOn.holder {once : Prop} {th : Thread} (h : GoesOn once th) (honce : once) {o : Op} {conn : Conn}
    (hnext : th.prog.next = some o) (hon : o.on = some conn) : conn ∈ th.held.map Held.conn := by
  obtain ⟨w, hheld, -, hreuse, hsafe⟩ := h
  have hreuse := hreuse honce
  cases hprog : th.prog with
  | done a =>
    rw [hprog] at hnext
    cases hnext
  | call o' k =>
    rw [hprog] at hnext hsafe
    obtain rfl := Option.some.inj hnext
    have hallows : w.allows o' := hsafe.1
    rw [← hheld]
    cases o' with
    | relConn c => exact hallows.resolve_left (by rw [hreuse]; decide) conn hon
    | executeQuery c site q => exact hallows.resolve_left (by rw [hreuse]; decide) conn hon
    | executeUpdate c u => exact hallows.resolve_left (by rw [hreuse]; decide) conn hon
    | cache c site cmd => exact hallows.resolve_left (by rw [hreuse]; decide) conn hon
    | _ => cases hon

/-- After an answer that does not lead astray. -/
theorem GoesOn.answer {once : Prop} {th : Thread} (h : GoesOn once th) {o : Op} {k : o.Reply → Handler Unit}
    (hprog : th.prog = .call o k)
    {r : o.Reply} (hused : once → usedAgain o r = false) (hleft : neverGivenBack o r = false) :
    GoesOn once ⟨k r, heldNext th.held o r⟩ := by
  obtain ⟨w, hheld, hleak, hreuse, hsafe⟩ := h
  rw [hprog] at hsafe
  refine ⟨w.next o r, by rw [← hheld]; rfl, ?_, fun honce => ?_, hsafe.2 r⟩
  · simp only [Watch.next, hleak, hleft, Bool.or_self]
  · simp only [Watch.next, hreuse honce, hused honce, Bool.or_self]

/-- A connection is asked for only beside those of other pools, or beside one that helpers ask beside. -/
theorem GoesOn.fits {once : Prop} {th : Thread} (h : GoesOn once th) {pool : Pool} (hasks : th.asksFor pool = true) :
    ∀ h ∈ th.held, h.conn.pool = pool → h.site.outer = true := by
  obtain ⟨w, hheld, hleak, -, hsafe⟩ := h
  intro h hh hpool
  unfold Thread.asksFor at hasks
  cases hprog : th.prog with
  | done a =>
    rw [hprog] at hasks
    cases hasks
  | call o k =>
    rw [hprog] at hasks hsafe
    dsimp only [Prog.next] at hasks
    split at hasks
    · rename_i pool' site heq
      obtain rfl := Option.some.inj heq
      obtain rfl := of_decide_eq_true hasks
      have hallows : w.leak = true ∨ Watch.Fits w.held pool' site := hsafe.1
      rw [hheld, hleak] at hallows
      exact (hallows.resolve_left (by decide) h hh hpool).1
    · cases hasks

end TeamTalk.DbProxy
