import TeamTalk.DbProxy.Actions

/-!
# What handlers hold

Which connections a handler holds, from its calls and their answers; and the monitor that every handler and the thread of
`CSyncCenter` is safe for. The monitor notes the answers after which the code goes wrong: a null pointer that is not looked at,
`removeRepeatUser` without a user or with more than one, and the second use of the connection in `clearMessageCount`.
-/

namespace TeamTalk.DbProxy

open Prog

/-- A connection that is held, and the call that obtained it. -/
structure Held where
  conn : Conn
  site : Site
  deriving DecidableEq, Repr

/-- What is held after a call: a connection is held from the call that obtains it until it is given back. -/
def heldNext (held : List Held) : (o : Op) → o.Reply → List Held
  | .getConn pool site, some id => ⟨⟨pool, id⟩, site⟩ :: held
  | .relConn conn, _ => held.eraseP (·.conn = conn)
  | _, _ => held

/-- The connection that a call is made on. -/
def Op.on : Op → Option Conn
  | .relConn conn => some conn
  | .executeQuery conn _ _ => some conn
  | .executeUpdate conn _ => some conn
  | .cache conn _ _ => some conn
  | _ => none

/-- Calls that hold a connection while another of the same pool is asked for. -/
def Site.outer : Site → Bool
  | .getRecentSession => true
  | .sendGroupMessage => true
  | _ => false

/-! ## The answers after which the code goes wrong -/

/-- A null pointer that is not looked at. -/
def nullUnseen : (o : Op) → o.Reply → Bool
  | .executeQuery _ .judgment _, none => true
  | .getConn _ .hasOfflineFile, none => true
  | .getConn _ .doSyncGroupChat, none => true
  | _, _ => false

/-- `removeRepeatUser` without a user: its connection is never given back. -/
def neverGivenBack : (o : Op) → o.Reply → Bool
  | .getConn _ (.removeRepeatUser 0), some _ => true
  | _, _ => false

/-- A connection that will be used when it has been given back. -/
def usedAgain : (o : Op) → o.Reply → Bool
  | .getConn _ (.removeRepeatUser (_ + 2)), some _ => true
  | .cache _ .clearMessageCount .hgetAll, some _ => true
  | _, _ => false

/-! ## The monitor -/

/-- What is watched of a handler. -/
structure Watch where
  held : List Held
  null : Bool
  leak : Bool
  reuse : Bool

namespace Watch

/-- At the start of a handler. -/
def start : Watch := ⟨[], false, false, false⟩

/-- After a call. -/
def next (s : Watch) (o : Op) (r : o.Reply) : Watch :=
  { held := heldNext s.held o r
    null := s.null || nullUnseen o r
    leak := s.leak || neverGivenBack o r
    reuse := s.reuse || usedAgain o r }

/-- No connection of the pool is held, unless it is one that helpers ask beside. -/
def Fits (held : List Held) (pool : Pool) (site : Site) : Prop :=
  ∀ h ∈ held, h.conn.pool = pool → h.site.outer = true ∧ site = .other

/-- The calls that a handler may make. -/
def allows (s : Watch) : Op → Prop
  | .getConn pool site => s.leak = true ∨ Fits s.held pool site
  | .nullCall => s.null = true
  | o => s.reuse = true ∨ ∀ c, o.on = some c → c ∈ s.held.map Held.conn

end Watch

/-- The monitor of the handlers. -/
abbrev monitor : Monitor calls := { State := Watch, next := Watch.next, allows := Watch.allows }

/-! ## What a function keeps -/

/-- The calls of `GetDBConn` and `GetCacheConn` that a function may make. -/
abbrev Gets := Pool → Site → Prop

/-- The connections are held, and the others can be asked for. -/
structure Ready (gets : Gets) (cs : List Conn) (s : Watch) : Prop where
  held : ∀ c ∈ cs, c ∈ s.held.map Held.conn
  gets : ∀ pool site, gets pool site → s.leak = true ∨ Watch.Fits s.held pool site

/-- The same connections are held, and all is as well as before. -/
structure Back (s s' : Watch) : Prop where
  held : s'.held = s.held
  leak : s'.leak = s.leak
  null : s'.null = s.null

/-- What is held is given back. -/
def Keeps {α : Type} (gets : Gets) (cs : List Conn) (p : Handler α) : Prop :=
  ∀ s, Ready gets cs s → Safe monitor s p fun _ s' => Back s s'

variable {α β : Type} {gets : Gets} {cs : List Conn}

theorem Back.refl (s : Watch) : Back s s := ⟨rfl, rfl, rfl⟩

theorem Back.trans {s s' s'' : Watch} (h : Back s s') (h' : Back s' s'') : Back s s'' :=
  ⟨h'.held.trans h.held, h'.leak.trans h.leak, h'.null.trans h.null⟩

/-- What a function finds ready is ready when others have given back what they held. -/
theorem Ready.back {s s' : Watch} (hs : Ready gets cs s) (h : Back s s') : Ready gets cs s' := by
  refine ⟨?_, ?_⟩
  · rw [h.held]
    exact hs.held
  · rw [h.held, h.leak]
    exact hs.gets

/-! ## Rules -/

theorem keeps_pure {a : α} : Keeps gets cs (pure a) := fun s _ => safe_pure (Back.refl s)

theorem Keeps.bind {p : Handler α} {f : α → Handler β} (hp : Keeps gets cs p) (hf : ∀ a, Keeps gets cs (f a)) :
    Keeps gets cs (p >>= f) := by
  intro s hs
  refine (hp s hs).bind fun a s' hback => ?_
  exact (hf a s' (Ready.back hs hback)).mono fun _ _ hback' => Back.trans hback hback'

theorem Keeps.map {p : Handler α} {f : α → β} (hp : Keeps gets cs p) : Keeps gets cs (f <$> p) := hp.bind fun _ => keeps_pure

theorem keeps_when {c : Prop} [Decidable c] {p : Handler Unit} (hp : Keeps gets cs p) : Keeps gets cs (when c p) := by
  unfold when
  split
  · exact hp
  · exact keeps_pure

theorem keeps_times {p : Handler Unit} (hp : Keeps gets cs p) (n : Nat) : Keeps gets cs (times n p) := by
  intro s hs
  refine safe_times (M := monitor) (s := s) (I := fun s' => Back s s') ?_ (Back.refl s) n
  intro s' hback
  exact (hp s' (Ready.back hs hback)).mono fun _ _ hback' => Back.trans hback hback'

theorem keeps_count {p : Handler Bool} (hp : Keeps gets cs p) (n : Nat) : Keeps gets cs (count n p) := by
  intro s hs
  refine safe_count (M := monitor) (s := s) (I := fun s' => Back s s') ?_ (Back.refl s) n
  intro s' hback
  exact (hp s' (Ready.back hs hback)).mono fun _ _ hback' => Back.trans hback hback'

/-- One call that neither obtains nor gives back. -/
theorem keeps_request {o : Op} (hallows : ∀ s, Ready gets cs s → s.allows o) (hnext : ∀ s r, Back s (Watch.next s o r)) :
    Keeps gets cs (request o) := fun s hs => safe_ask (hallows s hs) fun r => hnext s r

theorem keeps_query {c : Conn} {q : Query} : Keeps gets (c :: cs) (executeQuery c q) := by
  refine keeps_request ?_ ?_
  · intro s hs
    refine Or.inr fun c' hc' => ?_
    obtain rfl := Option.some.inj hc'
    exact hs.held _ List.mem_cons_self
  · intro s r
    exact ⟨rfl, Bool.or_false _, Bool.or_false _⟩

theorem keeps_update {c : Conn} {u : Update} (hc : c ∈ cs) : Keeps gets cs (executeUpdate c u) := by
  refine keeps_request ?_ ?_
  · intro s hs
    refine Or.inr fun c' hc' => ?_
    obtain rfl := Option.some.inj hc'
    exact hs.held _ hc
  · intro s r
    exact ⟨rfl, Bool.or_false _, Bool.or_false _⟩

theorem keeps_command {c : Conn} {cmd : Command} : Keeps gets (c :: cs) (command c cmd) := by
  refine keeps_request ?_ ?_
  · intro s hs
    refine Or.inr fun c' hc' => ?_
    obtain rfl := Option.some.inj hc'
    exact hs.held _ List.mem_cons_self
  · intro s r
    exact ⟨rfl, Bool.or_false _, Bool.or_false _⟩

theorem keeps_upload {data : Bytes} : Keeps gets cs (uploadByteFile data) :=
  keeps_request (fun _ _ => Or.inr (fun _ h => by cases h)) fun _ _ => ⟨rfl, Bool.or_false _, Bool.or_false _⟩

theorem keeps_time : Keeps gets cs time :=
  keeps_request (fun _ _ => Or.inr (fun _ h => by cases h)) fun _ _ => ⟨rfl, Bool.or_false _, Bool.or_false _⟩

theorem keeps_pick : Keeps gets cs pick :=
  keeps_request (fun _ _ => Or.inr (fun _ h => by cases h)) fun _ _ => ⟨rfl, Bool.or_false _, Bool.or_false _⟩

theorem keeps_decides : Keeps gets cs decides := keeps_pick.bind fun _ => keeps_pure

/-! ## Connections -/

/-- Calls that obtain a connection and compare it with `NULL`, and give it back once. -/
def plain : Site → Bool
  | .getRecentSession => true
  | .sendGroupMessage => true
  | .other => true
  | _ => false

/-- What can be asked for while a connection is held. -/
def Beside (gets : Gets) (pool : Pool) (site : Site) : Gets := fun pool' site' =>
  gets pool' site' ∧ (pool' ≠ pool ∨ site.outer = true ∧ site' = .other)

theorem safe_getConn {pool : Pool} {site : Site} {s : Watch} {Q : Option Conn → Watch → Prop}
    (hallows : s.allows (.getConn pool site)) (hnone : Q none (s.next (.getConn pool site) none))
    (hsome : ∀ id, Q (some ⟨pool, id⟩) (s.next (.getConn pool site) (some id))) :
    Safe monitor s (getConn pool site) Q := by
  refine ⟨hallows, fun r => ?_⟩
  cases r with
  | none => exact hnone
  | some id => exact hsome id

/-- A new connection is held, and what can be asked for beside it is ready. -/
theorem Ready.beside {pool : Pool} {site : Site} {s s' : Watch} {id : Nat} (hs : Ready gets cs s)
    (hheld : s'.held = ⟨⟨pool, id⟩, site⟩ :: s.held) (hleak : s'.leak = s.leak) :
    Ready (Beside gets pool site) (⟨pool, id⟩ :: cs) s' := by
  refine ⟨?_, ?_⟩
  · intro c hc
    rw [hheld]
    rcases List.mem_cons.mp hc with rfl | hc
    · exact List.mem_cons_self
    · exact List.mem_cons_of_mem _ (hs.held c hc)
  · intro pool' site' hgets
    rcases hs.gets pool' site' hgets.1 with hl | hfits
    · exact Or.inl (hleak.trans hl)
    · refine Or.inr fun h hh hpool => ?_
      rw [hheld] at hh
      rcases List.mem_cons.mp hh with rfl | hh
      · rcases hgets.2 with hne | houter
        · exact absurd hpool.symm hne
        · exact houter
      · exact hfits h hh hpool

/-- A function that gives back what it holds can be run with a connection in hand. -/
theorem keeps_withConn {pool : Pool} {site : Site} {dflt : α} {body : Conn → Handler α} (hgets : gets pool site)
    (hplain : plain site = true) (hbody : ∀ c, Keeps (Beside gets pool site) (c :: cs) (body c)) :
    Keeps gets cs (withConn pool site dflt body) := by
  intro s hs
  have hnull : ∀ r, nullUnseen (.getConn pool site) r = false := by
    intro r
    cases site <;> cases r <;> first | rfl | cases hplain
  have hleak : ∀ r, neverGivenBack (.getConn pool site) r = false := by
    intro r
    cases site <;> cases r <;> first | rfl | cases hplain
  refine Safe.bind (safe_getConn (Q := fun c s' => c.elim (Back s s') fun c =>
    s'.held = ⟨c, site⟩ :: s.held ∧ s'.leak = s.leak ∧ s'.null = s.null ∧ c.pool = pool)
    (hs.gets pool site hgets) ?_ ?_) ?_
  · refine ⟨rfl, ?_, ?_⟩
    · simp only [Watch.next, hleak, Bool.or_false]
    · simp only [Watch.next, hnull, Bool.or_false]
  · intro id
    refine ⟨rfl, ?_, ?_, rfl⟩
    · simp only [Watch.next, hleak, Bool.or_false]
    · simp only [Watch.next, hnull, Bool.or_false]
  · intro c s1 h1
    cases c with
    | none => exact safe_pure h1
    | some c =>
      obtain ⟨hheld, hleak1, hnull1, rfl⟩ := h1
      refine Safe.bind (hbody c s1 (Ready.beside hs hheld hleak1)) fun a s2 h2 => ?_
      have hmem : c ∈ s2.held.map Held.conn := by
        rw [h2.held, hheld]
        exact List.mem_cons_self
      refine Safe.bind (Q := fun _ s3 => Back s s3) (safe_ask ?_ fun r => ?_) fun _ s3 h3 => safe_pure h3
      · refine Or.inr fun c' hc' => ?_
        obtain rfl := Option.some.inj hc'
        exact hmem
      · refine ⟨?_, ?_, ?_⟩
        · change s2.held.eraseP _ = _
          rw [h2.held, hheld]
          exact List.eraseP_cons_of_pos (decide_eq_true rfl)
        · change (s2.leak || false) = _
          rw [Bool.or_false, h2.leak, hleak1]
        · change (s2.null || false) = _
          rw [Bool.or_false, h2.null, hnull1]

theorem keeps_select {pool : Pool} (hgets : gets pool .other) : Keeps gets cs (select pool) :=
  keeps_withConn hgets rfl fun _ => keeps_query.bind fun _ => keeps_pure

theorem keeps_change {pool : Pool} {u : Update} (hgets : gets pool .other) : Keeps gets cs (change pool u) :=
  keeps_withConn hgets rfl fun _ => (keeps_update List.mem_cons_self).bind fun _ => keeps_pure

end TeamTalk.DbProxy
