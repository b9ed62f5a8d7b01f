import TeamTalk.LoginServer.Conns

/-!
# Connections of login_server in their maps

A msg_server's connection is in its map as long as it is open. A client's is never entered, so nothing that comes from it is looked at,
and it does not time out.
-/

namespace TeamTalk.LoginServer.Conns

open Std (TreeMap)

/-! ## The property -/

/-- Every connection that is open is in the map of its kind, to which the callback of its socket refers; every entry is a connection
that is open; and no freed connection has been used. -/
structure Registered (s : State) : Prop where
  defined : s.undefinedBehaviour = false
  opened : ∀ c conn t, s.conns c = some conn → s.sockets conn.handle = some t →
    t = conn.connType ∧ (s.connMap conn.connType)[conn.handle]? = some c
  entries : ∀ t (h : Handle) (c : Nat), (s.connMap t)[h]? = some c →
    ∃ conn, s.conns c = some conn ∧ conn.handle = h ∧ conn.connType = t ∧ s.sockets h = some t

/-! ## The condition -/

/-- The PDUs of a read that close the connection. -/
def closings (pdus : List Pdu) (bad : Bool) : Nat := pdus.countP (fun pdu => pdu = .reqMsgServer) + if bad = true then 1 else 0

/-- The condition on a step: the socket that is accepted is a msg_server's, and a read closes the connection once at most. -/
def Meets : Event → Prop
  | .accept _ connType _ => connType = .msgServ
  | .read _ _ pdus bad => closings pdus bad ≤ 1
  | _ => True

namespace LoginConnsAux

variable {s : State} {c tick : Nat} {h : Handle} {t : ConnType} {conn conn' : LoginConn} {pdu : Pdu} {pdus : List Pdu} {bad : Bool}

/-! ## The invariant -/

/-- The property; the connections that are not freed are those of the open sockets, and have one reference. -/
structure Inv (s : State) : Prop where
  registered : Registered s
  single : ∀ c conn, s.conns c = some conn → conn.refCount = 1 ∧ s.sockets conn.handle ≠ none
  fresh : ∀ c conn, s.conns c = some conn → c < s.nextConn
  owned : ∀ h t, s.sockets h = some t → ∃ c conn, s.conns c = some conn ∧ conn.handle = h

/-- The invariant holds when the server starts. -/
theorem inv_init : Inv State.init := by
  refine ⟨⟨rfl, ?_, ?_⟩, ?_, ?_, ?_⟩
  · intro c conn t hc
    cases hc
  · intro t h c hmap
    simp [State.init] at hmap
  · intro c conn hc
    cases hc
  · intro c conn hc
    cases hc
  · intro h t hsocket
    cases hsocket

/-- An open socket leads to its connection. -/
theorem find_of_inv (hinv : Inv s) (hsocket : s.sockets h = some t) :
    ∃ c conn, s.find h t = some (c, conn) ∧ s.conns c = some conn ∧ conn.handle = h ∧ conn.connType = t ∧ conn.refCount = 1 ∧
      (s.connMap t)[h]? = some c := by
  obtain ⟨c, conn, hc, rfl⟩ := hinv.owned h t hsocket
  obtain ⟨rfl, hmap⟩ := hinv.registered.opened c conn t hc hsocket
  refine ⟨c, conn, ?_, hc, rfl, rfl, (hinv.single c conn hc).1, hmap⟩
  unfold State.find
  rw [hmap]
  simp only [hc, Option.map_some]

/-! ## Accepting -/

/-- It is kept by a new connection. -/
theorem inv_accept (hinv : Inv s) (hnew : s.sockets h = none) : Inv (s.onConnect2 h .msgServ tick) := by
  have hne : ∀ {c conn}, s.conns c = some conn → c ≠ s.nextConn := fun hc => (hinv.fresh _ _ hc).ne
  have hhandle : ∀ {c conn}, s.conns c = some conn → conn.handle ≠ h := by
    intro c conn hc heq
    exact (hinv.single c conn hc).2 (heq ▸ hnew)
  have hconns : ∀ c, (s.onConnect2 h .msgServ tick).conns c =
      if c = s.nextConn then some { handle := h, connType := .msgServ, refCount := 1, lastRecvTick := tick } else s.conns c :=
    fun c => rfl
  have hsockets : ∀ h', (s.onConnect2 h .msgServ tick).sockets h' = if h' = h then some .msgServ else s.sockets h' := fun h' => rfl
  have hmap : ∀ t (h' : Handle), ((s.onConnect2 h .msgServ tick).connMap t)[h']? =
      if t = .msgServ ∧ h' = h then some s.nextConn else (s.connMap t)[h']? := by
    intro t h'
    have hunmapped : (s.connMap .msgServ)[h]? = none := by
      cases hm : (s.connMap .msgServ)[h]? with
      | none => rfl
      | some c =>
        obtain ⟨conn, -, -, -, hsocket⟩ := hinv.registered.entries .msgServ h c hm
        rw [hnew] at hsocket
        cases hsocket
    cases t with
    | client => rfl
    | msgServ =>
      refine (TreeMap.getElem?_insertIfNew (t := s.connMap .msgServ) (k := h) (a := h') (v := s.nextConn)).trans ?_
      by_cases heq : h' = h
      · subst heq
        simp [TreeMap.mem_iff_isSome_getElem?, hunmapped]
      · simp [heq, Ne.symm heq]
  refine ⟨⟨hinv.registered.defined, fun c conn t hc hsocket => ?_, fun t h' c hentry => ?_⟩, fun c conn hc => ?_, fun c conn hc => ?_,
    fun h' t hsocket => ?_⟩
  · rw [hconns] at hc
    rw [hsockets] at hsocket
    split at hc
    next heq =>
      cases hc
      rw [if_pos rfl] at hsocket
      cases hsocket
      refine ⟨rfl, ?_⟩
      rw [hmap, if_pos ⟨rfl, rfl⟩, heq]
    next =>
      rw [if_neg (hhandle hc)] at hsocket
      obtain ⟨rfl, hentry⟩ := hinv.registered.opened c conn t hc hsocket
      refine ⟨rfl, ?_⟩
      rw [hmap, if_neg fun heq => hhandle hc heq.2]
      exact hentry
  · rw [hmap] at hentry
    split at hentry
    next heq =>
      obtain ⟨rfl, rfl⟩ := heq
      cases hentry
      refine ⟨_, (hconns _).trans (if_pos rfl), rfl, rfl, ?_⟩
      rw [hsockets, if_pos rfl]
    next =>
      obtain ⟨conn, hc, rfl, rfl, hsocket⟩ := hinv.registered.entries t h' c hentry
      refine ⟨conn, (hconns c).trans ((if_neg (hne hc)).trans hc), rfl, rfl, ?_⟩
      rw [hsockets, if_neg (hhandle hc), hsocket]
  · rw [hconns] at hc
    rw [hsockets]
    split at hc
    next =>
      cases hc
      simp
    next =>
      rw [if_neg (hhandle hc)]
      exact hinv.single c conn hc
  · rw [hconns] at hc
    split at hc
    next heq => exact heq ▸ Nat.lt_succ_self s.nextConn
    next => exact (hinv.fresh c conn hc).trans (Nat.lt_succ_self s.nextConn)
  · rw [hsockets] at hsocket
    split at hsocket
    next heq => exact ⟨s.nextConn, _, (hconns _).trans (if_pos rfl), heq.symm⟩
    next =>
      obtain ⟨c, conn, hc, rfl⟩ := hinv.owned h' t hsocket
      exact ⟨c, conn, (hconns c).trans ((if_neg (hne hc)).trans hc), rfl⟩

/-- A client's connection is open, and in no map. -/
theorem not_registered_accept (hinv : Inv s) (hnew : s.sockets h = none) : ¬Registered (s.onConnect2 h .client tick) := by
  intro hregistered
  have hnext : (s.onConnect2 h .client tick).conns s.nextConn =
      some { handle := h, connType := .client, refCount := 1, lastRecvTick := tick } := if_pos rfl
  have hsocket : (s.onConnect2 h .client tick).sockets h = some .client := if_pos rfl
  have hentry : (s.connMap .client)[h]? = some s.nextConn := (hregistered.opened _ _ _ hnext hsocket).2
  obtain ⟨conn, -, -, -, hopen⟩ := hinv.registered.entries .client h _ hentry
  rw [hnew] at hopen
  cases hopen

/-! ## Closing -/

/-- A connection is closed and freed. -/
def removed (s : State) (c : Nat) (conn : LoginConn) : State := (s.unregister conn).setConn c none

/-- A stored connection is found. -/
theorem setConn_self (s : State) (c : Nat) (conn : Option LoginConn) : (s.setConn c conn).conns c = conn := if_pos rfl

/-- The later of two stores counts. -/
theorem setConn_setConn (s : State) (c : Nat) (conn conn' : Option LoginConn) :
    (s.setConn c conn).setConn c conn' = s.setConn c conn' := by
  unfold State.setConn
  simp only [State.mk.injEq, true_and, and_true]
  funext c'
  by_cases heq : c' = c
  · simp [heq]
  · simp [heq]

/-- A reference given back while others are left. -/
theorem releaseRef_eq {n : Nat} (hc : s.conns c = some conn) (hn : conn.refCount = n + 2) :
    s.releaseRef c = s.setConn c (some { conn with refCount := n + 1 }) := by
  unfold State.releaseRef
  rw [hc]
  simp [hn]

/-- And the last one, which deletes the connection. -/
theorem releaseRef_last (hc : s.conns c = some conn) (hn : conn.refCount = 1) : s.releaseRef c = s.setConn c none := by
  unfold State.releaseRef
  rw [hc]
  simp [hn]

/-- `Close` of a connection with one reference. -/
theorem close_last (hc : s.conns c = some conn) (hn : conn.refCount = 1) : s.close c = removed s c conn := by
  unfold State.close
  simp only [hc]
  exact releaseRef_last hc hn

/-- `Close` while the connection is kept by its caller. -/
theorem close_kept (hc : s.conns c = some conn) (hn : conn.refCount = 2) :
    s.close c = (removed s c conn).setConn c (some { conn with refCount := 1 }) := by
  unfold State.close
  simp only [hc]
  refine (releaseRef_eq (s := s.unregister conn) (n := 0) hc hn).trans ?_
  exact (setConn_setConn _ c none _).symm

/-- A removed connection is out of its own map only. -/
theorem removed_connMap (s : State) (c : Nat) (conn : LoginConn) (t : ConnType) (h : Handle) :
    ((removed s c conn).connMap t)[h]? = if t = conn.connType ∧ h = conn.handle then none else (s.connMap t)[h]? := by
  unfold removed State.unregister State.setConn
  by_cases ht : t = conn.connType
  · subst ht
    simp [TreeMap.getElem?_erase, eq_comm (a := h)]
  · simp [ht]

/-- And the invariant is kept. -/
theorem inv_removed (hinv : Inv s) (hc : s.conns c = some conn) : Inv (removed s c conn) := by
  have hconns : ∀ c', (removed s c conn).conns c' = if c' = c then none else s.conns c' := fun c' => rfl
  have hsockets : ∀ h', (removed s c conn).sockets h' = if h' = conn.handle then none else s.sockets h' := fun h' => rfl
  have hother : ∀ {c' conn'}, s.conns c' = some conn' → c' ≠ c → conn'.handle ≠ conn.handle := by
    -- the socket leads to one connection
    intro c' conn' hc' hne heq
    obtain ⟨t, hsocket⟩ := Option.ne_none_iff_exists'.1 (hinv.single c conn hc).2
    obtain ⟨ht, hentry⟩ := hinv.registered.opened c conn t hc hsocket
    obtain ⟨ht', hentry'⟩ := hinv.registered.opened c' conn' t hc' (heq ▸ hsocket)
    rw [← ht', heq, ht, hentry] at hentry'
    exact hne (Option.some.inj hentry').symm
  have hold : ∀ {c' conn'}, (removed s c conn).conns c' = some conn' → s.conns c' = some conn' ∧ c' ≠ c := by
    intro c' conn' hc'
    rw [hconns] at hc'
    split at hc'
    · cases hc'
    next hne => exact ⟨hc', hne⟩
  refine ⟨⟨hinv.registered.defined, fun c' conn' t hc' hsocket => ?_, fun t h' c' hentry => ?_⟩, fun c' conn' hc' => ?_,
    fun c' conn' hc' => ?_, fun h' t hsocket => ?_⟩
  · obtain ⟨hc', hne⟩ := hold hc'
    rw [hsockets, if_neg (hother hc' hne)] at hsocket
    rw [removed_connMap, if_neg fun heq => hother hc' hne heq.2]
    exact hinv.registered.opened c' conn' t hc' hsocket
  · rw [removed_connMap] at hentry
    split at hentry
    · cases hentry
    next hkey =>
      obtain ⟨conn', hc', rfl, rfl, hsocket⟩ := hinv.registered.entries t h' c' hentry
      have hne : c' ≠ c := by
        rintro rfl
        rw [hc] at hc'
        cases hc'
        exact hkey ⟨rfl, rfl⟩
      refine ⟨conn', (hconns c').trans ((if_neg hne).trans hc'), rfl, rfl, ?_⟩
      rw [hsockets, if_neg (hother hc' hne), hsocket]
  · obtain ⟨hc', hne⟩ := hold hc'
    rw [hsockets, if_neg (hother hc' hne)]
    exact hinv.single c' conn' hc'
  · exact hinv.fresh c' conn' (hold hc').1
  · rw [hsockets] at hsocket
    split at hsocket
    · cases hsocket
    next hne =>
      obtain ⟨c', conn', hc', rfl⟩ := hinv.owned h' t hsocket
      have hne' : c' ≠ c := by
        rintro rfl
        rw [hc] at hc'
        cases hc'
        exact hne rfl
      exact ⟨c', conn', (hconns c').trans ((if_neg hne').trans hc'), rfl⟩

/-- A connection gets a new tick. -/
theorem inv_setTick (hinv : Inv s) (hc : s.conns c = some conn) : Inv (s.setConn c (some { conn with lastRecvTick := tick })) := by
  have hconns : ∀ c', (s.setConn c (some { conn with lastRecvTick := tick })).conns c' =
      if c' = c then some { conn with lastRecvTick := tick } else s.conns c' := fun c' => rfl
  have hold : ∀ {c' conn'}, (s.setConn c (some { conn with lastRecvTick := tick })).conns c' = some conn' →
      ∃ conn0, s.conns c' = some conn0 ∧ conn'.handle = conn0.handle ∧ conn'.connType = conn0.connType ∧
        conn'.refCount = conn0.refCount := by
    intro c' conn' hc'
    rw [hconns] at hc'
    split at hc'
    next heq =>
      cases hc'
      exact ⟨conn, heq ▸ hc, rfl, rfl, rfl⟩
    next => exact ⟨conn', hc', rfl, rfl, rfl⟩
  have hnew : ∀ {c' conn0}, s.conns c' = some conn0 → ∃ conn', (s.setConn c (some { conn with lastRecvTick := tick })).conns c' = some conn' ∧
      conn'.handle = conn0.handle ∧ conn'.connType = conn0.connType := by
    intro c' conn0 hc'
    rw [hconns]
    split
    next heq =>
      subst heq
      rw [hc] at hc'
      cases hc'
      exact ⟨_, rfl, rfl, rfl⟩
    next => exact ⟨conn0, hc', rfl, rfl⟩
  refine ⟨⟨hinv.registered.defined, fun c' conn' t hc' hsocket => ?_, fun t h' c' hentry => ?_⟩, fun c' conn' hc' => ?_,
    fun c' conn' hc' => ?_, fun h' t hsocket => ?_⟩
  · obtain ⟨conn0, hc0, hhandle, htype, -⟩ := hold hc'
    rw [hhandle, htype]
    exact hinv.registered.opened c' conn0 t hc0 (hhandle ▸ hsocket)
  · obtain ⟨conn0, hc0, rfl, rfl, hsocket⟩ := hinv.registered.entries t h' c' hentry
    obtain ⟨conn', hc', hhandle, htype⟩ := hnew hc0
    exact ⟨conn', hc', hhandle, htype, hsocket⟩
  · obtain ⟨conn0, hc0, hhandle, -, hcount⟩ := hold hc'
    rw [hhandle, hcount]
    exact hinv.single c' conn0 hc0
  · obtain ⟨conn0, hc0, -⟩ := hold hc'
    exact hinv.fresh c' conn0 hc0
  · obtain ⟨c', conn0, hc0, rfl⟩ := hinv.owned h' t hsocket
    obtain ⟨conn', hc', hhandle, -⟩ := hnew hc0
    exact ⟨c', conn', hc', hhandle⟩

/-! ## Reading -/

/-- A freed connection that is used is undefined. -/
theorem usesFreed_undefined (s : State) : s.usesFreed.undefinedBehaviour = true := rfl

/-- What has used a freed connection stays so. -/
theorem releaseRef_undefined (hs : s.undefinedBehaviour = true) : (s.releaseRef c).undefinedBehaviour = true := by
  unfold State.releaseRef
  split
  · rfl
  · exact hs

/-- What was undefined stays so through a close. -/
theorem close_undefined (hs : s.undefinedBehaviour = true) : (s.close c).undefinedBehaviour = true := by
  unfold State.close
  split
  · rfl
  · exact releaseRef_undefined hs

/-- Through a PDU. -/
theorem handlePdu_undefined (hs : s.undefinedBehaviour = true) : (s.handlePdu c pdu).undefinedBehaviour = true := by
  unfold State.handlePdu
  split
  · exact close_undefined hs
  · exact hs

/-- Through a PDU of a read. -/
theorem readPdu_undefined (hs : s.undefinedBehaviour = true) : (State.readPdu c s pdu).undefinedBehaviour = true := by
  unfold State.readPdu
  split
  · rfl
  · exact handlePdu_undefined hs

/-- And through the rest of the read. -/
theorem foldl_undefined (hs : s.undefinedBehaviour = true) : (pdus.foldl (State.readPdu c) s).undefinedBehaviour = true := by
  induction pdus generalizing s with
  | nil => exact hs
  | cons pdu pdus ih => exact ih (readPdu_undefined hs)

/-- Every PDU but the one request leaves the server as it is. -/
theorem handlePdu_other (hpdu : pdu ≠ .reqMsgServer) : s.handlePdu c pdu = s := by
  unfold State.handlePdu
  split
  · exact absurd rfl hpdu
  · rfl

/-- A PDU that does not close the connection. -/
theorem readPdu_other (hc : s.conns c = some conn) (hpdu : pdu ≠ .reqMsgServer) : State.readPdu c s pdu = s := by
  unfold State.readPdu
  rw [handlePdu_other hpdu, if_neg (by simp [hc])]

/-- A PDU that closes the connection, which its caller keeps. -/
theorem readPdu_closes (hc : s.conns c = some conn) (hn : conn.refCount = 2) :
    State.readPdu c s .reqMsgServer = (removed s c conn).setConn c (some { conn with refCount := 1 }) := by
  unfold State.readPdu State.handlePdu
  rw [close_kept hc hn, setConn_self, if_neg (Option.some_ne_none _)]

/-- A PDU that closes the connection again frees it under its caller. -/
theorem readPdu_closesAgain (hc : s.conns c = some conn) (hn : conn.refCount = 1) :
    (State.readPdu c s .reqMsgServer).undefinedBehaviour = true := by
  have hnone : (s.handlePdu c .reqMsgServer).conns c = none := by
    rw [show s.handlePdu c .reqMsgServer = s.close c from rfl, close_last hc hn]
    exact setConn_self _ c none
  unfold State.readPdu
  rw [if_pos hnone]
  exact usesFreed_undefined _

/-- After the connection has been closed. -/
theorem foldl_closed (pdus : List Pdu) (hc : s.conns c = some conn) (hn : conn.refCount = 1) :
    (closings pdus false = 0 ∧ pdus.foldl (State.readPdu c) s = s) ∨
      (1 ≤ closings pdus false ∧ (pdus.foldl (State.readPdu c) s).undefinedBehaviour = true) := by
  induction pdus with
  | nil => exact .inl ⟨rfl, rfl⟩
  | cons pdu pdus ih =>
    rw [List.foldl_cons]
    by_cases hpdu : pdu = .reqMsgServer
    · subst hpdu
      refine .inr ⟨?_, foldl_undefined (readPdu_closesAgain hc hn)⟩
      simp [closings]
    · rw [readPdu_other hc hpdu]
      simpa [closings, hpdu] using ih

/-- Before the connection is closed. -/
theorem foldl_open (pdus : List Pdu) (hc : s.conns c = some conn) (hn : conn.refCount = 2) :
    (closings pdus false = 0 ∧ pdus.foldl (State.readPdu c) s = s) ∨
      (closings pdus false = 1 ∧
        pdus.foldl (State.readPdu c) s = (removed s c conn).setConn c (some { conn with refCount := 1 })) ∨
      (2 ≤ closings pdus false ∧ (pdus.foldl (State.readPdu c) s).undefinedBehaviour = true) := by
  induction pdus with
  | nil => exact .inl ⟨rfl, rfl⟩
  | cons pdu pdus ih =>
    rw [List.foldl_cons]
    by_cases hpdu : pdu = .reqMsgServer
    · subst hpdu
      have hmore : closings (.reqMsgServer :: pdus) false = closings pdus false + 1 := by simp [closings]
      rw [readPdu_closes hc hn, hmore]
      have hclosed := foldl_closed pdus (setConn_self (removed s c conn) c (some { conn with refCount := 1 })) rfl
      rcases hclosed with ⟨hzero, heq⟩ | ⟨hpos, hundefined⟩
      · exact .inr (.inl ⟨by omega, heq⟩)
      · exact .inr (.inr ⟨by omega, hundefined⟩)
    · rw [readPdu_other hc hpdu]
      simpa [closings, hpdu] using ih

/-- A bad header closes once more. -/
theorem closings_bad (pdus : List Pdu) (bad : Bool) : closings pdus bad = closings pdus false + if bad = true then 1 else 0 := rfl

/-- `Close` within a call of a connection. -/
theorem close_release (hc : s.conns c = some conn) (hn : conn.refCount = 2) : (s.close c).releaseRef c = removed s c conn := by
  rw [close_kept hc hn, releaseRef_last (setConn_self _ c _) rfl, setConn_setConn]
  exact setConn_setConn (s.unregister conn) c none none

/-- What else there is about a connection does not matter for its removal. -/
theorem removed_setConn (s : State) (c : Nat) (conn : LoginConn) (refCount tick : Nat) :
    removed (s.setConn c (some { conn with refCount := refCount, lastRecvTick := tick })) c
      { conn with refCount := refCount, lastRecvTick := tick } = removed s c conn :=
  setConn_setConn (s.unregister conn) c _ none

/-- What a read does to a registered connection: it stays, or is closed and freed, or is used after it is freed. -/
theorem read_cases (tick : Nat) (pdus : List Pdu) (bad : Bool) (hn : conn.refCount = 1) :
    let s' := ((s.addRef c conn).onRead c tick { conn with refCount := conn.refCount + 1 } pdus bad).releaseRef c
    (closings pdus bad = 0 ∧ s' = s.setConn c (some { conn with lastRecvTick := tick })) ∨
      (closings pdus bad = 1 ∧ s' = removed s c conn) ∨ (2 ≤ closings pdus bad ∧ s'.undefinedBehaviour = true) := by
  let kept : LoginConn := { conn with refCount := 2, lastRecvTick := tick }
  have hstart : (s.addRef c conn).setConn c (some { conn with refCount := conn.refCount + 1, lastRecvTick := tick }) =
      s.setConn c (some kept) := by
    rw [State.addRef, setConn_setConn, hn]
  have hkept : (s.setConn c (some kept)).conns c = some kept := setConn_self s c _
  have hremoved : removed (s.setConn c (some kept)) c kept = removed s c conn := removed_setConn s c conn 2 tick
  have hclosed : ∀ conn', ((removed s c conn).setConn c (some conn')).conns c = some conn' := fun conn' => setConn_self _ c _
  have hfreed : (removed s c conn).setConn c none = removed s c conn := by
    exact setConn_setConn (s.unregister conn) c none none
  intro s'
  have hs' : s' = (if bad = true then (pdus.foldl (State.readPdu c) (s.setConn c (some kept))).close c
      else pdus.foldl (State.readPdu c) (s.setConn c (some kept))).releaseRef c := by
    rw [← hstart]
    rfl
  rw [hs', closings_bad]
  rcases foldl_open pdus hkept rfl with ⟨hzero, heq⟩ | ⟨hone, heq⟩ | ⟨htwo, hundefined⟩
  · rw [heq, hzero]
    cases bad with
    | false =>
      refine .inl ⟨rfl, ?_⟩
      rw [if_neg Bool.false_ne_true, releaseRef_eq (n := 0) hkept rfl, setConn_setConn]
      exact congrArg (fun n => s.setConn c (some { conn with refCount := n, lastRecvTick := tick })) hn.symm
    | true =>
      refine .inr (.inl ⟨rfl, ?_⟩)
      rw [if_pos rfl, close_release hkept rfl, hremoved]
  · rw [heq, hone, hremoved]
    cases bad with
    | false =>
      refine .inr (.inl ⟨rfl, ?_⟩)
      rw [if_neg Bool.false_ne_true, releaseRef_last (hclosed _) rfl, setConn_setConn, hfreed]
    | true =>
      refine .inr (.inr ⟨le_rfl, ?_⟩)
      have hnone : (((removed s c conn).setConn c (some { kept with refCount := 1 })).close c).conns c = none := by
        rw [close_last (hclosed _) rfl]
        exact setConn_self _ c none
      rw [if_pos rfl]
      unfold State.releaseRef
      rw [hnone]
      rfl
  · refine .inr (.inr ⟨by omega, releaseRef_undefined ?_⟩)
    split
    · exact close_undefined hundefined
    · exact hundefined

/-! ## The timer -/

/-- The entries are in the map. -/
def Mapped (s : State) (t : ConnType) (entries : List (Handle × Nat)) : Prop :=
  (∀ entry ∈ entries, (s.connMap t)[entry.1]? = some entry.2) ∧ entries.Pairwise fun a b => a.1 ≠ b.1

/-- The map's connections in any order. -/
theorem mapped_of_perm {entries : List (Handle × Nat)} (h : entries.Perm (s.connMap t).toList) : Mapped s t entries := by
  refine ⟨fun entry hentry => TreeMap.mem_toList_iff_getElem?_eq_some.1 (h.mem_iff.1 hentry), ?_⟩
  refine (List.Perm.pairwise_iff (fun hne => Ne.symm hne) h).2 ?_
  exact TreeMap.distinct_keys_toList.imp fun hne heq => hne (Std.compare_eq_iff_eq.2 heq)

/-- The timer closes what has timed out, and leaves the other map. -/
theorem inv_onTimer (tick : Nat) {entry : Handle × Nat} {entries : List (Handle × Nat)} (hinv : Inv s) (hmapped : Mapped s t (entry :: entries)) :
    Inv (State.onTimer tick s entry) ∧ Mapped (State.onTimer tick s entry) t entries ∧
      ∀ t', t' ≠ t → (State.onTimer tick s entry).connMap t' = s.connMap t' := by
  obtain ⟨conn, hc, hhandle, htype, -⟩ := hinv.registered.entries t entry.1 entry.2 (hmapped.1 entry List.mem_cons_self)
  have hdistinct := List.pairwise_cons.1 hmapped.2
  have hrest : Mapped s t entries := ⟨fun other hother => hmapped.1 other (List.mem_cons_of_mem entry hother), hdistinct.2⟩
  unfold State.onTimer
  simp only [hc]
  split
  · rw [close_last hc (hinv.single entry.2 conn hc).1]
    refine ⟨inv_removed hinv hc, ⟨fun other hother => ?_, hdistinct.2⟩, fun t' ht' => ?_⟩
    · rw [removed_connMap, if_neg]
      · exact hrest.1 other hother
      · rintro ⟨-, heq⟩
        exact hdistinct.1 other hother (hhandle.symm.trans heq.symm)
    · exact if_neg fun heq => ht' (heq.trans htype)
  · exact ⟨hinv, hrest, fun t' _ => rfl⟩

/-- The timer's loop over one map keeps the invariant. -/
theorem inv_timers (tick : Nat) {entries : List (Handle × Nat)} (hinv : Inv s) (hmapped : Mapped s t entries) :
    Inv (entries.foldl (State.onTimer tick) s) ∧ ∀ t', t' ≠ t → (entries.foldl (State.onTimer tick) s).connMap t' = s.connMap t' := by
  induction entries generalizing s with
  | nil => exact ⟨hinv, fun t' _ => rfl⟩
  | cons entry entries ih =>
    obtain ⟨hinv', hmapped', hsame⟩ := inv_onTimer tick hinv hmapped
    obtain ⟨hend, hsame'⟩ := ih hinv' hmapped'
    exact ⟨hend, fun t' ht' => (hsame' t' ht').trans (hsame t' ht')⟩

/-! ## Steps -/

/-- An event registers what it should exactly when it meets the condition. -/
theorem step_iff {e : Event} {s' : State} {out : List Unit} (hinv : Inv s) (hstep : s.step e = some (s', out)) :
    (Registered s' ↔ Meets e) ∧ (Meets e → Inv s') := by
  have hgood : Inv s' → Meets e → (Registered s' ↔ Meets e) ∧ (Meets e → Inv s') := fun hinv' hmeets =>
    ⟨iff_of_true hinv'.registered hmeets, fun _ => hinv'⟩
  have hbad : ¬Registered s' → ¬Meets e → (Registered s' ↔ Meets e) ∧ (Meets e → Inv s') := fun hnot hmeets =>
    ⟨iff_of_false hnot hmeets, fun h => absurd h hmeets⟩
  cases e with
  | accept h connType tick =>
    simp only [State.step] at hstep
    split at hstep
    next hnew =>
      cases hstep
      cases connType with
      | client => exact hbad (not_registered_accept hinv hnew) fun hmeets => by cases hmeets
      | msgServ => exact hgood (inv_accept hinv hnew) rfl
    · cases hstep
  | read h tick pdus bad =>
    simp only [State.step] at hstep
    split at hstep
    · cases hstep
    next t hsocket =>
      cases hstep
      obtain ⟨c, conn, hfind, hc, -, -, hn, -⟩ := find_of_inv hinv hsocket
      unfold State.callback at hgood hbad ⊢
      simp only [hfind] at hgood hbad ⊢
      rcases read_cases tick pdus bad hn with ⟨hzero, heq⟩ | ⟨hone, heq⟩ | ⟨htwo, hundefined⟩
      · rw [heq] at hgood ⊢
        exact hgood (inv_setTick hinv hc) (by simp [Meets, hzero])
      · rw [heq] at hgood ⊢
        exact hgood (inv_removed hinv hc) (by simp [Meets, hone])
      · refine hbad (fun hregistered => ?_) fun hmeets => ?_
        · rw [hregistered.defined] at hundefined
          cases hundefined
        · simp only [Meets] at hmeets
          omega
  | close h =>
    simp only [State.step] at hstep
    split at hstep
    · cases hstep
    next t hsocket =>
      cases hstep
      refine hgood ?_ trivial
      obtain ⟨c, conn, hfind, hc, -, -, hn, -⟩ := find_of_inv hinv hsocket
      unfold State.callback
      simp only [hfind]
      have hkept : (s.addRef c conn).conns c = some { conn with refCount := conn.refCount + 1 } := setConn_self s c _
      have hremoved : removed (s.addRef c conn) c { conn with refCount := conn.refCount + 1 } = removed s c conn :=
        removed_setConn s c conn (conn.refCount + 1) conn.lastRecvTick
      rw [close_release hkept (by simp [hn]), hremoved]
      exact inv_removed hinv hc
  | timer tick clients msgServs =>
    simp only [State.step] at hstep
    split at hstep
    next horders =>
      cases hstep
      refine hgood ?_ trivial
      rw [List.foldl_append]
      obtain ⟨hinv', hsame⟩ := inv_timers tick hinv (mapped_of_perm horders.1)
      refine (inv_timers tick hinv' (t := .msgServ) (mapped_of_perm ?_)).1
      rw [hsame .msgServ (by decide)]
      exact horders.2
    · cases hstep

end LoginConnsAux

open LoginConnsAux

/-- Along every list of events, in every state the connections are registered, if and only if no client is accepted and no read closes
its connection twice. -/
theorem registered_along_iff (es : List Event) :
    Machine.Along State.step (fun _ _ s => Registered s) State.init es ↔ Machine.Along State.step (fun _ e _ => Meets e) State.init es := by
  refine Machine.along_iff (I := Inv) ?_ ?_ inv_init
  · exact fun hinv hstep => (step_iff hinv hstep).1
  · exact fun hinv hstep hmeets => (step_iff hinv hstep).2 hmeets

/-- A client is accepted, and is in no map. -/
theorem not_registered_along : ¬∀ es, Machine.Along State.step (fun _ _ s => Registered s) State.init es := by
  intro hall
  have hregistered : Registered (State.init.onConnect2 5 .client 0) := (hall [.accept 5 .client 0]).1
  have hentry := (hregistered.opened 0 { handle := 5, connType := .client, refCount := 1, lastRecvTick := 0 } .client rfl rfl).2
  simp [State.init, State.onConnect2, State.setConn] at hentry

end TeamTalk.LoginServer.Conns
