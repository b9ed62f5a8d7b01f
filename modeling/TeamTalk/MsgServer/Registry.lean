import TeamTalk.MsgServer.Acts
import TeamTalk.MsgServer.UserMaps

/-!
# The registry of msg_server

The connections, their references and the map of connections fit together, and the users and their maps fit to them. Every
event keeps this, whatever the clients send, as long as the DB proxy gives each login name one id.
-/

namespace TeamTalk

open Action
open Std (TreeMap TreeSet)

/-- The map of connections, the connections and their references fit together, while `user` is the connection that an `OnRead`
or a callback uses. That one may have been closed, also more than once. -/
structure Server.Conns (user : Option ConnId) (s : Server) : Prop where
  mapped : ∀ (handle : Nat) (c : ConnId), s.msgConnMap[handle]? = some c → ∃ conn, s.conns c = some conn ∧ conn.handle = handle
  counted : ∀ c conn, s.conns c = some conn → user ≠ some c →
    conn.refCount = if s.msgConnMap[conn.handle]? = some c then 1 else 0
  used : ∀ c, user = some c → ∃ conn, s.conns c = some conn ∧
    ((s.msgConnMap[conn.handle]? = some c ∧ conn.refCount = 2) ∨ (s.msgConnMap[conn.handle]? = none ∧ conn.refCount ≤ 1))
  waits : ∀ c conn, s.conns c = some conn → conn.bOpen = false → conn.userId = 0

/-- Both together: the registry of msg_server. -/
structure Server.Registry (idOf : String → Nat) (user : Option ConnId) (s : Server) : Prop where
  conns : s.Conns user
  users : s.Users idOf s.OpenFor

/-- The connections stay as they are, but for what neither the registry nor `Close` reads. A connection may be opened. -/
structure Server.Similar (s s' : Server) : Prop where
  msgConnMap_eq : s'.msgConnMap = s.msgConnMap
  conns_none : ∀ c, s.conns c = none → s'.conns c = none
  conns_some : ∀ c conn, s.conns c = some conn → ∃ conn', s'.conns c = some conn' ∧ conn'.handle = conn.handle ∧
    conn'.refCount = conn.refCount ∧ (conn'.bOpen = false → conn.bOpen = false ∧ conn'.userId = conn.userId)

namespace RegistryAux

open ClosingAux ValidatingAux UserMapsAux EventLoopAux

variable {idOf : String → Nat} {s s' : Server} {c : ConnId} {user : Option ConnId} {out : List Effect} {conn conn' : MsgConn}

/-- The live connections are registered, or used. -/
theorem registered_of_live (hs : s.Conns user) (hc : s.conns c = some conn) (hlive : conn.refCount ≠ 0) (huser : user ≠ some c) :
    s.msgConnMap[conn.handle]? = some c := by
  have hcount := hs.counted c conn hc huser
  by_contra hne
  rw [if_neg hne] at hcount
  exact hlive hcount

/-- A registered connection is live. -/
theorem live_of_registered (hs : s.Conns user) (hc : s.conns c = some conn) (hmap : s.msgConnMap[conn.handle]? = some c) :
    conn.refCount ≠ 0 := by
  by_cases huser : user = some c
  · obtain ⟨conn', hc', ⟨-, href⟩ | ⟨hnone, -⟩⟩ := hs.used c huser
    · rw [hc] at hc'
      obtain rfl := Option.some.inj hc'
      rw [href]
      nofun
    · rw [hc] at hc'
      obtain rfl := Option.some.inj hc'
      rw [hmap] at hnone
      cases hnone
  · rw [hs.counted c conn hc huser, if_pos hmap]
    nofun

/-- The registry's account of connections stays where the states are similar. -/
theorem conns_similar (hs : s.Conns user) (h : s.Similar s') : s'.Conns user := by
  have hback : ∀ d conn', s'.conns d = some conn' → ∃ conn, s.conns d = some conn ∧ conn'.handle = conn.handle ∧
      conn'.refCount = conn.refCount ∧ (conn'.bOpen = false → conn.bOpen = false ∧ conn'.userId = conn.userId) := by
    intro d conn' hd
    cases hd0 : s.conns d with
    | none =>
      rw [h.conns_none d hd0] at hd
      cases hd
    | some conn =>
      obtain ⟨conn'', hd', hrest⟩ := h.conns_some d conn hd0
      rw [hd] at hd'
      obtain rfl := Option.some.inj hd'
      exact ⟨conn, rfl, hrest⟩
  refine ⟨?_, ?_, ?_, ?_⟩
  · intro handle d hd
    rw [h.msgConnMap_eq] at hd
    obtain ⟨conn, hc, hhandle⟩ := hs.mapped handle d hd
    obtain ⟨conn', hc', hhandle', -⟩ := h.conns_some d conn hc
    exact ⟨conn', hc', hhandle'.trans hhandle⟩
  · intro d conn' hd hne
    obtain ⟨conn, hd0, hhandle, href, -⟩ := hback d conn' hd
    rw [href, hs.counted d conn hd0 hne, h.msgConnMap_eq, hhandle]
  · intro d huser
    obtain ⟨conn, hd, hrest⟩ := hs.used d huser
    obtain ⟨conn', hd', hhandle, href, -⟩ := h.conns_some d conn hd
    exact ⟨conn', hd', by rw [h.msgConnMap_eq, hhandle, href]; exact hrest⟩
  · intro d conn' hd hclosed
    obtain ⟨conn, hd0, -, -, hopen⟩ := hback d conn' hd
    obtain ⟨hclosed0, huid⟩ := hopen hclosed
    rw [huid]
    exact hs.waits d conn hd0 hclosed0

/-- What serves leaves a similar state. -/
theorem similar_of_serves (h : Serves s out s') : s.Similar s' := by
  refine ⟨h.msgConnMap_eq, fun d hd => (h.conns_none d hd).1, fun d conn hd => ?_⟩
  obtain ⟨conn', hd', hsame, -⟩ := h.conns_some d conn hd
  exact ⟨conn', hd', hsame.handle_eq, hsame.refCount_eq, fun hopen => ⟨by rw [← hsame.bOpen_eq, hopen], hsame.userId_eq⟩⟩

/-- Which connections are validated depends on the connections and their map alone. -/
theorem openFor_of_serves (h : Serves s out s') (d : ConnId) (handle userId : Nat) :
    s'.OpenFor d handle userId ↔ s.OpenFor d handle userId := by
  constructor
  · rintro ⟨conn', hd, hhandle, huid, hopen, hmap⟩
    cases hd0 : s.conns d with
    | none =>
      rw [(h.conns_none d hd0).1] at hd
      cases hd
    | some conn =>
      obtain ⟨conn'', hd', hsame, -⟩ := h.conns_some d conn hd0
      rw [hd] at hd'
      obtain rfl := Option.some.inj hd'
      rw [h.msgConnMap_eq] at hmap
      exact ⟨conn, hd0, by rw [← hsame.handle_eq, hhandle], by rw [← hsame.userId_eq, huid],
        by rw [← hsame.bOpen_eq, hopen], hmap⟩
  · rintro ⟨conn, hd, hhandle, huid, hopen, hmap⟩
    obtain ⟨conn', hd', hsame, -⟩ := h.conns_some d conn hd
    exact ⟨conn', hd', hsame.handle_eq.trans hhandle, hsame.userId_eq.trans huid, hsame.bOpen_eq.trans hopen,
      by rw [h.msgConnMap_eq, hmap]⟩

/-- Serving a request keeps the registry. -/
theorem registry_of_serves (hs : s.Registry idOf user) (h : Serves s out s') : s'.Registry idOf user :=
  ⟨conns_similar hs.conns (similar_of_serves h),
    users_congr hs.users h.users_eq h.nextUser_eq h.imUserMap_eq h.imUserMapByName_eq (openFor_of_serves h)⟩

/-! ## References -/

/-- A connection's references change, or what neither the registry nor `Close` reads; from now on `user'` is used. -/
theorem conns_setConn {user' : Option ConnId} (hs : s.Conns user) (hc : s.conns c = some conn)
    (hhandle : conn'.handle = conn.handle) (hopen : conn'.bOpen = conn.bOpen) (huid : conn'.userId = conn.userId)
    (hcount : user' ≠ some c → conn'.refCount = if s.msgConnMap[conn.handle]? = some c then 1 else 0)
    (hused : user' = some c → (s.msgConnMap[conn.handle]? = some c ∧ conn'.refCount = 2) ∨
      (s.msgConnMap[conn.handle]? = none ∧ conn'.refCount ≤ 1))
    (hother : ∀ d, d ≠ c → (user' = some d ↔ user = some d)) : (s.setConn c conn').Conns user' := by
  have hself : (s.setConn c conn').conns c = some conn' := by rw [Server.conns_setConn, if_pos rfl]
  have hold : ∀ d conn0, d ≠ c → s.conns d = some conn0 → (s.setConn c conn').conns d = some conn0 := by
    intro d conn0 hdc hd
    rw [Server.conns_setConn, if_neg hdc, hd]
  have hcases : ∀ d conn0, (s.setConn c conn').conns d = some conn0 →
      (d = c ∧ conn0 = conn') ∨ (d ≠ c ∧ s.conns d = some conn0) := by
    intro d conn0 hd
    rw [Server.conns_setConn] at hd
    split at hd
    · exact .inl ⟨‹_›, (Option.some.inj hd).symm⟩
    · exact .inr ⟨‹_›, hd⟩
  refine ⟨?_, ?_, ?_, ?_⟩
  · intro handle d hd
    obtain ⟨conn0, hd0, hh⟩ := hs.mapped handle d hd
    by_cases hdc : d = c
    · subst hdc
      rw [hc] at hd0
      obtain rfl := Option.some.inj hd0
      exact ⟨conn', hself, hhandle.trans hh⟩
    · exact ⟨conn0, hold d conn0 hdc hd0, hh⟩
  · intro d conn0 hd hne
    rcases hcases d conn0 hd with ⟨rfl, rfl⟩ | ⟨hdc, hd0⟩
    · rw [hcount hne, hhandle]
      rfl
    · exact hs.counted d conn0 hd0 fun h => hne ((hother d hdc).2 h)
  · intro d huser
    by_cases hdc : d = c
    · subst hdc
      exact ⟨conn', hself, by rw [hhandle]; exact hused huser⟩
    · obtain ⟨conn0, hd0, hrest⟩ := hs.used d ((hother d hdc).1 huser)
      exact ⟨conn0, hold d conn0 hdc hd0, hrest⟩
  · intro d conn0 hd hclosed
    rcases hcases d conn0 hd with ⟨rfl, rfl⟩ | ⟨-, hd0⟩
    · rw [huid]
      exact hs.waits d conn hc (by rw [← hopen, hclosed])
    · exact hs.waits d conn0 hd0 hclosed

/-- A connection stored with its handle, flag and user is open for the same ones. -/
theorem openFor_setConn (hc : s.conns c = some conn) (hhandle : conn'.handle = conn.handle) (hopen : conn'.bOpen = conn.bOpen)
    (huid : conn'.userId = conn.userId) (d : ConnId) (handle userId : Nat) :
    (s.setConn c conn').OpenFor d handle userId ↔ s.OpenFor d handle userId := by
  by_cases hdc : d = c
  · subst hdc
    have hself : (s.setConn d conn').conns d = some conn' := by rw [Server.conns_setConn, if_pos rfl]
    constructor
    · rintro ⟨conn0, hd, h1, h2, h3, h4⟩
      rw [hself] at hd
      obtain rfl := Option.some.inj hd
      exact ⟨conn, hc, by rw [← hhandle, h1], by rw [← huid, h2], by rw [← hopen, h3], h4⟩
    · rintro ⟨conn0, hd, h1, h2, h3, h4⟩
      rw [hc] at hd
      obtain rfl := Option.some.inj hd
      exact ⟨conn', hself, hhandle.trans h1, huid.trans h2, hopen.trans h3, h4⟩
  · rw [Server.OpenFor, Server.conns_setConn, if_neg hdc]
    rfl

/-- And the registry stays as it is. -/
theorem registry_setConn {user' : Option ConnId} (hs : s.Registry idOf user) (hc : s.conns c = some conn)
    (hhandle : conn'.handle = conn.handle) (hopen : conn'.bOpen = conn.bOpen) (huid : conn'.userId = conn.userId)
    (hcount : user' ≠ some c → conn'.refCount = if s.msgConnMap[conn.handle]? = some c then 1 else 0)
    (hused : user' = some c → (s.msgConnMap[conn.handle]? = some c ∧ conn'.refCount = 2) ∨
      (s.msgConnMap[conn.handle]? = none ∧ conn'.refCount ≤ 1))
    (hother : ∀ d, d ≠ c → (user' = some d ↔ user = some d)) : (s.setConn c conn').Registry idOf user' :=
  ⟨conns_setConn hs.conns hc hhandle hopen huid hcount hused hother,
    users_congr hs.users rfl rfl rfl rfl (openFor_setConn hc hhandle hopen huid)⟩

/-- `AddRef` on a registered connection, which is used from now on. -/
theorem registry_addRef (hs : s.Registry idOf none) {handle : Nat} (hfind : s.msgConnMap[handle]? = some c)
    (h : (addRef c).run s = ⟨.ok (), s', out⟩) : s'.Registry idOf (some c) := by
  obtain ⟨conn, s1, out1, out2, hconn, h1, rfl⟩ := run_bind_eq_ok h
  obtain ⟨rfl, hc, -, rfl⟩ := getConn_eq_ok hconn
  obtain ⟨-, rfl, rfl⟩ := (Outcome.mk.injEq ..).mp h1
  obtain ⟨conn0, hc0, hhandle⟩ := hs.conns.mapped handle c hfind
  rw [hc] at hc0
  obtain rfl := Option.some.inj hc0
  have hmap : s1.msgConnMap[conn.handle]? = some c := by rw [hhandle, hfind]
  refine registry_setConn hs hc rfl rfl rfl (fun h => absurd rfl h) (fun _ => .inl ⟨hmap, ?_⟩) fun d hdc => ?_
  · have := hs.conns.counted c conn hc nofun
    rw [if_pos hmap] at this
    dsimp only
    omega
  · exact ⟨fun h => absurd (Option.some.inj h).symm hdc, nofun⟩

/-- `ReleaseRef`, when the connection is used no more. -/
theorem registry_releaseRef (hs : s.Registry idOf (some c)) (h : (releaseRef c).run s = ⟨.ok (), s', out⟩) :
    s'.Registry idOf none := by
  obtain ⟨conn, s1, out1, out2, hconn, h1, rfl⟩ := run_bind_eq_ok h
  obtain ⟨rfl, hc, hlive, rfl⟩ := getConn_eq_ok hconn
  obtain ⟨-, rfl, rfl⟩ := (Outcome.mk.injEq ..).mp h1
  refine registry_setConn hs hc rfl rfl rfl (fun _ => ?_) nofun fun d hdc => ?_
  · obtain ⟨conn0, hc0, hused⟩ := hs.conns.used c rfl
    rw [hc] at hc0
    obtain rfl := Option.some.inj hc0
    dsimp only
    rcases hused with ⟨hmap, href⟩ | ⟨hnone, href⟩
    · rw [if_pos hmap]
      omega
    · rw [hnone, if_neg nofun]
      omega
  · exact ⟨nofun, fun h => absurd (Option.some.inj h).symm hdc⟩

/-! ## Closing -/

/-- What `Close` does to the connections and their map. -/
theorem closes_conns {s1 s2 : Server} {reported notified : List Effect} (h : Closes s c conn out s' s1 s2 reported notified) :
    (∀ d, s'.conns d = if d = c then some { conn with refCount := conn.refCount - 1 } else s.conns d) ∧
    ∀ handle : Nat, s'.msgConnMap[handle]? = if handle = conn.handle then none else s.msgConnMap[handle]? := by
  have hl1 := loses_closeById (s := { s with msgConnMap := s.msgConnMap.erase conn.handle }) h.conn_eq h.live h.byId
  have hl := loses_trans hl1 (loses_closeByLoginName h.byLoginName)
  have hconns : s2.conns = s.conns := hl.conns_eq
  have hmap : s2.msgConnMap = s.msgConnMap.erase conn.handle := hl.msgConnMap_eq
  rw [h.state_eq]
  refine ⟨fun d => ?_, fun handle => ?_⟩
  · rw [Server.conns_setConn, hconns]
  · change s2.msgConnMap[handle]? = _
    rw [hmap, getElem?_erase_nat]

/-- What the map of connections says of a connection that `Close` is called on. -/
theorem map_of_live (hs : s.Conns user) (hc : s.conns c = some conn) (hlive : conn.refCount ≠ 0)
    (huser : user = some c ∨ user = none) :
    s.msgConnMap[conn.handle]? = some c ∨ (user = some c ∧ s.msgConnMap[conn.handle]? = none) := by
  rcases huser with rfl | rfl
  · obtain ⟨conn0, hc0, ⟨hmap, -⟩ | ⟨hnone, -⟩⟩ := hs.used c rfl
    all_goals
      rw [hc] at hc0
      obtain rfl := Option.some.inj hc0
    · exact .inl hmap
    · exact .inr ⟨rfl, hnone⟩
  · exact .inl (registered_of_live hs hc hlive nofun)

/-- A closing takes its own connection out, and no other. -/
theorem conns_closes {s1 s2 : Server} {reported notified : List Effect} (hs : s.Conns user) (huser : user = some c ∨ user = none)
    (h : Closes s c conn out s' s1 s2 reported notified) :
    s'.Conns user ∧ ∀ d handle userId, s'.OpenFor d handle userId ↔ s.OpenFor d handle userId ∧ d ≠ c := by
  obtain ⟨hconns, hmap⟩ := closes_conns h
  have hself := map_of_live hs h.conn_eq h.live huser
  -- for another connection the map says what it said
  have hother : ∀ (handle : Nat) d, d ≠ c → (s'.msgConnMap[handle]? = some d ↔ s.msgConnMap[handle]? = some d) := by
    intro handle d hdc
    rw [hmap]
    split
    · rename_i heq
      rw [heq]
      rcases hself with h | ⟨-, h⟩
      · rw [h]
        exact ⟨nofun, fun h => absurd (Option.some.inj h).symm hdc⟩
      · rw [h]
    · exact Iff.rfl
  have hgone : s'.msgConnMap[conn.handle]? = none := by rw [hmap, if_pos rfl]
  have hcases : ∀ d conn0, s'.conns d = some conn0 →
      (d = c ∧ conn0 = { conn with refCount := conn.refCount - 1 }) ∨ (d ≠ c ∧ s.conns d = some conn0) := by
    intro d conn0 hd
    rw [hconns] at hd
    split at hd
    · exact .inl ⟨‹_›, (Option.some.inj hd).symm⟩
    · exact .inr ⟨‹_›, hd⟩
  refine ⟨⟨?_, ?_, ?_, ?_⟩, ?_⟩
  · intro handle d hd
    rw [hmap] at hd
    split at hd
    · cases hd
    · rename_i hne
      obtain ⟨conn0, hd0, hh⟩ := hs.mapped handle d hd
      refine ⟨conn0, ?_, hh⟩
      rw [hconns, if_neg, hd0]
      rintro rfl
      rw [h.conn_eq] at hd0
      obtain rfl := Option.some.inj hd0
      exact hne hh.symm
  · intro d conn0 hd hne
    rcases hcases d conn0 hd with ⟨rfl, rfl⟩ | ⟨hdc, hd0⟩
    · have hcount := hs.counted d conn h.conn_eq hne
      rw [hgone, if_neg nofun]
      dsimp only
      split at hcount <;> omega
    · rw [hs.counted d conn0 hd0 hne]
      simp only [hother conn0.handle d hdc]
  · intro d hd
    have hdc : d = c := by
      rcases huser with rfl | rfl
      · exact (Option.some.inj hd).symm
      · cases hd
    subst hdc
    refine ⟨{ conn with refCount := conn.refCount - 1 }, by rw [hconns, if_pos rfl], .inr ⟨hgone, ?_⟩⟩
    obtain ⟨conn0, hc0, hused⟩ := hs.used d hd
    rw [h.conn_eq] at hc0
    obtain rfl := Option.some.inj hc0
    dsimp only
    rcases hused with ⟨-, href⟩ | ⟨-, href⟩ <;> omega
  · intro d conn0 hd hclosed
    rcases hcases d conn0 hd with ⟨rfl, rfl⟩ | ⟨-, hd0⟩
    · exact hs.waits d conn h.conn_eq hclosed
    · exact hs.waits d conn0 hd0 hclosed
  · intro d handle userId
    constructor
    · rintro ⟨conn0, hd, hh, hu, hopen, hm⟩
      rcases hcases d conn0 hd with ⟨rfl, rfl⟩ | ⟨hdc, hd0⟩
      · rw [← hh] at hm
        rw [hgone] at hm
        cases hm
      · exact ⟨⟨conn0, hd0, hh, hu, hopen, (hother handle d hdc).1 hm⟩, hdc⟩
    · rintro ⟨⟨conn0, hd0, hh, hu, hopen, hm⟩, hdc⟩
      exact ⟨conn0, by rw [hconns, if_neg hdc, hd0], hh, hu, hopen, (hother handle d hdc).2 hm⟩

/-- `Close` keeps the registry, also when it is done again to the connection that is read from. -/
theorem registry_close (hs : s.Registry idOf user) (huser : user = some c ∨ user = none)
    (h : (close c).run s = ⟨.ok (), s', out⟩) : s'.Registry idOf user := by
  obtain ⟨conn, s1, s2, reported, notified, hcl⟩ := close_ok h
  obtain ⟨hconns, hopen⟩ := conns_closes hs.conns huser hcl
  refine ⟨hconns, users_congr (users_closes hs.users hcl ?_ ?_) rfl rfl rfl rfl hopen⟩
  · rintro handle userId ⟨conn0, hc0, -, huid, -⟩
    rw [hcl.conn_eq] at hc0
    obtain rfl := Option.some.inj hc0
    exact huid.symm
  · rintro d handle userId ⟨conn0, hd, hh, -, -, hm⟩
    constructor
    · rintro rfl
      rcases map_of_live hs.conns hcl.conn_eq hcl.live huser with hself | ⟨-, hnone⟩
      · rw [hm] at hself
        exact Option.some.inj hself
      · rw [hm] at hnone
        cases hnone
    · rintro rfl
      rw [hcl.conn_eq] at hd
      obtain rfl := Option.some.inj hd
      exact hh.symm

/-! ## Logging in -/

/-- Being open is read off the connections and their map. -/
theorem openFor_congr (hconns : s'.conns = s.conns) (hmap : s'.msgConnMap = s.msgConnMap) (d : ConnId) (handle userId : Nat) :
    s'.OpenFor d handle userId ↔ s.OpenFor d handle userId := by
  rw [Server.OpenFor, Server.OpenFor, hconns, hmap]

/-- Only the users and their maps change. -/
theorem registry_of_users (hs : s.Conns user) (hconns : s'.conns = s.conns) (hmap : s'.msgConnMap = s.msgConnMap)
    (husers : s'.Users idOf s.OpenFor) : s'.Registry idOf user := by
  refine ⟨conns_similar hs ⟨hmap, fun d hd => by rw [hconns, hd], fun d conn hd => ?_⟩,
    users_congr husers rfl rfl rfl rfl (openFor_congr hconns hmap)⟩
  exact ⟨conn, by rw [hconns, hd], rfl, rfl, fun h => ⟨h, rfl⟩⟩

/-- A connection changes, but for what the registry reads. -/
theorem registry_setConn_same (hs : s.Registry idOf user) (hc : s.conns c = some conn) (hhandle : conn'.handle = conn.handle)
    (hopen : conn'.bOpen = conn.bOpen) (huid : conn'.userId = conn.userId) (href : conn'.refCount = conn.refCount) :
    (s.setConn c conn').Registry idOf user := by
  refine registry_setConn hs hc hhandle hopen huid (fun huser => ?_) (fun huser => ?_) fun _ _ => Iff.rfl
  · rw [href, hs.conns.counted c conn hc huser]
  · obtain ⟨conn0, hc0, hused⟩ := hs.conns.used c huser
    rw [hc] at hc0
    obtain rfl := Option.some.inj hc0
    rw [href]
    exact hused

/-- The user of a login name, and the state with it. -/
theorem withUser_eqs (s : Server) (loginName : String) : (s.withUser loginName).1.conns = s.conns ∧
    (s.withUser loginName).1.msgConnMap = s.msgConnMap ∧
    (s.withUser loginName).1.getImUserByLoginName loginName = some (s.withUser loginName).2 := by
  rw [Server.withUser]
  cases hr : s.getImUserByLoginName loginName with
  | some r => exact ⟨rfl, rfl, hr⟩
  | none =>
    refine ⟨rfl, rfl, ?_⟩
    change (s.imUserMapByName.insert loginName s.nextUser)[loginName]? = _
    rw [TreeMap.getElem?_insert, if_pos Std.ReflCmp.compare_self]

/-- An accepted login request keeps the registry, also on a connection that was closed. -/
theorem registry_login {env : Env} {pdu : Pdu} {msg : IMLoginReq} (hs : s.Registry idOf user) (hc : s.conns c = some conn)
    (hlive : conn.refCount ≠ 0) (hempty : ¬conn.loginName.length ≠ 0) (hrefuse : loginRefusal s = none)
    (hbody : pdu.body = .imLoginReq msg) (h : (handleLoginRequest env c pdu).run s = ⟨.ok (), s', out⟩) :
    s'.Registry idOf user := by
  obtain ⟨u, hu, rfl, -⟩ := login_accepted_ok hc hlive hempty hrefuse hbody h
  have hs1 : (s.setConn c (conn.logIn msg)).Registry idOf user := registry_setConn_same hs hc rfl rfl rfl rfl
  obtain ⟨hconns, hmap, -⟩ := withUser_eqs (s.setConn c (conn.logIn msg)) msg.userName
  refine registry_of_users hs1.conns hconns hmap ?_
  exact users_setUser (users_withUser hs1.users msg.userName) hu _ rfl rfl fun _ => rfl

/-- The user that a validated connection goes to, and the other one, which the connection leaves. -/
theorem users_userForId {Live : ConnId → Nat → Nat → Prop} {q r : UserRef} {loginName : String} {userId : Nat}
    (hs : s.Users idOf Live) (hr : s.getImUserByLoginName loginName = some r) (hid : userId = idOf loginName)
    (hc : ∀ handle userId, ¬Live c handle userId) (h : (userForId r c loginName userId).run s = ⟨.ok q, s', []⟩) :
    s'.Users idOf Live ∧ s'.conns = s.conns ∧ s'.msgConnMap = s.msgConnMap ∧
      ∀ joined, s'.users q = some joined → userId = idOf joined.loginName ∧ (s'.getImUserById userId = some q ∨
        (s'.getImUserById userId = none ∧ joined.userId = 0 ∧ ∀ handle : Nat, joined.connMap[handle]? = none)) := by
  obtain ⟨left, hleft, hname⟩ := hs.byName loginName r hr
  obtain ⟨-, ⟨hnone, rfl, rfl⟩ | ⟨joined, left', hq, hjoined, hleft', rfl⟩⟩ := userForId_ok h
  · -- nobody is registered under the id, so the user that the connection waited at has none
    refine ⟨hs, rfl, rfl, fun joined hjoined => ?_⟩
    rw [hleft] at hjoined
    obtain rfl := Option.some.inj hjoined
    rw [hname]
    refine ⟨hid, .inr ⟨hnone, ?_⟩⟩
    refine (hs.idle q left hleft).resolve_left fun hreg => ?_
    obtain ⟨-, u, hu, -, hof, -⟩ := hs.byId left.userId q hreg
    rw [hleft] at hu
    obtain rfl := Option.some.inj hu
    rw [hof, hname, ← hid, hnone] at hreg
    cases hreg
  · have hs1 := users_setUser hs hjoined (joined.addUnValidateMsgConn c) rfl rfl fun _ => rfl
    have hs2 := users_setUser hs1 hleft' (left'.delUnValidateMsgConn c) rfl rfl fun _ => rfl
    have hself : ((s.setUser q (some (joined.addUnValidateMsgConn c))).setUser r
        (some (left'.delUnValidateMsgConn c))).users r = some (left'.delUnValidateMsgConn c) := by
      rw [Server.users_setUser, if_pos rfl]
    have hname' : left'.loginName = loginName := by
      rw [Server.users_setUser] at hleft'
      split at hleft'
      · rename_i hrq
        obtain rfl := Option.some.inj hleft'
        rw [hrq, hjoined] at hleft
        obtain rfl := Option.some.inj hleft
        exact hname
      · rw [hleft] at hleft'
        obtain rfl := Option.some.inj hleft'
        exact hname
    have hs3 := users_dropIfEmpty (c := c) hs2 hself (fun hempty => ?_) hc
    · have hreg : s.getImUserById userId = some q := hq
      have hdrop : ∀ t : Server, (t.dropIfEmpty r loginName (left'.delUnValidateMsgConn c)).conns = t.conns ∧
          (t.dropIfEmpty r loginName (left'.delUnValidateMsgConn c)).msgConnMap = t.msgConnMap ∧
          (t.dropIfEmpty r loginName (left'.delUnValidateMsgConn c)).imUserMap = t.imUserMap := by
        intro t
        rw [Server.dropIfEmpty]
        split
        · exact ⟨rfl, rfl, rfl⟩
        · exact ⟨rfl, rfl, rfl⟩
      have hreg' : (((s.setUser q (some (joined.addUnValidateMsgConn c))).setUser r (some (left'.delUnValidateMsgConn c))
          ).dropIfEmpty r loginName (left'.delUnValidateMsgConn c)).getImUserById userId = some q := by
        rw [Server.getImUserById, (hdrop _).2.2]
        exact hreg
      change Server.Users idOf Live (Server.dropIfEmpty _ r left'.loginName _) at hs3
      rw [hname'] at hs3
      refine ⟨hs3, (hdrop _).1, (hdrop _).2.1, fun u hu => ⟨?_, .inl hreg'⟩⟩
      obtain ⟨-, u', hu', -, hof, -⟩ := hs3.byId userId q hreg'
      rw [hu] at hu'
      obtain rfl := Option.some.inj hu'
      exact hof
    · rcases hs2.idle r _ hself with hreg | ⟨hzero, -⟩
      · obtain ⟨-, u, hu, -, -, handle, d, hd⟩ := hs2.byId _ r hreg
        rw [hself] at hu
        obtain rfl := Option.some.inj hu
        rw [(isMsgConnEmpty_iff _).1 hempty] at hd
        cases hd
      · exact hzero

/-- What registering a user leaves alone. -/
theorem register_eqs (s : Server) (q : UserRef) (u : ImUser) (userId : Nat) :
    (s.register q u userId).conns = s.conns ∧ (s.register q u userId).msgConnMap = s.msgConnMap ∧
    (s.register q u userId).nextUser = s.nextUser ∧ (s.register q u userId).imUserMapByName = s.imUserMapByName ∧
    ∀ p, (s.register q u userId).users p = if p = q then some u else s.users p := by
  rw [Server.register]
  split
  · exact ⟨rfl, rfl, rfl, rfl, fun p => Server.users_setUser s q _ p⟩
  · exact ⟨rfl, rfl, rfl, rfl, fun p => Server.users_setUser s q _ p⟩

/-- And which user each id finds then. -/
theorem getImUserById_register {q : UserRef} {u : ImUser} {userId : Nat}
    (h : s.getImUserById userId = some q ∨ s.getImUserById userId = none) (i : Nat) :
    (s.register q u userId).getImUserById i = if i = userId then some q else s.getImUserById i := by
  rw [Server.register]
  rcases h with h | h
  · have hset : ((s.setUser q (some u)).getImUserById userId) = some q := h
    rw [hset, Option.isNone_some, if_neg Bool.false_ne_true]
    split
    · rename_i hi
      rw [hi, hset]
    · rfl
  · have hset : ((s.setUser q (some u)).getImUserById userId) = none := h
    rw [hset, Option.isNone_none, if_pos rfl]
    change (s.imUserMap.insert userId q)[i]? = _
    rw [TreeMap.getElem?_insert]
    by_cases hi : i = userId
    · rw [if_pos (Nat.compare_eq_eq.2 hi.symm), if_pos hi]
    · rw [if_neg fun heq => hi (Nat.compare_eq_eq.1 heq).symm, if_neg hi]
      rfl

/-- An accepted login keeps the registry: the connection is validated, and joins the user of its id. -/
theorem registry_acceptLogin {env : Env} {msg : IMValidateRsp} {seqNum : Nat} {r : UserRef} {u : ImUser}
    (hs : s.Registry idOf none) (hreach : Reaches s msg r u c conn)
    (hid : (msg.userInfo.getD noUserInfo).userId = idOf msg.userName) (hne : idOf msg.userName ≠ 0)
    (h : (acceptLogin env r c msg seqNum).run s = ⟨.ok (), s', out⟩) : s'.Registry idOf none := by
  obtain ⟨q, s1, joined, s2, out1, conn2, out2, hq, hjoined, hserves, hc2, -, rfl, -⟩ := acceptLogin_steps h
  have hmap := registered_of_live hs.conns hreach.conn_eq hreach.live (fun h => by cases h)
  have hclosed : ∀ handle userId, ¬s.OpenFor c handle userId := by
    rintro handle userId ⟨conn0, hc0, -, -, hopen, -⟩
    rw [hreach.conn_eq] at hc0
    obtain rfl := Option.some.inj hc0
    rw [hreach.notOpen] at hopen
    cases hopen
  obtain ⟨hs1, hconns1, hmap1, hfacts⟩ := users_userForId hs.users hreach.name_eq hid hclosed hq
  obtain ⟨hof, hreg⟩ := hfacts joined hjoined
  generalize (msg.userInfo.getD noUserInfo) = info at *
  obtain ⟨hrconns, hrmap, hrnext, hrnames, hrusers⟩ := register_eqs s1 q (joined.accepted info) info.userId
  -- the connection is the one that waited
  have hc1 : (s1.register q (joined.accepted info) info.userId).conns c = some conn := by
    rw [hrconns, hconns1, hreach.conn_eq]
  obtain ⟨conn2', hc2', hsame, -⟩ := hserves.conns_some c conn hc1
  rw [hc2] at hc2'
  obtain rfl := Option.some.inj hc2'
  have hmap2 : s2.msgConnMap = s.msgConnMap := hserves.msgConnMap_eq.trans (hrmap.trans hmap1)
  have hjoin : Server.Users idOf (fun d h i => s.OpenFor d h i ∨ (d = c ∧ h = conn.handle ∧ i = info.userId))
      ((s2.setConn c { conn2 with userId := info.userId, bOpen := true }).setUser q
        (some ((joined.accepted info).validateMsgConn conn2.handle c))) := by
    refine users_join hs1 hjoined _ ((joined.accepted info).validateMsgConn conn2.handle c) (by rw [hid]; exact hne) hof ?_
      hreg ?_ (hserves.nextUser_eq.trans hrnext) ?_ ?_ rfl rfl ?_
    · -- its handle is its own
      rintro d userId ⟨conn0, hd, -, -, hopen, hm⟩
      rw [hmap] at hm
      obtain rfl := Option.some.inj hm
      rw [hreach.conn_eq] at hd
      obtain rfl := Option.some.inj hd
      rw [hreach.notOpen] at hopen
      cases hopen
    · intro p
      rw [Server.users_setUser]
      change (if p = q then _ else s2.users p) = _
      rw [hserves.users_eq, hrusers]
      split <;> rfl
    · intro i
      change s2.getImUserById i = _
      rw [Server.getImUserById, hserves.imUserMap_eq]
      exact getImUserById_register (hreg.imp id fun h => h.1) i
    · intro name
      change s2.getImUserByLoginName name = _
      rw [Server.getImUserByLoginName, hserves.imUserMapByName_eq, hrnames, Server.getImUserByLoginName]
    · intro handle
      change (joined.connMap.insert conn2.handle c)[handle]? = _
      rw [TreeMap.getElem?_insert, hsame.handle_eq]
      by_cases hh : handle = conn.handle
      · rw [if_pos (Nat.compare_eq_eq.2 hh.symm), if_pos hh]
      · rw [if_neg fun heq => hh (Nat.compare_eq_eq.1 heq).symm, if_neg hh]
  refine ⟨conns_similar hs.conns ⟨hmap2, ?_, ?_⟩, users_congr hjoin rfl rfl rfl rfl ?_⟩
  · intro d hd
    change (s2.setConn c _).conns d = none
    rw [Server.conns_setConn, if_neg]
    · exact (hserves.conns_none d (by rw [hrconns, hconns1, hd])).1
    · rintro rfl
      rw [hreach.conn_eq] at hd
      cases hd
  · intro d connd hd
    change ∃ conn', (s2.setConn c _).conns d = some conn' ∧ _
    rw [Server.conns_setConn]
    by_cases hdc : d = c
    · subst hdc
      rw [hreach.conn_eq] at hd
      obtain rfl := Option.some.inj hd
      exact ⟨_, if_pos rfl, hsame.handle_eq, hsame.refCount_eq, fun h => by cases h⟩
    · obtain ⟨conn', hd', hsame', -⟩ := hserves.conns_some d connd (by rw [hrconns, hconns1, hd])
      exact ⟨conn', by rw [if_neg hdc, hd'], hsame'.handle_eq, hsame'.refCount_eq,
        fun hopen => ⟨by rw [← hsame'.bOpen_eq, hopen], hsame'.userId_eq⟩⟩
  · intro d handle userId
    have hopen2 := openFor_of_serves hserves d handle userId
    rw [openFor_congr (hrconns.trans hconns1) (hrmap.trans hmap1)] at hopen2
    rw [← hopen2]
    change (s2.setConn c { conn2 with userId := info.userId, bOpen := true }).OpenFor d handle userId ↔ _
    rw [Server.OpenFor, Server.conns_setConn]
    by_cases hdc : d = c
    · subst hdc
      rw [if_pos rfl]
      constructor
      · rintro ⟨conn0, hd, hh, hu, -, -⟩
        obtain rfl := Option.some.inj hd
        exact .inr ⟨rfl, hh.symm.trans hsame.handle_eq, hu.symm⟩
      · rintro (hlive | ⟨-, rfl, rfl⟩)
        · exact absurd (hopen2.1 hlive) (hclosed handle userId)
        · exact ⟨_, rfl, hsame.handle_eq, rfl, rfl, by rw [← hmap, ← hmap2]; rfl⟩
    · rw [if_neg hdc]
      exact (or_iff_left fun h => hdc h.1).symm

/-! ## The events -/

/-- A new connection. -/
theorem registry_accept {handle : Nat} (tick clientType : Nat) (hs : s.Registry idOf none) (hc : s.conns c = none)
    (hfree : s.msgConnMap[handle]? = none) :
    Server.Registry idOf none
      { s.setConn c (newMsgConn handle tick clientType) with msgConnMap := s.msgConnMap.insert handle c } := by
  have hcases : ∀ d conn, (s.setConn c (newMsgConn handle tick clientType)).conns d = some conn →
      (d = c ∧ conn = newMsgConn handle tick clientType) ∨ (d ≠ c ∧ s.conns d = some conn) := by
    intro d conn hd
    rw [Server.conns_setConn] at hd
    split at hd
    · exact .inl ⟨‹_›, (Option.some.inj hd).symm⟩
    · exact .inr ⟨‹_›, hd⟩
  have hold : ∀ d conn, s.conns d = some conn →
      d ≠ c ∧ (s.setConn c (newMsgConn handle tick clientType)).conns d = some conn := by
    intro d conn hd
    have hdc : d ≠ c := by
      rintro rfl
      rw [hc] at hd
      cases hd
    exact ⟨hdc, by rw [Server.conns_setConn, if_neg hdc, hd]⟩
  have hmap : ∀ k : Nat, (s.msgConnMap.insert handle c)[k]? = if k = handle then some c else s.msgConnMap[k]? := by
    intro k
    rw [TreeMap.getElem?_insert]
    by_cases hk : k = handle
    · rw [if_pos (Nat.compare_eq_eq.2 hk.symm), if_pos hk]
    · rw [if_neg fun heq => hk (Nat.compare_eq_eq.1 heq).symm, if_neg hk]
  -- the map is as it was for every other connection
  have hother : ∀ (k : Nat) d, d ≠ c → ((s.msgConnMap.insert handle c)[k]? = some d ↔ s.msgConnMap[k]? = some d) := by
    intro k d hdc
    rw [hmap]
    split
    · rename_i hk
      rw [hk, hfree]
      exact ⟨fun h => absurd (Option.some.inj h).symm hdc, nofun⟩
    · exact Iff.rfl
  refine ⟨⟨?_, ?_, nofun, ?_⟩, users_congr hs.users rfl rfl rfl rfl ?_⟩
  · intro k d hd
    change (s.msgConnMap.insert handle c)[k]? = some d at hd
    rw [hmap] at hd
    split at hd
    · rename_i hk
      rw [← Option.some.inj hd, hk]
      exact ⟨newMsgConn handle tick clientType, (Server.conns_setConn s c _ c).trans (if_pos rfl), rfl⟩
    · obtain ⟨conn, hd0, hh⟩ := hs.conns.mapped k d hd
      exact ⟨conn, (hold d conn hd0).2, hh⟩
  · intro d conn hd hne
    rcases hcases d conn hd with ⟨rfl, rfl⟩ | ⟨hdc, hd0⟩
    · change 1 = if (s.msgConnMap.insert handle d)[handle]? = some d then 1 else 0
      rw [hmap, if_pos rfl, if_pos rfl]
    · rw [hs.conns.counted d conn hd0 hne]
      simp only [hother conn.handle d hdc]
  · intro d conn hd hclosed
    rcases hcases d conn hd with ⟨rfl, rfl⟩ | ⟨-, hd0⟩
    · rfl
    · exact hs.conns.waits d conn hd0 hclosed
  · intro d k userId
    constructor
    · rintro ⟨conn, hd, hh, hu, hopen, hm⟩
      rcases hcases d conn hd with ⟨rfl, rfl⟩ | ⟨hdc, hd0⟩
      · cases hopen
      · exact ⟨conn, hd0, hh, hu, hopen, (hother k d hdc).1 hm⟩
    · rintro ⟨conn, hd0, hh, hu, hopen, hm⟩
      obtain ⟨hdc, hd⟩ := hold d conn hd0
      exact ⟨conn, hd, hh, hu, hopen, (hother k d hdc).2 hm⟩

/-- Every action keeps the registry. -/
theorem registry_acts {ok : Server → ConnId → IMLoginReq → Prop} {user' : Option ConnId} (h : s.Acts idOf ok user user' s')
    (hs : s.Registry idOf user) : s'.Registry idOf user' := by
  induction h with
  | refl => exact hs
  | trans _ _ ih ih' => exact ih' (ih hs)
  | serves h => exact registry_of_serves hs h
  | backends b => exact registry_of_users hs.conns rfl rfl (users_congr hs.users rfl rfl rfl rfl fun _ _ _ => Iff.rfl)
  | accept tick clientType hc hfree => exact registry_accept tick clientType hs hc hfree
  | addRef hfind h => exact registry_addRef hs hfind h
  | releaseRef h => exact registry_releaseRef hs h
  | close huser h => exact registry_close hs huser h
  | login hc hlive hempty hrefuse hbody _ h => exact registry_login hs hc hlive hempty hrefuse hbody h
  | validate hreach hid hne h => exact registry_acceptLogin hs hreach hid hne h

/-- The registry of a server that starts. -/
theorem registry_init (idOf : String → Nat) (b : Backends) : (Server.init b).Registry idOf none := by
  refine ⟨⟨?_, nofun, nofun, nofun⟩, ⟨nofun, ?_, nofun, ?_, nofun, nofun, ?_⟩⟩
  · intro handle c h
    change (∅ : TreeMap Nat ConnId)[handle]? = some c at h
    rw [TreeMap.getElem?_emptyc] at h
    cases h
  · intro name r h
    change (∅ : TreeMap String UserRef)[name]? = some r at h
    rw [TreeMap.getElem?_emptyc] at h
    cases h
  · intro userId r h
    change (∅ : TreeMap Nat UserRef)[userId]? = some r at h
    rw [TreeMap.getElem?_emptyc] at h
    cases h
  · rintro c handle userId ⟨conn, hc, -⟩
    cases hc

end RegistryAux

/-- In every run in which the DB proxy gives each login name one id, whatever else happens, the registry is in order. -/
theorem registry_of_run {idOf : String → Nat} {b : Backends} {ok : Loop → Event → Prop}
    (hok : ∀ l e, ok l e → AnswersWith idOf e) {log : List Effect} {l : Loop}
    (h : Machine.Run Loop.step ok (Loop.init b) log l) : l.server.Registry idOf (l.reading.map Reading.conn) := by
  refine h.invariant (I := fun _ l => l.server.Registry idOf (l.reading.map Reading.conn))
    (RegistryAux.registry_init idOf b) fun {_ _ l _ e} hI hmeets hstep => ?_
  refine RegistryAux.registry_acts (ActsAux.acts_of_step (fun _ _ _ => True) (hok l e hmeets) ?_ hstep) hI
  intro _ _ _ _ _ _ _ _ _ _ _ _ _ _
  trivial

end TeamTalk
