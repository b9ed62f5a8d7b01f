import TeamTalk.MsgServer.Flags
import TeamTalk.MsgServer.Teardown

/-!
# A connection is torn down once

`Close` does not clear what guards it, and the loop of `OnRead` goes on after it. So everything depends on whether something
of the batch is left when a PDU closes its connection: another PDU, or a header that makes the loop end with `Close`.
-/

namespace TeamTalk

open Action
open Std (TreeMap)

/-- Whether the handler of the PDU closes the connection: a logout, or a login request that is refused. -/
def ClosesConn (s : Server) (conn : MsgConn) (pdu : Pdu) : Prop :=
  pdu.commandId = .loginReqLoginout ∨
    (pdu.commandId = .loginReqUserlogin ∧ conn.loginName.length = 0 ∧ loginRefusal s ≠ none)

/-- When a PDU passes the authorization check and closes its connection, nothing of the batch is left; and a connection that
waits at the user of the empty login name does not log in again under another. -/
def TeardownMeets (l : Loop) (e : Event) : Prop :=
  ∀ env r pdu rest conn, e = .readStep env → l.reading = some r → r.rest = pdu :: rest →
    l.server.conns r.conn = some conn → authRefused conn pdu = false →
    (ClosesConn l.server conn pdu → rest = [] ∧ r.fails = false) ∧
    ∀ msg q user, pdu.commandId = .loginReqUserlogin → conn.loginName.length = 0 → loginRefusal l.server = none →
      pdu.body = .imLoginReq msg → msg.userName ≠ "" → l.server.getImUserByLoginName "" = some q →
      l.server.users q = some user → r.conn ∉ user.unvalidateConnSet

/-- What tearing down once means, of a log and the state it led to: every effect of `Close` happened at most once to a
connection; its references are at least as many as its holders; nobody finds a deleted connection among those that wait for
their login; and no PDU was handled after `Close`. -/
structure TornDownProperly (log : List Effect) (l : Loop) : Prop where
  once : ∀ c (k : CloseEffect), log.countP (k.is c) ≤ 1
  held : ∀ c conn, l.server.conns c = some conn → l.server.holders (l.reading.map Reading.conn) c conn ≤ conn.refCount
  waiting_live : ∀ name r user c, l.server.getImUserByLoginName name = some r → l.server.users r = some user →
    c ∈ user.unvalidateConnSet → ∃ conn, l.server.conns c = some conn ∧ conn.refCount ≠ 0
  silent : ∀ c, log.Pairwise fun e e' => e = .netlibClose c → ∀ pdu, e' ≠ .handlePdu c pdu

/-- Every run whose steps all meet `ok` tears its connections down properly. -/
def TearsDownOnce (ok : Loop → Event → Prop) : Prop :=
  ∀ (b : Backends) (log : List Effect) (l : Loop), Machine.Run Loop.step ok (Loop.init b) log l → TornDownProperly log l

/-- The invariant of a run: maps and objects fit together, the log is in order, and when the connection that is read from has
been torn down, nothing of its batch is left. -/
structure TeardownInv (log : List Effect) (l : Loop) : Prop where
  sound : l.server.Sound (l.reading.map Reading.conn)
  closed : ClosedOnce log l.server
  reading : ∀ r, l.reading = some r → (∃ conn, l.server.conns r.conn = some conn) ∧
    (l.server.TornDown r.conn → r.rest = [] ∧ r.fails = false)

namespace TeardownRunAux

open ClosingAux ValidatingAux TeardownAux EventLoopAux

variable {s s' : Server} {c : ConnId} {user : Option ConnId} {log out : List Effect}

/-! ## Using and closing a connection -/

theorem map_of_not_tornDown {conn : MsgConn} (hc : s.conns c = some conn) (h : ¬s.TornDown c) :
    s.msgConnMap[conn.handle]? = some c := by
  by_contra hne
  exact h ⟨conn, hc, hne⟩

theorem not_tornDown_of_map {conn : MsgConn} (hc : s.conns c = some conn) (h : s.msgConnMap[conn.handle]? = some c) :
    ¬s.TornDown c := by
  rintro ⟨conn', hc', hne⟩
  rw [hc] at hc'
  obtain rfl := Option.some.inj hc'
  exact hne h

/-- A connection that is found by its handle is registered. -/
theorem not_tornDown_of_find {handle : Nat} (hs : s.Sound user) (h : s.msgConnMap[handle]? = some c) : ¬s.TornDown c := by
  obtain ⟨conn, hc, hhandle⟩ := hs.mapped handle c h
  exact not_tornDown_of_map hc (by rw [hhandle, h])

theorem close_sound (hs : s.Sound user) (hl : ClosedOnce log s) (hreg : ¬s.TornDown c)
    (h : (close c).run s = ⟨.ok (), s', out⟩) :
    s'.Sound user ∧ ClosedOnce (log ++ out) s' ∧ (∃ conn, s'.conns c = some conn) ∧
      ∀ d, s'.TornDown d ↔ s.TornDown d ∨ d = c := by
  obtain ⟨conn, s1, s2, reported, notified, hcl⟩ := close_ok h
  have hmap := map_of_not_tornDown hcl.conn_eq hreg
  obtain ⟨hs', htorn⟩ := sound_close hs hmap hcl
  refine ⟨hs', closedOnce_close hl hs hmap hcl, ?_, htorn⟩
  obtain ⟨conn', hc', -⟩ := (htorn c).2 (.inr rfl)
  exact ⟨conn', hc'⟩

/-- `AddRef`, and a change that matters to nothing else. -/
theorem addRef_sound (hs : s.Sound none) (hl : ClosedOnce log s) (h : (addRef c).run s = ⟨.ok (), s', out⟩) :
    out = [] ∧ s'.Sound (some c) ∧ ClosedOnce log s' ∧ ∀ d, s'.TornDown d ↔ s.TornDown d := by
  obtain ⟨conn, s1, out1, out2, hconn, h1, rfl⟩ := run_bind_eq_ok h
  obtain ⟨rfl, hc, -, rfl⟩ := getConn_eq_ok hconn
  obtain ⟨-, rfl, rfl⟩ := (Outcome.mk.injEq ..).mp h1
  refine ⟨rfl, sound_setConn hs hc rfl rfl ?_ ?_, closedOnce_setConn hl hc rfl, ?_⟩
  · simp only [hs.counted c conn hc, Server.holders, if_true, reduceCtorEq, if_false, Nat.add_zero]
  · intro d hdc
    exact ⟨fun h => absurd (Option.some.inj h).symm hdc, fun h => (by cases h)⟩
  · intro d
    exact tornDown_setConn hc (by rfl) d

/-- `ReleaseRef`, when the connection is used no more. -/
theorem releaseRef_sound (hs : s.Sound (some c)) (hl : ClosedOnce log s) (h : (releaseRef c).run s = ⟨.ok (), s', out⟩) :
    out = [] ∧ s'.Sound none ∧ ClosedOnce log s' := by
  obtain ⟨conn, s1, out1, out2, hconn, h1, rfl⟩ := run_bind_eq_ok h
  obtain ⟨rfl, hc, -, rfl⟩ := getConn_eq_ok hconn
  obtain ⟨-, rfl, rfl⟩ := (Outcome.mk.injEq ..).mp h1
  refine ⟨rfl, sound_setConn hs hc rfl rfl ?_ ?_, closedOnce_setConn hl hc rfl⟩
  · simp only [hs.counted c conn hc, Server.holders, if_true, reduceCtorEq, if_false, Nat.add_sub_cancel, Nat.add_zero]
  · intro d hdc
    exact ⟨fun h => (by cases h), fun h => absurd (Option.some.inj h).symm hdc⟩

/-! ## The events -/

theorem onPeerClose_sound (hs : s.Sound none) (hl : ClosedOnce log s) (hreg : ¬s.TornDown c)
    (h : (onPeerClose c).run s = ⟨.ok (), s', out⟩) : s'.Sound none ∧ ClosedOnce (log ++ out) s' := by
  obtain ⟨_, s1, out1, out2, hadd, h1, rfl⟩ := run_bind_eq_ok h
  obtain ⟨rfl, hs1, hl1, htorn1⟩ := addRef_sound hs hl hadd
  obtain ⟨_, s2, out3, out4, hclose, h2, rfl⟩ := run_bind_eq_ok h1
  obtain ⟨hs2, hl2, -, -⟩ := close_sound hs1 hl1 (fun hd => hreg ((htorn1 c).1 hd)) hclose
  obtain ⟨rfl, hs3, hl3⟩ := releaseRef_sound hs2 hl2 h2
  rw [List.nil_append, List.append_nil]
  exact ⟨hs3, hl3⟩

theorem onTimer_sound {currTick : Nat} (hs : s.Sound none) (hl : ClosedOnce log s) (hreg : ¬s.TornDown c)
    (h : (onTimer c currTick).run s = ⟨.ok (), s', out⟩) : s'.Sound none ∧ ClosedOnce (log ++ out) s' := by
  obtain ⟨conn, s1, out1, out2, hconn, h1, rfl⟩ := run_bind_eq_ok h
  obtain ⟨rfl, hc, -, rfl⟩ := getConn_eq_ok hconn
  rw [run_bind_nil (run_setConn _ _ _)] at h1
  have hkeep : ∀ conn', conn'.handle = conn.handle → conn'.loginName = conn.loginName → conn'.refCount = conn.refCount →
      (s1.setConn c conn').Sound none ∧ ClosedOnce log (s1.setConn c conn') ∧ ¬(s1.setConn c conn').TornDown c := by
    intro conn' hhandle hname href
    refine ⟨sound_setConn hs hc hhandle hname (href.trans (hs.counted c conn hc)) fun _ _ => Iff.rfl,
      closedOnce_setConn hl hc hhandle, fun hd => hreg ((tornDown_setConn hc hhandle c).1 hd)⟩
  obtain ⟨hs1, hl1, hreg1⟩ := hkeep { conn with msgCntPerSec := 0 } rfl rfl rfl
  have hclose : ∀ {out}, (close c).run (s1.setConn c { conn with msgCntPerSec := 0 }) = ⟨.ok (), s', out⟩ →
      s'.Sound none ∧ ClosedOnce (log ++ out) s' := fun hrun => by
    obtain ⟨hs2, hl2, -⟩ := close_sound hs1 hl1 hreg1 hrun
    exact ⟨hs2, hl2⟩
  rw [List.nil_append]
  dsimp only at h1
  generalize (if checkClientTypeMobile conn.clientType = true then mobileClientTimeout else clientTimeout) = timeout at h1
  split at h1
  · exact hclose h1
  · split at h1
    · exact hclose h1
    · obtain ⟨-, rfl, rfl⟩ := (Outcome.mk.injEq ..).mp h1
      have hset : ((s1.setConn c { conn with msgCntPerSec := 0 }).conns c) = some { conn with msgCntPerSec := 0 } := by
        rw [Server.conns_setConn, if_pos rfl]
      rw [List.append_nil]
      exact ⟨sound_setConn hs1 hset rfl rfl (hs1.counted c { conn with msgCntPerSec := 0 } hset) fun _ _ => Iff.rfl,
        closedOnce_setConn hl1 hset rfl⟩

/-- The DB proxy's answer keeps every registration, but that of a connection whose login it refuses. -/
theorem validateResponse_sound {env : Env} {pdu : Pdu} {result : Except Stop Unit} (hs : s.Sound none)
    (hl : ClosedOnce log s) (h : (handleValidateResponse env pdu).run s = ⟨result, s', out⟩)
    (hres : result ≠ .error .undefinedBehaviour) : s'.Sound none ∧ ClosedOnce (log ++ out) s' := by
  rcases handleValidateResponse_cases h hres with ⟨rfl, rfl⟩ | ⟨msg, r, u, c, conn, -, hreach, ⟨-, haccept⟩ | ⟨-, hrefuse⟩⟩
  · rw [List.append_nil]
    exact ⟨hs, hl⟩
  · obtain ⟨hkeep, hout⟩ := keeps_acceptLogin haccept
    exact ⟨sound_of_keeps hs hkeep, closedOnce_of_keeps hl hkeep hout⟩
  · -- whoever waits is registered
    obtain ⟨conn', hc, hmap, -⟩ := hs.waiting msg.userName r u c hreach.name_eq hreach.user_eq hreach.waits
    obtain ⟨out', hclose, rfl⟩ := run_emit_bind_eq_ok hrefuse
    have hl' : ClosedOnce (log ++ [.send c (.client c) (mkPdu sidLogin .loginResUserlogin pdu.seqNum (.imLoginRes
        { serverTime := env.now, resultCode := refuseReasonDbValidateFailed,
          resultString := some (msg.resultString.getD ""), onlineStatus := none, userInfo := none }))]) s := by
      refine closedOnce_append hl (fun d => Iff.rfl) (fun d k => by cases k <;> rfl) fun d p hmem => ?_
      cases List.mem_singleton.1 hmem
    obtain ⟨hs', hl'', -⟩ := close_sound hs hl' (not_tornDown_of_map hc hmap) hclose
    rw [List.append_assoc] at hl''
    exact ⟨hs', hl''⟩

/-- A new connection. -/
theorem accept_sound {handle : Nat} (tick clientType : Nat) (hs : s.Sound none) (hl : ClosedOnce log s) (hc : s.conns c = none)
    (hfree : s.msgConnMap[handle]? = none) :
    Server.Sound none { s.setConn c (newMsgConn handle tick clientType) with msgConnMap := s.msgConnMap.insert handle c } ∧
    ClosedOnce log { s.setConn c (newMsgConn handle tick clientType) with msgConnMap := s.msgConnMap.insert handle c } := by
  have hconns : ∀ d conn, (s.setConn c (newMsgConn handle tick clientType)).conns d = some conn →
      (d = c ∧ conn = newMsgConn handle tick clientType) ∨ (d ≠ c ∧ s.conns d = some conn) := by
    intro d conn hd
    rw [Server.conns_setConn] at hd
    split at hd
    · exact .inl ⟨‹_›, (Option.some.inj hd).symm⟩
    · exact .inr ⟨‹_›, hd⟩
  have hold : ∀ d conn, s.conns d = some conn → (s.setConn c (newMsgConn handle tick clientType)).conns d = some conn := by
    intro d conn hd
    rw [Server.conns_setConn, if_neg, hd]
    rintro rfl
    rw [hc] at hd
    cases hd
  -- the map of connections is as it was for every other connection
  have hmap : ∀ d conn, s.conns d = some conn →
      ((s.msgConnMap.insert handle c)[conn.handle]? = some d ↔ s.msgConnMap[conn.handle]? = some d) := by
    intro d conn hd
    rw [TreeMap.getElem?_insert]
    split
    · rename_i heq
      rw [← Nat.compare_eq_eq.1 heq, hfree]
      refine ⟨fun h => ?_, fun h => (by cases h)⟩
      rw [← Option.some.inj h, hc] at hd
      cases hd
    · exact Iff.rfl
  constructor
  · refine ⟨?_, ?_, hs.names_lt, hs.names_eq, ?_⟩
    · intro handle' d hd
      change (s.msgConnMap.insert handle c)[handle']? = some d at hd
      rw [TreeMap.getElem?_insert] at hd
      split at hd
      · rename_i heq
        rw [← Option.some.inj hd, ← Nat.compare_eq_eq.1 heq]
        exact ⟨newMsgConn handle tick clientType, (Server.conns_setConn s c _ c).trans (if_pos rfl), rfl⟩
      · obtain ⟨conn, hd0, hh⟩ := hs.mapped handle' d hd
        exact ⟨conn, hold d conn hd0, hh⟩
    · intro d conn hd
      rcases hconns d conn hd with ⟨rfl, rfl⟩ | ⟨hdc, hd0⟩
      · rw [Server.holders]
        change 1 = (if (s.msgConnMap.insert handle d)[handle]? = some d then 1 else 0) + 0
        rw [TreeMap.getElem?_insert, if_pos (Nat.compare_eq_eq.2 rfl), if_pos rfl]
      · rw [hs.counted d conn hd0, Server.holders, Server.holders]
        simp only [hmap d conn hd0]
    · intro name r u d hr hu hd
      obtain ⟨conn, hd0, hreg, hname⟩ := hs.waiting name r u d hr hu hd
      exact ⟨conn, hold d conn hd0, (hmap d conn hd0).2 hreg, hname⟩
  · have htorn : ∀ d, s.TornDown d → Server.TornDown
        { s.setConn c (newMsgConn handle tick clientType) with msgConnMap := s.msgConnMap.insert handle c } d := by
      rintro d ⟨conn, hd, hne⟩
      exact ⟨conn, hold d conn hd, fun h => hne ((hmap d conn hd).1 h)⟩
    exact ⟨hl.once, fun d hd => hl.untouched d fun h => hd (htorn d h), hl.silent⟩

theorem onReadBegin_sound {tick : Nat} (hs : s.Sound none) (hl : ClosedOnce log s)
    (h : (onReadBegin c tick).run s = ⟨.ok (), s', out⟩) :
    s'.Sound (some c) ∧ ClosedOnce (log ++ out) s' ∧ (∃ conn, s'.conns c = some conn) ∧ (s'.TornDown c ↔ s.TornDown c) := by
  obtain ⟨_, s1, out1, out2, hadd, h1, rfl⟩ := run_bind_eq_ok h
  obtain ⟨rfl, hs1, hl1, htorn1⟩ := addRef_sound hs hl hadd
  obtain ⟨conn, s2, out3, out4, hconn, h2, rfl⟩ := run_bind_eq_ok h1
  obtain ⟨rfl, hc, -, rfl⟩ := getConn_eq_ok hconn
  obtain ⟨-, rfl, rfl⟩ := (Outcome.mk.injEq ..).mp h2
  rw [List.nil_append, List.nil_append, List.append_nil]
  refine ⟨sound_setConn hs1 hc rfl rfl (hs1.counted c conn hc) fun _ _ => Iff.rfl, closedOnce_setConn hl1 hc rfl,
    ⟨_, (Server.conns_setConn s2 c _ c).trans (if_pos rfl)⟩, ?_⟩
  rw [← htorn1 c]
  exact tornDown_setConn hc (by rfl) c

/-- Nothing happens to the connections. -/
theorem inv_of_idle {l' : Loop} (hidle : l'.reading = none) (hs : l'.server.Sound none)
    (hl : ClosedOnce (log ++ out) l'.server) : TeardownInv (log ++ out) l' := by
  refine ⟨by rw [hidle]; exact hs, hl, fun r hr => ?_⟩
  rw [hidle] at hr
  cases hr

/-- Every event between two reads keeps the invariant. -/
theorem inv_idleStep {l l' : Loop} {e : Event} (hI : TeardownInv log l) (hidle : l.reading = none)
    (h : l.idleStep e = some (l', out)) : TeardownInv (log ++ out) l' := by
  have hs : l.server.Sound none := by
    have := hI.sound
    rwa [hidle] at this
  have hl := hI.closed
  have hsame : some (l, []) = some (l', out) → TeardownInv (log ++ out) l' := by
    intro heq
    obtain ⟨rfl, rfl⟩ := Prod.mk.inj (Option.some.inj heq)
    rw [List.append_nil]
    exact hI
  cases e with
  | accept c handle tick clientType =>
    simp only [Loop.idleStep] at h
    split at h
    · rename_i hfresh
      obtain ⟨rfl, rfl⟩ := Prod.mk.inj (Option.some.inj h)
      obtain ⟨hs', hl'⟩ := accept_sound tick clientType hs hl hfresh.1 hfresh.2
      exact inv_of_idle hidle hs' (by rwa [List.append_nil])
    · cases h
  | readBegin handle tick pdus fails =>
    simp only [Loop.idleStep] at h
    split at h
    · rename_i c hfind
      obtain ⟨hrun, hreading⟩ := Loop.exec_eq_some_of_neverThrows (neverThrows_onReadBegin c tick) h
      obtain ⟨hs', hl', hc, htorn⟩ := onReadBegin_sound hs hl hrun
      refine ⟨by rw [hreading]; exact hs', hl', fun r hr => ?_⟩
      rw [hreading] at hr
      obtain rfl := Option.some.inj hr
      exact ⟨hc, fun hd => absurd (htorn.1 hd) (not_tornDown_of_find hs hfind)⟩
    · exact hsame h
  | readStep env => cases h
  | readEnd => cases h
  | peerClose handle =>
    simp only [Loop.idleStep] at h
    split at h
    · rename_i c hfind
      obtain ⟨hrun, hreading⟩ := Loop.exec_eq_some_of_neverThrows (neverThrows_onPeerClose c) h
      obtain ⟨hs', hl'⟩ := onPeerClose_sound hs hl (not_tornDown_of_find hs hfind) hrun
      exact inv_of_idle hreading hs' hl'
    · exact hsame h
  | timer handle currTick =>
    simp only [Loop.idleStep] at h
    split at h
    · rename_i c hfind
      obtain ⟨hrun, hreading⟩ := Loop.exec_eq_some_of_neverThrows (neverThrows_onTimer c currTick) h
      obtain ⟨hs', hl'⟩ := onTimer_sound hs hl (not_tornDown_of_find hs hfind) hrun
      exact inv_of_idle hreading hs' hl'
    · exact hsame h
  | validateResponse env pdu =>
    obtain ⟨result, hrun, hreading, hres⟩ := Loop.exec_eq_some h
    obtain ⟨hs', hl'⟩ := validateResponse_sound hs hl hrun (by rcases hres with rfl | ⟨e, rfl⟩ <;> intro h <;> cases h)
    exact inv_of_idle hreading hs' hl'
  | routeKick pdu =>
    obtain ⟨result, hrun, hreading, -⟩ := Loop.exec_eq_some h
    have hserves := FlagsAux.serves_handleRouteKickUser (s := l.server) pdu
    rw [Act.Does, hrun] at hserves
    have hkeep := keeps_of_serves hserves
    exact inv_of_idle hreading (sound_of_keeps hs hkeep)
      (closedOnce_of_keeps hl hkeep fun e he => harmless_of_quiet (hserves.quiet e he))
  | backends b =>
    obtain ⟨rfl, rfl⟩ := Prod.mk.inj (Option.some.inj h)
    rw [List.append_nil]
    refine ⟨?_, ⟨hl.once, hl.untouched, hl.silent⟩, fun r hr => ?_⟩
    · rw [hidle]
      exact ⟨hs.mapped, hs.counted, hs.names_lt, hs.names_eq, hs.waiting⟩
    · rw [hidle] at hr
      cases hr

/-- What handling a PDU does: it keeps every registration, but that of its own connection when it closes it. -/
theorem dispatch_sound {env : Env} {pdu : Pdu} {conn : MsgConn} {result : Except Stop Unit} (hs : s.Sound user)
    (hl : ClosedOnce log s) (hreg : ¬s.TornDown c) (hc : s.conns c = some conn) (hlive : conn.refCount ≠ 0)
    (hfresh : ∀ msg q u, pdu.commandId = .loginReqUserlogin → conn.loginName.length = 0 → loginRefusal s = none →
      pdu.body = .imLoginReq msg → msg.userName ≠ "" → s.getImUserByLoginName "" = some q → s.users q = some u →
      c ∉ u.unvalidateConnSet)
    (h : (dispatch env c pdu).run s = ⟨result, s', out⟩) (hres : result ≠ .error .undefinedBehaviour) :
    s'.Sound user ∧ ClosedOnce (log ++ out) s' ∧ (∃ conn', s'.conns c = some conn') ∧
      (s'.TornDown c → ClosesConn s conn pdu ∧ result = .ok ()) := by
  have hkeeps : s.Keeps s' → (∀ e ∈ out, e.Harmless) → s'.Sound user ∧ ClosedOnce (log ++ out) s' ∧
      (∃ conn', s'.conns c = some conn') ∧ (s'.TornDown c → ClosesConn s conn pdu ∧ result = .ok ()) := by
    intro hkeep hout
    obtain ⟨conn', hc', -⟩ := hkeep.conns_some c conn hc
    exact ⟨sound_of_keeps hs hkeep, closedOnce_of_keeps hl hkeep hout, ⟨conn', hc'⟩,
      fun hd => absurd ((tornDown_of_keeps hkeep c).1 hd) hreg⟩
  have hrefl : s.Keeps s := keeps_of_serves (ServesAux.serves_refl s)
  -- an answer is put out before the connection is closed
  have hclose : ∀ (before : List Effect) {out' : List Effect}, (∀ e ∈ before, e.Harmless) → (close c).run s = ⟨.ok (), s', out'⟩ →
      out = before ++ out' → ClosesConn s conn pdu → result = .ok () → s'.Sound user ∧ ClosedOnce (log ++ out) s' ∧
      (∃ conn', s'.conns c = some conn') ∧ (s'.TornDown c → ClosesConn s conn pdu ∧ result = .ok ()) := by
    intro before out' hbefore hrun heq hcloses hok
    obtain ⟨hs', hl', hc', -⟩ := close_sound hs (closedOnce_of_keeps hl hrefl hbefore) hreg hrun
    rw [heq, ← List.append_assoc]
    exact ⟨hs', hl', hc', fun _ => ⟨hcloses, hok⟩⟩
  by_cases hlogin : pdu.commandId = .loginReqUserlogin
  · rw [dispatch, hlogin] at h
    dsimp only at h
    have hok : result = .ok () := by
      cases result with
      | ok x => rfl
      | error e =>
        have := neverThrows_handleLoginRequest env c pdu s e (by rw [h])
        rw [this] at hres
        exact absurd rfl hres
    rw [hok] at h
    by_cases hempty : conn.loginName.length = 0
    · cases hrefuse : loginRefusal s with
      | some reason =>
        obtain ⟨answer, out', rfl, hrun⟩ := login_refused_ok hc hlive (not_not.2 hempty) hrefuse h
        refine hclose [_] ?_ hrun rfl (.inr ⟨hlogin, hempty, by rw [hrefuse]; exact fun h => by cases h⟩) hok
        intro e he
        rw [List.mem_singleton.1 he]
        trivial
      | none =>
        by_cases hbody : ∃ msg, pdu.body = .imLoginReq msg
        · obtain ⟨msg, hbody⟩ := hbody
          obtain ⟨hs', htorn, hout⟩ := sound_login hs hc (map_of_not_tornDown hc hreg) hlive (not_not.2 hempty) hrefuse hbody
            (fun hne q u => hfresh msg q u hlogin hempty hrefuse hbody hne) h
          have hnot : ¬s'.TornDown c := fun hd => hreg ((htorn c).1 hd)
          refine ⟨hs', ?_, ?_, fun hd => absurd hd hnot⟩
          · refine closedOnce_append hl htorn (countP_of_harmless hout) fun d p hmem => ?_
            exact absurd rfl (not_handlePdu_of_harmless (hout _ hmem) d p)
          · obtain ⟨u, -, rfl, -⟩ := login_accepted_ok hc hlive (not_not.2 hempty) hrefuse hbody h
            have hconns := withUser_conns (s.setConn c (conn.logIn msg)) msg.userName
            exact ⟨conn.logIn msg, by
              change (Server.withUser _ msg.userName).1.conns c = _
              rw [hconns, Server.conns_setConn, if_pos rfl]⟩
        · rw [run_login_unparsed hc hlive (not_not.2 hempty) hrefuse fun msg hmsg => hbody ⟨msg, hmsg⟩] at h
          obtain ⟨-, rfl, rfl⟩ := (Outcome.mk.injEq ..).mp h
          exact hkeeps hrefl (List.forall_mem_nil _)
    · rw [run_login_ignored hc hlive hempty] at h
      obtain ⟨-, rfl, rfl⟩ := (Outcome.mk.injEq ..).mp h
      exact hkeeps hrefl (List.forall_mem_nil _)
  · by_cases hlogout : pdu.commandId = .loginReqLoginout
    · rw [dispatch, hlogout] at h
      dsimp only at h
      have hok : result = .ok () := by
        cases result with
        | ok x => rfl
        | error e =>
          have := neverThrows_handleLoginOutRequest c pdu s e (by rw [h])
          rw [this] at hres
          exact absurd rfl hres
      rw [hok] at h
      rw [handleLoginOutRequest, run_bind_nil (run_getConn hc hlive)] at h
      obtain ⟨_, s1, out1, out2, hdb, h1, rfl⟩ := run_bind_eq_ok h
      rw [run_sendDb] at hdb
      obtain ⟨-, rfl, rfl⟩ := (Outcome.mk.injEq ..).mp hdb
      obtain ⟨out', h2, rfl⟩ := run_emit_bind_eq_ok h1
      refine hclose (_ ++ [_]) ?_ h2 (List.append_cons ..) (.inl hlogout) hok
      intro e he
      rcases List.mem_append.1 he with he | he
      · split at he
        · rw [List.mem_singleton.1 he]
          trivial
        · cases he
      · rw [List.mem_singleton.1 he]
        trivial
    · have hserves := does_dispatch env s c hlogin hlogout
      rw [Act.Does, h] at hserves
      exact hkeeps (keeps_of_serves hserves) fun e he => harmless_of_quiet (hserves.quiet e he)

/-- Every step of a read keeps the invariant, when it meets the condition. -/
theorem inv_readingStep {l l' : Loop} {r : Reading} {e : Event} (hI : TeardownInv log l) (hr : l.reading = some r)
    (hmeets : TeardownMeets l e) (h : l.readingStep r e = some (l', out)) : TeardownInv (log ++ out) l' := by
  have hs : l.server.Sound (some r.conn) := by
    have := hI.sound
    rwa [hr] at this
  have hl := hI.closed
  obtain ⟨⟨conn, hc⟩, hlast⟩ := hI.reading r hr
  cases e with
  | readStep env =>
    obtain ⟨pdu, rest, result, hrest, hrun, hresult⟩ := Loop.readingStep_eq_some h
    -- something is left of the batch, so the connection is registered
    have hreg : ¬l.server.TornDown r.conn := by
      intro hd
      obtain ⟨hnil, -⟩ := hlast hd
      rw [hrest] at hnil
      cases hnil
    have hres : result ≠ .error .undefinedBehaviour := by
      rintro rfl
      rcases hresult with ⟨h, -⟩ | ⟨⟨e, h⟩, -⟩ <;> cases h
    have hhandled : ClosedOnce (log ++ [.handlePdu r.conn pdu]) l.server := by
      refine closedOnce_append hl (fun d => Iff.rfl) (fun d k => by cases k <;> rfl) fun d p hmem => ?_
      obtain ⟨rfl, -⟩ := (Effect.handlePdu.injEq ..).mp (List.mem_singleton.1 hmem)
      exact hreg
    have hnext : ∀ r', l'.reading = some r' → r'.conn = r.conn := by
      intro r' hr'
      rcases hresult with ⟨-, hreading⟩ | ⟨-, hreading⟩
      · rw [hreading] at hr'
        rw [← Option.some.inj hr']
      · rw [hreading] at hr'
        rw [← Option.some.inj hr']
    have huser : l'.reading.map Reading.conn = some r.conn := by
      rcases hresult with ⟨-, hreading⟩ | ⟨-, hreading⟩
      · rw [hreading]
        rfl
      · rw [hreading]
        rfl
    obtain ⟨conn', hc', hlive, ⟨hauth, rfl, hstate, rfl⟩ | ⟨hpass, out', rfl, hdispatch⟩⟩ := handlePdu_cases hrun hres
    · refine ⟨by rw [huser, hstate]; exact hs, by rw [hstate]; exact hhandled, fun r' hr' => ?_⟩
      rw [hnext r' hr', hstate]
      exact ⟨⟨conn, hc⟩, fun hd => absurd hd hreg⟩
    · obtain ⟨hcloses, hfresh⟩ := hmeets env r pdu rest conn' rfl hr hrest hc' hpass
      obtain ⟨hs', hl', hconn, htorn⟩ := dispatch_sound hs hhandled hreg hc' hlive hfresh hdispatch hres
      rw [List.append_assoc] at hl'
      refine ⟨by rw [huser]; exact hs', hl', fun r' hr' => ?_⟩
      rw [hnext r' hr']
      refine ⟨hconn, fun hd => ?_⟩
      obtain ⟨hclosing, rfl⟩ := htorn hd
      obtain ⟨hnil, hfails⟩ := hcloses hclosing
      rcases hresult with ⟨-, hreading⟩ | ⟨⟨e, he⟩, -⟩
      · rw [hreading] at hr'
        rw [← Option.some.inj hr']
        exact ⟨hnil, hfails⟩
      · cases he
  | readEnd =>
    simp only [Loop.readingStep] at h
    split at h
    · obtain ⟨hrun, hreading⟩ := Loop.exec_eq_some_of_neverThrows (neverThrows_onReadEnd r.conn r.fails) h
      rw [onReadEnd] at hrun
      cases hfails : r.fails with
      | true =>
        have hreg : ¬l.server.TornDown r.conn := by
          intro hd
          rw [(hlast hd).2] at hfails
          cases hfails
        rw [hfails] at hrun
        obtain ⟨_, s1, out1, out2, hclose, h1, rfl⟩ := run_bind_eq_ok hrun
        obtain ⟨hs1, hl1, -⟩ := close_sound hs hl hreg hclose
        obtain ⟨rfl, hs2, hl2⟩ := releaseRef_sound hs1 hl1 h1
        rw [List.append_nil]
        have hl3 : ClosedOnce (log ++ out1) _ := hl2
        exact inv_of_idle hreading hs2 hl3
      | false =>
        rw [hfails] at hrun
        obtain ⟨rfl, hs2, hl2⟩ := releaseRef_sound hs hl hrun
        exact inv_of_idle hreading hs2 (by rwa [List.append_nil])
    · cases h
  | _ => cases h

/-- A run whose steps all meet the condition keeps the invariant. -/
theorem inv_of_run {b : Backends} {log : List Effect} {l : Loop}
    (h : Machine.Run Loop.step TeardownMeets (Loop.init b) log l) : TeardownInv log l := by
  refine h.invariant ?_ fun hI hmeets hstep => ?_
  · have hempty : ∀ handle : Nat, (∅ : TreeMap Nat ConnId)[handle]? = none := fun _ => TreeMap.getElem?_emptyc
    refine ⟨⟨?_, fun c conn hc => (by cases hc), ?_, ?_, ?_⟩, ⟨fun c k => Nat.zero_le _, fun c _ k => rfl,
      fun c => List.Pairwise.nil⟩, fun r hr => by cases hr⟩
    · intro handle c hc
      change (∅ : TreeMap Nat ConnId)[handle]? = some c at hc
      rw [TreeMap.getElem?_emptyc] at hc
      cases hc
    · intro name r hr
      change (∅ : TreeMap String UserRef)[name]? = some r at hr
      rw [TreeMap.getElem?_emptyc] at hr
      cases hr
    · intro name r u _ hu
      cases hu
    · intro name r u c _ hu
      cases hu
  · rw [Loop.step] at hstep
    split at hstep
    · exact inv_idleStep hI ‹_› hstep
    · exact inv_readingStep hI ‹_› hmeets hstep

/-- No other server is connected. -/
def noBackends : Backends :=
  { dbServerList := [], dbServerLoginCount := 0, loginServerList := [], routeServerList := [], masterRs := none,
    fileServerList := [] }

/-- The time is zero. -/
def zeroEnv : Env := { now := 0, tick := 0, random := 0, serialize := fun _ => [] }

/-- A request to log out. -/
def logout : Pdu := mkPdu sidLogin .loginReqLoginout 1 (.unparsed [])

/-- A client connects, and sends two requests to log out at once. -/
def twoLogouts : List Event :=
  [.accept 0 5 0 1, .readBegin 5 0 [logout, logout] false, .readStep zeroEnv, .readStep zeroEnv]

/-- The connection is closed twice, and its reference count drops to zero while it is read from. -/
theorem twoLogouts_closes : (Machine.steps Loop.step (Loop.init noBackends) twoLogouts).any fun (_, log) =>
    log.countP (CloseEffect.netlibClose.is 0) = 2 := by
  decide

end TeardownRunAux

open TeardownRunAux

/-- Every run in which nothing of the batch is left when a PDU closes its connection, and in which nobody who waits under the
empty login name logs in under another, tears each connection down once. -/
theorem teardown_once (b : Backends) (log : List Effect) (l : Loop)
    (hrun : Machine.Run Loop.step TeardownMeets (Loop.init b) log l) : TornDownProperly log l := by
  obtain ⟨hs, hl, -⟩ := inv_of_run hrun
  refine ⟨hl.once, fun c conn hc => Nat.le_of_eq (hs.counted c conn hc).symm, ?_, hl.silent⟩
  intro name r u c hr hu hc
  obtain ⟨conn, hconn, hmap, -⟩ := hs.waiting name r u c hr hu hc
  refine ⟨conn, hconn, ?_⟩
  rw [hs.counted c conn hconn, Server.holders, if_pos hmap]
  exact Nat.ne_of_gt (Nat.lt_of_lt_of_le Nat.zero_lt_one (Nat.le_add_right _ _))

/-- A client that logs out with the last PDU of a batch is closed once. -/
theorem teardown_once_logout : ∃ log l, Machine.Run Loop.step TeardownMeets (Loop.init noBackends) log l ∧
    log.countP (CloseEffect.netlibClose.is 0) = 1 ∧ TornDownProperly log l := by
  have hidle : ∀ l e, (∀ env, e ≠ .readStep env) → TeardownMeets l e := fun l e he env _ _ _ _ h => absurd h (he env)
  have hlast : ∀ s, TeardownMeets ⟨s, some ⟨0, [logout], false⟩⟩ (.readStep zeroEnv) := by
    intro s env r pdu rest conn _ hr hrest _ _
    obtain rfl := Option.some.inj hr
    obtain ⟨rfl, rfl⟩ := List.cons.inj hrest
    exact ⟨fun _ => ⟨rfl, rfl⟩, fun msg q u hcmd => by cases hcmd⟩
  have hrun : ∃ log l, Machine.Run Loop.step TeardownMeets (Loop.init noBackends) log l ∧
      log.countP (CloseEffect.netlibClose.is 0) = 1 :=
    ⟨_, _, .step (.step (.step (.step .start (hidle _ (.accept 0 5 0 1) nofun) rfl)
      (hidle _ (.readBegin 5 0 [logout] false) nofun) rfl) (hlast _) rfl) (hidle _ .readEnd nofun) rfl, by decide⟩
  obtain ⟨log, l, hrun, hcount⟩ := hrun
  exact ⟨log, l, hrun, hcount, teardown_once noBackends log l hrun⟩

/-- Two requests to log out in one batch close the connection twice. -/
theorem teardown_not_once : ¬TearsDownOnce fun _ _ => True := by
  intro hall
  obtain ⟨⟨l, log⟩, hsteps, htwice⟩ := (Option.any_eq_true ..).1 twoLogouts_closes
  have honce := (hall noBackends log l (Machine.Run.of_steps (fun _ _ => trivial) .start hsteps)).once 0 .netlibClose
  rw [of_decide_eq_true htwice] at honce
  exact absurd honce (by decide)

end TeamTalk
