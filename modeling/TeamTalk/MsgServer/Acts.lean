import TeamTalk.MsgServer.Flags
import TeamTalk.MsgServer.Validating

/-!
# What the events do

Each step of the event loop is made of a few actions: a reference is taken or given back, a request is served, a connection is
made, closed, asks to log in, or is validated. An invariant is shown for each of them, once.
-/

namespace TeamTalk

open Action

/-- What is assumed of an answer of the DB proxy: when it accepts a login, it gives the id that the login name has. -/
def AnswersWith (idOf : String → Nat) (e : Event) : Prop :=
  ∀ env pdu msg, e = .validateResponse env pdu → pdu.body = .imValidateRsp msg → msg.resultCode = 0 →
    (msg.userInfo.getD noUserInfo).userId = idOf msg.userName ∧ idOf msg.userName ≠ 0

/-- A login request that is passed on to the DB proxy meets the condition `ok`. -/
def LoginsMeet (ok : Server → ConnId → IMLoginReq → Prop) (l : Loop) (e : Event) : Prop :=
  ∀ env r pdu rest conn msg, e = .readStep env → l.reading = some r → r.rest = pdu :: rest →
    l.server.conns r.conn = some conn → pdu.commandId = .loginReqUserlogin → conn.loginName.length = 0 →
    loginRefusal l.server = none → pdu.body = .imLoginReq msg → ok l.server r.conn msg

/-- What leads from one state to another, and from one connection that is used to another. -/
inductive Server.Acts (idOf : String → Nat) (ok : Server → ConnId → IMLoginReq → Prop) :
    Option ConnId → Server → Option ConnId → Server → Prop where
  | refl {user s} : Acts idOf ok user s user s
  | trans {user user' user'' s s' s''} (h : Acts idOf ok user s user' s') (h' : Acts idOf ok user' s' user'' s'') :
    Acts idOf ok user s user'' s''
  | serves {user s s' out} (h : Serves s out s') : Acts idOf ok user s user s'
  | backends {user s} (b : Backends) : Acts idOf ok user s user { s with backends := b }
  | accept {s c handle} (tick clientType : Nat) (hc : s.conns c = none) (hfree : s.msgConnMap[handle]? = none) :
    Acts idOf ok none s none
      { s.setConn c (newMsgConn handle tick clientType) with msgConnMap := s.msgConnMap.insert handle c }
  | addRef {s s' c out} {handle : Nat} (hfind : s.msgConnMap[handle]? = some c) (h : (addRef c).run s = ⟨.ok (), s', out⟩) :
    Acts idOf ok none s (some c) s'
  | releaseRef {s s' c out} (h : (releaseRef c).run s = ⟨.ok (), s', out⟩) : Acts idOf ok (some c) s none s'
  | close {user s s' c out} (huser : user = some c ∨ user = none) (h : (close c).run s = ⟨.ok (), s', out⟩) :
    Acts idOf ok user s user s'
  | login {s s' c out conn env pdu msg} (hc : s.conns c = some conn) (hlive : conn.refCount ≠ 0)
    (hempty : ¬conn.loginName.length ≠ 0) (hrefuse : loginRefusal s = none) (hbody : pdu.body = .imLoginReq msg)
    (hok : ok s c msg) (h : (handleLoginRequest env c pdu).run s = ⟨.ok (), s', out⟩) : Acts idOf ok (some c) s (some c) s'
  | validate {s s' c out conn env msg r u seqNum} (hreach : Reaches s msg r u c conn)
    (hid : (msg.userInfo.getD noUserInfo).userId = idOf msg.userName) (hne : idOf msg.userName ≠ 0)
    (h : (acceptLogin env r c msg seqNum).run s = ⟨.ok (), s', out⟩) : Acts idOf ok none s none s'

namespace ActsAux

open ClosingAux ValidatingAux EventLoopAux

variable {idOf : String → Nat} {ok : Server → ConnId → IMLoginReq → Prop} {s s' : Server} {c : ConnId} {out : List Effect}

theorem acts_of_does {user : Option ConnId} {a : Do Unit} (ha : a.Does Serves s) {result : Except Stop Unit}
    (h : a.run s = ⟨result, s', out⟩) : s.Acts idOf ok user user s' := by
  rw [Act.Does, h] at ha
  exact .serves ha

/-! ## The events -/

theorem acts_onPeerClose {handle : Nat} (hfind : s.msgConnMap[handle]? = some c)
    (h : (onPeerClose c).run s = ⟨.ok (), s', out⟩) : s.Acts idOf ok none none s' := by
  obtain ⟨_, s1, out1, out2, hadd, h1, -⟩ := run_bind_eq_ok h
  obtain ⟨_, s2, out3, out4, hclose, hrelease, -⟩ := run_bind_eq_ok h1
  exact .trans (.addRef hfind hadd) (.trans (.close (.inl rfl) hclose) (.releaseRef hrelease))

theorem acts_onTimer {currTick : Nat} (h : (onTimer c currTick).run s = ⟨.ok (), s', out⟩) :
    s.Acts idOf ok none none s' := by
  obtain ⟨conn, s1, out1, out2, hconn, h1, -⟩ := run_bind_eq_ok h
  obtain ⟨rfl, hc, -, -⟩ := getConn_eq_ok hconn
  rw [run_bind_nil (run_setConn _ _ _)] at h1
  have hset : ∀ conn', conn.Same conn' → conn'.bKickOff = conn.bKickOff → s1.Acts idOf ok none none (s1.setConn c conn') :=
    fun conn' hsame hkick => .serves (ServesAux.does_setConn hc hsame hkick)
  have hfirst := hset { conn with msgCntPerSec := 0 } ⟨rfl, rfl, rfl, rfl, rfl, rfl⟩ rfl
  dsimp only at h1
  generalize (if checkClientTypeMobile conn.clientType = true then mobileClientTimeout else clientTimeout) = timeout at h1
  split at h1
  · exact .trans hfirst (.close (.inr rfl) h1)
  · split at h1
    · exact .trans hfirst (.close (.inr rfl) h1)
    · obtain ⟨-, rfl, -⟩ := (Outcome.mk.injEq ..).mp h1
      have hc1 : (s1.setConn c { conn with msgCntPerSec := 0 }).conns c = some { conn with msgCntPerSec := 0 } := by
        rw [Server.conns_setConn, if_pos rfl]
      exact .trans hfirst (.serves (ServesAux.does_setConn hc1 ⟨rfl, rfl, rfl, rfl, rfl, rfl⟩ rfl))

theorem acts_onReadBegin {handle tick : Nat} (hfind : s.msgConnMap[handle]? = some c)
    (h : (onReadBegin c tick).run s = ⟨.ok (), s', out⟩) : s.Acts idOf ok none (some c) s' := by
  obtain ⟨_, s1, out1, out2, hadd, h1, -⟩ := run_bind_eq_ok h
  obtain ⟨conn, s2, out3, out4, hconn, h2, -⟩ := run_bind_eq_ok h1
  obtain ⟨rfl, hc, -, -⟩ := getConn_eq_ok hconn
  obtain ⟨-, rfl, -⟩ := (Outcome.mk.injEq ..).mp h2
  exact .trans (.addRef hfind hadd) (.serves (ServesAux.does_setConn hc ⟨rfl, rfl, rfl, rfl, rfl, rfl⟩ rfl))

theorem acts_onReadEnd {fails : Bool} (h : (onReadEnd c fails).run s = ⟨.ok (), s', out⟩) :
    s.Acts idOf ok (some c) none s' := by
  rw [onReadEnd] at h
  cases fails with
  | true =>
    obtain ⟨_, s1, out1, out2, hclose, hrelease, -⟩ := run_bind_eq_ok h
    exact .trans (.close (.inl rfl) hclose) (.releaseRef hrelease)
  | false => exact .releaseRef h

/-- The DB proxy's answer does nothing, validates a connection, or closes it. -/
theorem acts_validateResponse {env : Env} {pdu : Pdu} {result : Except Stop Unit}
    (hans : AnswersWith idOf (.validateResponse env pdu)) (h : (handleValidateResponse env pdu).run s = ⟨result, s', out⟩)
    (hres : result ≠ .error .undefinedBehaviour) : s.Acts idOf ok none none s' := by
  rcases handleValidateResponse_cases h hres with ⟨rfl, -⟩ | ⟨msg, r, u, c, conn, hbody, hreach, ⟨hzero, haccept⟩ | ⟨-, hrefuse⟩⟩
  · exact .refl
  · obtain ⟨hid, hne⟩ := hans env pdu msg rfl hbody hzero
    exact .validate hreach hid hne haccept
  · obtain ⟨out', hclose, -⟩ := run_emit_bind_eq_ok hrefuse
    exact .close (.inr rfl) hclose

/-- The handler of a PDU serves a request, passes a login on, or closes its connection. -/
theorem acts_dispatch {env : Env} {pdu : Pdu} {conn : MsgConn} {result : Except Stop Unit} (hc : s.conns c = some conn)
    (hlive : conn.refCount ≠ 0)
    (hok : ∀ msg, pdu.commandId = .loginReqUserlogin → conn.loginName.length = 0 → loginRefusal s = none →
      pdu.body = .imLoginReq msg → ok s c msg)
    (h : (dispatch env c pdu).run s = ⟨result, s', out⟩) (hres : result ≠ .error .undefinedBehaviour) :
    s.Acts idOf ok (some c) (some c) s' := by
  have hnever : ∀ {a : Do Unit}, NeverThrows a → a.run s = ⟨result, s', out⟩ → a.run s = ⟨.ok (), s', out⟩ := by
    intro a ha hrun
    cases result with
    | ok x => exact hrun
    | error e =>
      have := ha s e (by rw [hrun])
      rw [this] at hres
      exact absurd rfl hres
  by_cases hlogin : pdu.commandId = .loginReqUserlogin
  · rw [dispatch, hlogin] at h
    have hrun := hnever (neverThrows_handleLoginRequest env c pdu) h
    by_cases hempty : conn.loginName.length = 0
    · cases hrefuse : loginRefusal s with
      | some reason =>
        obtain ⟨answer, out', -, hclose⟩ := login_refused_ok hc hlive (not_not.2 hempty) hrefuse hrun
        exact .close (.inl rfl) hclose
      | none =>
        by_cases hbody : ∃ msg, pdu.body = .imLoginReq msg
        · obtain ⟨msg, hbody⟩ := hbody
          exact .login hc hlive (not_not.2 hempty) hrefuse hbody (hok msg hlogin hempty hrefuse hbody) hrun
        · rw [run_login_unparsed hc hlive (not_not.2 hempty) hrefuse fun msg hmsg => hbody ⟨msg, hmsg⟩] at hrun
          obtain ⟨-, rfl, -⟩ := (Outcome.mk.injEq ..).mp hrun
          exact .refl
    · rw [run_login_ignored hc hlive hempty] at hrun
      obtain ⟨-, rfl, -⟩ := (Outcome.mk.injEq ..).mp hrun
      exact .refl
  · by_cases hlogout : pdu.commandId = .loginReqLoginout
    · rw [dispatch, hlogout] at h
      have hrun := hnever (neverThrows_handleLoginOutRequest c pdu) h
      rw [handleLoginOutRequest, run_bind_nil (run_getConn hc hlive)] at hrun
      obtain ⟨_, s1, out1, out2, hdb, h1, -⟩ := run_bind_eq_ok hrun
      rw [run_sendDb] at hdb
      obtain ⟨-, rfl, -⟩ := (Outcome.mk.injEq ..).mp hdb
      obtain ⟨out', hclose, -⟩ := run_emit_bind_eq_ok h1
      exact .close (.inl rfl) hclose
    · exact acts_of_does (does_dispatch env s c hlogin hlogout) h

/-- Every step is made of these actions. -/
theorem acts_of_step (ok : Server → ConnId → IMLoginReq → Prop) {l l' : Loop} {e : Event} (hans : AnswersWith idOf e)
    (hok : LoginsMeet ok l e) (h : l.step e = some (l', out)) :
    l.server.Acts idOf ok (l.reading.map Reading.conn) (l'.reading.map Reading.conn) l'.server := by
  rw [Loop.step] at h
  cases hreading : l.reading with
  | none =>
    rw [hreading] at h
    have hsame : some (l, []) = some (l', out) → l.server.Acts idOf ok none (l'.reading.map Reading.conn) l'.server := by
      intro heq
      obtain ⟨rfl, -⟩ := Prod.mk.inj (Option.some.inj heq)
      rw [hreading]
      exact .refl
    cases e with
    | accept c handle tick clientType =>
      simp only [Loop.idleStep] at h
      split at h
      · rename_i hfresh
        obtain ⟨rfl, -⟩ := Prod.mk.inj (Option.some.inj h)
        dsimp only
        rw [hreading]
        exact .accept tick clientType hfresh.1 hfresh.2
      · cases h
    | readBegin handle tick pdus fails =>
      simp only [Loop.idleStep] at h
      split at h
      · rename_i c hfind
        obtain ⟨hrun, hreading'⟩ := Loop.exec_eq_some_of_neverThrows (neverThrows_onReadBegin c tick) h
        rw [hreading']
        exact acts_onReadBegin hfind hrun
      · exact hsame h
    | readStep env => cases h
    | readEnd => cases h
    | peerClose handle =>
      simp only [Loop.idleStep] at h
      split at h
      · rename_i c hfind
        obtain ⟨hrun, hreading'⟩ := Loop.exec_eq_some_of_neverThrows (neverThrows_onPeerClose c) h
        rw [hreading']
        exact acts_onPeerClose hfind hrun
      · exact hsame h
    | timer handle currTick =>
      simp only [Loop.idleStep] at h
      split at h
      · rename_i c hfind
        obtain ⟨hrun, hreading'⟩ := Loop.exec_eq_some_of_neverThrows (neverThrows_onTimer c currTick) h
        rw [hreading']
        exact acts_onTimer hrun
      · exact hsame h
    | validateResponse env pdu =>
      obtain ⟨result, hrun, hreading', hres⟩ := Loop.exec_eq_some h
      rw [hreading']
      exact acts_validateResponse hans hrun (by rcases hres with rfl | ⟨e, rfl⟩ <;> intro h <;> cases h)
    | routeKick pdu =>
      obtain ⟨result, hrun, hreading', -⟩ := Loop.exec_eq_some h
      rw [hreading']
      exact acts_of_does (FlagsAux.serves_handleRouteKickUser pdu) hrun
    | backends b =>
      obtain ⟨rfl, -⟩ := Prod.mk.inj (Option.some.inj h)
      dsimp only
      rw [hreading]
      exact .backends b
  | some r =>
    rw [hreading] at h
    cases e with
    | readStep env =>
      obtain ⟨pdu, rest, result, hrest, hrun, hresult⟩ := Loop.readingStep_eq_some h
      have hres : result ≠ .error .undefinedBehaviour := by
        rintro rfl
        rcases hresult with ⟨h, -⟩ | ⟨⟨e, h⟩, -⟩ <;> cases h
      have huser : l'.reading.map Reading.conn = some r.conn := by
        rcases hresult with ⟨-, hreading'⟩ | ⟨-, hreading'⟩
        all_goals
          rw [hreading']
          rfl
      rw [huser]
      obtain ⟨conn, hc, hlive, ⟨-, -, hstate, -⟩ | ⟨-, out', -, hdispatch⟩⟩ := handlePdu_cases hrun hres
      · rw [hstate]
        exact .refl
      · exact acts_dispatch hc hlive (fun msg => hok env r pdu rest conn msg rfl hreading hrest hc) hdispatch hres
    | readEnd =>
      simp only [Loop.readingStep] at h
      split at h
      · obtain ⟨hrun, hreading'⟩ := Loop.exec_eq_some_of_neverThrows (neverThrows_onReadEnd r.conn r.fails) h
        rw [hreading']
        exact acts_onReadEnd hrun
      · cases h
    | _ => cases h

end ActsAux

end TeamTalk
