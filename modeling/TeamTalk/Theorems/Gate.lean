import TeamTalk.MsgServer.Closing
import TeamTalk.MsgServer.Flags

/-!
# What an unauthorized connection can make the server send

Before its login was accepted, and after it was kicked off, a connection should have nothing sent to others but its login
request. The authorization check lets it through unless both flags forbid it, so this depends on the commands that are sent.
-/

namespace TeamTalk

open Action

/-- The commands whose handlers may send something to others, but for the login request. -/
def Cid.reachesOthers : Cid → Bool
  | .loginReqLoginout | .loginReqDevicetoken | .loginReqKickpcclient | .loginReqPushShield | .loginReqQueryPushShield
  | .loginReqVisibleRange | .msgData | .msgListRequest | .msgGetByMsgIdReq | .msgUnreadCntRequest | .msgReadAck
  | .msgGetLatestMsgIdReq | .switchP2pCmd | .buddyListRecentContactSessionRequest | .buddyListUserInfoRequest
  | .buddyListRemoveSessionReq | .buddyListAllUserRequest | .buddyListChangeAvatarRequest
  | .buddyListChangeSignInfoRequest | .buddyListUsersStatusRequest | .buddyListDepartmentRequest
  | .groupNormalListRequest | .groupInfoRequest | .groupCreateRequest | .groupChangeMemberRequest
  | .groupShieldGroupRequest | .fileRequest | .fileHasOfflineReq | .fileAddOfflineReq | .fileDelOfflineReq
  | .fileNotifyAck => true
  | _ => false

/-- A login request that is ignored, or passed on, or refused without anything to report about the closed connection. -/
def QuietLogin (s : Server) (conn : MsgConn) : Prop :=
  conn.loginName.length ≠ 0 ∨ loginRefusal s = none ∨ (s.getDbServConn = false ∧ conn.bOpen = false)

/-- When a connection that is not open, or that is kicked off, sends a PDU: the authorization check refuses it, or its
handler keeps to the connection. -/
def GateMeets (l : Loop) (e : Event) : Prop :=
  ∀ env r pdu rest conn, e = .readStep env → l.reading = some r → r.rest = pdu :: rest →
    l.server.conns r.conn = some conn → (conn.bOpen = false ∨ conn.bKickOff = true) →
    authRefused conn pdu = true ∨
      (pdu.commandId.reachesOthers = false ∧ (pdu.commandId = .loginReqUserlogin → QuietLogin l.server conn))

/-- Nothing is sent to the DB proxy, to another server or to another client, but the request to validate a login. -/
def NothingSent (c : ConnId) (pdu : Pdu) (out : List Effect) : Prop :=
  ∀ self dest sent, .send self dest sent ∈ out → dest = .client c ∨
    (pdu.commandId = .loginReqUserlogin ∧ dest = .db ∧ sent.commandId = .otherValidateReq)

namespace GateAux

theorem nothingSent_nil (c : ConnId) (pdu : Pdu) : NothingSent c pdu [] := fun _ _ _ h => by cases h

/-- Only answers to the client. -/
theorem nothingSent_answer (c : ConnId) (pdu answer : Pdu) : NothingSent c pdu [.send c (.client c) answer] := by
  intro self dest sent h
  obtain ⟨-, rfl, -⟩ := (Effect.send.injEq ..).mp (List.mem_singleton.1 h)
  exact .inl rfl

theorem nothingSent_cons {c : ConnId} {pdu : Pdu} {e : Effect} {out : List Effect} (he : ∀ self dest sent, e ≠ .send self dest sent)
    (h : NothingSent c pdu out) : NothingSent c pdu (e :: out) := by
  intro self dest sent hm
  rcases List.mem_cons.1 hm with rfl | hm
  · exact absurd rfl (he self dest sent)
  · exact h self dest sent hm

/-- Closing a connection that is not open reports nothing, when there is no DB proxy. -/
theorem nothingSent_close {s s' : Server} {c : ConnId} {conn : MsgConn} {out : List Effect} (pdu : Pdu)
    (hc : s.conns c = some conn) (hopen : conn.bOpen = false) (hdb : s.getDbServConn = false)
    (h : (close c).run s = ⟨.ok (), s', out⟩) : NothingSent c pdu out := by
  obtain ⟨conn', s1, s2, reported, notified, hcl⟩ := ClosingAux.close_ok h
  have hconn := hcl.conn_eq
  rw [hc] at hconn
  obtain rfl := Option.some.inj hconn
  have hnotified : notified = [] := by
    rw [hcl.notified_eq, hdb]
    simp
  rw [hcl.out_eq, hnotified, List.nil_append]
  refine nothingSent_cons (by simp) (nothingSent_cons (by simp) ?_)
  have hreported := ClosingAux.closeById_ok (s := { s with msgConnMap := s.msgConnMap.erase conn.handle }) hc hcl.live hcl.byId
  have hlast : NothingSent c pdu [.releaseRef c] := nothingSent_cons (by simp) (nothingSent_nil c pdu)
  obtain ⟨-, -, rfl⟩ | ⟨r, user, -, -, -, rfl⟩ := hreported
  · exact hlast
  · rw [hopen]
    exact nothingSent_cons (by simp) hlast

/-- A quiet login request sends nothing but the request to validate it. -/
theorem nothingSent_login {s s' : Server} {c : ConnId} {conn : MsgConn} {out : List Effect} {env : Env} {pdu : Pdu}
    (hc : s.conns c = some conn) (hlive : conn.refCount ≠ 0) (hcmd : pdu.commandId = .loginReqUserlogin)
    (hquiet : QuietLogin s conn) (h : (handleLoginRequest env c pdu).run s = ⟨.ok (), s', out⟩) :
    NothingSent c pdu out := by
  have hnothing : (⟨.ok (), s, []⟩ : Outcome Server Effect Stop Unit) = ⟨.ok (), s', out⟩ → NothingSent c pdu out := by
    intro heq
    obtain ⟨-, -, rfl⟩ := (Outcome.mk.injEq ..).mp heq
    exact nothingSent_nil c pdu
  by_cases hname : conn.loginName.length ≠ 0
  · rw [ClosingAux.run_login_ignored hc hlive hname] at h
    exact hnothing h
  · cases hrefuse : loginRefusal s with
    | some reason =>
      -- a refused client is told, and closed
      obtain hlen | hnone | ⟨hdb, hopen⟩ := hquiet
      · exact absurd hlen hname
      · rw [hnone] at hrefuse
        cases hrefuse
      · obtain ⟨answer, out', rfl, hclose⟩ := ClosingAux.login_refused_ok hc hlive hname hrefuse h
        have hout := nothingSent_close pdu hc hopen hdb hclose
        intro self dest sent hm
        rcases List.mem_cons.1 hm with hm | hm
        · exact nothingSent_answer c pdu answer self dest sent (List.mem_singleton.2 hm)
        · exact hout self dest sent hm
    | none =>
      by_cases hbody : ∃ msg, pdu.body = .imLoginReq msg
      · obtain ⟨msg, hbody⟩ := hbody
        obtain ⟨user, -, -, rfl⟩ := ClosingAux.login_accepted_ok hc hlive hname hrefuse hbody h
        intro self dest sent hm
        obtain ⟨-, rfl, rfl⟩ := (Effect.send.injEq ..).mp (List.mem_singleton.1 hm)
        exact .inr ⟨hcmd, rfl, rfl⟩
      · rw [ClosingAux.run_login_unparsed hc hlive hname hrefuse fun msg hmsg => hbody ⟨msg, hmsg⟩] at h
        exact hnothing h

/-- A command that does not reach others sends nothing to them. -/
theorem nothingSent_dispatch {s s' : Server} {c : ConnId} {conn : MsgConn} {out : List Effect} {env : Env} {pdu : Pdu}
    {result : Except Stop Unit} (hc : s.conns c = some conn) (hlive : conn.refCount ≠ 0)
    (hlocal : pdu.commandId.reachesOthers = false) (hquiet : pdu.commandId = .loginReqUserlogin → QuietLogin s conn)
    (h : (dispatch env c pdu).run s = ⟨result, s', out⟩) (hres : result ≠ .error .undefinedBehaviour) :
    NothingSent c pdu out := by
  by_cases hlogin : pdu.commandId = .loginReqUserlogin
  · rw [dispatch, hlogin] at h
    cases result with
    | ok x => exact nothingSent_login hc hlive hlogin (hquiet hlogin) h
    | error e =>
      have hstop := ClosingAux.neverThrows_handleLoginRequest env c pdu s e (by rw [h])
      rw [hstop] at hres
      exact absurd rfl hres
  · have hanswer : (dispatch env c pdu).Emits (fun e => ∀ self dest sent, e = .send self dest sent → dest = .client c) s := by
      obtain ⟨version, flag, serviceId, commandId, seqNum, reversed, body⟩ := pdu
      have hsend : ∀ answer, (sendClient c c answer).Emits
          (fun e => ∀ self dest sent, e = .send self dest sent → dest = .client c) s := fun answer =>
        Emits.emit fun self dest sent he => ((Effect.send.injEq ..).mp he).2.1.symm
      cases commandId
      case loginReqUserlogin => exact absurd rfl hlogin
      case otherHeartbeat => exact hsend _
      case msgTimeRequest => exact hsend _
      case msgDataAck =>
        change (handleClientMsgDataAck c _).Emits _ s
        unfold handleClientMsgDataAck
        split
        · split
          · exact emits_getConn_bind fun _ _ _ => Emits.modify _
          · exact Emits.pure ()
        · exact Emits.pure ()
      all_goals first
        | exact Bool.noConfusion (show true = false from hlocal)
        | exact Emits.pure ()
    intro self dest sent hm
    rw [Act.Emits, h] at hanswer
    exact .inl (hanswer _ hm self dest sent rfl)

end GateAux

open GateAux

/-- In every run whose steps all meet `ok`, a PDU of a connection that has not been validated, or that has been kicked off,
sends nothing to others when it is handled. -/
def UnauthorizedSendsNothing (ok : Loop → Event → Prop) : Prop :=
  ∀ (b : Backends) (log : List Effect) (l : Loop), Machine.Run Loop.step ok (Loop.init b) log l →
    ∀ (env : Env) (r : Reading) (pdu : Pdu) (rest : List Pdu) (l' : Loop) (out : List Effect),
      l.reading = some r → r.rest = pdu :: rest → ok l (.readStep env) → l.step (.readStep env) = some (l', out) →
      .setOpen r.conn ∉ log ∨ .setKickOff r.conn ∈ log → NothingSent r.conn pdu out

/-- The gate holds in every run in which each PDU of a connection that is not open, or is kicked off, is refused or keeps to
the connection. -/
theorem gate_kept (b : Backends) (log : List Effect) (l : Loop) (hrun : Machine.Run Loop.step GateMeets (Loop.init b) log l)
    (env : Env) (r : Reading) (pdu : Pdu) (rest : List Pdu) (l' : Loop) (out : List Effect) (hr : l.reading = some r)
    (hrest : r.rest = pdu :: rest) (hmeets : GateMeets l (.readStep env)) (hstep : l.step (.readStep env) = some (l', out))
    (hauth : .setOpen r.conn ∉ log ∨ .setKickOff r.conn ∈ log) : NothingSent r.conn pdu out := by
  rw [Loop.step, hr] at hstep
  obtain ⟨pdu', rest', result, hrest', hpdu, hresult⟩ := Loop.readingStep_eq_some hstep
  rw [hrest] at hrest'
  obtain ⟨rfl, rfl⟩ := List.cons.inj hrest'
  have hres : result ≠ .error .undefinedBehaviour := by
    rintro rfl
    obtain ⟨h, -⟩ | ⟨⟨e, h⟩, -⟩ := hresult
    · cases h
    · cases h
  obtain ⟨conn, hc, hlive, ⟨-, -, -, rfl⟩ | ⟨hpass, out', rfl, hdispatch⟩⟩ := handlePdu_cases hpdu hres
  · exact nothingSent_cons (by simp) (nothingSent_nil r.conn pdu)
  · -- the log says what the flags are
    obtain ⟨hopen, hkick⟩ := (flagsLogged_of_run hrun).2 r.conn conn hc
    have hflags : conn.bOpen = false ∨ conn.bKickOff = true := by
      rcases hauth with hauth | hauth
      · exact .inl (Bool.eq_false_iff.2 fun h => hauth (hopen.1 h))
      · exact .inr (hkick.2 hauth)
    rcases hmeets env r pdu rest conn rfl hr hrest hc hflags with hrefused | ⟨hlocal, hquiet⟩
    · rw [hpass] at hrefused
      cases hrefused
    · exact nothingSent_cons (by simp) (nothingSent_dispatch hc hlive hlocal hquiet hdispatch hres)

namespace GateAux

/-- One server of each kind. -/
def someBackends : Backends :=
  { dbServerList := [true], dbServerLoginCount := 0, loginServerList := [true], routeServerList := [true],
    masterRs := some 0, fileServerList := [] }

/-- The outside world, where nothing matters. -/
def anyEnv : Env := { now := 0, tick := 0, random := 0, serialize := fun _ => [] }

/-- A request for the server's time. -/
def timeRequest : Pdu := mkPdu sidMsg .msgTimeRequest 1 (.unparsed [])

/-- A message to user 4. -/
def messageTo4 : Pdu :=
  mkPdu sidMsg .msgData 1 (.imMsgData
    { fromUserId := 0, toSessionId := 4, msgId := 0, createTime := 0, msgType := 1, msgData := [1], attachData := none })

/-- A client connects, and a message arrives before it has logged in. -/
def messageBeforeLogin : List Event := [.accept 0 5 0 1, .readBegin 5 0 [messageTo4] false]

/-- The message goes to the DB proxy, as one of user 0. -/
theorem messageBeforeLogin_sent : (Machine.steps Loop.step (Loop.init someBackends) messageBeforeLogin).any fun (l, log) =>
    log = [] ∧ (l.reading.any fun r => r.conn = 0 ∧ r.rest = [messageTo4]) ∧
      (l.step (.readStep anyEnv)).any fun (_, out) => out.any fun e =>
        match e with
        | .send _ dest _ => dest = .db
        | _ => false := by
  decide

end GateAux

/-- A client asks for the time before it has logged in: it is answered, and nothing goes to others. -/
theorem gate_kept_timeRequest : NothingSent 0 timeRequest [.handlePdu 0 timeRequest,
    .send 0 (.client 0) (mkPdu sidMsg .msgTimeResponse 1 (.imClientTimeRsp { serverTime := 0 }))] := by
  have hidle : ∀ l e, (∀ env, e ≠ .readStep env) → GateMeets l e := fun l e he env _ _ _ _ h => absurd h (he env)
  refine gate_kept someBackends _ _ (.step (.step .start (hidle _ (.accept 0 5 0 1) nofun) rfl)
    (hidle _ (.readBegin 5 0 [timeRequest] false) nofun) rfl) anyEnv ⟨0, [timeRequest], false⟩ timeRequest [] _ _ rfl rfl ?_
    rfl (.inl List.not_mem_nil)
  intro env r pdu rest conn _ hr hrest _ _
  obtain rfl := Option.some.inj hr
  obtain ⟨rfl, rfl⟩ := List.cons.inj hrest
  exact .inr ⟨rfl, nofun⟩

/-- A client that has not logged in has a message sent to the DB proxy. -/
theorem gate_not_kept : ¬UnauthorizedSendsNothing fun _ _ => True := by
  intro hall
  obtain ⟨⟨l, log⟩, hsteps, hsent⟩ := (Option.any_eq_true ..).1 messageBeforeLogin_sent
  obtain ⟨rfl, hr, hstep⟩ := of_decide_eq_true hsent
  obtain ⟨r, hr, hfirst⟩ := (Option.any_eq_true ..).1 hr
  obtain ⟨-, hrest⟩ := of_decide_eq_true hfirst
  obtain ⟨⟨l', out⟩, hstep, hout⟩ := (Option.any_eq_true ..).1 hstep
  obtain ⟨e, he, hdb⟩ := List.any_eq_true.1 hout
  have hnothing := hall someBackends [] l (Machine.Run.of_steps (fun _ _ => trivial) .start hsteps) anyEnv r messageTo4 [] l'
    out hr hrest trivial hstep (.inl List.not_mem_nil)
  cases e with
  | send self dest sent =>
    have hdest : dest = .db := of_decide_eq_true hdb
    rcases hnothing self dest sent he with h | ⟨h, -, -⟩
    · rw [hdest] at h
      cases h
    · cases h
  | _ => cases hdb

end TeamTalk
