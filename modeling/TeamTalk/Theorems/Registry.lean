import TeamTalk.MsgServer.Registry
import TeamTalk.MsgServer.Teardown

/-!
# The registry of users is kept

Everything of the registry holds in every run, but one thing: a login request is also passed on for a connection that was
closed earlier in the same batch, which then waits for its login for ever; and a connection that logged in under the empty name
may log in once more, and waits at two users, of which `Close` looks at one.
-/

namespace TeamTalk

open Action
open Std (TreeMap TreeSet)

/-- A connection that is not closed: the map of connections has it under its handle. -/
def Server.Registered (s : Server) (c : ConnId) : Prop :=
  ∃ conn, s.conns c = some conn ∧ conn.refCount ≠ 0 ∧ s.msgConnMap[conn.handle]? = some c

/-- A login request is passed on for a connection that is not closed, and that does not wait under the empty login name when
it asks for another. -/
def FreshLogin (s : Server) (c : ConnId) (msg : IMLoginReq) : Prop :=
  s.Registered c ∧ (msg.userName ≠ "" → ∀ q user, s.getImUserByLoginName "" = some q → s.users q = some user →
    c ∉ user.unvalidateConnSet)

/-- What holds of the registry in a state: both maps lead to existing users; one that is found by id has this id and a
connection; a validated connection is in the map of the user of its id under its own handle, and nowhere else; and whatever a
user points to is not closed. -/
structure RegistryRight (s : Server) : Prop where
  byName : ∀ name r, s.getImUserByLoginName name = some r → ∃ user, s.users r = some user ∧ user.loginName = name
  byId : ∀ userId r, s.getImUserById userId = some r →
    ∃ user, s.users r = some user ∧ user.userId = userId ∧ user.isMsgConnEmpty = false
  validated : ∀ c conn, s.conns c = some conn → s.msgConnMap[conn.handle]? = some c → conn.bOpen = true →
    ∃ r user, s.getImUserById conn.userId = some r ∧ s.users r = some user ∧ user.connMap[conn.handle]? = some c ∧
      ∀ q u (handle : Nat), s.users q = some u → u.connMap[handle]? = some c → q = r ∧ handle = conn.handle
  notClosed : ∀ r user c, s.users r = some user →
    c ∈ user.unvalidateConnSet ∨ (∃ handle : Nat, user.connMap[handle]? = some c) → s.Registered c

/-- A user that is deleted had no validated connection, was not registered under an id, and is found by nobody afterwards. -/
def DeletesSafely (s s' : Server) : Prop :=
  ∀ r user, s.users r = some user → s'.users r = none → user.isMsgConnEmpty = true ∧
    (∀ userId, s.getImUserById userId ≠ some r) ∧ (∀ userId, s'.getImUserById userId ≠ some r) ∧
    ∀ name, s'.getImUserByLoginName name ≠ some r

/-- In every run whose login requests meet `ok` the registry is right, and the answer to a login deletes users safely. -/
def RegistryKept (ok : Server → ConnId → IMLoginReq → Prop) : Prop :=
  ∀ (idOf : String → Nat) (b : Backends) (log : List Effect) (l : Loop),
    Machine.Run Loop.step (fun l e => AnswersWith idOf e ∧ LoginsMeet ok l e) (Loop.init b) log l →
    RegistryRight l.server ∧ ∀ env pdu l' out, AnswersWith idOf (.validateResponse env pdu) →
      l.step (.validateResponse env pdu) = some (l', out) → DeletesSafely l.server l'.server

/-- Whoever waits for a login is registered, and waits at the user of its login name. -/
def Server.Waiting (s : Server) : Prop :=
  ∀ r user c, s.users r = some user → c ∈ user.unvalidateConnSet →
    ∃ conn, s.conns c = some conn ∧ s.msgConnMap[conn.handle]? = some c ∧ conn.loginName = user.loginName

namespace RegistryRunAux

open ClosingAux ValidatingAux TeardownAux UserMapsAux RegistryAux

variable {idOf : String → Nat} {s s' : Server} {c : ConnId} {user user' : Option ConnId} {out : List Effect}
variable {conn conn' : MsgConn}

/-! ## Who waits -/

theorem waiting_of_keeps (hs : s.Waiting) (h : s.Keeps s') : s'.Waiting := by
  intro r u' d hr hd
  obtain ⟨u, hr0, hname, hsub⟩ := h.users_within r u' hr
  obtain ⟨conn, hc, hmap, hlogin⟩ := hs r u d hr0 (hsub d hd)
  obtain ⟨conn', hc', hhandle, hlogin', -⟩ := h.conns_some d conn hc
  exact ⟨conn', hc', by rw [h.msgConnMap_eq, hhandle, hmap], by rw [hlogin', hlogin, hname]⟩

theorem waiting_setConn (hs : s.Waiting) (hc : s.conns c = some conn) (hhandle : conn'.handle = conn.handle)
    (hname : conn'.loginName = conn.loginName) : (s.setConn c conn').Waiting := by
  intro r u d hr hd
  obtain ⟨conn0, hd0, hmap, hlogin⟩ := hs r u d hr hd
  rw [Server.conns_setConn]
  by_cases hdc : d = c
  · subst hdc
    rw [hc] at hd0
    obtain rfl := Option.some.inj hd0
    exact ⟨conn', if_pos rfl, by rw [hhandle]; exact hmap, hname.trans hlogin⟩
  · exact ⟨conn0, by rw [if_neg hdc, hd0], hmap, hlogin⟩

/-- A new connection waits nowhere, and has a handle of its own. -/
theorem waiting_accept {handle : Nat} (tick clientType : Nat) (hs : s.Waiting) (hc : s.conns c = none)
    (hfree : s.msgConnMap[handle]? = none) :
    Server.Waiting { s.setConn c (newMsgConn handle tick clientType) with msgConnMap := s.msgConnMap.insert handle c } := by
  intro r u d hr hd
  obtain ⟨conn, hd0, hmap, hlogin⟩ := hs r u d hr hd
  have hdc : d ≠ c := by
    rintro rfl
    rw [hc] at hd0
    cases hd0
  have hne : compare handle conn.handle ≠ .eq := by
    intro heq
    rw [← Nat.compare_eq_eq.1 heq, hfree] at hmap
    cases hmap
  refine ⟨conn, (Server.conns_setConn s c _ d).trans ((if_neg hdc).trans hd0), ?_, hlogin⟩
  change (s.msgConnMap.insert handle c)[conn.handle]? = some d
  rw [TreeMap.getElem?_insert, if_neg hne, hmap]

/-- `Close` takes its connection out of the user where it waits, which the login name leads to. -/
theorem waiting_close (hs : s.Waiting) (hreg : s.Registry idOf user) (huser : user = some c ∨ user = none)
    (h : (close c).run s = ⟨.ok (), s', out⟩) : s'.Waiting := by
  have hreg' := registry_close hreg huser h
  obtain ⟨conn, s1, s2, reported, notified, hcl⟩ := close_ok h
  obtain ⟨hconns, hmap⟩ := closes_conns hcl
  have hl1 := loses_closeById (s := { s with msgConnMap := s.msgConnMap.erase conn.handle }) hcl.conn_eq hcl.live hcl.byId
  have hl := loses_trans hl1 (loses_closeByLoginName hcl.byLoginName)
  have husers : s'.users = s2.users := by
    rw [hcl.state_eq]
    rfl
  have hnames : ∀ name, s'.getImUserByLoginName name = s2.getImUserByLoginName name := by
    intro name
    rw [hcl.state_eq]
    rfl
  intro r u' d hr hd
  have hr2 : s2.users r = some u' := by rw [← husers, hr]
  obtain ⟨u, hr0, hw⟩ := hl.users_within r u' hr2
  obtain ⟨connd, hd0, hmapd, hlogin⟩ := hs r u d hr0 (hw.unvalidate_sub d hd)
  have hdc : d ≠ c := by
    rintro rfl
    rw [hcl.conn_eq] at hd0
    obtain rfl := Option.some.inj hd0
    have hfind := hreg'.users.named r u' hr
    rw [hnames, hw.loginName_eq, ← hlogin] at hfind
    exact not_waiting_after hcl.byLoginName hfind hr2 hd
  refine ⟨connd, by rw [hconns, if_neg hdc, hd0], ?_, by rw [hlogin, hw.loginName_eq]⟩
  rw [hmap, if_neg, hmapd]
  intro heq
  rw [heq] at hmapd
  rcases map_of_live hreg.conns hcl.conn_eq hcl.live huser with hself | ⟨-, hnone⟩
  · rw [hmapd] at hself
    exact hdc (Option.some.inj hself)
  · rw [hmapd] at hnone
    cases hnone

/-- A connection that asks to log in waits at the user of the name it asks for, and nowhere else. -/
theorem waiting_login {env : Env} {pdu : Pdu} {msg : IMLoginReq} (hs : s.Waiting) (hreg : s.Registry idOf user)
    (hc : s.conns c = some conn) (hlive : conn.refCount ≠ 0) (hempty : ¬conn.loginName.length ≠ 0)
    (hrefuse : loginRefusal s = none) (hbody : pdu.body = .imLoginReq msg) (hfresh : FreshLogin s c msg)
    (h : (handleLoginRequest env c pdu).run s = ⟨.ok (), s', out⟩) : s'.Waiting := by
  have hreg' := registry_login hreg hc hlive hempty hrefuse hbody h
  obtain ⟨u, hu, rfl, -⟩ := login_accepted_ok hc hlive hempty hrefuse hbody h
  obtain ⟨hconns, hmap, hfind⟩ := withUser_eqs (s.setConn c (conn.logIn msg)) msg.userName
  have hnone : conn.loginName = "" := String.length_eq_zero_iff.1 (not_not.1 hempty)
  obtain ⟨⟨conn0, hc0, -, hself⟩, hother⟩ := hfresh
  rw [hc] at hc0
  obtain rfl := Option.some.inj hc0
  generalize htarget : (s.setConn c (conn.logIn msg)).withUser msg.userName = target at *
  obtain ⟨t, r⟩ := target
  have hconns : t.conns = (s.setConn c (conn.logIn msg)).conns := hconns
  have hmap : t.msgConnMap = s.msgConnMap := hmap
  have htc : t.conns c = some (conn.logIn msg) := by rw [hconns, Server.conns_setConn, if_pos rfl]
  -- where somebody waited before, or is the connection itself
  have hback : ∀ q v d, t.users q = some v → d ∈ v.unvalidateConnSet → ∃ v0, s.users q = some v0 ∧
      v.loginName = v0.loginName ∧ d ∈ v0.unvalidateConnSet := by
    intro q v d hq hd
    rw [Server.withUser] at htarget
    split at htarget
    · obtain ⟨rfl, -⟩ := Prod.mk.inj htarget
      exact ⟨v, hq, rfl, hd⟩
    · obtain ⟨rfl, -⟩ := Prod.mk.inj htarget
      change (Server.setUser _ _ _).users q = some v at hq
      rw [Server.users_setUser] at hq
      split at hq
      · rw [← Option.some.inj hq] at hd
        exact absurd hd TreeSet.not_mem_emptyc
      · exact ⟨v, hq, rfl, hd⟩
  have hlogin : u.loginName = msg.userName := by
    obtain ⟨u', hu', hn⟩ := hreg'.users.byName msg.userName r (by exact hfind)
    rw [Server.users_setUser, if_pos rfl] at hu'
    rw [← Option.some.inj hu'] at hn
    exact hn
  have hwaits : ∀ q v d, t.users q = some v → d ∈ v.unvalidateConnSet →
      ∃ connd, t.conns d = some connd ∧ t.msgConnMap[connd.handle]? = some d ∧ connd.loginName = v.loginName := by
    intro q v d hq hd
    obtain ⟨v0, hq0, hn, hd0⟩ := hback q v d hq hd
    obtain ⟨connd, hcd, hmapd, hlogind⟩ := hs q v0 d hq0 hd0
    by_cases hdc : d = c
    · subst hdc
      rw [hc] at hcd
      obtain rfl := Option.some.inj hcd
      refine ⟨_, htc, by rw [hmap]; exact hself, ?_⟩
      rw [hn, ← hlogind, hnone]
      by_contra hne
      have hfind0 := hreg.users.named q v0 hq0
      rw [← hlogind, hnone] at hfind0
      exact hother hne q v0 hfind0 hq0 hd0
    · exact ⟨connd, by rw [hconns, Server.conns_setConn, if_neg hdc, hcd], by rw [hmap]; exact hmapd, by rw [hlogind, hn]⟩
  intro q v d hq hd
  rw [Server.users_setUser] at hq
  split at hq
  · rename_i hqr
    obtain rfl := Option.some.inj hq
    rcases mem_addUnValidateMsgConn hd with hd | rfl
    · exact hwaits q u d (by rw [hqr]; exact hu) hd
    · refine ⟨_, htc, ?_, hlogin.symm⟩
      change t.msgConnMap[conn.handle]? = some d
      rw [hmap]
      exact hself
  · exact hwaits q v d hq hd

/-- Every action keeps this, when the login requests that are passed on meet the condition. -/
theorem waiting_acts (h : s.Acts idOf FreshLogin user user' s') (hreg : s.Registry idOf user) (hs : s.Waiting) :
    s'.Waiting := by
  induction h with
  | refl => exact hs
  | trans h _ ih ih' => exact ih' (registry_acts h hreg) (ih hreg hs)
  | serves h => exact waiting_of_keeps hs (keeps_of_serves h)
  | backends b => exact hs
  | accept tick clientType hc hfree => exact waiting_accept tick clientType hs hc hfree
  | addRef _ h =>
    obtain ⟨conn, s1, out1, out2, hconn, h1, -⟩ := run_bind_eq_ok h
    obtain ⟨rfl, hc, -, -⟩ := getConn_eq_ok hconn
    obtain ⟨-, rfl, -⟩ := (Outcome.mk.injEq ..).mp h1
    exact waiting_setConn hs hc rfl rfl
  | releaseRef h =>
    obtain ⟨conn, s1, out1, out2, hconn, h1, -⟩ := run_bind_eq_ok h
    obtain ⟨rfl, hc, -, -⟩ := getConn_eq_ok hconn
    obtain ⟨-, rfl, -⟩ := (Outcome.mk.injEq ..).mp h1
    exact waiting_setConn hs hc rfl rfl
  | close huser h => exact waiting_close hs hreg huser h
  | login hc hlive hempty hrefuse hbody hok h => exact waiting_login hs hreg hc hlive hempty hrefuse hbody hok h
  | validate _ _ _ h => exact waiting_of_keeps hs (keeps_acceptLogin h).1

/-! ## Runs -/

theorem inv_of_run {b : Backends} {log : List Effect} {l : Loop}
    (h : Machine.Run Loop.step (fun l e => AnswersWith idOf e ∧ LoginsMeet FreshLogin l e) (Loop.init b) log l) :
    l.server.Registry idOf (l.reading.map Reading.conn) ∧ l.server.Waiting := by
  refine h.invariant (I := fun _ l => l.server.Registry idOf (l.reading.map Reading.conn) ∧ l.server.Waiting)
    ⟨registry_init idOf b, nofun⟩ fun hI hmeets hstep => ?_
  have hacts := ActsAux.acts_of_step FreshLogin hmeets.1 hmeets.2 hstep
  exact ⟨registry_acts hacts hI.1, waiting_acts hacts hI.1 hI.2⟩

theorem registryRight_of_inv (hs : s.Registry idOf user) (hw : s.Waiting) : RegistryRight s := by
  refine ⟨hs.users.byName, ?_, ?_, ?_⟩
  · intro userId r hr
    obtain ⟨-, u, hu, hid, -, handle, d, hd⟩ := hs.users.byId userId r hr
    refine ⟨u, hu, hid, Bool.eq_false_iff.2 fun hempty => ?_⟩
    rw [(isMsgConnEmpty_iff u).1 hempty] at hd
    cases hd
  · intro c conn hc hmap hopen
    obtain ⟨r, u, hr, hu, hm⟩ := hs.users.joined c conn.handle conn.userId ⟨conn, hc, rfl, rfl, hopen, hmap⟩
    refine ⟨r, u, hr, hu, hm, fun q v handle hq hd => ?_⟩
    obtain ⟨conn0, hc0, hh, hid, -⟩ := hs.users.member q v handle c hq hd
    rw [hc] at hc0
    obtain rfl := Option.some.inj hc0
    obtain ⟨-, u', hu', hid', -⟩ := hs.users.byId conn.userId r hr
    rw [hu] at hu'
    obtain rfl := Option.some.inj hu'
    exact ⟨users_inj hs.users hq hd hu (hid.symm.trans hid'.symm), hh.symm⟩
  · rintro r u c hr (hd | ⟨handle, hd⟩)
    · obtain ⟨conn, hc, hmap, -⟩ := hw r u c hr hd
      exact ⟨conn, hc, live_of_registered hs.conns hc hmap, hmap⟩
    · obtain ⟨conn, hc, hh, -, -, hmap⟩ := hs.users.member r u handle c hr hd
      rw [← hh] at hmap
      exact ⟨conn, hc, live_of_registered hs.conns hc hmap, hmap⟩

/-- A user that `replaceUser` deletes has no validated connection left. -/
theorem empty_of_replaceUser {r q : UserRef} {u u' v : ImUser} (hq : s.users q = some v) (hu : s.users r = some u)
    (hgone : (s.replaceUser r u').users q = none) : q = r ∧ u'.isMsgConnEmpty = true ∧ v = u := by
  have hqr : q = r := by
    by_contra hne
    rw [Server.replaceUser, Server.removeIfEmpty] at hgone
    split at hgone
    · change (Server.setUser (s.setUser r (some u')) r none).users q = none at hgone
      rw [Server.users_setUser, if_neg hne, Server.users_setUser, if_neg hne, hq] at hgone
      cases hgone
    · rw [Server.users_setUser, if_neg hne, hq] at hgone
      cases hgone
  subst hqr
  rw [hu] at hq
  refine ⟨rfl, ?_, (Option.some.inj hq).symm⟩
  rw [Server.replaceUser, Server.removeIfEmpty] at hgone
  split at hgone
  · assumption
  · rw [Server.users_setUser, if_pos rfl] at hgone
    cases hgone

/-- The answer to a login deletes no user that has a validated connection. -/
theorem empty_of_validateResponse {env : Env} {pdu : Pdu} {result : Except Stop Unit} (hs : s.Registry idOf none)
    (h : (handleValidateResponse env pdu).run s = ⟨result, s', out⟩) (hres : result ≠ .error .undefinedBehaviour)
    {q : UserRef} {v : ImUser} (hq : s.users q = some v) (hgone : s'.users q = none) : v.isMsgConnEmpty = true := by
  rcases handleValidateResponse_cases h hres with ⟨rfl, -⟩ | ⟨msg, r, u, c, conn, -, hreach, ⟨-, haccept⟩ | ⟨-, hrefuse⟩⟩
  · rw [hq] at hgone
    cases hgone
  · -- the user of the login name is merged into the one of the id
    obtain ⟨p, s1, joined, s2, out1, conn2, out2, hp, hjoined, hserves, -, -, rfl, -⟩ := acceptLogin_steps haccept
    have hgone1 : s1.users q = none := by
      rw [Server.users_setUser] at hgone
      change (if q = p then _ else s2.users q) = none at hgone
      rw [hserves.users_eq, (register_eqs s1 p _ _).2.2.2.2] at hgone
      split at hgone
      · cases hgone
      · exact hgone
    obtain ⟨-, ⟨-, -, rfl⟩ | ⟨joined', left, -, hj, hleft, rfl⟩⟩ := userForId_ok hp
    · rw [hq] at hgone1
      cases hgone1
    · have hsame : ∃ v', (s.setUser p (some (joined'.addUnValidateMsgConn c))).users q = some v' ∧ v'.connMap = v.connMap := by
        rw [Server.users_setUser]
        by_cases hqp : q = p
        · rw [hqp, hj] at hq
          obtain rfl := Option.some.inj hq
          exact ⟨_, if_pos hqp, rfl⟩
        · exact ⟨v, by rw [if_neg hqp, hq], rfl⟩
      obtain ⟨v', hv', hconns⟩ := hsame
      rw [Server.dropIfEmpty] at hgone1
      split at hgone1
      · rename_i hempty
        change (Server.setUser _ r none).users q = none at hgone1
        by_cases hqr : q = r
        · subst hqr
          rw [hv'] at hleft
          obtain rfl := Option.some.inj hleft
          rw [ImUser.isMsgConnEmpty, ← hconns]
          exact hempty
        · rw [Server.users_setUser, if_neg hqr, Server.users_setUser, if_neg hqr, hv'] at hgone1
          cases hgone1
      · by_cases hqr : q = r
        · rw [Server.users_setUser, if_pos hqr] at hgone1
          cases hgone1
        · rw [Server.users_setUser, if_neg hqr, hv'] at hgone1
          cases hgone1
  · -- the connection is closed, and is not found by id
    obtain ⟨out', hclose, -⟩ := run_emit_bind_eq_ok hrefuse
    obtain ⟨conn', s1, s2, reported, notified, hcl⟩ := close_ok hclose
    have hconn : conn' = conn := by
      have := hcl.conn_eq
      rw [hreach.conn_eq] at this
      exact (Option.some.inj this).symm
    subst hconn
    have hzero := hs.conns.waits c conn' hreach.conn_eq hreach.notOpen
    have hq1 : s1.users q = some v := by
      rcases closeById_ok (s := { s with msgConnMap := s.msgConnMap.erase conn'.handle }) hcl.conn_eq hcl.live hcl.byId with
        ⟨-, rfl, -⟩ | ⟨p, -, hp, -⟩
      · exact hq
      · have hp : s.getImUserById conn'.userId = some p := hp
        rw [hzero] at hp
        exact absurd rfl (hs.users.byId 0 p hp).1
    have hgone2 : s2.users q = none := by
      rw [hcl.state_eq] at hgone
      exact hgone
    obtain ⟨-, ⟨-, rfl⟩ | ⟨p, w, -, hw, rfl⟩⟩ := closeByLoginName_ok hcl.byLoginName
    · rw [hq1] at hgone2
      cases hgone2
    · obtain ⟨-, hempty, rfl⟩ := empty_of_replaceUser hq1 hw hgone2
      exact hempty

/-! ## Runs of one client -/

/-- One server of each kind. -/
def oneOfEach : Backends :=
  { dbServerList := [true], dbServerLoginCount := 0, loginServerList := [true], routeServerList := [true],
    masterRs := none, fileServerList := [] }

/-- Nothing of the outside world matters. -/
def quietEnv : Env := { now := 0, tick := 0, random := 0, serialize := fun _ => [] }

/-- Bob asks to log in. -/
def bobLogsIn : Pdu :=
  mkPdu sidLogin .loginReqUserlogin 1 (.imLoginReq
    { userName := "bob", password := "", onlineStatus := 1, clientType := 1, clientVersion := none })

/-- A request to log out, whatever its body. -/
def logsOut : Pdu := mkPdu sidLogin .loginReqLoginout 1 (.unparsed [])

/-- A client connects, and asks to log in. -/
def bobConnects : List Event := [.accept 0 5 0 1, .readBegin 5 0 [bobLogsIn] false]

/-- The connection is registered when it asks, nobody has the empty name, and it waits for its login in the end. -/
theorem bobConnects_waits : (Machine.steps Loop.step (Loop.init oneOfEach) bobConnects).any fun (l, _) =>
    ((l.server.conns 0).any fun conn => conn.refCount ≠ 0 ∧ l.server.msgConnMap[conn.handle]? = some 0) ∧
    l.server.getImUserByLoginName "" = none ∧ (l.reading.any fun r => r.conn = 0) ∧
    (l.step (.readStep quietEnv)).any fun (l1, _) => (l1.step .readEnd).any fun (l2, _) =>
      (l2.server.users 0).any fun user => user.unvalidateConnSet.contains 0 := by
  decide

/-- A client connects, and sends a logout and a login at once. -/
def logsOutFirst : List Event :=
  [.accept 0 5 0 1, .readBegin 5 0 [logsOut, bobLogsIn] false, .readStep quietEnv, .readStep quietEnv]

/-- The connection that was closed waits for its login. -/
theorem logsOutFirst_waits : (Machine.steps Loop.step (Loop.init oneOfEach) logsOutFirst).any fun (l, _) =>
    ((l.server.users 0).any fun user => user.unvalidateConnSet.contains 0) ∧
    (l.server.conns 0).any fun conn => l.server.msgConnMap[conn.handle]? = none := by
  decide

end RegistryRunAux

open RegistryRunAux

/-- Every run in which login requests are passed on only for connections that are not closed and do not wait under the empty
name keeps the registry right, and every answer to a login deletes users safely. -/
theorem registry_right (idOf : String → Nat) (b : Backends) (log : List Effect) (l : Loop)
    (hrun : Machine.Run Loop.step (fun l e => AnswersWith idOf e ∧ LoginsMeet FreshLogin l e) (Loop.init b) log l) :
    RegistryRight l.server ∧ ∀ env pdu l' out, AnswersWith idOf (.validateResponse env pdu) →
      l.step (.validateResponse env pdu) = some (l', out) → DeletesSafely l.server l'.server := by
  obtain ⟨hs, hw⟩ := inv_of_run hrun
  refine ⟨registryRight_of_inv hs hw, fun env pdu l' out hans hstep r u hr hgone => ?_⟩
  have hs' := RegistryAux.registry_acts (ActsAux.acts_of_step (fun _ _ _ => True) hans (fun _ _ _ _ _ _ h => by cases h) hstep) hs
  have hempty : u.isMsgConnEmpty = true := by
    rw [Loop.step] at hstep
    split at hstep
    · rename_i hreading
      obtain ⟨result, hrun', -, hres⟩ := Loop.exec_eq_some hstep
      rw [hreading] at hs
      exact empty_of_validateResponse hs hrun' (by rcases hres with rfl | ⟨e, rfl⟩ <;> intro h <;> cases h) hr hgone
    · cases hstep
  refine ⟨hempty, ?_, ?_, ?_⟩
  · intro userId hid
    obtain ⟨-, v, hv, -, -, handle, d, hd⟩ := hs.users.byId userId r hid
    rw [hr] at hv
    obtain rfl := Option.some.inj hv
    rw [(UserMapsAux.isMsgConnEmpty_iff u).1 hempty] at hd
    cases hd
  · intro userId hid
    obtain ⟨-, v, hv, -⟩ := hs'.users.byId userId r hid
    rw [hgone] at hv
    cases hv
  · intro name hname
    obtain ⟨v, hv, -⟩ := hs'.users.byName name r hname
    rw [hgone] at hv
    cases hv

/-- Bob asks to log in, and his connection waits for it and is not closed. -/
theorem registry_right_bob : ∃ log l user, Machine.Run Loop.step
      (fun l e => AnswersWith (fun _ => 7) e ∧ LoginsMeet FreshLogin l e) (Loop.init oneOfEach) log l ∧
    l.server.users 0 = some user ∧ 0 ∈ user.unvalidateConnSet ∧ RegistryRight l.server ∧ l.server.Registered 0 := by
  have hother : ∀ e, (∀ env, e ≠ .readStep env) → (∀ env pdu, e ≠ .validateResponse env pdu) → ∀ l,
      AnswersWith (fun _ => 7) e ∧ LoginsMeet FreshLogin l e :=
    fun e hread hans l => ⟨fun env pdu _ h => absurd h (hans env pdu), fun env _ _ _ _ _ h => absurd h (hread env)⟩
  have haccept := hother (.accept 0 5 0 1) nofun fun _ _ h => by cases h
  have hread := hother (.readBegin 5 0 [bobLogsIn] false) nofun fun _ _ h => by cases h
  have hend := hother .readEnd nofun fun _ _ h => by cases h
  have hbegin : ∀ e ∈ bobConnects, ∀ l, AnswersWith (fun _ => 7) e ∧ LoginsMeet FreshLogin l e := by
    intro e he
    rcases List.mem_cons.1 he with rfl | he
    · exact haccept
    · obtain rfl := List.mem_singleton.1 he
      exact hread
  have hanswers : AnswersWith (fun _ => 7) (.readStep quietEnv) := fun _ _ _ h => by cases h
  obtain ⟨⟨l0, log0⟩, hsteps, h0⟩ := (Option.any_eq_true ..).1 bobConnects_waits
  obtain ⟨hconn, hempty, hread, h1⟩ := of_decide_eq_true h0
  obtain ⟨conn, hconn, hreg⟩ := (Option.any_eq_true ..).1 hconn
  obtain ⟨hlive, hmap⟩ := of_decide_eq_true hreg
  obtain ⟨⟨l1, out1⟩, hstep1, h2⟩ := (Option.any_eq_true ..).1 h1
  obtain ⟨⟨l2, out2⟩, hstep2, h3⟩ := (Option.any_eq_true ..).1 h2
  obtain ⟨user, hu, hmem⟩ := (Option.any_eq_true ..).1 h3
  have hrun := Machine.Run.of_steps_mem hbegin .start hsteps
  have hmeets : LoginsMeet FreshLogin l0 (.readStep quietEnv) := by
    intro env r pdu rest conn' msg _ hr _ _ _ _ _ _
    obtain ⟨r', hr', hr0⟩ := (Option.any_eq_true ..).1 hread
    rw [hr] at hr'
    obtain rfl := Option.some.inj hr'
    rw [of_decide_eq_true hr0]
    refine ⟨⟨conn, hconn, hlive, hmap⟩, fun _ q user hq => ?_⟩
    rw [hempty] at hq
    exact absurd hq.symm (Option.some_ne_none q)
  have hrun2 := (hrun.step ⟨hanswers, hmeets⟩ hstep1).step (hend l1) hstep2
  have hright := (registry_right (fun _ => 7) oneOfEach _ l2 hrun2).1
  exact ⟨_, l2, user, hrun2, hu, hmem, hright, hright.notClosed 0 user 0 hu (.inl hmem)⟩

/-- A connection that logs out and in again in one batch waits for its login when it is closed. -/
theorem registry_not_kept : ¬RegistryKept fun _ _ _ => True := by
  intro hall
  obtain ⟨⟨l, log⟩, hsteps, hwaits⟩ := (Option.any_eq_true ..).1 logsOutFirst_waits
  obtain ⟨huser, hconn⟩ := of_decide_eq_true hwaits
  obtain ⟨user, hu, hmem⟩ := (Option.any_eq_true ..).1 huser
  obtain ⟨conn, hc, hnone⟩ := (Option.any_eq_true ..).1 hconn
  have hrun : Machine.Run Loop.step (fun l e => AnswersWith (fun _ => 7) e ∧ LoginsMeet (fun _ _ _ => True) l e)
      (Loop.init oneOfEach) ([] ++ log) l := by
    refine Machine.Run.of_steps_mem (fun e he l => ⟨?_, ?_⟩) .start hsteps
    · rintro env pdu msg rfl
      simp [logsOutFirst] at he
    · intro _ _ _ _ _ _ _ _ _ _ _ _ _ _
      trivial
  obtain ⟨conn', hc', -, hmap⟩ := (hall (fun _ => 7) oneOfEach _ l hrun).1.notClosed 0 user 0 hu (.inl hmem)
  rw [hc] at hc'
  obtain rfl := Option.some.inj hc'
  rw [of_decide_eq_true hnone] at hmap
  cases hmap

end TeamTalk
