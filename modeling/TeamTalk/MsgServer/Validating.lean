import TeamTalk.MsgServer.Closing
import TeamTalk.MsgServer.DBServConn
import TeamTalk.MsgServer.Serves

/-!
# What the answer to a login changes

An accepted login moves one connection: it leaves the user it waited at, and joins the user of the id that the DB proxy gave.
Only these two users change, and the first of them may be deleted.
-/

namespace TeamTalk

open Action
open Std (TreeMap TreeSet)

/-- An effect that is not one of `Close`, and not the handling of a PDU. -/
def Effect.Harmless : Effect → Prop
  | .send _ (.login _) pdu => ∀ m, pdu.body = .imUserCntUpdate m → m.userAction ≠ userCntDec
  | .send _ (.route _) pdu =>
    pdu.commandId = .otherUserStatusUpdate → ∀ m, pdu.body = .imUserStatusUpdate m → m.userStatus ≠ userStatusOffline
  | .send _ _ _ => True
  | .setOpen _ => True
  | .setKickOff _ => True
  | _ => False

/-- User `q` may gain or lose connection `c`, and `c` may be opened; nobody else gains or loses a waiting connection, and no
registration changes. -/
structure Reassigns (q : UserRef) (c : ConnId) (s : Server) (out : List Effect) (s' : Server) : Prop where
  nextUser_eq : s'.nextUser = s.nextUser
  msgConnMap_eq : s'.msgConnMap = s.msgConnMap
  imUserMapByName_eq : s'.imUserMapByName = s.imUserMapByName
  conns_none : ∀ d, s.conns d = none → s'.conns d = none
  conns_some : ∀ d conn, s.conns d = some conn → ∃ conn', s'.conns d = some conn' ∧ conn'.handle = conn.handle ∧
    conn'.loginName = conn.loginName ∧ conn'.refCount = conn.refCount ∧ (d ≠ c → conn'.bOpen = conn.bOpen)
  users_none : ∀ r, s.users r = none → s'.users r = none
  users_some : ∀ r user, s.users r = some user → ∃ user', s'.users r = some user' ∧ user'.loginName = user.loginName ∧
    ∀ d, (r = q → d ≠ c) → (d ∈ user'.unvalidateConnSet ↔ d ∈ user.unvalidateConnSet)
  harmless : ∀ e ∈ out, e.Harmless

namespace ValidatingAux

/-- A quiet effect is harmless. -/
theorem harmless_of_quiet {e : Effect} (h : e.Quiet) : e.Harmless := by
  cases e with
  | send self dest pdu =>
    cases dest with
    | login i => exact absurd h id
    | route i => exact fun hcmd => absurd hcmd h.1
    | _ => trivial
  | setKickOff c => trivial
  | _ => exact absurd h id

variable {q : UserRef} {c : ConnId} {s s' : Server} {out : List Effect}

/-- Where only what is put out, and the map of users by id, can differ. -/
theorem reassigns_of_eq (hconns : s'.conns = s.conns) (husers : s'.users = s.users) (hnext : s'.nextUser = s.nextUser)
    (hmap : s'.msgConnMap = s.msgConnMap) (hnames : s'.imUserMapByName = s.imUserMapByName)
    (hout : ∀ e ∈ out, e.Harmless) : Reassigns q c s out s' := by
  refine ⟨hnext, hmap, hnames, ?_, ?_, ?_, ?_, hout⟩
  · intro d hd
    rw [hconns, hd]
  · intro d conn hd
    exact ⟨conn, by rw [hconns, hd], rfl, rfl, rfl, fun _ => rfl⟩
  · intro r hr
    rw [husers, hr]
  · intro r user hr
    exact ⟨user, by rw [husers, hr], rfl, fun d _ => Iff.rfl⟩

/-- Moving a connection twice is moving it. -/
theorem composes_reassigns (q : UserRef) (c : ConnId) : Composes (Reassigns q c) := by
  refine ⟨fun s => reassigns_of_eq rfl rfl rfl rfl rfl (List.forall_mem_nil _), ?_⟩
  intro s s' s'' out out' h h'
  refine ⟨h'.nextUser_eq.trans h.nextUser_eq, h'.msgConnMap_eq.trans h.msgConnMap_eq,
    h'.imUserMapByName_eq.trans h.imUserMapByName_eq, fun d hd => h'.conns_none d (h.conns_none d hd), ?_,
    fun r hr => h'.users_none r (h.users_none r hr), ?_, ?_⟩
  · intro d conn hd
    obtain ⟨conn', hd', hhandle, hname, href, hopen⟩ := h.conns_some d conn hd
    obtain ⟨conn'', hd'', hhandle', hname', href', hopen'⟩ := h'.conns_some d conn' hd'
    exact ⟨conn'', hd'', hhandle'.trans hhandle, hname'.trans hname, href'.trans href,
      fun hdc => (hopen' hdc).trans (hopen hdc)⟩
  · intro r user hr
    obtain ⟨user', hr', hname, hwait⟩ := h.users_some r user hr
    obtain ⟨user'', hr'', hname', hwait'⟩ := h'.users_some r user' hr'
    exact ⟨user'', hr'', hname'.trans hname, fun d hd => (hwait' d hd).trans (hwait d hd)⟩
  · intro e he
    rcases List.mem_append.1 he with he | he
    · exact h.harmless e he
    · exact h'.harmless e he

/-- What serves moves nothing. -/
theorem reassigns_of_serves (h : Serves s out s') : Reassigns q c s out s' := by
  refine ⟨h.nextUser_eq, h.msgConnMap_eq, h.imUserMapByName_eq, fun d hd => (h.conns_none d hd).1, ?_, ?_, ?_,
    fun e he => harmless_of_quiet (h.quiet e he)⟩
  · intro d conn hd
    obtain ⟨conn', hd', hsame, -⟩ := h.conns_some d conn hd
    exact ⟨conn', hd', hsame.handle_eq, hsame.loginName_eq, hsame.refCount_eq, fun _ => hsame.bOpen_eq⟩
  · intro r hr
    rw [h.users_eq, hr]
  · intro r user hr
    exact ⟨user, by rw [h.users_eq, hr], rfl, fun d _ => Iff.rfl⟩

/-- A harmless effect moves nothing. -/
theorem does_harmless {e : Effect} (h : e.Harmless) : (emit e : Do Unit).Does (Reassigns q c) s :=
  reassigns_of_eq rfl rfl rfl rfl rfl fun _ he => List.mem_singleton.1 he ▸ h

/-- User `q` changes, but for its login name and the other waiting connections. -/
theorem reassigns_setUser {user user' : ImUser} (hq : s.users q = some user) (hname : user'.loginName = user.loginName)
    (hwait : ∀ d, d ≠ c → (d ∈ user'.unvalidateConnSet ↔ d ∈ user.unvalidateConnSet)) :
    Reassigns q c s [] (s.setUser q (some user')) := by
  refine ⟨rfl, rfl, rfl, fun d hd => hd, ?_, ?_, ?_, List.forall_mem_nil _⟩
  · intro d conn hd
    exact ⟨conn, hd, rfl, rfl, rfl, fun _ => rfl⟩
  · intro r hr
    have hrq : r ≠ q := by
      rintro rfl
      rw [hq] at hr
      cases hr
    rw [Server.users_setUser, if_neg hrq, hr]
  · intro r user0 hr
    rw [Server.users_setUser]
    by_cases hrq : r = q
    · subst hrq
      rw [hq] at hr
      obtain rfl := Option.some.inj hr
      rw [if_pos rfl]
      exact ⟨user', rfl, hname, fun d hd => hwait d (hd rfl)⟩
    · rw [if_neg hrq]
      exact ⟨user0, hr, rfl, fun d _ => Iff.rfl⟩

/-- Connection `c` is opened. -/
theorem reassigns_setOpen {conn : MsgConn} (userId : Nat) (hc : s.conns c = some conn) :
    Reassigns q c s [.setOpen c] (s.setConn c { conn with userId, bOpen := true }) := by
  refine ⟨rfl, rfl, rfl, ?_, ?_, fun r hr => hr, fun r user hr => ⟨user, hr, rfl, fun d _ => Iff.rfl⟩, ?_⟩
  · intro d hd
    have hdc : d ≠ c := by
      rintro rfl
      rw [hc] at hd
      cases hd
    rw [Server.conns_setConn, if_neg hdc, hd]
  · intro d conn0 hd
    rw [Server.conns_setConn]
    by_cases hdc : d = c
    · subst hdc
      rw [hc] at hd
      obtain rfl := Option.some.inj hd
      rw [if_pos rfl]
      exact ⟨_, rfl, rfl, rfl, rfl, fun h => absurd rfl h⟩
    · rw [if_neg hdc]
      exact ⟨conn0, hd, rfl, rfl, rfl, fun _ => rfl⟩
  · intro e he
    rw [List.mem_singleton.1 he]
    trivial

/-- Nor does the report that the user is online. -/
theorem does_sendUserStatusUpdate (d : ConnId) : (sendUserStatusUpdate d userStatusOnline).Does (Reassigns q c) s := by
  refine does_getConn_bind (composes_reassigns q c) fun conn _ _ => ?_
  split
  · refine Does.read_bind ?_
    split
    · exact Does.pure (composes_reassigns q c) ()
    · refine does_getUser_bind (composes_reassigns q c) fun user _ => ?_
      simp only [true_or, if_true]
      refine Does.bind (composes_reassigns q c) (Does.read_bind ?_) fun _ _ _ _ => Does.read_bind ?_
      · refine Does.each (composes_reassigns q c) fun _ _ _ => does_harmless ?_
        intro m hm
        cases hm
        exact (by decide : userCntInc ≠ userCntDec)
      · refine Does.each (composes_reassigns q c) fun _ _ _ => does_harmless ?_
        intro _ m hm
        cases hm
        exact (by decide : userStatusOnline ≠ userStatusOffline)
  · exact Does.pure (composes_reassigns q c) ()

end ValidatingAux

/-- The answer to an accepted login. -/
def acceptedAnswer (env : Env) (onlineStatus : Nat) (msg : IMValidateRsp) (seqNum : Nat) : Pdu :=
  mkPdu sidLogin .loginResUserlogin seqNum (.imLoginRes
    { serverTime := env.now, resultCode := refuseReasonNone, resultString := some (msg.resultString.getD "")
      onlineStatus := some onlineStatus
      userInfo := some { msg.userInfo.getD noUserInfo with
        signInfo := some ((msg.userInfo.getD noUserInfo).signInfo.getD "") } })

/-- What the DB proxy says of a user. -/
def ImUser.accepted (user : ImUser) (userInfo : UserInfo) : ImUser :=
  { user with userId := userInfo.userId, nickName := userInfo.userNickName, bValidate := true }

/-- A user object is replaced, and found by the id from now on, unless somebody else is. -/
def Server.register (s : Server) (q : UserRef) (user : ImUser) (userId : Nat) : Server :=
  if ((s.setUser q (some user)).getImUserById userId).isNone then
    { s.setUser q (some user) with imUserMap := s.imUserMap.insert userId q }
  else s.setUser q (some user)

/-- The user of a login name is deleted when it has no validated connection: its name goes too. -/
def Server.dropIfEmpty (s : Server) (r : UserRef) (loginName : String) (user : ImUser) : Server :=
  if user.isMsgConnEmpty then
    { s.setUser r none with imUserMapByName := s.imUserMapByName.erase loginName }
  else s

namespace ValidatingAux

variable {q r : UserRef} {c : ConnId} {s s' : Server} {out : List Effect}

/-- The user that a validated connection goes to, and what that changes. -/
theorem userForId_ok {loginName : String} {userId : Nat}
    (h : (userForId r c loginName userId).run s = ⟨.ok q, s', out⟩) : out = [] ∧
    ((s.getImUserById userId = none ∧ q = r ∧ s' = s) ∨
      ∃ joined left, s.getImUserById userId = some q ∧ s.users q = some joined ∧
        (s.setUser q (some (joined.addUnValidateMsgConn c))).users r = some left ∧
        s' = ((s.setUser q (some (joined.addUnValidateMsgConn c))).setUser r
          (some (left.delUnValidateMsgConn c))).dropIfEmpty r loginName (left.delUnValidateMsgConn c)) := by
  rw [userForId, run_read_bind] at h
  cases hid : s.getImUserById userId with
  | none =>
    rw [hid] at h
    obtain ⟨⟨rfl⟩, rfl, rfl⟩ := (Outcome.mk.injEq ..).mp h
    exact ⟨rfl, .inl ⟨rfl, rfl, rfl⟩⟩
  | some p =>
    simp only [hid] at h
    obtain ⟨joined, s1, out1, out2, hjoined, h1, rfl⟩ := run_bind_eq_ok h
    obtain ⟨rfl, hp, rfl⟩ := getUser_eq_ok hjoined
    rw [run_bind_nil (run_setUser _ _ _)] at h1
    obtain ⟨left, s2, out3, out4, hleft, h2, rfl⟩ := run_bind_eq_ok h1
    obtain ⟨rfl, hr, rfl⟩ := getUser_eq_ok hleft
    have hset : ∀ s0 : Server, (s0.setUser r (some (left.delUnValidateMsgConn c))).users r =
        some (left.delUnValidateMsgConn c) := fun s0 => by rw [Server.users_setUser, if_pos rfl]
    rw [run_bind_nil (run_setUser _ _ _), run_bind_nil (run_getUser (hset _))] at h2
    cases hempty : (left.delUnValidateMsgConn c).isMsgConnEmpty with
    | true =>
      rw [hempty, if_pos rfl, removeImUserByLoginName, run_modify_bind, deleteUser, run_modify_bind] at h2
      obtain ⟨⟨rfl⟩, rfl, rfl⟩ := (Outcome.mk.injEq ..).mp h2
      refine ⟨rfl, .inr ⟨joined, left, rfl, hp, hr, ?_⟩⟩
      rw [Server.dropIfEmpty, if_pos hempty]
      rfl
    | false =>
      rw [hempty] at h2
      obtain ⟨⟨rfl⟩, rfl, rfl⟩ := (Outcome.mk.injEq ..).mp h2
      refine ⟨rfl, .inr ⟨joined, left, rfl, hp, hr, ?_⟩⟩
      rw [Server.dropIfEmpty, hempty]
      rfl

/-- Reporting a status changes nothing. -/
theorem sendUserStatusUpdate_ok {userStatus : Nat} (h : (sendUserStatusUpdate c userStatus).run s = ⟨.ok (), s', out⟩) :
    s' = s := by
  have hcomp : Composes fun (s : Server) (_ : List Effect) s' => s' = s := ⟨fun _ => rfl, fun h h' => h'.trans h⟩
  have hdoes : (sendUserStatusUpdate c userStatus).Does (fun s _ s' => s' = s) s := by
    refine does_getConn_bind hcomp fun conn _ _ => ?_
    split
    · refine Does.read_bind ?_
      split
      · exact Does.pure hcomp ()
      · refine does_getUser_bind hcomp fun user _ => ?_
        split
        · exact Does.bind hcomp (Does.read_bind (Does.each hcomp fun _ _ _ => rfl)) fun _ _ _ _ =>
            Does.read_bind (Does.each hcomp fun _ _ _ => rfl)
        · exact Does.pure hcomp ()
    · exact Does.pure hcomp ()
  rw [Act.Does, h] at hdoes
  exact hdoes

/-- An accepted login, step by step: the user is chosen, takes what the DB proxy says and is registered; other connections of
it are kicked; the connection is opened, and joins the user; it is answered. -/
theorem acceptLogin_steps {env : Env} {msg : IMValidateRsp} {seqNum : Nat}
    (h : (acceptLogin env r c msg seqNum).run s = ⟨.ok (), s', out⟩) :
    ∃ q s1 user s2 out1 conn out2,
      (userForId r c msg.userName (msg.userInfo.getD noUserInfo).userId).run s = ⟨.ok q, s1, []⟩ ∧ s1.users q = some user ∧
      Serves (s1.register q (user.accepted (msg.userInfo.getD noUserInfo)) (msg.userInfo.getD noUserInfo).userId) out1 s2 ∧
      s2.conns c = some conn ∧
      (sendUserStatusUpdate c userStatusOnline).run
        (s2.setConn c { conn with userId := (msg.userInfo.getD noUserInfo).userId, bOpen := true }) =
        ⟨.ok (), s2.setConn c { conn with userId := (msg.userInfo.getD noUserInfo).userId, bOpen := true }, out2⟩ ∧
      s' = (s2.setConn c { conn with userId := (msg.userInfo.getD noUserInfo).userId, bOpen := true }).setUser q
        (some ((user.accepted (msg.userInfo.getD noUserInfo)).validateMsgConn conn.handle c)) ∧
      out = out1 ++ (.setOpen c :: out2) ++ [.send c (.client c) (acceptedAnswer env conn.onlineStatus msg seqNum)] := by
  obtain ⟨q, s1, out0, out1, hq, h1, rfl⟩ := run_bind_eq_ok h
  obtain ⟨rfl, -⟩ := userForId_ok hq
  obtain ⟨user, s1', out2, out3, huser, h2, rfl⟩ := run_bind_eq_ok h1
  obtain ⟨rfl, hu, rfl⟩ := getUser_eq_ok huser
  rw [run_bind_nil (run_setUser _ _ _), addImUserById, run_modify_bind] at h2
  obtain ⟨user2, s3, out4, out5, huser2, h3, rfl⟩ := run_bind_eq_ok h2
  obtain ⟨rfl, -, rfl⟩ := getUser_eq_ok huser2
  obtain ⟨conn1, s4, out6, out7, hconn1, h4, rfl⟩ := run_bind_eq_ok h3
  obtain ⟨rfl, -, -, rfl⟩ := getConn_eq_ok hconn1
  obtain ⟨_, s5, out8, out9, hkick, h5, rfl⟩ := run_bind_eq_ok h4
  obtain ⟨conn2, s6, out10, out11, hconn2, h6, rfl⟩ := run_bind_eq_ok h5
  obtain ⟨rfl, -, -, rfl⟩ := getConn_eq_ok hconn2
  obtain ⟨_, s7, out12, out13, hroute, h7, rfl⟩ := run_bind_eq_ok h6
  obtain ⟨conn, s8, out14, out15, hconn, h8, rfl⟩ := run_bind_eq_ok h7
  obtain ⟨rfl, hc, -, rfl⟩ := getConn_eq_ok hconn
  rw [run_bind_nil (run_setConn _ _ _)] at h8
  obtain ⟨out16, h9, rfl⟩ := run_emit_bind_eq_ok h8
  obtain ⟨_, s9, out17, out18, hstatus, h10, rfl⟩ := run_bind_eq_ok h9
  obtain rfl := sendUserStatusUpdate_ok hstatus
  obtain ⟨user3, s10, out19, out20, huser3, h11, rfl⟩ := run_bind_eq_ok h10
  obtain ⟨rfl, hu3, rfl⟩ := getUser_eq_ok huser3
  obtain ⟨conn3, s11, out21, out22, hconn3, h12, rfl⟩ := run_bind_eq_ok h11
  obtain ⟨rfl, hc3, -, rfl⟩ := getConn_eq_ok hconn3
  rw [run_bind_nil (run_setUser _ _ _)] at h12
  obtain ⟨conn4, s12, out23, out24, hconn4, h13, rfl⟩ := run_bind_eq_ok h12
  obtain ⟨rfl, hc4, -, rfl⟩ := getConn_eq_ok hconn4
  obtain ⟨-, rfl, rfl⟩ := (Outcome.mk.injEq ..).mp h13
  have hdoes : ∀ {a : Do Unit} {t t' : Server} {o : List Effect}, a.Does Serves t → a.run t = ⟨.ok (), t', o⟩ →
      Serves t o t' := by
    intro a t t' o ha hrun
    rw [Act.Does, hrun] at ha
    exact ha
  have hserves := ServesAux.composes_serves.trans (hdoes (ServesAux.does_kickOutSameClientType _ _ _ _) hkick)
    (hdoes (ServesAux.does_sendRoute fun i => (by exact ⟨nofun, nofun⟩)) hroute)
  -- what was written is what is read
  rw [Server.conns_setConn, if_pos rfl] at hc3
  obtain rfl := Option.some.inj hc3
  have hc4' : (Server.setConn _ c _).conns c = some conn4 := hc4
  rw [Server.conns_setConn, if_pos rfl] at hc4'
  obtain rfl := Option.some.inj hc4'
  have hu3' : s8.users q = some user3 := hu3
  rw [hserves.users_eq] at hu3'
  have hregister : (if ((s1'.setUser q (some (user.accepted (msg.userInfo.getD noUserInfo)))).getImUserById
      (msg.userInfo.getD noUserInfo).userId).isNone then
        { s1'.setUser q (some (user.accepted (msg.userInfo.getD noUserInfo))) with
          imUserMap := s1'.imUserMap.insert (msg.userInfo.getD noUserInfo).userId q }
      else s1'.setUser q (some (user.accepted (msg.userInfo.getD noUserInfo)))).users q =
      some (user.accepted (msg.userInfo.getD noUserInfo)) := by
    split
    all_goals exact (Server.users_setUser s1' q _ q).trans (if_pos rfl)
  obtain rfl := Option.some.inj (hregister.symm.trans hu3')
  refine ⟨q, s1', user, s8, out8 ++ out12, conn, out17, hq, hu, hserves, hc, hstatus, rfl, ?_⟩
  simp only [List.nil_append, List.append_assoc, List.cons_append]
  rfl

/-- An accepted login: the user is chosen, the connection is opened, joins the user, and is answered. -/
theorem acceptLogin_ok {env : Env} {msg : IMValidateRsp} {seqNum : Nat}
    (h : (acceptLogin env r c msg seqNum).run s = ⟨.ok (), s', out⟩) :
    ∃ q s1 s2 user conn out1 onlineStatus,
      (userForId r c msg.userName (msg.userInfo.getD noUserInfo).userId).run s = ⟨.ok q, s1, []⟩ ∧
      Reassigns q c s1 out1 s2 ∧ s2.users q = some user ∧ s2.conns c = some conn ∧
      s' = s2.setUser q (some (user.validateMsgConn conn.handle c)) ∧ .setOpen c ∈ out1 ∧
      out = out1 ++ [.send c (.client c) (acceptedAnswer env onlineStatus msg seqNum)] := by
  obtain ⟨q, s1, user, s2, out1, conn, out2, hq, hu, hserves, hc, hstatus, rfl, rfl⟩ := acceptLogin_steps h
  have hcomp := composes_reassigns q c
  have hfirst : Reassigns q c s1 []
      (s1.register q (user.accepted (msg.userInfo.getD noUserInfo)) (msg.userInfo.getD noUserInfo).userId) := by
    have hset : Reassigns q c s1 [] (s1.setUser q (some (user.accepted (msg.userInfo.getD noUserInfo)))) :=
      reassigns_setUser hu rfl fun d _ => Iff.rfl
    refine hcomp.nil_trans hset ?_
    rw [Server.register]
    split
    all_goals exact reassigns_of_eq rfl rfl rfl rfl rfl (List.forall_mem_nil _)
  have hlast : Reassigns q c (s2.setConn c { conn with userId := (msg.userInfo.getD noUserInfo).userId, bOpen := true }) out2
      (s2.setConn c { conn with userId := (msg.userInfo.getD noUserInfo).userId, bOpen := true }) := by
    have hdoes := does_sendUserStatusUpdate (q := q) (c := c) (s := s2.setConn c
      { conn with userId := (msg.userInfo.getD noUserInfo).userId, bOpen := true }) c
    rw [Act.Does, hstatus] at hdoes
    exact hdoes
  have hopen := hcomp.trans (reassigns_setOpen (q := q) (msg.userInfo.getD noUserInfo).userId hc) hlast
  refine ⟨q, s1, _, user.accepted (msg.userInfo.getD noUserInfo), _, out1 ++ (.setOpen c :: out2), conn.onlineStatus, hq,
    hcomp.nil_trans hfirst (hcomp.trans (reassigns_of_serves hserves) hopen), ?_,
    (Server.conns_setConn s2 c _ c).trans (if_pos rfl), rfl, List.mem_append_right _ List.mem_cons_self, rfl⟩
  change s2.users q = _
  rw [hserves.users_eq, Server.register]
  split
  all_goals exact (Server.users_setUser s1 q _ q).trans (if_pos rfl)

/-- The connection that is found is in the list, and has the handle. -/
theorem findByHandle_ok {handle : Nat} {cs : List ConnId} {found : Option ConnId}
    (h : (findByHandle handle cs).run s = ⟨.ok found, s', out⟩) : s' = s ∧ out = [] ∧ ∀ d, found = some d →
      d ∈ cs ∧ ∃ conn, s.conns d = some conn ∧ conn.handle = handle := by
  induction cs with
  | nil =>
    obtain ⟨⟨rfl⟩, rfl, rfl⟩ := (Outcome.mk.injEq ..).mp h
    exact ⟨rfl, rfl, fun d hd => by cases hd⟩
  | cons e es ih =>
    obtain ⟨conn, s1, out1, out2, hconn, h1, rfl⟩ := run_bind_eq_ok h
    obtain ⟨rfl, he, -, rfl⟩ := getConn_eq_ok hconn
    split at h1
    · rename_i hhandle
      obtain ⟨⟨rfl⟩, rfl, rfl⟩ := (Outcome.mk.injEq ..).mp h1
      refine ⟨rfl, rfl, fun d hd => ?_⟩
      obtain rfl := Option.some.inj hd
      exact ⟨List.mem_cons_self, conn, he, hhandle⟩
    · obtain ⟨rfl, rfl, hfound⟩ := ih h1
      exact ⟨rfl, rfl, fun d hd => ⟨List.mem_cons_of_mem e (hfound d hd).1, (hfound d hd).2⟩⟩

/-! ## What does not throw -/

/-- Looking for the connection throws nothing. -/
theorem neverThrows_findByHandle (handle : Nat) (cs : List ConnId) : NeverThrows (findByHandle handle cs) := by
  induction cs with
  | nil => exact StopsOnly.pure _
  | cons e es ih =>
    refine StopsOnly.bind (neverThrows_getConn e) fun conn => ?_
    split
    · exact StopsOnly.pure _
    · exact ih

/-- Nor does kicking one. -/
theorem neverThrows_handleKickUser (user : ImUser) (d : ConnId) (reason : Nat) : NeverThrows (handleKickUser user d reason) := by
  refine StopsOnly.bind (neverThrows_getConn d) fun conn => ?_
  split
  · refine StopsOnly.bind (StopsOnly.emit _) fun _ => StopsOnly.bind (neverThrows_getConn _) fun conn' => ?_
    exact StopsOnly.bind (StopsOnly.modify _) fun _ => StopsOnly.emit _
  · exact StopsOnly.pure ()

/-- Nor kicking those of one class. -/
theorem neverThrows_kickOutSameClientType (user : ImUser) (clientType reason : Nat) (fromConn : Option ConnId) :
    NeverThrows (kickOutSameClientType user clientType reason fromConn) := by
  unfold kickOutSameClientType
  induction user.conns with
  | nil => exact StopsOnly.pure ()
  | cons d ds ih =>
    refine StopsOnly.bind (neverThrows_getConn d) fun conn => ?_
    split
    · exact neverThrows_handleKickUser user d reason
    · exact ih

/-- Nor finding the user the login is for. -/
theorem neverThrows_userForId (r : UserRef) (c : ConnId) (loginName : String) (userId : Nat) :
    NeverThrows (userForId r c loginName userId) := by
  refine StopsOnly.read_bind fun s => ?_
  split
  · refine StopsOnly.bind (neverThrows_getUser _) fun _ => StopsOnly.bind (StopsOnly.modify _) fun _ => ?_
    refine StopsOnly.bind (neverThrows_getUser _) fun _ => StopsOnly.bind (StopsOnly.modify _) fun _ => ?_
    refine StopsOnly.bind (neverThrows_getUser _) fun left => ?_
    split
    · exact StopsOnly.bind (StopsOnly.modify _) fun _ => StopsOnly.bind (StopsOnly.modify _) fun _ => StopsOnly.pure _
    · exact StopsOnly.pure _
  · exact StopsOnly.pure _

/-- Nor accepting the login. -/
theorem neverThrows_acceptLogin (env : Env) (r : UserRef) (c : ConnId) (msg : IMValidateRsp) (seqNum : Nat) :
    NeverThrows (acceptLogin env r c msg seqNum) := by
  refine StopsOnly.bind (neverThrows_userForId _ _ _ _) fun q => StopsOnly.bind (neverThrows_getUser q) fun _ => ?_
  refine StopsOnly.bind (StopsOnly.modify _) fun _ => StopsOnly.bind (StopsOnly.modify _) fun _ => ?_
  refine StopsOnly.bind (neverThrows_getUser q) fun _ => StopsOnly.bind (neverThrows_getConn c) fun _ => ?_
  refine StopsOnly.bind (neverThrows_kickOutSameClientType _ _ _ _) fun _ => StopsOnly.bind (neverThrows_getConn c) fun _ => ?_
  refine StopsOnly.bind (neverThrows_sendRoute c _) fun _ => StopsOnly.bind (neverThrows_getConn c) fun _ => ?_
  refine StopsOnly.bind (StopsOnly.modify _) fun _ => StopsOnly.bind (StopsOnly.emit _) fun _ => ?_
  refine StopsOnly.bind (ClosingAux.neverThrows_sendUserStatusUpdate c _) fun _ => ?_
  refine StopsOnly.bind (neverThrows_getUser q) fun _ => StopsOnly.bind (neverThrows_getConn c) fun _ => ?_
  refine StopsOnly.bind (StopsOnly.modify _) fun _ => StopsOnly.bind (neverThrows_getConn c) fun _ => StopsOnly.emit _

/-- Nor refusing it. -/
theorem neverThrows_refuseLogin (env : Env) (c : ConnId) (msg : IMValidateRsp) (seqNum : Nat) :
    NeverThrows (refuseLogin env c msg seqNum) :=
  StopsOnly.bind (StopsOnly.emit _) fun _ => ClosingAux.neverThrows_close c

end ValidatingAux

/-- An answer that reaches a connection: it waits at the user of the login name under the handle, and is not open. -/
structure Reaches (s : Server) (msg : IMValidateRsp) (r : UserRef) (user : ImUser) (c : ConnId) (conn : MsgConn) : Prop where
  name_eq : s.getImUserByLoginName msg.userName = some r
  user_eq : s.users r = some user
  waits : c ∈ user.unvalidateConnSet
  conn_eq : s.conns c = some conn
  live : conn.refCount ≠ 0
  handle_eq : attachHandle (msg.attachData.getD []) = some conn.handle
  notOpen : conn.bOpen = false

open ValidatingAux

/-- What an answer does: nothing, or it reaches a connection and accepts or refuses its login. -/
theorem handleValidateResponse_cases {env : Env} {pdu : Pdu} {s s' : Server} {result : Except Stop Unit} {out : List Effect}
    (h : (handleValidateResponse env pdu).run s = ⟨result, s', out⟩) (hres : result ≠ .error .undefinedBehaviour) :
    (s' = s ∧ out = []) ∨ ∃ msg r user c conn, pdu.body = .imValidateRsp msg ∧ Reaches s msg r user c conn ∧
      ((msg.resultCode = 0 ∧ (acceptLogin env r c msg pdu.seqNum).run s = ⟨.ok (), s', out⟩) ∨
        (msg.resultCode ≠ 0 ∧ (refuseLogin env c msg pdu.seqNum).run s = ⟨.ok (), s', out⟩)) := by
  have hnothing : ∀ {result' : Except Stop Unit}, (⟨result', s, []⟩ : Outcome Server Effect Stop Unit) = ⟨result, s', out⟩ →
      s' = s ∧ out = [] := fun heq => by
    obtain ⟨-, rfl, rfl⟩ := (Outcome.mk.injEq ..).mp heq
    exact ⟨rfl, rfl⟩
  rw [handleValidateResponse] at h
  split at h
  · rename_i msg hbody
    split at h
    · exact .inl (hnothing h)
    · rename_i handle hhandle
      -- from here on the only way to stop is undefined behaviour
      have hok : ∀ {a : Do Unit}, NeverThrows a → a.run s = ⟨result, s', out⟩ → a.run s = ⟨.ok (), s', out⟩ := by
        intro a ha hrun
        cases result with
        | ok x => exact hrun
        | error e =>
          have := ha s e (by rw [hrun])
          rw [this] at hres
          exact absurd rfl hres
      have hnever : ∀ r (c : ConnId), NeverThrows (do
          if (← getConn c).bOpen then return ()
          else if msg.resultCode = 0 then acceptLogin env r c msg pdu.seqNum
          else refuseLogin env c msg pdu.seqNum) := by
        intro r c
        refine StopsOnly.bind (neverThrows_getConn c) fun conn => ?_
        split
        · exact StopsOnly.pure ()
        · split
          · exact neverThrows_acceptLogin env r c msg _
          · exact neverThrows_refuseLogin env c msg _
      rw [run_read_bind] at h
      cases hr : s.getImUserByLoginName msg.userName with
      | none =>
        rw [hr] at h
        exact .inl (hnothing h)
      | some r =>
        simp only [hr] at h
        have h1 := hok (StopsOnly.bind (neverThrows_getUser r) fun user =>
          StopsOnly.bind (neverThrows_findByHandle _ _) fun found => by
            cases found with
            | none => exact StopsOnly.pure ()
            | some c => exact hnever r c) h
        obtain ⟨user, s1, out1, out2, huser, h2, rfl⟩ := run_bind_eq_ok h1
        obtain ⟨rfl, hu, rfl⟩ := getUser_eq_ok huser
        obtain ⟨found, s2, out3, out4, hfind, h3, rfl⟩ := run_bind_eq_ok h2
        obtain ⟨rfl, rfl, hfound⟩ := findByHandle_ok hfind
        cases found with
        | none =>
          obtain ⟨-, rfl, rfl⟩ := (Outcome.mk.injEq ..).mp h3
          exact .inl ⟨rfl, rfl⟩
        | some c =>
          obtain ⟨hmem, conn, hc, hconn⟩ := hfound c rfl
          obtain ⟨conn', s3, out5, out6, hconn', h4, rfl⟩ := run_bind_eq_ok h3
          obtain ⟨rfl, hc', hlive, rfl⟩ := getConn_eq_ok hconn'
          rw [hc] at hc'
          obtain rfl := Option.some.inj hc'
          split at h4
          · obtain ⟨-, rfl, rfl⟩ := (Outcome.mk.injEq ..).mp h4
            exact .inl ⟨rfl, rfl⟩
          · rename_i hopen
            have hreaches : Reaches _ msg r user c conn := ⟨hr, hu, TreeSet.mem_toList.1 hmem, hc, hlive,
              by rw [hhandle, hconn], Bool.eq_false_iff.2 hopen⟩
            refine .inr ⟨msg, r, user, c, conn, hbody, hreaches, ?_⟩
            split at h4
            · exact .inl ⟨‹_›, h4⟩
            · exact .inr ⟨‹_›, h4⟩
  · exact .inl (hnothing h)

end TeamTalk
