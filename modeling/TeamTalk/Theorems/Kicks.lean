import TeamTalk.MsgServer.Kicks

/-!
# One live session for each class of clients

When a user has, after every validation, one open connection of a class of clients that was not kicked off, the one validated
last. Kicked connections stay with the user until they are closed, and one of them may be found first and kicked again.
-/

namespace TeamTalk

open Action

/-! ## The property -/

/-- A connection of a user and of a class of clients. -/
def Server.Of (s : Server) (d : ConnId) (userId cls : Nat) : Prop :=
  ∃ conn, s.conns d = some conn ∧ conn.userId = userId ∧ clientClass conn.clientType = cls

/-- A live session: such a connection is open, and was not kicked off. -/
def Server.LiveFor (s : Server) (d : ConnId) (userId cls : Nat) : Prop :=
  ∃ conn, s.conns d = some conn ∧ conn.userId = userId ∧ clientClass conn.clientType = cls ∧ conn.bOpen = true ∧
    s.msgConnMap[conn.handle]? = some d ∧ conn.bKickOff = false

/-- When a connection was validated: the place in the log. -/
def validatedAt (log : List Effect) (d : ConnId) : Nat := log.idxOf (.setOpen d)

/-- Every user has at most one live session of a class, the one validated last. -/
structure OneSession (log : List Effect) (s : Server) : Prop where
  atMostOne : ∀ d d' userId cls, s.LiveFor d userId cls → s.LiveFor d' userId cls → d = d'
  newest : ∀ d d' userId cls, s.LiveFor d userId cls → s.Of d' userId cls → .setOpen d' ∈ log →
    validatedAt log d' ≤ validatedAt log d

/-- In every run whose steps meet `ok`, this holds after every validation. -/
def SessionsKept (idOf : String → Nat) (b : Backends) (ok : Loop → Event → Prop) : Prop :=
  ∀ log l, Machine.Run Loop.step (fun l e => AnswersWith idOf e ∧ ok l e) (Loop.init b) log l →
    ∀ env pdu l' out c, AnswersWith idOf (.validateResponse env pdu) → ok l (.validateResponse env pdu) →
      l.step (.validateResponse env pdu) = some (l', out) → .setOpen c ∈ out → OneSession (log ++ out) l'.server

/-! ## The condition -/

/-- An open connection does not log in again as a client of another class. -/
def KeepsClass (s : Server) (c : ConnId) (msg : IMLoginReq) : Prop :=
  ∀ conn, s.conns c = some conn → conn.bOpen = true → clientClass msg.clientType = clientClass conn.clientType

/-- A live session of a user and a class is the first connection of the class that he has, but for `c`. -/
def FindsLive (s : Server) (userId cls : Nat) (c : ConnId) : Prop :=
  ∀ q user d, s.getImUserById userId = some q → s.users q = some user → s.LiveFor d userId cls →
    s.firstOther user cls c = some d

/-- A login is accepted only so. -/
def ValidationsMeet (l : Loop) (e : Event) : Prop :=
  ∀ env pdu msg r u c conn, e = .validateResponse env pdu → pdu.body = .imValidateRsp msg → msg.resultCode = 0 →
    Reaches l.server msg r u c conn → FindsLive l.server (msg.userInfo.getD noUserInfo).userId (clientClass conn.clientType) c

namespace KicksRunAux

open ClosingAux ValidatingAux RegistryAux KicksAux FlagsAux

variable {idOf : String → Nat} {s s' : Server} {c d : ConnId} {user user' : Option ConnId} {out log : List Effect}
variable {conn conn' : MsgConn}

/-! ## When nobody is validated -/

/-- What is open was open, and changes in nothing that matters but that it may be closed or kicked. -/
def Fades (s s' : Server) : Prop :=
  ∀ d conn', s'.conns d = some conn' → conn'.bOpen = true → ∃ conn, s.conns d = some conn ∧ conn.bOpen = true ∧
    conn'.userId = conn.userId ∧ clientClass conn'.clientType = clientClass conn.clientType ∧
    (s'.msgConnMap[conn'.handle]? = some d → s.msgConnMap[conn.handle]? = some d) ∧
    (conn'.bKickOff = false → conn.bKickOff = false)

theorem fades_refl (s : Server) : Fades s s := fun _ conn hd hopen => ⟨conn, hd, hopen, rfl, rfl, id, id⟩

theorem fades_trans {s'' : Server} (h : Fades s s') (h' : Fades s' s'') : Fades s s'' := by
  intro d conn'' hd hopen
  obtain ⟨conn', hd', hopen', huser', hclass', hmap', hkick'⟩ := h' d conn'' hd hopen
  obtain ⟨conn, hd, hopen, huser, hclass, hmap, hkick⟩ := h d conn' hd' hopen'
  exact ⟨conn, hd, hopen, huser'.trans huser, hclass'.trans hclass, hmap ∘ hmap', hkick ∘ hkick'⟩

theorem fades_of_eq (hconns : s'.conns = s.conns) (hmap : s'.msgConnMap = s.msgConnMap) : Fades s s' := by
  intro d conn hd hopen
  rw [hconns] at hd
  exact ⟨conn, hd, hopen, rfl, rfl, by rw [hmap]; exact id, id⟩

theorem fades_of_serves (h : Serves s out s') : Fades s s' := by
  intro d conn' hd hopen
  cases hd0 : s.conns d with
  | none =>
    rw [(h.conns_none d hd0).1] at hd
    cases hd
  | some conn =>
    obtain ⟨conn'', hd', hsame, hkick⟩ := h.conns_some d conn hd0
    rw [hd] at hd'
    obtain rfl := Option.some.inj hd'
    refine ⟨conn, rfl, by rw [← hsame.bOpen_eq, hopen], hsame.userId_eq, by rw [hsame.clientType_eq], ?_, ?_⟩
    · rw [h.msgConnMap_eq, hsame.handle_eq]
      exact id
    · intro hfree
      refine Bool.eq_false_iff.2 fun hkicked => ?_
      rw [hkick.2 (.inl hkicked)] at hfree
      cases hfree

/-- A connection changes in nothing that matters, as far as it is open. -/
theorem fades_setConn (hc : s.conns c = some conn) (h : conn'.bOpen = true → conn.bOpen = true ∧ conn'.userId = conn.userId ∧
    clientClass conn'.clientType = clientClass conn.clientType ∧ conn'.handle = conn.handle ∧
    conn'.bKickOff = conn.bKickOff) : Fades s (s.setConn c conn') := by
  intro d conn0 hd hopen
  rw [Server.conns_setConn] at hd
  split at hd
  next heq =>
    subst heq
    obtain rfl := Option.some.inj hd
    obtain ⟨hopen', huser, hclass, hhandle, hkick⟩ := h hopen
    exact ⟨conn, hc, hopen', huser, hclass, by rw [hhandle]; exact id, by rw [hkick]; exact id⟩
  next => exact ⟨conn0, hd, hopen, rfl, rfl, id, id⟩

theorem fades_accept {handle : Nat} (tick clientType : Nat) :
    Fades s { s.setConn c (newMsgConn handle tick clientType) with msgConnMap := s.msgConnMap.insert handle c } := by
  intro d conn hd hopen
  change (s.setConn c _).conns d = some conn at hd
  rw [Server.conns_setConn] at hd
  split at hd
  next =>
    obtain rfl := Option.some.inj hd
    cases hopen
  next hne =>
    refine ⟨conn, hd, hopen, rfl, rfl, fun hmap => ?_, id⟩
    change (s.msgConnMap.insert handle c)[conn.handle]? = some d at hmap
    rw [Std.TreeMap.getElem?_insert] at hmap
    split at hmap
    · exact absurd (Option.some.inj hmap).symm hne
    · exact hmap

theorem fades_close (h : (close c).run s = ⟨.ok (), s', out⟩) : Fades s s' := by
  obtain ⟨conn, s1, s2, reported, notified, hcl⟩ := close_ok h
  obtain ⟨hconns, hmap⟩ := closes_conns hcl
  have hgone : ∀ (handle : Nat) d, s'.msgConnMap[handle]? = some d → s.msgConnMap[handle]? = some d := by
    intro handle d hd
    rw [hmap] at hd
    split at hd
    · cases hd
    · exact hd
  intro d conn' hd hopen
  rw [hconns] at hd
  split at hd
  next heq =>
    subst heq
    obtain rfl := Option.some.inj hd
    exact ⟨conn, hcl.conn_eq, hopen, rfl, rfl, hgone _ d, id⟩
  next => exact ⟨conn', hd, hopen, rfl, rfl, hgone _ d, id⟩

theorem fades_login {env : Env} {pdu : Pdu} {msg : IMLoginReq} (hc : s.conns c = some conn) (hlive : conn.refCount ≠ 0)
    (hempty : ¬conn.loginName.length ≠ 0) (hrefuse : loginRefusal s = none) (hbody : pdu.body = .imLoginReq msg)
    (hok : KeepsClass s c msg) (h : (handleLoginRequest env c pdu).run s = ⟨.ok (), s', out⟩) : Fades s s' := by
  obtain ⟨u, -, rfl, -⟩ := login_accepted_ok hc hlive hempty hrefuse hbody h
  obtain ⟨hconns, hmap, -⟩ := withUser_eqs (s.setConn c (conn.logIn msg)) msg.userName
  have hset : Fades s (s.setConn c (conn.logIn msg)) :=
    fades_setConn hc fun hopen => ⟨hopen, rfl, hok conn hc hopen, rfl, rfl⟩
  exact fades_trans hset (fades_of_eq hconns hmap)

/-- Without a validation, which these actions leave out, connections only fade. -/
theorem fades_acts (h : s.Acts (fun _ => 0) KeepsClass user user' s') : Fades s s' := by
  induction h with
  | refl => exact fades_refl _
  | trans _ _ ih ih' => exact fades_trans ih ih'
  | serves h => exact fades_of_serves h
  | backends b => exact fades_of_eq rfl rfl
  | accept tick clientType _ _ => exact fades_accept tick clientType
  | addRef _ h =>
    obtain ⟨conn, s1, out1, out2, hconn, h1, -⟩ := run_bind_eq_ok h
    obtain ⟨rfl, hc, -, -⟩ := getConn_eq_ok hconn
    obtain ⟨-, rfl, -⟩ := (Outcome.mk.injEq ..).mp h1
    exact fades_setConn hc fun hopen => ⟨hopen, rfl, rfl, rfl, rfl⟩
  | releaseRef h =>
    obtain ⟨conn, s1, out1, out2, hconn, h1, -⟩ := run_bind_eq_ok h
    obtain ⟨rfl, hc, -, -⟩ := getConn_eq_ok hconn
    obtain ⟨-, rfl, -⟩ := (Outcome.mk.injEq ..).mp h1
    exact fades_setConn hc fun hopen => ⟨hopen, rfl, rfl, rfl, rfl⟩
  | close _ h => exact fades_close h
  | login hc hlive hempty hrefuse hbody hok h => exact fades_login hc hlive hempty hrefuse hbody hok h
  | validate _ _ hne _ => exact absurd rfl hne

/-! ## When a login is accepted -/

/-- What an accepted login does to the connections: its own is opened for the user, and others may be kicked. -/
theorem conns_accepted {env : Env} {r : UserRef} {u : ImUser} {msg : IMValidateRsp} {seqNum : Nat}
    (hreach : Reaches s msg r u c conn) (h : (acceptLogin env r c msg seqNum).run s = ⟨.ok (), s', out⟩) :
    s'.msgConnMap = s.msgConnMap ∧
    (∃ conn', s'.conns c = some conn' ∧ conn'.userId = (msg.userInfo.getD noUserInfo).userId ∧
      conn'.clientType = conn.clientType) ∧
    ∀ d conn', d ≠ c → s'.conns d = some conn' → ∃ conn, s.conns d = some conn ∧ conn.Same conn' ∧
      (conn'.bKickOff = false → conn.bKickOff = false) := by
  obtain ⟨q, s1, joined, s2, out1, conn2, out2, hq, hjoined, hserves, hc2, -, rfl, -⟩ := acceptLogin_steps h
  obtain ⟨hconns, hmap, -⟩ := register_eqs s1 q (joined.accepted (msg.userInfo.getD noUserInfo))
    (msg.userInfo.getD noUserInfo).userId
  obtain ⟨hconns1, hmap1⟩ : s1.conns = s.conns ∧ s1.msgConnMap = s.msgConnMap := by
    obtain ⟨-, ⟨-, -, rfl⟩ | ⟨joined', left, -, -, -, rfl⟩⟩ := userForId_ok hq
    · exact ⟨rfl, rfl⟩
    · rw [Server.dropIfEmpty]
      split
      · exact ⟨rfl, rfl⟩
      · exact ⟨rfl, rfl⟩
  have hback : ∀ d conn', s2.conns d = some conn' → ∃ conn, s.conns d = some conn ∧ conn.Same conn' ∧
      (conn'.bKickOff = false → conn.bKickOff = false) := by
    intro d conn' hd
    cases hd0 : s.conns d with
    | none =>
      rw [(hserves.conns_none d (by rw [hconns, hconns1, hd0])).1] at hd
      cases hd
    | some conn =>
      obtain ⟨conn'', hd', hsame, hkick⟩ := hserves.conns_some d conn (by rw [hconns, hconns1, hd0])
      rw [hd] at hd'
      obtain rfl := Option.some.inj hd'
      refine ⟨conn, rfl, hsame, fun hfree => Bool.eq_false_iff.2 fun hkicked => ?_⟩
      rw [hkick.2 (.inl hkicked)] at hfree
      cases hfree
  refine ⟨hserves.msgConnMap_eq.trans (hmap.trans hmap1), ?_, fun d conn' hdc hd => ?_⟩
  · obtain ⟨conn0, hc0, hsame, -⟩ := hback c conn2 hc2
    rw [hreach.conn_eq] at hc0
    obtain rfl := Option.some.inj hc0
    exact ⟨_, (Server.conns_setConn s2 c _ c).trans (if_pos rfl), rfl, hsame.clientType_eq⟩
  · have hd2 : (s2.setConn c { conn2 with userId := (msg.userInfo.getD noUserInfo).userId, bOpen := true }).conns d =
        some conn' := hd
    rw [Server.conns_setConn, if_neg hdc] at hd2
    exact hback d conn' hd2

/-- The user that is registered under the id keeps its validated connections when another one joins. -/
theorem connMap_userForId {p q r : UserRef} {loginName : String} {userId : Nat} {joined u : ImUser} {s1 : Server}
    (h : (userForId r c loginName userId).run s = ⟨.ok q, s1, []⟩) (hid : s.getImUserById userId = some p)
    (hp : s.users p = some joined) (hu : s1.users q = some u) : s1.conns = s.conns ∧ u.connMap = joined.connMap := by
  obtain ⟨-, ⟨hnone, -, -⟩ | ⟨joined', left, hq, hjoined, hleft, rfl⟩⟩ := userForId_ok h
  · rw [hid] at hnone
    cases hnone
  · rw [hid] at hq
    obtain rfl := Option.some.inj hq
    rw [hp] at hjoined
    obtain rfl := Option.some.inj hjoined
    have hset : ∀ user, ((s.setUser p (some (joined.addUnValidateMsgConn c))).setUser r
        (some (left.delUnValidateMsgConn c))).users p = some user → user.connMap = joined.connMap := by
      intro user hp'
      rw [Server.users_setUser] at hp'
      split at hp'
      next hpr =>
        rw [Server.users_setUser, if_pos hpr.symm] at hleft
        rw [← Option.some.inj hp', ← Option.some.inj hleft]
        rfl
      next =>
        rw [Server.users_setUser, if_pos rfl] at hp'
        rw [← Option.some.inj hp']
        rfl
    rw [Server.dropIfEmpty] at hu ⊢
    split at hu
    next hempty =>
      rw [if_pos hempty]
      refine ⟨rfl, hset u ?_⟩
      change (Server.setUser _ r none).users p = some u at hu
      rw [Server.users_setUser] at hu
      split at hu
      · cases hu
      · exact hu
    next hne =>
      rw [if_neg hne]
      exact ⟨rfl, hset u hu⟩

/-- A session that is live afterwards, of the same user and class but on another connection, would have been kicked. -/
theorem kicked_of_finds {env : Env} {r : UserRef} {u : ImUser} {msg : IMValidateRsp} {seqNum : Nat}
    (hreg : s.Registry idOf none) (hreach : Reaches s msg r u c conn)
    (hfinds : FindsLive s (msg.userInfo.getD noUserInfo).userId (clientClass conn.clientType) c)
    (h : (acceptLogin env r c msg seqNum).run s = ⟨.ok (), s', out⟩)
    (hd : s.LiveFor d (msg.userInfo.getD noUserInfo).userId (clientClass conn.clientType)) : .setKickOff d ∈ out := by
  obtain ⟨conn0, hc0, huser, -, hopen, hmap, -⟩ := id hd
  obtain ⟨p, joined, hp, hjoined, -⟩ := hreg.users.joined d conn0.handle _ ⟨conn0, hc0, rfl, huser, hopen, hmap⟩
  obtain ⟨q, s1, user, conn1, hq, hu, hc1, hkicks⟩ := acceptLogin_kicks h
  obtain ⟨hconns, hconnMap⟩ := connMap_userForId hq hp hjoined hu
  rw [hconns, hreach.conn_eq] at hc1
  obtain rfl := Option.some.inj hc1
  refine hkicks (fun e he conn' hce => ?_) d ?_
  · obtain ⟨handle, hhandle⟩ := ImUser.mem_conns.1 he
    rw [hconnMap] at hhandle ⊢
    obtain ⟨conn2, hce2, rfl, -⟩ := hreg.users.member p joined handle e hjoined hhandle
    rw [hconns, hce2] at hce
    obtain rfl := Option.some.inj hce
    exact hhandle
  · rw [Server.firstOther_congr hconns.symm hconnMap.symm]
    exact hfinds p joined d hp hjoined hd

/-- An accepted login keeps the sessions in order, when the condition holds. -/
theorem oneSession_accepted {env : Env} {r : UserRef} {u : ImUser} {msg : IMValidateRsp} {seqNum : Nat}
    {reading reading' : Option Reading} (hreg : s.Registry idOf none) (hflags : FlagsLogged log ⟨s, reading⟩)
    (hflags' : FlagsLogged (log ++ out) ⟨s', reading'⟩) (hone : OneSession log s) (hreach : Reaches s msg r u c conn)
    (hfinds : FindsLive s (msg.userInfo.getD noUserInfo).userId (clientClass conn.clientType) c)
    (h : (acceptLogin env r c msg seqNum).run s = ⟨.ok (), s', out⟩) : OneSession (log ++ out) s' := by
  obtain ⟨hmap, ⟨connc, hcc, huserc, htypec⟩, hother⟩ := conns_accepted hreach h
  -- the connection itself was not validated before
  have hfirst : .setOpen c ∉ log := by
    intro hm
    have hopen := ((hflags.2 c conn hreach.conn_eq).1).2 hm
    rw [hreach.notOpen] at hopen
    cases hopen
  have hof : ∀ userId cls, s'.Of c userId cls →
      userId = (msg.userInfo.getD noUserInfo).userId ∧ cls = clientClass conn.clientType := by
    rintro userId cls ⟨conn', hc', rfl, rfl⟩
    rw [hcc] at hc'
    obtain rfl := Option.some.inj hc'
    exact ⟨huserc, by rw [htypec]⟩
  have hback : ∀ d userId cls, d ≠ c → s'.LiveFor d userId cls → s.LiveFor d userId cls := by
    rintro d userId cls hdc ⟨conn', hd, huser, hclass, hopen, hmap', hkick⟩
    obtain ⟨conn0, hd0, hsame, hkick0⟩ := hother d conn' hdc hd
    refine ⟨conn0, hd0, by rw [← hsame.userId_eq, huser], by rw [← hsame.clientType_eq, hclass],
      by rw [← hsame.bOpen_eq, hopen], ?_, hkick0 hkick⟩
    rw [hmap, hsame.handle_eq] at hmap'
    exact hmap'
  have hnone : ∀ d, d ≠ c → ¬s'.LiveFor d (msg.userInfo.getD noUserInfo).userId (clientClass conn.clientType) := by
    intro d hdc hd
    have hkicked := kicked_of_finds hreg hreach hfinds h (hback d _ _ hdc hd)
    obtain ⟨conn', hd', -, -, -, -, hfree⟩ := hd
    rw [((hflags'.2 d conn' hd').2).2 (List.mem_append_right log hkicked)] at hfree
    cases hfree
  have hofLive : ∀ {d userId cls}, s'.LiveFor d userId cls → s'.Of d userId cls := by
    rintro d userId cls ⟨conn', hd, huser, hclass, -⟩
    exact ⟨conn', hd, huser, hclass⟩
  refine ⟨fun d d' userId cls hd hd' => ?_, fun d d' userId cls hd hd' hm => ?_⟩
  · by_cases hdc : d = c
    · by_contra hne
      subst hdc
      obtain ⟨rfl, rfl⟩ := hof userId cls (hofLive hd)
      exact hnone d' (Ne.symm hne) hd'
    · by_cases hdc' : d' = c
      · subst hdc'
        obtain ⟨rfl, rfl⟩ := hof userId cls (hofLive hd')
        exact absurd hd (hnone d hdc)
      · exact hone.atMostOne d d' userId cls (hback d userId cls hdc hd) (hback d' userId cls hdc' hd')
  · by_cases hdc' : d' = c
    · subst hdc'
      obtain ⟨rfl, rfl⟩ := hof userId cls hd'
      by_cases hdc : d = d'
      · rw [hdc]
      · exact absurd hd (hnone d hdc)
    · -- another connection was open before, so it was validated before
      obtain ⟨conn', hd1, huser, hclass⟩ := hd'
      obtain ⟨conn0, hd0, hsame, -⟩ := hother d' conn' hdc' hd1
      have hm0 : .setOpen d' ∈ log := by
        refine ((hflags.2 d' conn0 hd0).1).1 ?_
        rw [← hsame.bOpen_eq]
        exact ((hflags'.2 d' conn' hd1).1).2 hm
      have hof0 : s.Of d' userId cls := ⟨conn0, hd0, by rw [← hsame.userId_eq, huser], by rw [← hsame.clientType_eq, hclass]⟩
      rw [validatedAt, validatedAt, List.idxOf_append_of_mem hm0]
      by_cases hdc : d = c
      · rw [hdc, List.idxOf_append_of_notMem hfirst]
        exact (List.idxOf_lt_length_of_mem hm0).le.trans (Nat.le_add_right _ _)
      · have hlive := hback d userId cls hdc hd
        have hm1 : .setOpen d ∈ log := by
          obtain ⟨conn1, hd2, -, -, hopen, -⟩ := id hlive
          exact ((hflags.2 d conn1 hd2).1).1 hopen
        rw [List.idxOf_append_of_mem hm1]
        exact hone.newest d d' userId cls hlive hof0 hm0

/-! ## Runs -/

/-- Where connections only fade, the sessions stay in order. -/
theorem oneSession_fades {reading reading' : Option Reading} (hflags : FlagsLogged log ⟨s, reading⟩)
    (hflags' : FlagsLogged (log ++ out) ⟨s', reading'⟩) (hone : OneSession log s) (h : Fades s s') :
    OneSession (log ++ out) s' := by
  have hback : ∀ d userId cls, s'.LiveFor d userId cls → s.LiveFor d userId cls ∧ .setOpen d ∈ log := by
    rintro d userId cls ⟨conn', hd, huser', hclass', hopen', hmap', hkick'⟩
    obtain ⟨conn, hd0, hopen, huser, hclass, hmap, hkick⟩ := h d conn' hd hopen'
    exact ⟨⟨conn, hd0, huser.symm.trans huser', hclass.symm.trans hclass', hopen, hmap hmap', hkick hkick'⟩,
      ((hflags.2 d conn hd0).1).1 hopen⟩
  refine ⟨fun d d' userId cls hd hd' => ?_, fun d d' userId cls hd hd' hm => ?_⟩
  · exact hone.atMostOne d d' userId cls (hback d userId cls hd).1 (hback d' userId cls hd').1
  · obtain ⟨hlive, hm0⟩ := hback d userId cls hd
    obtain ⟨conn', hd1, huser', hclass'⟩ := hd'
    obtain ⟨conn, hd0, hopen, huser, hclass, -⟩ := h d' conn' hd1 (((hflags'.2 d' conn' hd1).1).2 hm)
    have hm1 : .setOpen d' ∈ log := ((hflags.2 d' conn hd0).1).1 hopen
    rw [validatedAt, validatedAt, List.idxOf_append_of_mem hm0, List.idxOf_append_of_mem hm1]
    exact hone.newest d d' userId cls hlive ⟨conn, hd0, huser.symm.trans huser', hclass.symm.trans hclass'⟩ hm1

/-- In a step connections only fade, or a login is accepted. -/
theorem fades_or_accepts {l l' : Loop} {e : Event} (hok : LoginsMeet KeepsClass l e) (h : l.step e = some (l', out)) :
    Fades l.server l'.server ∨ ∃ env pdu msg r u c conn, e = .validateResponse env pdu ∧ l.reading = none ∧
      pdu.body = .imValidateRsp msg ∧ msg.resultCode = 0 ∧ Reaches l.server msg r u c conn ∧
      (acceptLogin env r c msg pdu.seqNum).run l.server = ⟨.ok (), l'.server, out⟩ := by
  by_cases he : ∃ env pdu, e = .validateResponse env pdu
  · obtain ⟨env, pdu, rfl⟩ := he
    rw [Loop.step] at h
    split at h
    next hreading =>
      obtain ⟨result, hrun, -, hres⟩ := Loop.exec_eq_some h
      have hdef : result ≠ .error .undefinedBehaviour := by
        rcases hres with rfl | ⟨e, rfl⟩ <;> simp
      rcases handleValidateResponse_cases hrun hdef with
        ⟨heq, -⟩ | ⟨msg, r, u, c, conn, hbody, hreach, ⟨hzero, haccept⟩ | ⟨-, hrefuse⟩⟩
      · rw [heq]
        exact .inl (fades_refl _)
      · exact .inr ⟨env, pdu, msg, r, u, c, conn, rfl, hreading, hbody, hzero, hreach, haccept⟩
      · obtain ⟨out', hclose, -⟩ := run_emit_bind_eq_ok hrefuse
        exact .inl (fades_close hclose)
    next => cases h
  · refine .inl (fades_acts (ActsAux.acts_of_step KeepsClass (fun env pdu msg heq => ?_) hok h))
    exact absurd ⟨env, pdu, heq⟩ he

theorem oneSession_init (b : Backends) : OneSession [] (Server.init b) := by
  refine ⟨fun d d' userId cls hd => ?_, fun d d' userId cls hd => ?_⟩
  all_goals
    obtain ⟨conn, hc, -⟩ := hd
    cases hc

/-- Every step that meets the condition keeps the sessions in order. -/
theorem oneSession_step {l l' : Loop} {e : Event} (hreg : l.server.Registry idOf (l.reading.map Reading.conn))
    (hflags : FlagsLogged log l) (hone : OneSession log l.server) (hlogins : LoginsMeet KeepsClass l e)
    (hvalid : ValidationsMeet l e) (h : l.step e = some (l', out)) : OneSession (log ++ out) l'.server := by
  have hflags' := flagsLogged_step hflags h
  rcases fades_or_accepts hlogins h with hfades | ⟨env, pdu, msg, r, u, c, conn, rfl, hreading, hbody, hzero, hreach, haccept⟩
  · exact oneSession_fades hflags hflags' hone hfades
  · rw [hreading] at hreg
    exact oneSession_accepted hreg hflags hflags' hone hreach (hvalid env pdu msg r u c conn rfl hbody hzero hreach) haccept

/-- So do runs. -/
theorem oneSession_of_run {b : Backends} {l : Loop} (h : Machine.Run Loop.step
      (fun l e => AnswersWith idOf e ∧ LoginsMeet KeepsClass l e ∧ ValidationsMeet l e) (Loop.init b) log l) :
    OneSession log l.server := by
  induction h with
  | start => exact oneSession_init b
  | step hrun hok hstep ih =>
    have hreg := registry_of_run (fun _ _ hok => hok.1) hrun
    exact oneSession_step hreg (flagsLogged_of_run hrun) ih hok.2.1 hok.2.2 hstep

/-! ## Three logins -/

/-- One server of each kind. -/
def allServers : Backends :=
  { dbServerList := [true], dbServerLoginCount := 0, loginServerList := [true], routeServerList := [true],
    masterRs := none, fileServerList := [] }

def idleEnv : Env := { now := 0, tick := 0, random := 0, serialize := fun _ => [] }

/-- Dave asks to log in with a client for Windows. -/
def daveAsks : Pdu :=
  mkPdu sidLogin .loginReqUserlogin 1 (.imLoginReq
    { userName := "dave", password := "", onlineStatus := 1, clientType := 1, clientVersion := none })

/-- The DB proxy accepts him, as user 7. -/
def daveIsAccepted (handle : Nat) : IMValidateRsp :=
  { userName := "dave", resultCode := 0, resultString := none, userInfo := some { noUserInfo with userId := 7 },
    attachData := some (dbAttachData 1 handle 0) }

/-- He connects, and asks. -/
def daveConnects (c : ConnId) (handle : Nat) : List Event :=
  [.accept c handle 0 1, .readBegin handle 0 [daveAsks] false, .readStep idleEnv, .readEnd]

def daveAnswered (handle : Nat) : Event :=
  .validateResponse idleEnv (mkPdu sidOther .otherValidateRsp 1 (.imValidateRsp (daveIsAccepted handle)))

/-- He logs in for the third time, and no connection was closed. -/
def daveThrice : List Event :=
  daveConnects 0 5 ++ [daveAnswered 5] ++ daveConnects 1 6 ++ [daveAnswered 6] ++ daveConnects 2 7

/-- The DB proxy answers him as it should. -/
theorem daveAnswered_answers (handle : Nat) : AnswersWith (fun _ => 7) (daveAnswered handle) := by
  intro env pdu msg heq hbody _
  obtain ⟨rfl, rfl⟩ := Event.validateResponse.inj heq
  cases hbody
  exact ⟨rfl, Nat.succ_ne_zero 6⟩

theorem daveThrice_answers (e : Event) (he : e ∈ daveThrice) : AnswersWith (fun _ => 7) e := by
  intro env pdu msg heq
  simp only [daveThrice, daveConnects, List.mem_append, List.mem_cons, List.not_mem_nil, or_false, heq, reduceCtorEq,
    false_or] at he
  rcases he with he | he
  · exact daveAnswered_answers 5 env pdu msg he.symm
  · exact daveAnswered_answers 6 env pdu msg he.symm

/-! ## Two logins -/

/-- A live session, as it is found in the map. -/
def isLive (s : Server) (userId cls : Nat) (d : ConnId) : Bool :=
  (s.conns d).any fun conn => conn.userId = userId ∧ clientClass conn.clientType = cls ∧ conn.bOpen = true ∧
    s.msgConnMap[conn.handle]? = some d ∧ conn.bKickOff = false

theorem liveFor_of_isLive {userId cls : Nat} (h : isLive s userId cls d = true) : s.LiveFor d userId cls := by
  obtain ⟨conn, hd, hlive⟩ := (Option.any_eq_true ..).1 h
  exact ⟨conn, hd, of_decide_eq_true hlive⟩

/-- Whichever connection waits for the answer, all live sessions of the user and its class are found first. -/
def findsLive (s : Server) (msg : IMValidateRsp) : Bool :=
  let userId := (msg.userInfo.getD noUserInfo).userId
  (s.getImUserByLoginName msg.userName).all fun r => (s.users r).all fun u => u.unvalidateConnSet.toList.all fun c =>
    (s.conns c).all fun conn => (s.getImUserById userId).all fun q => (s.users q).all fun user =>
      s.msgConnMap.toList.all fun entry =>
        !isLive s userId (clientClass conn.clientType) entry.2 ||
          s.firstOther user (clientClass conn.clientType) c == some entry.2

/-- The condition on a step, as it can be computed: only connections that are not open log in. -/
def meets (l : Loop) : Event → Bool
  | .readStep _ => l.reading.all fun r => (l.server.conns r.conn).all fun conn => !conn.bOpen
  | .validateResponse _ pdu =>
    match pdu.body with
    | .imValidateRsp msg => findsLive l.server msg
    | _ => true
  | _ => true

theorem loginsMeet_of_meets {l : Loop} {e : Event} (h : meets l e = true) : LoginsMeet KeepsClass l e := by
  rintro env r pdu rest conn msg rfl hreading - hconn - - - - conn' hconn' hopen
  simp only [meets, hreading, Option.all_some, hconn'] at h
  rw [hopen] at h
  cases h

theorem validationsMeet_of_meets {l : Loop} {e : Event} (h : meets l e = true) : ValidationsMeet l e := by
  rintro env pdu msg r u c conn rfl hbody - hreach q user d hq huser hlive
  simp only [meets, hbody, findsLive, hreach.name_eq, hreach.user_eq, Option.all_some] at h
  have hc := List.all_eq_true.1 h c (Std.TreeSet.mem_toList.2 hreach.waits)
  simp only [hreach.conn_eq, hq, huser, Option.all_some] at hc
  obtain ⟨conn', hd, huserId, hclass, hopen, hmap, hfree⟩ := hlive
  have hentry := List.all_eq_true.1 hc (conn'.handle, d) (Std.TreeMap.mem_toList_iff_getElem?_eq_some.2 hmap)
  have hisLive : isLive l.server (msg.userInfo.getD noUserInfo).userId (clientClass conn.clientType) d = true := by
    rw [isLive, hd]
    exact decide_eq_true ⟨huserId, hclass, hopen, hmap, hfree⟩
  rw [hisLive] at hentry
  exact beq_iff_eq.1 hentry

/-- A step is taken only when it meets the condition. -/
def guardedStep (l : Loop) (e : Event) : Option (Loop × List Effect) := if meets l e then l.step e else none

theorem run_of_guarded {b : Backends} {l : Loop} (hrun : Machine.Run guardedStep (fun _ e => AnswersWith idOf e) (Loop.init b) log l) :
    Machine.Run Loop.step (fun l e => AnswersWith idOf e ∧ (LoginsMeet KeepsClass l e ∧ ValidationsMeet l e)) (Loop.init b) log l := by
  induction hrun with
  | start => exact .start
  | step _ hok hstep ih =>
    simp only [guardedStep, Option.ite_none_right_eq_some] at hstep
    exact ih.step ⟨hok, loginsMeet_of_meets hstep.1, validationsMeet_of_meets hstep.1⟩ hstep.2

/-- Dave logs in for the second time. -/
def daveTwice : List Event := daveConnects 0 5 ++ [daveAnswered 5] ++ daveConnects 1 6

theorem daveTwice_answers (e : Event) (he : e ∈ daveTwice) : AnswersWith (fun _ => 7) e := by
  refine daveThrice_answers e ?_
  simp only [daveTwice, daveThrice, List.mem_append] at he ⊢
  exact .inl (.inl he)

/-- After the second login the first session is kicked and the second one live; after the third one two of his sessions are live, and the
first was kicked twice. -/
theorem dave_kicks :
    ((Machine.steps guardedStep (Loop.init allServers) daveTwice).any fun (l, _) =>
      isLive l.server 7 0 0 && (guardedStep l (daveAnswered 6)).any fun (l', out) =>
        out.contains (.setOpen 1) && isLive l'.server 7 0 1) = true ∧
    ((Machine.steps Loop.step (Loop.init allServers) daveThrice).any fun (l, _) =>
      (l.step (daveAnswered 7)).any fun (l', out) => out.contains (.setOpen 2) && [1, 2].all fun d =>
        (l'.server.conns d).any fun conn => conn.userId = 7 ∧ clientClass conn.clientType = 0 ∧
          conn.bOpen = true ∧ l'.server.msgConnMap[conn.handle]? = some d ∧ conn.bKickOff = false) = true := by
  decide +kernel

end KicksRunAux

open KicksRunAux

/-- In every run in which the live session of the class, if there is one, is found first whenever a login is accepted, and open
connections keep their class, the sessions are in order after every validation. -/
theorem sessions_kept (idOf : String → Nat) (b : Backends) :
    SessionsKept idOf b fun l e => LoginsMeet KeepsClass l e ∧ ValidationsMeet l e := by
  intro log l hrun env pdu l' out c hans hmeets hstep _
  have hreg := registry_of_run (fun _ _ hok => hok.1) hrun
  exact oneSession_step hreg (flagsLogged_of_run hrun) (oneSession_of_run hrun) hmeets.1 hmeets.2 hstep

/-- The second login with the same kind of client ends the first session. -/
theorem sessions_kept_twice : ∃ log l out l',
    Machine.Run Loop.step (fun l e => AnswersWith (fun _ => 7) e ∧ (LoginsMeet KeepsClass l e ∧ ValidationsMeet l e))
      (Loop.init allServers) log l ∧ l.step (daveAnswered 6) = some (l', out) ∧ l.server.LiveFor 0 7 0 ∧
      OneSession (log ++ out) l'.server ∧ l'.server.LiveFor 1 7 0 ∧ ¬l'.server.LiveFor 0 7 0 := by
  obtain ⟨⟨l, log⟩, hsteps, hlast⟩ := (Option.any_eq_true ..).1 dave_kicks.1
  obtain ⟨hfirst, hlast⟩ := Bool.and_eq_true_iff.1 hlast
  obtain ⟨⟨l', out⟩, hstep, hlast⟩ := (Option.any_eq_true ..).1 hlast
  obtain ⟨hopened, hlive⟩ := Bool.and_eq_true_iff.1 hlast
  simp only [guardedStep, Option.ite_none_right_eq_some] at hstep
  have hguarded : Machine.Run guardedStep (fun _ e => AnswersWith (fun _ => 7) e) (Loop.init allServers) ([] ++ log) l :=
    Machine.Run.of_steps_mem (fun e he _ => daveTwice_answers e he) .start hsteps
  have hrun := run_of_guarded hguarded
  have hone := sessions_kept (fun _ => 7) allServers _ l hrun _ _ l' out 1 (daveAnswered_answers 6)
    ⟨loginsMeet_of_meets hstep.1, validationsMeet_of_meets hstep.1⟩ hstep.2 (List.contains_iff_mem.1 hopened)
  have hsecond := liveFor_of_isLive hlive
  refine ⟨_, l, out, l', hrun, hstep.2, liveFor_of_isLive hfirst, hone, hsecond, fun hboth => ?_⟩
  exact absurd (hone.atMostOne 0 1 7 0 hboth hsecond) (by decide)

/-- After a third login with the same kind of client, the second session is still live. -/
theorem sessions_not_kept : ¬∀ idOf b, SessionsKept idOf b fun _ _ => True := by
  intro hall
  obtain ⟨⟨l, log⟩, hsteps, hlive⟩ := (Option.any_eq_true ..).1 dave_kicks.2
  obtain ⟨⟨l', out⟩, hstep, hlive⟩ := (Option.any_eq_true ..).1 hlive
  obtain ⟨hopened, htwo⟩ := Bool.and_eq_true_iff.1 hlive
  have hrun : Machine.Run Loop.step (fun _ e => AnswersWith (fun _ => 7) e ∧ True) (Loop.init allServers) ([] ++ log) l :=
    Machine.Run.of_steps_mem (fun e he _ => ⟨daveThrice_answers e he, trivial⟩) .start hsteps
  have hone := hall (fun _ => 7) allServers _ l hrun _ _ l' out 2 (daveAnswered_answers 7) trivial hstep
    (List.contains_iff_mem.1 hopened)
  have hfor : ∀ d ∈ [1, 2], l'.server.LiveFor d 7 0 := by
    intro d hd
    obtain ⟨conn, hc, hrest⟩ := (Option.any_eq_true ..).1 (List.all_eq_true.1 htwo d hd)
    exact ⟨conn, hc, of_decide_eq_true hrest⟩
  exact absurd (hone.atMostOne 1 2 7 0 (hfor 1 (by decide)) (hfor 2 (by decide))) (by decide)

end TeamTalk
