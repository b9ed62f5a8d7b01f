import TeamTalk.MsgServer.Acts
import TeamTalk.MsgServer.PcLogin
import TeamTalk.MsgServer.Registry

/-!
# Whether the PC login status is what was heard

When a file goes straight to the file server, or a push is silent, because the receiver is on a PC: the last notification that
msg_server received for him said so, unless his object is new and no notification has reached it. `CImUser::CImUser` sets the
status to `USER_STATUS_OFFLINE`, which is not zero, and `HandleClientFileRequest` takes what is not zero for online.
-/

namespace TeamTalk.PcLogin

open Action
open Std (TreeMap)

/-! ## The property -/

/-- msg_server handles a client's request to send the user a file while both are online. -/
structure Asks (p : Pair) (e : Event) (u : Nat) (env : Env) (reading : Reading) (pdu : Pdu) (msg : IMFileReq) : Prop where
  event_eq : e = .msg (.readStep env)
  reading_eq : p.msg.reading = some reading
  next_eq : ∃ rest, reading.rest = pdu :: rest
  command_eq : pdu.commandId = .fileRequest
  body_eq : pdu.body = .imFileReq msg
  online : msg.transMode ≠ fileTypeOffline
  receiver_eq : msg.toUserId = u

/-- The file goes straight to a file server. -/
def Direct (p : Pair) (e : Event) (out : List Out) (u : Nat) : Prop :=
  (∃ env reading pdu msg, Asks p e u env reading pdu msg) ∧ ∃ c i transfer, .msg (.send c (.file i) transfer) ∈ out

/-- A push to the user is silent. -/
def Silent (out : List Out) (u : Nat) : Prop :=
  ∃ push token, .pushToUser push ∈ out ∧ token ∈ push.userTokenList ∧ token.userId = u ∧ token.pushType = imPushTypeSilent

/-- Files go straight, and pushes are silent, only for a user of whom msg_server has heard last that he is on a PC. -/
def OnlyOnline (p : Pair) (e : Event) (out : List Out) : Prop :=
  ∀ u, Direct p e out u ∨ Silent out u → p.heard u = some imPcLoginStatusOn

/-! ## The condition -/

/-- The user is here, and his object is as it was made: no notification has reached it. -/
def Uninformed (s : Server) (u : Nat) : Prop :=
  ∃ r user, s.getImUserById u = some r ∧ s.users r = some user ∧ user.pcLoginStatus = userStatusOffline

/-- The request passes the authorization check, and a file server is there. -/
def Passes (s : Server) (env : Env) (c : ConnId) (pdu : Pdu) : Prop :=
  (∃ conn, s.conns c = some conn ∧ authRefused conn pdu = false) ∧ (s.getRandomFileServConn env.random).isSome = true

/-- Where the receiver of a file has not been reached by a notification, the last one for him said that he is on a PC. -/
def Meets (p : Pair) (e : Event) : Prop :=
  ∀ u env reading pdu msg, Asks p e u env reading pdu msg → Passes p.msg.server env reading.conn pdu →
    Uninformed p.msg.server u → p.heard u = some imPcLoginStatusOn

/-- The DB proxy gives each login name one id. -/
def Answers (idOf : String → Nat) (_ : Pair) (e : Event) : Prop := ∀ e', e = .msg e' → AnswersWith idOf e'

namespace PcLoginAux

open ClosingAux ValidatingAux UserMapsAux RegistryAux

variable {idOf : String → Nat} {s s' s'' : Server} {c : ConnId} {r : UserRef} {user user' : ImUser} {heard : Nat → Option Nat}

/-! ## What is kept of the users -/

/-- Users may go, and none of them changes its id or its status. -/
def Keeps (s s' : Server) : Prop :=
  ∀ r user', s'.users r = some user' →
    ∃ user, s.users r = some user ∧ user'.pcLoginStatus = user.pcLoginStatus ∧ user'.userId = user.userId

/-- The users are kept where they are the same. -/
theorem keeps_of_eq (h : s'.users = s.users) : Keeps s s' := by
  intro r user' hu
  rw [h] at hu
  exact ⟨user', hu, rfl, rfl⟩

/-- What keeps them twice over keeps them. -/
theorem keeps_trans (h : Keeps s s') (h' : Keeps s' s'') : Keeps s s'' := by
  intro r user'' hu
  obtain ⟨user', hu', hstatus', hid'⟩ := h' r user'' hu
  obtain ⟨user, hu, hstatus, hid⟩ := h r user' hu'
  exact ⟨user, hu, hstatus'.trans hstatus, hid'.trans hid⟩

/-- A user stored with its state and id keeps them. -/
theorem keeps_setUser (hu : s.users r = some user) (hstatus : user'.pcLoginStatus = user.pcLoginStatus)
    (hid : user'.userId = user.userId) : Keeps s (s.setUser r (some user')) := by
  intro q u hq
  rw [Server.users_setUser] at hq
  split at hq
  next heq =>
    cases hq
    rw [heq]
    exact ⟨user, hu, hstatus, hid⟩
  next => exact ⟨u, hq, rfl, rfl⟩

/-- Removing a user changes no other's state. -/
theorem keeps_deleteUser (s : Server) (r : UserRef) : Keeps s (s.setUser r none) := by
  intro q u hq
  rw [Server.users_setUser] at hq
  split at hq
  · cases hq
  · exact ⟨u, hq, rfl, rfl⟩

/-- Nor does removing one without connections. -/
theorem keeps_removeIfEmpty (s : Server) (r : UserRef) (user : ImUser) : Keeps s (s.removeIfEmpty r user) := by
  rw [Server.removeIfEmpty]
  split
  · exact keeps_trans (keeps_deleteUser s r) (keeps_of_eq rfl)
  · exact keeps_of_eq rfl

/-- Or dropping it by its name. -/
theorem keeps_dropIfEmpty (s : Server) (r : UserRef) (loginName : String) (user : ImUser) :
    Keeps s (s.dropIfEmpty r loginName user) := by
  rw [Server.dropIfEmpty]
  split
  · exact keeps_trans (keeps_deleteUser s r) (keeps_of_eq rfl)
  · exact keeps_of_eq rfl

/-- Or putting another record in its place. -/
theorem keeps_replaceUser (hu : s.users r = some user) (hstatus : user'.pcLoginStatus = user.pcLoginStatus)
    (hid : user'.userId = user.userId) : Keeps s (s.replaceUser r user') :=
  keeps_trans (keeps_setUser hu hstatus hid) (keeps_removeIfEmpty _ r user')

/-- An unvalidated connection that leaves changes no state. -/
theorem keeps_delUnValidateMsgConn (c : ConnId) (hu : s.users r = some user) :
    Keeps s (s.setUser r (some (user.delUnValidateMsgConn c))) := keeps_setUser hu rfl rfl

/-- Nor does a connection stored. -/
theorem keeps_setConn (s : Server) (c : ConnId) (conn : MsgConn) : Keeps s (s.setConn c conn) := keeps_of_eq rfl

/-- Closing keeps the users' states. -/
theorem keeps_close {out : List Effect} (h : (close c).run s = ⟨.ok (), s', out⟩) : Keeps s s' := by
  obtain ⟨conn, s1, s2, reported, notified, hcloses⟩ := close_ok h
  have herased : Keeps s { s with msgConnMap := s.msgConnMap.erase conn.handle } := keeps_of_eq rfl
  have hfirst : Keeps s s1 := by
    refine keeps_trans herased ?_
    have hbyId := closeById_ok (s := { s with msgConnMap := s.msgConnMap.erase conn.handle }) hcloses.conn_eq hcloses.live
      hcloses.byId
    rcases hbyId with ⟨-, rfl, -⟩ | ⟨r, user, -, hu, rfl, -⟩
    · exact keeps_of_eq rfl
    · exact keeps_replaceUser hu rfl rfl
  have hsecond : Keeps s1 s2 := by
    obtain ⟨-, ⟨-, rfl⟩ | ⟨r, user, -, hu, rfl⟩⟩ := closeByLoginName_ok hcloses.byLoginName
    · exact keeps_of_eq rfl
    · exact keeps_replaceUser hu rfl rfl
  rw [hcloses.state_eq]
  exact keeps_trans hfirst (keeps_trans hsecond (keeps_of_eq rfl))

/-- Finding the user a login is for keeps them. -/
theorem keeps_userForId {q : UserRef} {loginName : String} {userId : Nat} {out : List Effect}
    (h : (userForId r c loginName userId).run s = ⟨.ok q, s', out⟩) : Keeps s s' := by
  obtain ⟨-, ⟨-, -, rfl⟩ | ⟨joined, left, -, hjoined, hleft, rfl⟩⟩ := userForId_ok h
  · exact keeps_of_eq rfl
  · have hfirst : Keeps s (s.setUser q (some (joined.addUnValidateMsgConn c))) := keeps_setUser hjoined rfl rfl
    have hsecond := keeps_delUnValidateMsgConn c hleft
    exact keeps_trans hfirst (keeps_trans hsecond (keeps_dropIfEmpty _ r loginName _))

/-! ## What the statuses say -/

/-- The status of each user is the one it was made with, or what was heard last about the user with its id. -/
def Told (heard : Nat → Option Nat) (s : Server) : Prop :=
  ∀ r user, s.users r = some user → user.pcLoginStatus = userStatusOffline ∨
    (user.userId ≠ 0 ∧ heard user.userId = some user.pcLoginStatus ∧
      (user.pcLoginStatus = imPcLoginStatusOn ∨ user.pcLoginStatus = imPcLoginStatusOff))

/-- What was told stays told. -/
theorem told_of_keeps (h : Told heard s) (hk : Keeps s s') : Told heard s' := by
  intro r user' hu
  obtain ⟨user, hu, hstatus, hid⟩ := hk r user' hu
  rw [hstatus, hid]
  exact h r user hu

/-- A user stored with what was heard of it. -/
theorem told_setUser (h : Told heard s) (hu : user.pcLoginStatus = userStatusOffline ∨ (user.userId ≠ 0 ∧
    heard user.userId = some user.pcLoginStatus ∧
      (user.pcLoginStatus = imPcLoginStatusOn ∨ user.pcLoginStatus = imPcLoginStatusOff))) :
    Told heard (s.setUser r (some user)) := by
  intro q u hq
  rw [Server.users_setUser] at hq
  split at hq
  · cases hq
    exact hu
  · exact h q u hq

/-- A user made for a login name has heard nothing. -/
theorem told_withUser (h : Told heard s) (loginName : String) : Told heard (s.withUser loginName).1 := by
  rw [Server.withUser]
  cases s.getImUserByLoginName loginName with
  | some r => exact h
  | none => exact told_of_keeps (told_setUser h (.inl rfl)) (keeps_of_eq rfl)

/-- An accepted login: a user that has no id yet was not told anything. -/
theorem told_acceptLogin {env : Env} {msg : IMValidateRsp} {seqNum : Nat} {u : ImUser} {conn : MsgConn} {out : List Effect}
    (hs : s.Registry idOf none) (hreach : Reaches s msg r u c conn)
    (hid : (msg.userInfo.getD noUserInfo).userId = idOf msg.userName) (h : Told heard s)
    (hrun : (acceptLogin env r c msg seqNum).run s = ⟨.ok (), s', out⟩) : Told heard s' := by
  obtain ⟨q, s1, joined, s2, out1, conn2, out2, hq, hjoined, hserves, -, -, rfl, -⟩ := acceptLogin_steps hrun
  have hclosed : ∀ handle userId, ¬s.OpenFor c handle userId := by
    rintro handle userId ⟨conn0, hc0, -, -, hopen, -⟩
    rw [hreach.conn_eq] at hc0
    obtain rfl := Option.some.inj hc0
    rw [hreach.notOpen] at hopen
    cases hopen
  obtain ⟨hs1, -, -, hfacts⟩ := users_userForId hs.users hreach.name_eq hid hclosed hq
  obtain ⟨-, hreg⟩ := hfacts joined hjoined
  have h1 : Told heard s1 := told_of_keeps h (keeps_userForId hq)
  have haccepted : ∀ handle, Told heard (s1.setUser q
      (some ((joined.accepted (msg.userInfo.getD noUserInfo)).validateMsgConn handle c))) := by
    intro handle
    refine told_setUser h1 ?_
    rcases h1 q joined hjoined with hnew | ⟨hne, hheard, hvalue⟩
    · exact .inl hnew
    · refine .inr ?_
      have hsame : (msg.userInfo.getD noUserInfo).userId = joined.userId := by
        rcases hreg with hreg | ⟨-, hzero, -⟩
        · obtain ⟨-, u', hu', huid, -⟩ := hs1.byId _ q hreg
          rw [hjoined] at hu'
          cases hu'
          exact huid.symm
        · exact absurd hzero hne
      have hid' : ((joined.accepted (msg.userInfo.getD noUserInfo)).validateMsgConn handle c).userId = joined.userId := hsame
      rw [hid']
      exact ⟨hne, hheard, hvalue⟩
  -- what follows changes other connections only, and joins the user once more
  intro p v hp
  refine haccepted conn2.handle p v ?_
  rw [Server.users_setUser] at hp ⊢
  split
  next heq =>
    rw [if_pos heq] at hp
    exact hp
  next hne =>
    rw [if_neg hne] at hp
    have hreg := (register_eqs s1 q (joined.accepted (msg.userInfo.getD noUserInfo)) (msg.userInfo.getD noUserInfo).userId
      ).2.2.2.2 p
    rw [if_neg hne] at hreg
    rw [← hreg, ← hserves.users_eq]
    exact hp

/-- Every action keeps what the statuses say. -/
theorem told_acts {ok : Server → ConnId → IMLoginReq → Prop} {used used' : Option ConnId} (h : s.Acts idOf ok used used' s')
    (hs : s.Registry idOf used) (ht : Told heard s) : Told heard s' := by
  induction h with
  | refl => exact ht
  | trans hacts _ ih ih' => exact ih' (registry_acts hacts hs) (ih hs ht)
  | serves h => exact told_of_keeps ht (keeps_of_eq h.users_eq)
  | backends b => exact told_of_keeps ht (keeps_of_eq rfl)
  | accept tick clientType hc hfree => exact told_of_keeps ht (keeps_of_eq rfl)
  | addRef hfind h =>
    obtain ⟨conn, s1, out1, out2, hconn, h1, -⟩ := run_bind_eq_ok h
    obtain ⟨rfl, -, -, -⟩ := getConn_eq_ok hconn
    obtain ⟨-, rfl, -⟩ := (Outcome.mk.injEq ..).mp h1
    exact told_of_keeps ht (keeps_of_eq rfl)
  | releaseRef h =>
    obtain ⟨conn, s1, out1, out2, hconn, h1, -⟩ := run_bind_eq_ok h
    obtain ⟨rfl, -, -, -⟩ := getConn_eq_ok hconn
    obtain ⟨-, rfl, -⟩ := (Outcome.mk.injEq ..).mp h1
    exact told_of_keeps ht (keeps_of_eq rfl)
  | close huser h => exact told_of_keeps ht (keeps_close h)
  | login hc hlive hempty hrefuse hbody hok h =>
    obtain ⟨user, hu, rfl, -⟩ := login_accepted_ok hc hlive hempty hrefuse hbody h
    exact told_of_keeps (told_withUser (told_of_keeps ht (keeps_setConn _ _ _)) _) (keeps_setUser hu rfl rfl)
  | validate hreach hid hne h => exact told_acceptLogin hs hreach hid ht h

/-! ## Steps -/

/-- What is known of every state that is reached. -/
structure Inv (idOf : String → Nat) (p : Pair) : Prop where
  registry : p.msg.server.Registry idOf (p.msg.reading.map Reading.conn)
  told : Told p.heard p.msg.server
  pending : ∀ msg ∈ p.pending, msg.loginStatus = imPcLoginStatusOn ∨ msg.loginStatus = imPcLoginStatusOff

/-- The invariant holds when both servers start. -/
theorem inv_init (b : Backends) : Inv idOf (Pair.init b) := by
  refine ⟨registry_init idOf b, fun r user hu => ?_, fun msg hmsg => ?_⟩
  · cases hu
  · cases hmsg

/-- A notification reaches the object of its user, and nobody else has the user's id. -/
theorem inv_notify {p : Pair} {msg : IMServerPCLoginStatusNotify} {server : Server} {out : List Out} (h : Inv idOf p)
    (hidle : p.msg.reading = none) (hvalue : msg.loginStatus = imPcLoginStatusOn ∨ msg.loginStatus = imPcLoginStatusOff)
    (hrun : handlePCLoginStatusNotify p.msg.server msg = some (server, out)) :
    server.Registry idOf none ∧ Told (p.hear msg) server := by
  have hregistry := h.registry
  rw [hidle, Option.map_none] at hregistry
  -- a user whose status has been set has an id, and is found by it
  have hfound : ∀ q user, p.msg.server.users q = some user → user.pcLoginStatus ≠ userStatusOffline →
      p.msg.server.getImUserById user.userId = some q := by
    intro q user hq hset
    refine (hregistry.users.idle q user hq).resolve_right fun hidle => ?_
    exact ((h.told q user hq).resolve_left hset).1 hidle.1
  -- nothing is known from now on about another user than before
  have hother : ∀ q user, p.msg.server.users q = some user → p.msg.server.getImUserById msg.userId ≠ some q →
      user.pcLoginStatus = userStatusOffline ∨ (user.userId ≠ 0 ∧ p.hear msg user.userId = some user.pcLoginStatus ∧
        (user.pcLoginStatus = imPcLoginStatusOn ∨ user.pcLoginStatus = imPcLoginStatusOff)) := by
    intro q user hq hne
    by_cases hset : user.pcLoginStatus = userStatusOffline
    · exact .inl hset
    · obtain ⟨hid, hheard, hv⟩ := (h.told q user hq).resolve_left hset
      refine .inr ⟨hid, ?_, hv⟩
      rw [Pair.hear, if_neg, hheard]
      intro heq
      rw [← heq] at hne
      exact hne (hfound q user hq hset)
  unfold handlePCLoginStatusNotify at hrun
  cases hr : p.msg.server.getImUserById msg.userId with
  | none =>
    rw [hr] at hrun
    cases hrun
    refine ⟨hregistry, fun q user hq => hother q user hq ?_⟩
    rw [hr]
    exact Option.some_ne_none q |>.symm
  | some r =>
    obtain ⟨hne, user, hu, hid, -⟩ := hregistry.users.byId msg.userId r hr
    simp only [hr, hu] at hrun
    obtain ⟨ds, -, heq⟩ := Option.map_eq_some_iff.1 hrun
    cases heq
    refine ⟨registry_of_users hregistry.conns rfl rfl (users_setUser hregistry.users hu _ rfl rfl fun _ => rfl), ?_⟩
    intro q user' hq
    rw [Server.users_setUser] at hq
    split at hq
    next heq =>
      cases hq
      refine .inr ⟨?_, ?_, hvalue⟩
      · exact hid.symm ▸ hne
      · exact if_pos hid
    next hqr =>
      refine hother q user' hq fun hfind => hqr ?_
      rw [hr] at hfind
      exact (Option.some.inj hfind).symm

/-- Each step of either keeps it. -/
theorem inv_step {self : RouteServer.RouteConn} {p p' : Pair} {e : Event} {out : List Out} (h : Inv idOf p) (hans : Answers idOf p e)
    (hstep : p.step self e = some (p', out)) : Inv idOf p' := by
  cases e with
  | msg e =>
    obtain ⟨⟨l, out'⟩, hl, heq⟩ := Option.map_eq_some_iff.1 hstep
    cases heq
    have hacts := ActsAux.acts_of_step (fun _ _ _ => True) (hans e rfl) (fun _ _ _ _ _ _ _ _ _ _ _ _ _ _ => trivial) hl
    exact ⟨registry_acts hacts h.registry, told_acts hacts h.registry h.told, h.pending⟩
  | route e =>
    obtain ⟨⟨route, sent⟩, -, heq⟩ := Option.map_eq_some_iff.1 hstep
    cases heq
    refine ⟨h.registry, h.told, fun msg hmsg => ?_⟩
    rcases List.mem_append.1 hmsg with hmsg | hmsg
    · exact h.pending msg hmsg
    · split at hmsg
      · obtain ⟨notice, -, hnotice⟩ := List.mem_filterMap.1 hmsg
        cases notice with
        | loginStatusNotify userId on =>
          cases hnotice
          cases on
          · exact .inr rfl
          · exact .inl rfl
        | statusNotify userId status => cases hnotice
        | usersStatusResponse c stats => cases hnotice
      · cases hmsg
  | notify =>
    simp only [Pair.step] at hstep
    split at hstep
    next msg rest hidle hpending =>
      obtain ⟨⟨server, out'⟩, hrun, heq⟩ := Option.map_eq_some_iff.1 hstep
      cases heq
      have hvalue := h.pending msg (by rw [hpending]; exact List.mem_cons_self)
      obtain ⟨hregistry, htold⟩ := inv_notify h hidle hvalue hrun
      refine ⟨?_, htold, fun msg' hmsg' => h.pending msg' ?_⟩
      · rw [hidle]
        exact hregistry
      · rw [hpending]
        exact List.mem_cons_of_mem msg hmsg'
    · cases hstep
  | lost =>
    cases hstep
    exact ⟨h.registry, h.told, fun msg hmsg => by cases hmsg⟩
  | deviceTokens pushServ fromId flash data tokens =>
    simp only [Pair.step] at hstep
    split at hstep
    · obtain ⟨out', -, heq⟩ := Option.map_eq_some_iff.1 hstep
      cases heq
      exact h
    · cases hstep

/-! ## What is sent -/

/-- The user's status is one that a notification has set. -/
theorem heard_of_told {p : Pair} {u : Nat} (h : Inv idOf p) (hr : p.msg.server.getImUserById u = some r)
    (hu : p.msg.server.users r = some user) (hset : user.pcLoginStatus ≠ userStatusOffline) (hon : user.pcLoginStatus ≠ 0) :
    p.heard u = some imPcLoginStatusOn := by
  obtain ⟨-, user', hu', hid, -⟩ := h.registry.users.byId u r hr
  rw [hu] at hu'
  cases hu'
  obtain ⟨-, hheard, hvalue⟩ := (h.told r user hu).resolve_left hset
  rw [← hid, hheard]
  rcases hvalue with hvalue | hvalue
  · rw [hvalue]
  · exact absurd hvalue hon

/-- A token that is pushed to silently is one of a user with the status online. -/
theorem pushTokens_silent {fromId : Nat} {flash data : String} {tokens pushed : List UserTokenInfo} {out : List Out}
    (h : pushTokens s fromId flash data tokens = some (pushed, out)) :
    ∀ token ∈ pushed, token.pushType = imPushTypeSilent → ∃ r user, s.getImUserById token.userId = some r ∧
      s.users r = some user ∧ user.pcLoginStatus = imPcLoginStatusOn := by
  induction tokens generalizing pushed out with
  | nil =>
    cases h
    simp
  | cons first tokens ih =>
    unfold pushTokens at h
    split at h
    · exact ih h
    · split at h
      next r hr =>
        split at h
        · cases h
        next user hu =>
          obtain ⟨⟨pushed', out'⟩, hrest, heq⟩ := Option.map_eq_some_iff.1 h
          cases heq
          intro token htoken hsilent
          rcases List.mem_cons.1 htoken with rfl | htoken
          · refine ⟨r, user, hr, hu, ?_⟩
            by_contra hoff
            rw [if_neg hoff] at hsilent
            cases hsilent
          · exact ih hrest token htoken hsilent
      next hr =>
        obtain ⟨⟨pushed', out'⟩, hrest, heq⟩ := Option.map_eq_some_iff.1 h
        cases heq
        exact ih hrest

/-- The questions for route_server push nothing yet. -/
theorem pushTokens_asks {fromId : Nat} {flash data : String} {tokens pushed : List UserTokenInfo} {out : List Out}
    (h : pushTokens s fromId flash data tokens = some (pushed, out)) : ∀ push, .pushToUser push ∉ out := by
  induction tokens generalizing pushed out with
  | nil =>
    cases h
    simp
  | cons first tokens ih =>
    unfold pushTokens at h
    split at h
    · exact ih h
    · split at h
      next r hr =>
        split at h
        · cases h
        next user hu =>
          obtain ⟨⟨pushed', out'⟩, hrest, heq⟩ := Option.map_eq_some_iff.1 h
          cases heq
          exact ih hrest
      next hr =>
        obtain ⟨⟨pushed', out'⟩, hrest, heq⟩ := Option.map_eq_some_iff.1 h
        cases heq
        intro push hpush
        rcases List.mem_append.1 hpush with hpush | hpush
        · obtain ⟨i, -, hi⟩ := List.mem_map.1 hpush
          cases hi
        · exact ih hrest push hpush

/-- Only device tokens are pushed to, and silently only for a user with the status online. -/
theorem silent_cases {self : RouteServer.RouteConn} {p p' : Pair} {e : Event} {out : List Out} {u : Nat}
    (hstep : p.step self e = some (p', out)) (h : Silent out u) :
    ∃ r user, p.msg.server.getImUserById u = some r ∧ p.msg.server.users r = some user ∧
      user.pcLoginStatus = imPcLoginStatusOn := by
  obtain ⟨push, token, hpush, htoken, rfl, hsilent⟩ := h
  cases e with
  | msg e =>
    obtain ⟨next, -, heq⟩ := Option.map_eq_some_iff.1 hstep
    cases heq
    obtain ⟨effect, -, heffect⟩ := List.mem_map.1 hpush
    cases heffect
  | route e =>
    obtain ⟨next, -, heq⟩ := Option.map_eq_some_iff.1 hstep
    cases heq
    obtain ⟨sent, -, hsent⟩ := List.mem_map.1 hpush
    cases hsent
  | notify =>
    simp only [Pair.step] at hstep
    split at hstep
    next msg rest hidle hpending =>
      obtain ⟨next, hrun, heq⟩ := Option.map_eq_some_iff.1 hstep
      cases heq
      unfold handlePCLoginStatusNotify at hrun
      split at hrun
      · cases hrun
        cases hpush
      · split at hrun
        · cases hrun
        · obtain ⟨ds, -, heq⟩ := Option.map_eq_some_iff.1 hrun
          cases heq
          obtain ⟨d, -, hd⟩ := List.mem_map.1 hpush
          cases hd
    · cases hstep
  | lost =>
    cases hstep
    cases hpush
  | deviceTokens pushServ fromId flash data tokens =>
    simp only [Pair.step] at hstep
    split at hstep
    · obtain ⟨out', hrun, heq⟩ := Option.map_eq_some_iff.1 hstep
      cases heq
      obtain ⟨⟨pushed, asks⟩, htokens, heq⟩ := Option.map_eq_some_iff.1 hrun
      cases heq
      rcases List.mem_append.1 hpush with hpush | hpush
      · exact absurd hpush (pushTokens_asks htokens push)
      · split at hpush
        · cases List.mem_singleton.1 hpush
          exact pushTokens_silent htokens token htoken hsilent
        · cases hpush
    · cases hstep

/-- A request for an online transfer goes straight to a file server when there is one, and the receiver's status is not zero. -/
theorem fileRequest_direct {env : Env} {pdu : Pdu} {msg : IMFileReq} {conn : MsgConn} {result : Except Stop Unit}
    {out : List Effect} (hc : s.conns c = some conn) (hlive : conn.refCount ≠ 0) (hbody : pdu.body = .imFileReq msg)
    (honline : msg.transMode ≠ fileTypeOffline) (h : (handleClientFileRequest env c pdu).run s = ⟨result, s', out⟩) :
    (∃ d i transfer, .send d (.file i) transfer ∈ out) ↔ (s.getRandomFileServConn env.random).isSome = true ∧
      ∃ r user, s.getImUserById msg.toUserId = some r ∧ s.users r = some user ∧ user.pcLoginStatus ≠ 0 := by
  have hasked : ∀ pdu' : Pdu, ¬∃ d i transfer, .send d (.file i) transfer ∈ ((sendRoute c pdu').run s).out := by
    rintro pdu' ⟨d, i, transfer, hmem⟩
    rw [run_sendRoute] at hmem
    obtain ⟨j, -, hj⟩ := List.mem_map.1 hmem
    cases hj
  simp only [handleClientFileRequest, hbody] at h
  rw [run_bind_nil (run_getConn hc hlive), run_read_bind] at h
  cases hserv : s.getRandomFileServConn env.random with
  | none =>
    simp only [hserv] at h
    obtain ⟨-, -, rfl⟩ := (Outcome.mk.injEq ..).mp h
    simp
  | some serv =>
    obtain ⟨i, fileServ⟩ := serv
    simp only [hserv, if_neg honline] at h
    cases hr : s.getImUserById msg.toUserId with
    | none =>
      simp only [hr, run_pure_bind, ne_eq, not_true_eq_false, if_false] at h
      obtain ⟨-, -, rfl⟩ := (Outcome.mk.injEq ..).mp h
      refine iff_of_false (hasked _) ?_
      rintro ⟨-, r, user, hr', -⟩
      cases hr'
    | some r =>
      simp only [hr] at h
      cases hu : s.users r with
      | none =>
        rw [run_bind_error (run_getUser_none hu)] at h
        obtain ⟨-, -, rfl⟩ := (Outcome.mk.injEq ..).mp h
        refine iff_of_false ?_ ?_
        · rintro ⟨d, i, transfer, hmem⟩
          cases hmem
        · rintro ⟨-, r', user, hr', hu', -⟩
          cases hr'
          rw [hu] at hu'
          cases hu'
      | some user =>
        rw [run_bind_nil (run_getUser hu), run_pure_bind] at h
        by_cases hzero : user.pcLoginStatus = 0
        · rw [if_neg (not_not.2 hzero)] at h
          obtain ⟨-, -, rfl⟩ := (Outcome.mk.injEq ..).mp h
          refine iff_of_false (hasked _) ?_
          rintro ⟨-, r', user', hr', hu', hne⟩
          cases hr'
          rw [hu] at hu'
          cases hu'
          exact hne hzero
        · rw [if_pos hzero] at h
          obtain ⟨-, -, rfl⟩ := (Outcome.mk.injEq ..).mp h
          exact iff_of_true ⟨c, i, _, List.mem_singleton_self _⟩ ⟨rfl, r, user, rfl, hu, hzero⟩

/-- When a request goes straight to a file server. -/
theorem direct_iff {self : RouteServer.RouteConn} {p p' : Pair} {e : Event} {out : List Out} {u : Nat} {env : Env}
    {reading : Reading} {pdu : Pdu} {msg : IMFileReq} (hstep : p.step self e = some (p', out))
    (hasks : Asks p e u env reading pdu msg) :
    (∃ c i transfer, .msg (.send c (.file i) transfer) ∈ out) ↔ Passes p.msg.server env reading.conn pdu ∧
      ∃ r user, p.msg.server.getImUserById u = some r ∧ p.msg.server.users r = some user ∧ user.pcLoginStatus ≠ 0 := by
  obtain ⟨rfl, hreading, ⟨rest, hnext⟩, hcommand, hbody, honline, rfl⟩ := hasks
  obtain ⟨⟨l, effects⟩, hl, heq⟩ := Option.map_eq_some_iff.1 hstep
  cases heq
  rw [Loop.step, hreading] at hl
  obtain ⟨pdu', rest', result, hnext', hrun, hresult⟩ := Loop.readingStep_eq_some hl
  rw [hnext] at hnext'
  obtain ⟨rfl, rfl⟩ := List.cons.inj hnext'
  have hres : result ≠ .error .undefinedBehaviour := by
    rintro rfl
    rcases hresult with ⟨h, -⟩ | ⟨⟨e, h⟩, -⟩ <;> cases h
  have hmem : (∃ c i transfer, .msg (.send c (.file i) transfer) ∈ effects.map Out.msg) ↔
      ∃ c i transfer, .send c (.file i) transfer ∈ effects := by
    simp
  rw [hmem]
  obtain ⟨conn, hc, hlive, ⟨hauth, -, -, rfl⟩ | ⟨hauth, effects', rfl, hdispatch⟩⟩ := handlePdu_cases hrun hres
  · refine iff_of_false ?_ ?_
    · rintro ⟨c, i, transfer, hmem⟩
      cases List.mem_singleton.1 hmem
    · rintro ⟨⟨⟨conn', hc', hauth'⟩, -⟩, -⟩
      rw [hc] at hc'
      cases hc'
      rw [hauth] at hauth'
      cases hauth'
  · rw [dispatch, hcommand] at hdispatch
    have hdirect := fileRequest_direct hc hlive hbody honline hdispatch
    simp only [List.mem_cons, reduceCtorEq, false_or]
    rw [hdirect]
    refine and_congr_left fun _ => ?_
    constructor
    · exact fun hserv => ⟨⟨conn, hc, hauth⟩, hserv⟩
    · exact fun hpasses => hpasses.2

/-! ## Somebody sends a file to herself -/

/-- One server of each kind, and the route server is known. -/
def allThere : Backends :=
  { dbServerList := [true], dbServerLoginCount := 0, loginServerList := [true], routeServerList := [true],
    masterRs := some 0, fileServerList := [{ isOpen := true, ipList := [] }] }

def stillEnv : Env := { now := 0, tick := 0, random := 0, serialize := fun _ => [] }

/-- Erin asks to log in. -/
def erinAsks (clientType : Nat) : Pdu :=
  mkPdu sidLogin .loginReqUserlogin 1 (.imLoginReq
    { userName := "erin", password := "", onlineStatus := 1, clientType, clientVersion := none })

/-- The DB proxy accepts her, as user 7. -/
def erinIsAccepted : IMValidateRsp :=
  { userName := "erin", resultCode := 0, resultString := none, userInfo := some { noUserInfo with userId := 7 },
    attachData := some (dbAttachData 1 5 0) }

/-- She sends a file to herself, to have it on her PC. -/
def erinSends : IMFileReq :=
  { fromUserId := 7, toUserId := 7, fileName := "a", fileSize := 1, transMode := 1, fileMd5 := "" }

/-- She logs in with a client of this type, and route_server is told; then her request comes. -/
def erinComes (clientType : Nat) : List Event :=
  [.route (.connect 1), .msg (.accept 0 5 0 1), .msg (.readBegin 5 0 [erinAsks clientType] false), .msg (.readStep stillEnv),
    .msg .readEnd, .msg (.validateResponse stillEnv (mkPdu sidOther .otherValidateRsp 1 (.imValidateRsp erinIsAccepted))),
    .route (.userStatusUpdate 1 { userId := 7, status := userStatusOnline, clientType })] ++
  (if checkClientTypePc clientType then [.notify] else []) ++
  [.msg (.readBegin 5 0 [mkPdu sidFile .fileRequest 2 (.imFileReq erinSends)] false)]

/-- The DB proxy gives her the id that her name has. -/
theorem erinComes_answers (clientType : Nat) (e : Event) (he : e ∈ erinComes clientType) (p : Pair) :
    Answers (fun _ => 7) p e := by
  rintro e' rfl env pdu msg rfl hbody -
  have hresponse : pdu = mkPdu sidOther .otherValidateRsp 1 (.imValidateRsp erinIsAccepted) := by
    rcases List.mem_append.1 he with he | he
    · rcases List.mem_append.1 he with he | he
      · simp only [List.mem_cons, reduceCtorEq, Event.msg.injEq, TeamTalk.Event.validateResponse.injEq, false_or,
          List.not_mem_nil, or_false] at he
        exact he.2
      · split at he
        · cases List.mem_singleton.1 he
        · cases he
    · cases List.mem_singleton.1 he
  subst hresponse
  cases hbody
  exact ⟨rfl, by decide⟩

/-- What is sent to a file server. -/
def Out.straight : Out → Bool
  | .msg (.send _ (.file _) _) => true
  | _ => false

/-- A transfer sent straight to a file server is in the output. -/
theorem exists_straight {out : List Out} (h : out.any Out.straight = true) :
    ∃ c i transfer, .msg (.send c (.file i) transfer) ∈ out := by
  obtain ⟨sent, hmem, hsent⟩ := List.any_eq_true.1 h
  unfold Out.straight at hsent
  split at hsent
  next c i transfer => exact ⟨c, i, transfer, hmem⟩
  next => cases hsent

/-- Her request is handled next. -/
theorem erin_asks {p : Pair} {reading : Reading} (hreading : p.msg.reading = some reading)
    (hrest : reading.rest = [mkPdu sidFile .fileRequest 2 (.imFileReq erinSends)]) :
    Asks p (.msg (.readStep stillEnv)) 7 stillEnv reading (mkPdu sidFile .fileRequest 2 (.imFileReq erinSends)) erinSends :=
  ⟨rfl, hreading, ⟨[], hrest⟩, rfl, rfl, by decide, rfl⟩

/-- She comes on her phone: nothing has been heard, and her file goes straight. She comes on her PC: it has been heard. -/
theorem erin_comes :
    ((Machine.steps (Pair.step 1) (Pair.init allThere) (erinComes 0x11)).any fun (p, _) =>
      p.heard 7 = none ∧ (p.msg.reading.any fun r => r.rest = [mkPdu sidFile .fileRequest 2 (.imFileReq erinSends)]) ∧
        (p.step 1 (.msg (.readStep stillEnv))).any fun (_, out) => out.any Out.straight) = true ∧
    ((Machine.steps (Pair.step 1) (Pair.init allThere) (erinComes 0x01)).any fun (p, _) =>
      p.heard 7 = some 1 ∧ (p.msg.reading.any fun r => r.rest = [mkPdu sidFile .fileRequest 2 (.imFileReq erinSends)]) ∧
        (p.step 1 (.msg (.readStep stillEnv))).any fun (_, out) => out.any Out.straight) = true := by
  decide +kernel

end PcLoginAux

open PcLoginAux

/-- In every run in which the DB proxy gives each login name one id, the files that go straight and the pushes that are silent
are for users that were last said to be on a PC, if and only if no file is sent to a user who has not been reached. -/
theorem pc_online_iff {idOf : String → Nat} {self : RouteServer.RouteConn} {b : Backends} {log out : List Out} {p p' : Pair}
    {e : Event} (h : Machine.Run (Pair.step self) (Answers idOf) (Pair.init b) log p)
    (hstep : p.step self e = some (p', out)) : OnlyOnline p e out ↔ Meets p e := by
  have hinv : Inv idOf p := h.invariant (I := fun _ p => Inv idOf p) (inv_init b) fun hinv hans hs => inv_step hinv hans hs
  constructor
  · intro honly u env reading pdu msg hasks hpasses huninformed
    obtain ⟨r, user, hr, hu, hstatus⟩ := huninformed
    refine honly u (.inl ⟨⟨env, reading, pdu, msg, hasks⟩, (direct_iff hstep hasks).2 ⟨hpasses, r, user, hr, hu, ?_⟩⟩)
    rw [hstatus]
    decide
  · intro hmeets u hdecides
    rcases hdecides with ⟨⟨env, reading, pdu, msg, hasks⟩, hfile⟩ | hsilent
    · obtain ⟨hpasses, r, user, hr, hu, hne⟩ := (direct_iff hstep hasks).1 hfile
      by_cases hset : user.pcLoginStatus = userStatusOffline
      · exact hmeets u env reading pdu msg hasks hpasses ⟨r, user, hr, hu, hset⟩
      · exact heard_of_told hinv hr hu hset hne
    · obtain ⟨r, user, hr, hu, hon⟩ := silent_cases hstep hsilent
      refine heard_of_told hinv hr hu ?_ ?_ <;> rw [hon] <;> decide

/-- Erin is on her PC, and msg_server has heard of it. -/
theorem pc_online_iff_erin : ∃ log out p p', Machine.steps (Pair.step 1) (Pair.init allThere) (erinComes 0x01) = some (p, log) ∧
    p.step 1 (.msg (.readStep stillEnv)) = some (p', out) ∧ Direct p (.msg (.readStep stillEnv)) out 7 ∧
      OnlyOnline p (.msg (.readStep stillEnv)) out := by
  obtain ⟨⟨p, log⟩, hsteps, hfacts⟩ := (Option.any_eq_true ..).1 erin_comes.2
  obtain ⟨hheard, hreading, hout⟩ := of_decide_eq_true hfacts
  obtain ⟨reading, hreading, hrest⟩ := (Option.any_eq_true ..).1 hreading
  obtain ⟨⟨p', out⟩, hstep, hout⟩ := (Option.any_eq_true ..).1 hout
  have hasks := erin_asks hreading (of_decide_eq_true hrest)
  have hrun := Machine.Run.of_steps_mem (erinComes_answers 0x01) .start hsteps
  refine ⟨log, out, p, p', hsteps, hstep, ⟨⟨_, _, _, _, hasks⟩, exists_straight hout⟩, (pc_online_iff hrun hstep).2 ?_⟩
  rintro u env reading' pdu msg hasks' - -
  obtain ⟨heq, hreading', ⟨rest, hnext⟩, -, hbody, -, rfl⟩ := hasks'
  rw [hreading] at hreading'
  cases hreading'
  rw [of_decide_eq_true hrest] at hnext
  cases hnext
  cases hbody
  exact hheard

/-- Erin is on her phone only, and nothing has been heard of her: her file goes straight. -/
theorem not_pc_online : ¬∀ idOf self b log out p p' e, Machine.Run (Pair.step self) (Answers idOf) (Pair.init b) log p →
    p.step self e = some (p', out) → OnlyOnline p e out := by
  intro hall
  obtain ⟨⟨p, log⟩, hsteps, hfacts⟩ := (Option.any_eq_true ..).1 erin_comes.1
  obtain ⟨hheard, hreading, hout⟩ := of_decide_eq_true hfacts
  obtain ⟨reading, hreading, hrest⟩ := (Option.any_eq_true ..).1 hreading
  obtain ⟨⟨p', out⟩, hstep, hout⟩ := (Option.any_eq_true ..).1 hout
  have hasks := erin_asks hreading (of_decide_eq_true hrest)
  have hrun := Machine.Run.of_steps_mem (erinComes_answers 0x11) .start hsteps
  have honline := hall _ _ _ _ _ _ _ _ hrun hstep 7 (.inl ⟨⟨_, _, _, _, hasks⟩, exists_straight hout⟩)
  rw [hheard] at honline
  cases honline

end TeamTalk.PcLogin
