import TeamTalk.MsgServer.Identity

/-!
# Whether a logged-in client's identity can be forged

What the server sends to others on a request of a logged-in client does not depend on who the client says is acting, and
names the client's user, except for five commands; for these, the exact condition.
-/

namespace TeamTalk

open Action
open Std (TreeMap TreeSet)

/-- The connection is logged in: it is open, and its user is registered under its user id. -/
structure LoggedIn (s : Server) (c : ConnId) (conn : MsgConn) (user : ImUser) : Prop where
  conn_eq : s.conns c = some conn
  live : conn.refCount ≠ 0
  isOpen : conn.bOpen = true
  user_eq : (s.getImUserById conn.userId).bind s.users = some user
  userId_eq : user.userId = conn.userId

/-- Where and what an effect sends to others than the client. -/
def Effect.toOthers (c : ConnId) : Effect → Option (Dest × Pdu)
  | .send _ dest pdu => if dest = .client c then none else some (dest, pdu)
  | _ => none

/-- What `HandlePdu` sends to the DB proxy, the route server, the login server, the file server and to other client
connections, in order. -/
def sentToOthers (env : Env) (s : Server) (c : ConnId) (pdu : Pdu) : List (Dest × Pdu) :=
  ((handlePdu env c pdu).run s).out.filterMap (Effect.toOthers c)

/-- Two PDUs that differ only in the fields that name the acting user, and in what is attached. -/
def SameButIdentity (p q : Pdu) : Prop := p.anonymise = q.anonymise

/-- The server sends the same to others on both PDUs, and all of it names `userId` as the acting user. -/
def IdentityKept (env : Env) (s : Server) (c : ConnId) (userId : Nat) (p q : Pdu) : Prop :=
  sentToOthers env s c p = sentToOthers env s c q ∧
    ∀ sent ∈ sentToOthers env s c p, ∀ a ∈ actingUsers p.commandId sent.2.body, a = userId

namespace IdentityAux

/-! ## What is sent names the user -/

/-- The PDU names no other user as acting. -/
def PduNames (request : Cid) (userId : Nat) (pdu : Pdu) : Prop := ∀ a ∈ actingUsers request pdu.body, a = userId

/-- The effect, if it sends something to others, names the user. -/
def Names (request : Cid) (c : ConnId) (userId : Nat) (e : Effect) : Prop :=
  ∀ sent, e.toOthers c = some sent → PduNames request userId sent.2

variable {request : Cid} {c : ConnId} {userId : Nat} {s : Server}

/-- A PDU that names the right user may be sent to anybody. -/
theorem names_send {self : ConnId} {dest : Dest} {pdu : Pdu} (h : PduNames request userId pdu) :
    Names request c userId (.send self dest pdu) := by
  intro sent hsent
  rw [Effect.toOthers] at hsent
  split at hsent
  · cases hsent
  · obtain rfl := Option.some.inj hsent
    exact h

/-- What goes back to the connection names whomever it likes. -/
theorem names_sendSelf (self : ConnId) (pdu : Pdu) : Names request c userId (.send self (.client c) pdu) := by
  intro sent hsent
  rw [Effect.toOthers, if_pos rfl] at hsent
  cases hsent

/-- A PDU for a client names the right user when it does so itself. -/
theorem emits_sendClient {self d : ConnId} {pdu : Pdu} (h : PduNames request userId pdu) :
    (sendClient self d pdu).Emits (Names request c userId) s :=
  Emits.emit (names_send h)

/-- Answers are not looked at. -/
theorem emits_answer (pdu : Pdu) : (sendClient c c pdu).Emits (Names request c userId) s :=
  Emits.emit (names_sendSelf c pdu)

/-- A PDU for the DB proxy. -/
theorem emits_sendDb {pdu : Pdu} (h : PduNames request userId pdu) :
    (sendDb c pdu).Emits (Names request c userId) s := by
  refine Emits.read_bind ?_
  split
  · exact Emits.emit (names_send h)
  · exact Emits.pure ()

/-- A PDU for the route server. -/
theorem emits_sendRoute {pdu : Pdu} (h : PduNames request userId pdu) :
    (sendRoute c pdu).Emits (Names request c userId) s := by
  refine Emits.read_bind ?_
  split
  · exact Emits.emit (names_send h)
  · exact Emits.pure ()

/-- A PDU for all login servers. -/
theorem emits_sendToAllLoginServer {pdu : Pdu} (h : PduNames request userId pdu) :
    (sendToAllLoginServer c pdu).Emits (Names request c userId) s :=
  Emits.read_bind (Emits.each fun _ _ _ => Emits.emit (names_send h))

/-- A PDU for all route servers. -/
theorem emits_sendToAllRouteServer {pdu : Pdu} (h : PduNames request userId pdu) :
    (sendToAllRouteServer c pdu).Emits (Names request c userId) s :=
  Emits.read_bind (Emits.each fun _ _ _ => Emits.emit (names_send h))

/-- A PDU for all connections of a user. -/
theorem emits_broadcastPdu {user : ImUser} {pdu : Pdu} (fromConn : Option ConnId) (h : PduNames request userId pdu) :
    (broadcastPdu c user pdu fromConn).Emits (Names request c userId) s := by
  refine Emits.each fun d _ s' => ?_
  split
  · exact Emits.pure ()
  · exact emits_sendClient h

/-- A user's other connection is told who is acting: the user. -/
theorem emits_handleKickUser {user : ImUser} (h : user.userId = userId) (d : ConnId) (reason : Nat) :
    (handleKickUser user d reason).Emits (Names request c userId) s := by
  refine emits_getConn_bind fun conn _ _ => ?_
  split
  · rename_i e _
    refine Emits.bind (emits_sendClient fun a ha => ?_) fun _ _ _ _ => ?_
    · rw [List.mem_singleton.1 ha, ← h]
    · refine emits_getConn_bind fun conn _ _ => ?_
      refine Emits.bind (Emits.modify _) fun _ _ _ _ => ?_
      exact Emits.emit fun _ h => by cases h
  · exact Emits.pure ()

/-- Who is kicked is told his own id. -/
theorem emits_kickOutSameClientType {user : ImUser} (h : user.userId = userId) (clientType reason : Nat)
    (fromConn : Option ConnId) :
    (kickOutSameClientType user clientType reason fromConn).Emits (Names request c userId) s := by
  unfold kickOutSameClientType
  induction user.conns generalizing s with
  | nil => exact Emits.pure ()
  | cons d ds ih =>
    refine emits_getConn_bind fun conn _ _ => ?_
    split
    · exact emits_handleKickUser h d reason
    · exact ih

/-! ## Closing names the user -/

/-- Whoever is registered under the id, and the connection, have this id. -/
structure Own (c : ConnId) (userId : Nat) (s : Server) : Prop where
  conn : ∀ conn, s.conns c = some conn → conn.userId = userId
  user : ∀ r user, s.getImUserById userId = some r → s.users r = some user → user.userId = userId

/-- A connection that is logged in is its user's own. -/
theorem own_of_loggedIn {conn : MsgConn} {user : ImUser} (h : LoggedIn s c conn user) : Own c conn.userId s := by
  refine ⟨?_, ?_⟩
  · intro conn' hc
    rw [h.conn_eq] at hc
    rw [Option.some.inj hc]
  · intro r user' hr hu
    have huser := h.user_eq
    rw [hr, Option.bind_some, hu] at huser
    rw [Option.some.inj huser, h.userId_eq]

/-- The status that is told is that of the connection's user. -/
theorem emits_sendUserStatusUpdate (h : Own c userId s) (userStatus : Nat) :
    (sendUserStatusUpdate c userStatus).Emits (Names request c userId) s := by
  refine emits_getConn_bind fun conn hconn _ => ?_
  split
  · refine Emits.read_bind ?_
    split
    · exact Emits.pure ()
    · rename_i r hr
      refine emits_getUser_bind fun user huser => ?_
      rw [h.conn conn hconn] at hr
      have hid := h.user r user hr huser
      split
      · refine Emits.bind (emits_sendToAllLoginServer fun a ha => ?_) fun _ _ _ _ => ?_
        · rw [List.mem_singleton.1 ha, ← hid]
        · refine emits_sendToAllRouteServer fun a ha => ?_
          rw [List.mem_singleton.1 ha, ← hid]
      · exact Emits.pure ()
  · exact Emits.pure ()

/-- Removing a user sends nothing. -/
theorem emits_removeImUser (r : UserRef) : (removeImUser r).Emits (Names request c userId) s := by
  refine emits_getUser_bind fun user _ => ?_
  refine Emits.bind (Emits.modify _) fun _ _ _ _ => ?_
  exact Emits.bind (Emits.modify _) fun _ _ _ _ => Emits.modify _

/-- Closing a connection names its user. -/
theorem emits_closeById (h : Own c userId s) {conn : MsgConn} (hid : conn.userId = userId) :
    (closeById c conn).Emits (Names request c userId) s := by
  refine Emits.read_bind ?_
  split
  · exact Emits.pure ()
  · rename_i r hr
    rw [hid] at hr
    refine emits_getUser_bind fun user huser => ?_
    refine Emits.modify_bind (Emits.emit_bind (fun _ h => by cases h) ?_)
    -- the user has lost a connection, but not its id
    have hown : Own c userId (s.setUser r (some ((user.delMsgConn conn.handle).delUnValidateMsgConn c))) := by
      refine ⟨h.conn, fun q u hq hu => ?_⟩
      rw [Server.users_setUser] at hu
      split at hu
      · rw [← Option.some.inj hu]
        exact h.user r user hr huser
      · exact h.user q u hq hu
    refine Emits.bind (emits_sendUserStatusUpdate hown _) fun _ _ _ _ => ?_
    refine emits_getUser_bind fun _ _ => ?_
    split
    · exact emits_removeImUser r
    · exact Emits.pure ()

/-- A connection without a user names none when it is closed. -/
theorem emits_closeByLoginName (conn : MsgConn) : (closeByLoginName c conn).Emits (Names request c userId) s := by
  refine Emits.read_bind ?_
  split
  · exact Emits.pure ()
  · rename_i r _
    refine emits_getUser_bind fun _ _ => Emits.modify_bind (emits_getUser_bind fun _ _ => ?_)
    split
    · exact emits_removeImUser r
    · exact Emits.pure ()

/-- What `Close` sends names the user, also the notification to the DB proxy, unless the request deletes or acknowledges an
offline file. -/
theorem emits_close (h : Own c userId s) : (close c).Emits (Names request c userId) s := by
  refine emits_getConn_bind fun conn hconn _ => ?_
  have hid := h.conn conn hconn
  have hown : Own c userId { s with msgConnMap := s.msgConnMap.erase conn.handle } := ⟨h.conn, h.user⟩
  refine Emits.emit_bind (fun _ h => by cases h) (Emits.modify_bind (Emits.emit_bind (fun _ h => by cases h) ?_))
  refine Emits.bind (emits_closeById hown hid) fun _ _ _ _ => ?_
  refine Emits.bind (emits_closeByLoginName conn) fun _ s' _ _ => ?_
  refine Emits.read_bind ?_
  have hrelease : ∀ s', (releaseRef c >>= fun _ => emit (.releaseRef c)).Emits (Names request c userId) s' := fun s' =>
    Emits.bind (emits_getConn_bind fun _ _ _ => Emits.modify _) fun _ _ _ _ => Emits.emit fun _ h => by cases h
  split
  · refine Emits.bind (emits_sendDb fun a ha => ?_) fun _ s' _ _ => hrelease s'
    rw [← hid]
    change a ∈ (if request = .fileDelOfflineReq ∨ request = .fileNotifyAck then [] else [conn.userId]) at ha
    split at ha
    · cases ha
    · exact List.mem_singleton.1 ha
  · exact hrelease s'

/-! ## The handlers name the user -/

/-- A handler that fills in the connection's user and forwards the rest. -/
theorem emits_forwardToDb {available : Server → Bool} {fill : MsgConn → Msg → Option Msg} {pdu : Pdu} (h : Own c userId s)
    (hfill : ∀ conn body body', fill conn body = some body' → actingUsers request body' = [conn.userId]) :
    (forwardToDb available fill c pdu).Emits (Names request c userId) s := by
  refine emits_getConn_bind fun conn hconn _ => ?_
  split
  · rename_i body hbody
    refine Emits.read_bind ?_
    split
    · refine Emits.emit (names_send fun a ha => ?_)
      change a ∈ actingUsers request body at ha
      rw [hfill conn pdu.body body hbody, List.mem_singleton] at ha
      rw [ha, h.conn conn hconn]
    · exact Emits.pure ()
  · exact Emits.pure ()

/-- The same, where the connection may be answered at once. -/
theorem emits_forwardOrAnswer {fill : MsgConn → Msg → Option (Msg × Pdu)} {pdu : Pdu} (h : Own c userId s)
    (hfill : ∀ conn body sent, fill conn body = some sent → actingUsers request sent.1 = [conn.userId]) :
    (forwardOrAnswer fill c pdu).Emits (Names request c userId) s := by
  refine emits_getConn_bind fun conn hconn _ => ?_
  split
  · rename_i body answer hbody
    refine Emits.read_bind ?_
    split
    · refine Emits.emit (names_send fun a ha => ?_)
      change a ∈ actingUsers request body at ha
      rw [hfill conn pdu.body _ hbody, List.mem_singleton] at ha
      rw [ha, h.conn conn hconn]
    · exact emits_answer _
  · exact Emits.pure ()

/-- The other clients of the user, and the other msg_servers, get the same PDU. -/
theorem emits_notifyOthers {conn : MsgConn} {pdu : Pdu} (h : PduNames request userId pdu) :
    (notifyOthers c conn pdu).Emits (Names request c userId) s := by
  refine Emits.read_bind ?_
  split
  · refine emits_getUser_bind fun user _ => ?_
    exact Emits.bind (emits_broadcastPdu _ h) fun _ _ _ _ => emits_sendRoute h
  · exact emits_sendRoute h

/-- The send list sends nothing. -/
theorem emits_delFromSendList (msgId fromId : Nat) :
    (delFromSendList c msgId fromId).Emits (Names request c userId) s :=
  emits_getConn_bind fun _ _ _ => Emits.modify _

/-- A PDU whose acting user is one number names it. -/
theorem pduNames_of_eq {pdu : Pdu} {a : Nat} (hpdu : actingUsers request pdu.body = [a]) (ha : a = userId) :
    PduNames request userId pdu := by
  intro b hb
  rw [hpdu, List.mem_singleton] at hb
  rw [hb, ha]

/-- `_HandleClientMsgReadAck` fills in the user, for the DB proxy and for the other clients. -/
theorem emits_handleClientMsgReadAck (h : Own c userId s) (pdu : Pdu) :
    (handleClientMsgReadAck c pdu).Emits (Names request c userId) s := by
  unfold handleClientMsgReadAck
  split
  · refine emits_getConn_bind fun conn hconn _ => ?_
    have hid := h.conn conn hconn
    refine Emits.bind (emits_sendDb (pduNames_of_eq rfl hid)) fun _ _ _ _ => ?_
    refine Emits.bind (emits_notifyOthers (pduNames_of_eq rfl hid)) fun _ _ _ _ => ?_
    split
    · exact emits_delFromSendList _ _
    · exact Emits.pure ()
  · exact Emits.pure ()

/-- `_HandleClientRemoveSessionRequest` fills him in, too. -/
theorem emits_handleClientRemoveSessionRequest (h : Own c userId s) (pdu : Pdu) :
    (handleClientRemoveSessionRequest c pdu).Emits (Names request c userId) s := by
  unfold handleClientRemoveSessionRequest
  split
  · refine emits_getConn_bind fun conn hconn _ => ?_
    have hid := h.conn conn hconn
    refine Emits.bind (emits_sendDb (pduNames_of_eq rfl hid)) fun _ _ _ _ => ?_
    split
    · exact emits_notifyOthers (pduNames_of_eq rfl hid)
    · exact Emits.pure ()
  · exact Emits.pure ()

/-- `_HandleClientUsersStatusRequest` fills him in, too. -/
theorem emits_handleClientUsersStatusRequest (h : Own c userId s) (pdu : Pdu) :
    (handleClientUsersStatusRequest c pdu).Emits (Names request c userId) s := by
  unfold handleClientUsersStatusRequest
  split
  · refine emits_getConn_bind fun conn hconn _ => ?_
    exact emits_sendRoute (pduNames_of_eq rfl (h.conn conn hconn))
  · exact Emits.pure ()

/-- `_HandleKickPCClient` fills him in, too. -/
theorem emits_handleKickPCClient (h : Own c userId s) (pdu : Pdu) :
    (handleKickPCClient c pdu).Emits (Names request c userId) s := by
  unfold handleKickPCClient
  split
  · refine emits_getConn_bind fun conn hconn _ => ?_
    have hid := h.conn conn hconn
    split
    · refine Emits.read_bind ?_
      split
      · rename_i r hr
        rw [hid] at hr
        refine emits_getUser_bind fun user huser => ?_
        refine Emits.bind (emits_kickOutSameClientType (h.user r user hr huser) _ _ _) fun _ _ _ _ => ?_
        exact Emits.bind (emits_sendRoute (pduNames_of_eq rfl hid)) fun _ _ _ _ => emits_answer _
      · exact Emits.bind (emits_sendRoute (pduNames_of_eq rfl hid)) fun _ _ _ _ => emits_answer _
    · exact Emits.pure ()
  · exact Emits.pure ()

/-- `_HandleLoginOutRequest` sends the DB proxy a request of its own. -/
theorem emits_handleLoginOutRequest (h : Own c userId s) (pdu : Pdu) :
    (handleLoginOutRequest c pdu).Emits (Names request c userId) s := by
  refine emits_getConn_bind fun conn hconn _ => ?_
  refine Emits.bind (emits_sendDb (pduNames_of_eq rfl (h.conn conn hconn))) fun _ s1 _ h1 => ?_
  rw [run_sendDb] at h1
  obtain ⟨-, rfl, -⟩ := (Outcome.mk.injEq ..).mp h1
  refine Emits.bind (emits_answer _) fun _ s2 _ h2 => ?_
  obtain ⟨-, rfl, -⟩ := (Outcome.mk.injEq ..).mp h2
  exact emits_close h

/-- `_HandleLoginRequest` comes before there is a user. -/
theorem emits_handleLoginRequest (h : Own c userId s) (env : Env) (pdu : Pdu) :
    (handleLoginRequest env c pdu).Emits (Names request c userId) s := by
  refine emits_getConn_bind fun conn hconn _ => ?_
  split
  · exact Emits.pure ()
  · refine Emits.read_bind ?_
    split
    · refine Emits.bind (emits_answer _) fun _ s1 _ h1 => ?_
      obtain ⟨-, rfl, -⟩ := (Outcome.mk.injEq ..).mp h1
      exact emits_close h
    · split
      · -- the request for validation that goes to the DB proxy names no user
        have hwait : ∀ (r : UserRef) (pdu : Pdu) (s' : Server), actingUsers request pdu.body = [] →
            (getUser r >>= fun user => setUser r (user.addUnValidateMsgConn c) >>= fun _ =>
              emit (.send c .db pdu)).Emits (Names request c userId) s' := fun r pdu s' hpdu =>
          emits_getUser_bind fun user _ => Emits.modify_bind (Emits.emit (names_send fun a ha => by
            rw [hpdu] at ha
            cases ha))
        refine Emits.bind (Emits.modify _) fun _ s1 _ _ => Emits.read_bind ?_
        split
        · exact Emits.bind (Emits.pure _) fun r s2 _ _ => hwait r _ s2 rfl
        · refine Emits.bind (Emits.read_bind (Emits.modify_bind (Emits.pure _))) fun r s2 _ _ => ?_
          exact Emits.modify_bind (Emits.bind (Emits.pure _) fun r s3 _ _ => hwait r _ s3 rfl)
      · exact Emits.pure ()

/-- `_HandleClientFileRequest` fills in the sender. -/
theorem emits_handleClientFileRequest (h : Own c userId s) (env : Env) (pdu : Pdu) :
    (handleClientFileRequest env c pdu).Emits (Names request c userId) s := by
  unfold handleClientFileRequest
  split
  · refine emits_getConn_bind fun conn hconn _ => ?_
    have hid := h.conn conn hconn
    refine Emits.read_bind ?_
    split
    · split
      · exact Emits.emit (names_send (pduNames_of_eq rfl hid))
      · have hsent : ∀ (status i : Nat) (asked transfer : Pdu) (s' : Server), PduNames request userId asked →
            PduNames request userId transfer →
            (if status ≠ 0 then emit (.send c (.file i) transfer) else sendRoute c asked : Do Unit).Emits
              (Names request c userId) s' := fun status i asked transfer s' hasked htransfer => by
          split
          · exact Emits.emit (names_send htransfer)
          · exact emits_sendRoute hasked
        split
        · refine emits_getUser_bind fun user _ => Emits.bind (Emits.pure _) fun status s' _ _ => ?_
          exact hsent _ _ _ _ _ (pduNames_of_eq rfl hid) (pduNames_of_eq rfl hid)
        · exact Emits.bind (Emits.pure _) fun status s' _ _ =>
            hsent _ _ _ _ _ (pduNames_of_eq rfl hid) (pduNames_of_eq rfl hid)
    · exact emits_answer _
  · exact Emits.pure ()

/-- `_HandleClientFileHasOfflineReq` fills in the user. -/
theorem emits_handleClientFileHasOfflineReq (h : Own c userId s) (pdu : Pdu) :
    (handleClientFileHasOfflineReq c pdu).Emits (Names request c userId) s := by
  refine emits_getConn_bind fun conn hconn _ => Emits.read_bind ?_
  split
  · split
    · exact Emits.emit (names_send (pduNames_of_eq rfl (h.conn conn hconn)))
    · exact Emits.pure ()
  · exact emits_answer _

/-- `_HandleClientFileAddOfflineReq` fills in the sender of the file. -/
theorem emits_handleClientFileAddOfflineReq (h : Own c userId s) (hreq : request = .fileAddOfflineReq) (env : Env)
    (pdu : Pdu) : (handleClientFileAddOfflineReq env c pdu).Emits (Names request c userId) s := by
  unfold handleClientFileAddOfflineReq
  split
  · refine emits_getConn_bind fun conn hconn _ => Emits.read_bind ?_
    have hid := h.conn conn hconn
    split
    · refine emits_getUser_bind fun user _ => Emits.bind (emits_broadcastPdu _ ?_) fun _ s' _ _ => ?_
      · rw [hreq]
        exact pduNames_of_eq rfl hid
      · exact Emits.bind (Emits.pure _) fun told s' _ _ => emits_sendDb (pduNames_of_eq rfl hid)
    · exact Emits.bind (Emits.pure _) fun told s' _ _ => emits_sendDb (pduNames_of_eq rfl hid)
  · exact Emits.pure ()

/-- A notify ack sends nothing. -/
theorem emits_handleNotifyAck (hreq : request = .fileNotifyAck) (pdu : Pdu) :
    (handleNotifyAck c pdu).Emits (Names request c userId) s := by
  unfold handleNotifyAck
  split
  · rename_i msg hbody
    refine emits_sendDb fun a ha => ?_
    rw [hbody, hreq] at ha
    cases ha
  · exact Emits.pure ()

/-- An ack of a message sends nothing. -/
theorem emits_handleClientMsgDataAck (pdu : Pdu) : (handleClientMsgDataAck c pdu).Emits (Names request c userId) s := by
  unfold handleClientMsgDataAck
  split
  · split
    · exact emits_delFromSendList _ _
    · exact Emits.pure ()
  · exact Emits.pure ()

/-- Every handler but those of the five commands names the user. -/
theorem emits_dispatch (h : Own c userId s) (env : Env) {pdu : Pdu} (hcmd : pdu.commandId.readsIdentity = false) :
    (dispatch env c pdu).Emits (Names pdu.commandId c userId) s := by
  obtain ⟨version, flag, serviceId, commandId, seqNum, reversed, body⟩ := pdu
  cases commandId
  case loginReqUserlogin => exact emits_handleLoginRequest h env _
  case loginReqLoginout => exact emits_handleLoginOutRequest h _
  case loginReqKickpcclient => exact emits_handleKickPCClient h _
  case msgDataAck => exact emits_handleClientMsgDataAck _
  case msgTimeRequest => exact emits_answer _
  case msgReadAck => exact emits_handleClientMsgReadAck h _
  case buddyListRemoveSessionReq => exact emits_handleClientRemoveSessionRequest h _
  case buddyListUsersStatusRequest => exact emits_handleClientUsersStatusRequest h _
  case groupCreateRequest =>
    refine emits_forwardOrAnswer h fun conn body sent hfill => ?_
    cases body <;> first | cases hfill | skip
    rename_i msg
    rw [fillGroupCreate] at hfill
    split at hfill
    · cases hfill
    · cases hfill
      rfl
  case fileRequest => exact emits_handleClientFileRequest h env _
  case fileHasOfflineReq => exact emits_handleClientFileHasOfflineReq h _
  case fileAddOfflineReq => exact emits_handleClientFileAddOfflineReq h rfl env _
  case fileNotifyAck => exact emits_handleNotifyAck rfl _
  case groupNormalListRequest | groupInfoRequest | groupChangeMemberRequest | groupShieldGroupRequest =>
    refine emits_forwardOrAnswer h fun conn body sent hfill => ?_
    cases body <;> cases hfill
    rfl
  all_goals first
    | exact Bool.noConfusion (show true = false from hcmd)
    | exact Emits.pure ()
    | exact emits_forwardToDb h fun conn body body' hfill => by cases body <;> cases hfill; rfl

/-! ## Commands that keep the identity -/

/-- A logged-in connection passes the authorization check. -/
theorem sentToOthers_eq {conn : MsgConn} {user : ImUser} (h : LoggedIn s c conn user) (env : Env) (pdu : Pdu) :
    sentToOthers env s c pdu = ((dispatch env c pdu).run s).out.filterMap (Effect.toOthers c) := by
  have hauth : ¬authRefused conn pdu = true := by simp [authRefused, h.isOpen]
  rw [sentToOthers, handlePdu, run_emit_bind, run_bind_ok (run_getConn h.conn_eq h.live), if_neg hauth]
  rfl

/-- What an action that names the user sends to others names the user. -/
theorem names_of_emits {a : Do Unit} (h : a.Emits (Names request c userId) s) :
    ∀ sent ∈ (a.run s).out.filterMap (Effect.toOthers c), ∀ b ∈ actingUsers request sent.2.body, b = userId := by
  intro sent hsent
  obtain ⟨e, he, hto⟩ := List.mem_filterMap.1 hsent
  exact h e he sent hto

/-- Requests that differ in the identity only have one command. -/
theorem commandId_eq {p q : Pdu} (hpq : SameButIdentity p q) : p.commandId = q.commandId := by
  have h : p.anonymise.commandId = q.anonymise.commandId := by rw [show p.anonymise = q.anonymise from hpq]
  exact h

/-- All other commands keep the identity. -/
theorem kept_of_not_reads {conn : MsgConn} {user : ImUser} (h : LoggedIn s c conn user) (env : Env) {p q : Pdu}
    (hpq : SameButIdentity p q) (hcmd : p.commandId.readsIdentity = false) : IdentityKept env s c conn.userId p q := by
  have hcmd' : q.commandId.readsIdentity = false := by
    rw [← hcmd, commandId_eq hpq]
  refine ⟨?_, ?_⟩
  · rw [sentToOthers_eq h, sentToOthers_eq h, ← dispatch_anonymise env c hcmd, ← dispatch_anonymise env c hcmd', hpq]
  · rw [sentToOthers_eq h]
    exact names_of_emits (emits_dispatch (own_of_loggedIn h) env hcmd)

/-- The heartbeat goes back to the client alone. -/
theorem kept_heartbeat {conn : MsgConn} {user : ImUser} (h : LoggedIn s c conn user) (env : Env) {p q : Pdu}
    (hpq : SameButIdentity p q) (hcmd : p.commandId = .otherHeartbeat) : IdentityKept env s c conn.userId p q := by
  have hsent : ∀ pdu : Pdu, pdu.commandId = .otherHeartbeat → sentToOthers env s c pdu = [] := by
    intro pdu hpdu
    rw [sentToOthers_eq h, dispatch, hpdu]
    change List.filterMap _ [Effect.send c (.client c) pdu] = []
    rw [List.filterMap_cons, Effect.toOthers, if_pos rfl, List.filterMap_nil]
  have hcmd' : q.commandId = .otherHeartbeat := by rw [← hcmd, commandId_eq hpq]
  rw [IdentityKept, hsent p hcmd, hsent q hcmd']
  exact ⟨rfl, fun _ h => by cases h⟩

/-! ## Sending to the same receivers -/

/-- A PDU that names whoever the client says goes to some receivers, and the same goes to others: the identity is kept
when there is no receiver, or the client told the truth both times. -/
theorem kept_iff_of_named {env : Env} {p q : Pdu} {f : Nat → Pdu} {a b : Nat} {receivers : List Dest}
    {rest : List (Dest × Pdu)} (hp : sentToOthers env s c p = receivers.map (fun d => (d, f a)) ++ rest)
    (hq : sentToOthers env s c q = receivers.map (fun d => (d, f b)) ++ rest)
    (hf : ∀ x, actingUsers p.commandId (f x).body = [x])
    (hrest : ∀ sent ∈ rest, ∀ x ∈ actingUsers p.commandId sent.2.body, x = userId) :
    IdentityKept env s c userId p q ↔ (receivers ≠ [] → a = userId ∧ b = userId) := by
  rw [IdentityKept, hp, hq]
  cases receivers with
  | nil => exact ⟨fun _ h => absurd rfl h, fun _ => ⟨rfl, hrest⟩⟩
  | cons d ds =>
    constructor
    · rintro ⟨heq, hnames⟩ _
      have ha := hnames (d, f a) List.mem_cons_self a (by rw [hf, List.mem_singleton])
      have hfab : f a = f b := congrArg Prod.snd (List.cons.inj heq).1
      have hab : [a] = [b] := by rw [← hf, ← hf b, hfab]
      exact ⟨ha, (List.cons.inj hab).1 ▸ ha⟩
    · intro hab
      obtain ⟨rfl, rfl⟩ := hab (List.cons_ne_nil d ds)
      refine ⟨rfl, fun sent hsent x hx => ?_⟩
      rcases List.mem_append.1 hsent with hsent | hsent
      · obtain ⟨d', _, rfl⟩ := List.mem_map.1 hsent
        rw [hf, List.mem_singleton] at hx
        exact hx
      · exact hrest sent hsent x hx

/-- A PDU that carries what the client attached goes to some receivers: the identity is kept when there is no receiver, or
both times the same was attached. -/
theorem kept_iff_of_attached {env : Env} {p q : Pdu} {f : Option Bytes → Pdu} {a b : Option Bytes} {receivers : List Dest}
    (hp : sentToOthers env s c p = receivers.map (fun d => (d, f a)))
    (hq : sentToOthers env s c q = receivers.map (fun d => (d, f b)))
    (hinj : ∀ x y, f x = f y → x = y) (hf : ∀ x, actingUsers p.commandId (f x).body = [userId]) :
    IdentityKept env s c userId p q ↔ (receivers ≠ [] → a = b) := by
  rw [IdentityKept, hp, hq]
  cases receivers with
  | nil => exact ⟨fun _ h => absurd rfl h, fun _ => ⟨rfl, fun _ h => by cases h⟩⟩
  | cons d ds =>
    constructor
    · rintro ⟨heq, _⟩ _
      exact hinj a b (congrArg Prod.snd (List.cons.inj heq).1)
    · intro hab
      refine ⟨by rw [hab (List.cons_ne_nil d ds)], fun sent hsent x hx => ?_⟩
      obtain ⟨d', _, rfl⟩ := List.mem_map.1 hsent
      rw [hf, List.mem_singleton] at hx
      exact hx

/-- The PDUs differ in their bodies only. -/
theorem eq_of_sameButIdentity {p q : Pdu} (hpq : SameButIdentity p q) : q = p.setPBMsg q.body := by
  obtain ⟨version, flag, serviceId, commandId, seqNum, reversed, body⟩ := p
  obtain ⟨version', flag', serviceId', commandId', seqNum', reversed', body'⟩ := q
  have h : (_ : Pdu) = _ := hpq
  simp only [Pdu.anonymise, Pdu.mk.injEq] at h
  obtain ⟨rfl, rfl, rfl, rfl, rfl, rfl, -⟩ := h
  rfl

/-- And they are one request without it. -/
theorem body_anonymise_eq {p q : Pdu} (hpq : SameButIdentity p q) : p.body.anonymise = q.body.anonymise := by
  have h : p.anonymise.body = q.anonymise.body := by rw [show p.anonymise = q.anonymise from hpq]
  exact h

/-- A command whose handler reads one type of message: other bodies send nothing, so what matters is what happens for two
bodies of this type. -/
theorem kept_iff_of_bodies {M : Type} {mk : M → Msg} {env : Env} {p q : Pdu} {C : M → M → Prop} (hpq : SameButIdentity p q)
    (hinj : Function.Injective mk) (hsame : ∀ m body, (mk m).anonymise = body.anonymise → ∃ n, body = mk n)
    (hnothing : ∀ pdu, pdu.commandId = p.commandId → (∀ m, pdu.body ≠ mk m) → sentToOthers env s c pdu = [])
    (hC : ∀ m n, p.body = mk m → q.body = mk n → (IdentityKept env s c userId p q ↔ C m n)) :
    IdentityKept env s c userId p q ↔ ∀ m n, p.body = mk m → q.body = mk n → C m n := by
  have hbody := body_anonymise_eq hpq
  by_cases hp : ∃ m, p.body = mk m
  · obtain ⟨m, hp⟩ := hp
    rw [hp] at hbody
    obtain ⟨n, hq⟩ := hsame m q.body hbody
    rw [hC m n hp hq]
    constructor
    · intro h m' n' hp' hq'
      rw [← hinj (hp.symm.trans hp'), ← hinj (hq.symm.trans hq')]
      exact h
    · intro h
      exact h m n hp hq
  · have hp' : ∀ m, p.body ≠ mk m := fun m hm => hp ⟨m, hm⟩
    have hq' : ∀ m, q.body ≠ mk m := by
      intro m hm
      rw [hm] at hbody
      obtain ⟨n, hn⟩ := hsame m p.body hbody.symm
      exact hp' n hn
    rw [IdentityKept, hnothing p rfl hp', hnothing q (commandId_eq hpq).symm hq']
    exact ⟨fun _ m _ hm => absurd hm (hp' m), fun _ => ⟨rfl, fun _ h => by cases h⟩⟩

/-! ## P2P commands -/

end IdentityAux

/-- The other connections of a user. -/
def othersOf (c : ConnId) (user : ImUser) : List Dest := (user.conns.filter fun d => ¬d = c).map .client

/-- Who gets a P2P command: the user's and the other user's other connections, and the route server. Where the other user
is a dangling pointer, the handler does not get to the route server. -/
def p2pReceivers (s : Server) (c : ConnId) (user : ImUser) (toUserId : Nat) : List Dest :=
  othersOf c user ++
    match s.getImUserById toUserId with
    | none => s.getRouteServConn.toList.map .route
    | some r =>
      match s.users r with
      | none => []
      | some receiver => othersOf c receiver ++ s.getRouteServConn.toList.map .route

namespace IdentityAux

/-- A broadcast reaches the other connections, whether or not it leaves out the client's. -/
theorem toOthers_broadcast (user : ImUser) (pdu : Pdu) (fromConn : Option ConnId) (hfrom : ∀ d ∈ fromConn, d = c) :
    ((user.conns.filter fun d => ¬some d = fromConn).map fun d => Effect.send c (.client d) pdu).filterMap
      (Effect.toOthers c) = (othersOf c user).map fun d => (d, pdu) := by
  rw [othersOf]
  induction user.conns with
  | nil => rfl
  | cons d ds ih =>
    by_cases hd : d = c
    · have hskip : ((d :: ds).filter fun d => ¬d = c) = ds.filter fun d => ¬d = c :=
        List.filter_cons_of_neg (by simpa using hd)
      rw [hskip, ← ih]
      by_cases hsome : some d = fromConn
      · rw [List.filter_cons_of_neg (by simpa using hsome)]
      · rw [List.filter_cons_of_pos (by simpa using hsome), List.map_cons, List.filterMap_cons, Effect.toOthers,
          if_pos (by rw [hd])]
    · have hsome : ¬some d = fromConn := fun h => hd (hfrom d h.symm)
      have hdest : ¬Dest.client d = Dest.client c := fun h => hd (Dest.client.inj h)
      have hkeep : ((d :: ds).filter fun d => ¬d = c) = d :: ds.filter fun d => ¬d = c :=
        List.filter_cons_of_pos (by simpa using hd)
      rw [hkeep, List.filter_cons_of_pos (by simpa using hsome), List.map_cons, List.filterMap_cons, Effect.toOthers,
        if_neg hdest, List.map_cons, List.map_cons, ih]

/-- What goes to route servers goes to others. -/
theorem toOthers_route (l : List Nat) (pdu : Pdu) :
    (l.map fun i => Effect.send c (.route i) pdu).filterMap (Effect.toOthers c) =
      (l.map Dest.route).map fun d => (d, pdu) := by
  induction l with
  | nil => rfl
  | cons i l ih => rw [List.map_cons, List.filterMap_cons, Effect.toOthers, if_neg nofun, ih]; rfl

/-- The user of a logged-in connection is found by its id. -/
theorem user_of_loggedIn {conn : MsgConn} {user : ImUser} (h : LoggedIn s c conn user) :
    ∃ r, s.getImUserById conn.userId = some r ∧ s.users r = some user := by
  have huser := h.user_eq
  cases hr : s.getImUserById conn.userId with
  | none => rw [hr] at huser; cases huser
  | some r => exact ⟨r, rfl, by rw [← huser, hr]; rfl⟩

/-- A P2P command is passed on as it came, to the connections that it is for. -/
theorem sent_p2p {conn : MsgConn} {user : ImUser} (h : LoggedIn s c conn user) (env : Env) {pdu : Pdu} {msg : IMP2PCmdMsg}
    (hcmd : pdu.commandId = .switchP2pCmd) (hbody : pdu.body = .imP2PCmdMsg msg) :
    sentToOthers env s c pdu = (p2pReceivers s c user msg.toUserId).map fun d => (d, pdu) := by
  obtain ⟨r, hr, hu⟩ := user_of_loggedIn h
  rw [sentToOthers_eq h, dispatch, hcmd]
  change ((handleClientP2PCmdMsg c pdu).run s).out.filterMap _ = _
  simp only [handleClientP2PCmdMsg, hbody]
  rw [run_bind_ok (run_getConn h.conn_eq h.live), run_read_bind]
  simp only [hr]
  rw [run_bind_ok (run_getUser hu), run_bind_ok (run_broadcastPdu c user pdu (some c) s), run_read_bind]
  rw [p2pReceivers]
  cases hto : s.getImUserById msg.toUserId with
  | none =>
    simp only [run_sendRoute, List.nil_append, List.filterMap_append, List.map_append]
    rw [toOthers_broadcast user pdu (some c) fun d hd => (Option.some.inj hd).symm, toOthers_route]
  | some q =>
    cases hq : s.users q with
    | none =>
      have hstop : (getUser q).run s = ⟨.error .undefinedBehaviour, s, []⟩ := by
        rw [getUser, run_read_bind, hq, run_stop]
      simp only [run_bind_error hstop, List.nil_append, List.append_nil, hq]
      rw [toOthers_broadcast user pdu (some c) fun d hd => (Option.some.inj hd).symm]
    | some receiver =>
      simp only [run_bind_ok (run_getUser hq), run_bind_ok (run_broadcastPdu c receiver pdu none s), run_sendRoute,
        List.nil_append, List.filterMap_append, List.map_append, hq]
      rw [toOthers_broadcast user pdu (some c) fun d hd => (Option.some.inj hd).symm,
        toOthers_broadcast receiver pdu none (fun _ hd => by cases hd), toOthers_route]

/-- A request with another sender is the same P2P command. -/
theorem p2p_of_anonymise_eq {msg : IMP2PCmdMsg} {body : Msg} (h : (Msg.imP2PCmdMsg msg).anonymise = body.anonymise) :
    ∃ sender, body = .imP2PCmdMsg { msg with fromUserId := sender } := by
  cases body <;> simp only [Msg.anonymise, reduceCtorEq, Msg.imP2PCmdMsg.injEq, IMP2PCmdMsg.mk.injEq, true_and] at h
  rename_i msg'
  refine ⟨msg'.fromUserId, ?_⟩
  rw [h.1, h.2]

/-- So the identity is kept exactly when both name the connection's user, or nobody gets the command. -/
theorem kept_p2p_iff {conn : MsgConn} {user : ImUser} (h : LoggedIn s c conn user) (env : Env) {p q : Pdu}
    (hpq : SameButIdentity p q) (hcmd : p.commandId = .switchP2pCmd) :
    IdentityKept env s c conn.userId p q ↔ ∀ msg msg', p.body = .imP2PCmdMsg msg → q.body = .imP2PCmdMsg msg' →
      p2pReceivers s c user msg.toUserId ≠ [] → msg.fromUserId = conn.userId ∧ msg'.fromUserId = conn.userId := by
  refine kept_iff_of_bodies hpq (fun _ _ => Msg.imP2PCmdMsg.inj) ?_ ?_ ?_
  · intro msg body hbody
    obtain ⟨sender, hbody⟩ := p2p_of_anonymise_eq hbody
    exact ⟨_, hbody⟩
  · intro pdu hpdu hbody
    rw [sentToOthers_eq h, dispatch, hpdu, hcmd]
    change ((handleClientP2PCmdMsg c pdu).run s).out.filterMap _ = _
    unfold handleClientP2PCmdMsg
    split
    · rename_i msg hmsg
      exact absurd hmsg (hbody msg)
    · rfl
  · intro msg msg' hp hq
    have hbody := body_anonymise_eq hpq
    rw [hp] at hbody
    obtain ⟨sender, hq'⟩ := p2p_of_anonymise_eq hbody
    obtain rfl := Msg.imP2PCmdMsg.inj (hq.symm.trans hq')
    have hpe : p = p.setPBMsg (.imP2PCmdMsg msg) := by rw [← hp]; rfl
    have hqe : q = p.setPBMsg (.imP2PCmdMsg { msg with fromUserId := sender }) := by
      rw [← hq]
      exact eq_of_sameButIdentity hpq
    refine kept_iff_of_named (f := fun x => p.setPBMsg (.imP2PCmdMsg { msg with fromUserId := x })) (a := msg.fromUserId)
      (b := sender) ?_ ?_ (fun _ => rfl) (List.forall_mem_nil _)
    · rw [List.append_nil, sent_p2p h env hcmd hp]
      exact congrArg (fun pdu => (p2pReceivers s c user msg.toUserId).map fun d => (d, pdu)) hpe
    · rw [List.append_nil, sent_p2p h env (hcmd ▸ (commandId_eq hpq).symm) hq]
      exact congrArg (fun pdu => (p2pReceivers s c user msg.toUserId).map fun d => (d, pdu)) hqe

/-! ## Deleting an offline file -/

end IdentityAux

/-- Who is told that an offline file was fetched: the connections of the file's sender. Where the sender is a dangling
pointer, or no file server is there, the handler does not get so far. -/
def fetchedReceivers (env : Env) (s : Server) (c : ConnId) (fromUserId : Nat) : List Dest :=
  match (s.getImUserById fromUserId).bind s.users, s.getRandomFileServConn env.random with
  | some sender, some _ => othersOf c sender
  | _, _ => []

namespace IdentityAux

/-- The notification that an offline file was fetched: it names the receiver that the client gives. -/
def fetchedNotice (msg : IMFileDelOfflineReq) (ipAddrList : List IpAddr) (toUserId : Nat) : Pdu :=
  mkPdu sidFile .fileHasOfflineRes 0 (.imFileHasOfflineRsp
    { userId := toUserId
      offlineFileList := [
        { fromUserId := msg.fromUserId, taskId := msg.taskId, fileName := msg.fileName, fileSize := msg.fileSize,
          fileMd5 := "1", status := fileNeedDisplay }]
      ipAddrList
      attachData := none })

/-- What goes to the DB proxy then. -/
def fetchedReport (s : Server) (msg : IMFileDelOfflineReq) (told : Bool) : List (Dest × Pdu) :=
  if s.getDbServConn then
    [(.db, mkPdu sidOther .fileNotifyDbserver 0 (.infoNotify { offlineFileList := [
      { fromUserId := msg.fromUserId, taskId := msg.taskId, fileName := msg.fileName, fileSize := msg.fileSize,
        fileMd5 := " ", status := if told then 5 else 4 }] }))]
  else []

/-- What is sent on the deletion of an offline file: the file's sender is told, and the rest does not name the receiver. -/
theorem sent_fileDelOffline {conn : MsgConn} {user : ImUser} (h : LoggedIn s c conn user) (env : Env)
    (msg : IMFileDelOfflineReq) :
    ∃ (ipAddrList : List IpAddr) (rest : List (Dest × Pdu)),
      (∀ sent ∈ rest, actingUsers .fileDelOfflineReq sent.2.body = []) ∧
      ∀ (pdu : Pdu) (x : Nat), pdu.commandId = .fileDelOfflineReq →
        pdu.body = .imFileDelOfflineReq { msg with toUserId := x } → sentToOthers env s c pdu =
          (fetchedReceivers env s c msg.fromUserId).map (fun d => (d, fetchedNotice msg ipAddrList x)) ++ rest := by
  have hreport : ∀ told, ∀ sent ∈ fetchedReport s msg told, actingUsers .fileDelOfflineReq sent.2.body = [] := by
    intro told sent hsent
    rw [fetchedReport] at hsent
    split at hsent
    · rw [List.mem_singleton.1 hsent]
      rfl
    · cases hsent
  have hdispatch : ∀ pdu : Pdu, pdu.commandId = .fileDelOfflineReq → sentToOthers env s c pdu =
      ((handleClientFileDelOfflineReq env c pdu).run s).out.filterMap (Effect.toOthers c) := by
    intro pdu hcmd
    rw [sentToOthers_eq h, dispatch, hcmd]
  rw [fetchedReceivers]
  cases hr : s.getImUserById msg.fromUserId with
  | none =>
    refine ⟨[], fetchedReport s msg false, hreport false, fun pdu x hcmd hbody => ?_⟩
    rw [hdispatch pdu hcmd]
    simp only [handleClientFileDelOfflineReq, hbody, run_read_bind, hr, run_pure_bind, Option.bind_none, List.map_nil,
      List.nil_append, fetchedReport]
    split <;> rfl
  | some r =>
    cases hu : s.users r with
    | none =>
      refine ⟨[], [], List.forall_mem_nil _, fun pdu x hcmd hbody => ?_⟩
      have hstop : (getUser r).run s = ⟨.error .undefinedBehaviour, s, []⟩ := by
        rw [getUser, run_read_bind, hu, run_stop]
      rw [hdispatch pdu hcmd]
      simp only [handleClientFileDelOfflineReq, hbody, run_read_bind, hr, run_bind_error hstop, Option.bind_some, hu]
      rfl
    | some sender =>
      cases hf : s.getRandomFileServConn env.random with
      | none =>
        refine ⟨[], [], List.forall_mem_nil _, fun pdu x hcmd hbody => ?_⟩
        rw [hdispatch pdu hcmd]
        simp only [handleClientFileDelOfflineReq, hbody, run_read_bind, hr, run_bind_ok (run_getUser hu), hf,
          run_stop_bind, Option.bind_some, hu]
        rfl
      | some file =>
        refine ⟨file.2.ipList, fetchedReport s msg true, hreport true, fun pdu x hcmd hbody => ?_⟩
        rw [hdispatch pdu hcmd]
        simp only [handleClientFileDelOfflineReq, hbody, run_read_bind, hr, run_bind_ok (run_getUser hu), hf,
          Option.bind_some, hu]
        rw [run_bind_ok (run_broadcastPdu c sender _ none s), run_pure_bind, List.nil_append, List.filterMap_append,
          toOthers_broadcast sender _ none (fun _ hd => by cases hd)]
        refine congrArg₂ (· ++ ·) rfl ?_
        rw [fetchedReport]
        split <;> rfl

/-- A request with another receiver is the same deletion. -/
theorem fileDelOffline_of_anonymise_eq {msg : IMFileDelOfflineReq} {body : Msg}
    (h : (Msg.imFileDelOfflineReq msg).anonymise = body.anonymise) :
    ∃ receiver, body = .imFileDelOfflineReq { msg with toUserId := receiver } := by
  cases body <;> simp only [Msg.anonymise, reduceCtorEq, Msg.imFileDelOfflineReq.injEq, IMFileDelOfflineReq.mk.injEq,
    true_and] at h
  rename_i msg'
  obtain ⟨h1, h2, h3, h4⟩ := h
  refine ⟨msg'.toUserId, ?_⟩
  rw [h1, h2, h3, h4]

/-- A request to delete an offline file is passed on as it came, so this is the same of its receiver. -/
theorem kept_fileDelOffline_iff {conn : MsgConn} {user : ImUser} (h : LoggedIn s c conn user) (env : Env) {p q : Pdu}
    (hpq : SameButIdentity p q) (hcmd : p.commandId = .fileDelOfflineReq) :
    IdentityKept env s c conn.userId p q ↔ ∀ msg msg', p.body = .imFileDelOfflineReq msg →
      q.body = .imFileDelOfflineReq msg' → fetchedReceivers env s c msg.fromUserId ≠ [] →
      msg.toUserId = conn.userId ∧ msg'.toUserId = conn.userId := by
  refine kept_iff_of_bodies hpq (fun _ _ => Msg.imFileDelOfflineReq.inj) ?_ ?_ ?_
  · intro msg body hbody
    obtain ⟨receiver, hbody⟩ := fileDelOffline_of_anonymise_eq hbody
    exact ⟨_, hbody⟩
  · intro pdu hpdu hbody
    rw [sentToOthers_eq h, dispatch, hpdu, hcmd]
    change ((handleClientFileDelOfflineReq env c pdu).run s).out.filterMap _ = _
    unfold handleClientFileDelOfflineReq
    split
    · rename_i msg hmsg
      exact absurd hmsg (hbody msg)
    · rfl
  · intro msg msg' hp hq
    have hbody := body_anonymise_eq hpq
    rw [hp] at hbody
    obtain ⟨receiver, hq'⟩ := fileDelOffline_of_anonymise_eq hbody
    obtain rfl := Msg.imFileDelOfflineReq.inj (hq.symm.trans hq')
    obtain ⟨ips, rest, hrest, hsent⟩ := sent_fileDelOffline h env msg
    refine kept_iff_of_named (hsent p msg.toUserId hcmd hp) (hsent q receiver (hcmd ▸ (commandId_eq hpq).symm) hq) ?_ ?_
    · intro x
      rw [hcmd]
      rfl
    · intro sent hmem x hx
      rw [hcmd, hrest sent hmem] at hx
      cases hx

/-! ## Requests that carry what the client attached -/

/-- The receivers of a request to the DB proxy. -/
theorem toOthers_db (b : Bool) (pdu : Pdu) :
    (if b then [Effect.send c .db pdu] else []).filterMap (Effect.toOthers c) =
      (if b then [Dest.db] else []).map fun d => (d, pdu) := by
  cases b <;> rfl

/-- Something is sent when the DB proxy is there. -/
theorem ne_nil_iff_db (b : Bool) : (if b then [Dest.db] else []) ≠ [] ↔ b = true := by
  cases b <;> decide

/-- A request with something else attached is the same change of the avatar. -/
theorem changeAvatar_of_anonymise_eq {msg : IMChangeAvatarReq} {body : Msg}
    (h : (Msg.imChangeAvatarReq msg).anonymise = body.anonymise) :
    ∃ userId attachData, body = .imChangeAvatarReq { msg with userId, attachData } := by
  cases body <;> simp only [Msg.anonymise, reduceCtorEq, Msg.imChangeAvatarReq.injEq, IMChangeAvatarReq.mk.injEq, true_and,
    and_true] at h
  rename_i msg'
  refine ⟨msg'.userId, msg'.attachData, ?_⟩
  rw [h]

/-- A change of the avatar goes to the DB proxy with the connection's user. -/
theorem sent_changeAvatar {conn : MsgConn} {user : ImUser} (h : LoggedIn s c conn user) (env : Env) {pdu : Pdu}
    {msg : IMChangeAvatarReq} (hcmd : pdu.commandId = .buddyListChangeAvatarRequest)
    (hbody : pdu.body = .imChangeAvatarReq msg) :
    sentToOthers env s c pdu = (if s.getDbServConn then [Dest.db] else []).map fun d =>
      (d, pdu.setPBMsg (.imChangeAvatarReq { msg with userId := conn.userId })) := by
  rw [sentToOthers_eq h, dispatch, hcmd, ← toOthers_db]
  change ((handleChangeAvatarRequest c pdu).run s).out.filterMap _ = _
  rw [handleChangeAvatarRequest, run_forwardToDb _ _ h.conn_eq h.live, hbody]
  rfl

/-- The attached data go there as they came, so the identity is kept exactly when both have the same, or there is no DB proxy. -/
theorem kept_changeAvatar_iff {conn : MsgConn} {user : ImUser} (h : LoggedIn s c conn user) (env : Env) {p q : Pdu}
    (hpq : SameButIdentity p q) (hcmd : p.commandId = .buddyListChangeAvatarRequest) :
    IdentityKept env s c conn.userId p q ↔ ∀ msg msg', p.body = .imChangeAvatarReq msg →
      q.body = .imChangeAvatarReq msg' → s.getDbServConn = true → msg.attachData = msg'.attachData := by
  refine kept_iff_of_bodies hpq (fun _ _ => Msg.imChangeAvatarReq.inj) ?_ ?_ ?_
  · intro msg body hbody
    obtain ⟨userId, attachData, hbody⟩ := changeAvatar_of_anonymise_eq hbody
    exact ⟨_, hbody⟩
  · intro pdu hpdu hbody
    rw [sentToOthers_eq h, dispatch, hpdu, hcmd]
    change ((handleChangeAvatarRequest c pdu).run s).out.filterMap _ = _
    have hfill : fillChangeAvatar conn pdu.body = none := by
      unfold fillChangeAvatar
      split
      · rename_i msg hmsg
        exact absurd hmsg (hbody msg)
      · rfl
    rw [handleChangeAvatarRequest, run_forwardToDb _ _ h.conn_eq h.live, hfill]
    split <;> rfl
  · intro msg msg' hp hq
    have hbody := body_anonymise_eq hpq
    rw [hp] at hbody
    obtain ⟨userId, attachData, hq'⟩ := changeAvatar_of_anonymise_eq hbody
    obtain rfl := Msg.imChangeAvatarReq.inj (hq.symm.trans hq')
    rw [← ne_nil_iff_db]
    refine kept_iff_of_attached
      (f := fun attachData => p.setPBMsg (.imChangeAvatarReq { msg with userId := conn.userId, attachData }))
      (sent_changeAvatar h env hcmd hp) ?_ ?_ ?_
    · rw [sent_changeAvatar h env (hcmd ▸ (commandId_eq hpq).symm) hq, eq_of_sameButIdentity hpq]
      rfl
    · intro x y hxy
      exact congrArg IMChangeAvatarReq.attachData (Msg.imChangeAvatarReq.inj (congrArg Pdu.body hxy))
    · intro x
      rfl

/-- A request with something else attached reports the same device token. -/
theorem deviceToken_of_anonymise_eq {msg : IMDeviceTokenReq} {body : Msg}
    (h : (Msg.imDeviceTokenReq msg).anonymise = body.anonymise) :
    ∃ userId attachData, body = .imDeviceTokenReq { msg with userId, attachData } := by
  cases body <;> simp only [Msg.anonymise, reduceCtorEq, Msg.imDeviceTokenReq.injEq, IMDeviceTokenReq.mk.injEq, true_and,
    and_true] at h
  rename_i msg'
  refine ⟨msg'.userId, msg'.attachData, ?_⟩
  rw [h.1, h.2]

/-- A device token goes to the DB proxy, from mobile clients, with the connection's user. -/
theorem sent_deviceToken {conn : MsgConn} {user : ImUser} (h : LoggedIn s c conn user) (env : Env) {pdu : Pdu}
    {msg : IMDeviceTokenReq} (hcmd : pdu.commandId = .loginReqDevicetoken) (hbody : pdu.body = .imDeviceTokenReq msg) :
    sentToOthers env s c pdu =
      (if checkClientTypeMobile conn.clientType && s.getDbServConn then [Dest.db] else []).map fun d =>
        (d, pdu.setPBMsg (.imDeviceTokenReq { msg with userId := conn.userId, clientType := some conn.clientType })) := by
  rw [sentToOthers_eq h, dispatch, hcmd]
  change ((handleClientDeviceToken c pdu).run s).out.filterMap _ = _
  rw [handleClientDeviceToken, run_bind_ok (run_getConn h.conn_eq h.live)]
  cases checkClientTypeMobile conn.clientType with
  | false => rfl
  | true =>
    simp only [hbody, if_true, Bool.true_and, run_bind_ok (run_sendClient c c _ s), run_sendDb, List.nil_append]
    rw [List.cons_append, List.nil_append, List.filterMap_cons, Effect.toOthers, if_pos rfl]
    exact toOthers_db s.getDbServConn _

/-- Here, too, the identity is kept exactly when the attached data are the same, or nothing is sent. -/
theorem kept_deviceToken_iff {conn : MsgConn} {user : ImUser} (h : LoggedIn s c conn user) (env : Env) {p q : Pdu}
    (hpq : SameButIdentity p q) (hcmd : p.commandId = .loginReqDevicetoken) :
    IdentityKept env s c conn.userId p q ↔ ∀ msg msg', p.body = .imDeviceTokenReq msg →
      q.body = .imDeviceTokenReq msg' → (checkClientTypeMobile conn.clientType && s.getDbServConn) = true →
      msg.attachData = msg'.attachData := by
  refine kept_iff_of_bodies hpq (fun _ _ => Msg.imDeviceTokenReq.inj) ?_ ?_ ?_
  · intro msg body hbody
    obtain ⟨userId, attachData, hbody⟩ := deviceToken_of_anonymise_eq hbody
    exact ⟨_, hbody⟩
  · intro pdu hpdu hbody
    rw [sentToOthers_eq h, dispatch, hpdu, hcmd]
    change ((handleClientDeviceToken c pdu).run s).out.filterMap _ = _
    rw [handleClientDeviceToken, run_bind_ok (run_getConn h.conn_eq h.live)]
    cases checkClientTypeMobile conn.clientType with
    | false => rfl
    | true =>
      simp only [if_true]
      rfl
  · intro msg msg' hp hq
    have hbody := body_anonymise_eq hpq
    rw [hp] at hbody
    obtain ⟨userId, attachData, hq'⟩ := deviceToken_of_anonymise_eq hbody
    obtain rfl := Msg.imDeviceTokenReq.inj (hq.symm.trans hq')
    rw [← ne_nil_iff_db]
    refine kept_iff_of_attached
      (f := fun attachData => p.setPBMsg (.imDeviceTokenReq
        { msg with userId := conn.userId, clientType := some conn.clientType, attachData }))
      (sent_deviceToken h env hcmd hp) ?_ ?_ ?_
    · rw [sent_deviceToken h env (hcmd ▸ (commandId_eq hpq).symm) hq, eq_of_sameButIdentity hpq]
      rfl
    · intro x y hxy
      exact congrArg IMDeviceTokenReq.attachData (Msg.imDeviceTokenReq.inj (congrArg Pdu.body hxy))
    · intro x
      rfl

/-! ## Messages -/

/-- A request with another sender is the same message. -/
theorem msgData_of_anonymise_eq {msg : IMMsgData} {body : Msg} (h : (Msg.imMsgData msg).anonymise = body.anonymise) :
    ∃ fromUserId attachData, body = .imMsgData { msg with fromUserId, attachData } := by
  cases body <;> simp only [Msg.anonymise, reduceCtorEq, Msg.imMsgData.injEq, IMMsgData.mk.injEq, true_and, and_true] at h
  rename_i msg'
  obtain ⟨h1, h2, h3, h4, h5⟩ := h
  refine ⟨msg'.fromUserId, msg'.attachData, ?_⟩
  rw [h1, h2, h3, h4, h5]

/-- Whether a message goes to the DB proxy: it is not empty, not too many, not from the client to itself, and there is a
connection to the DB proxy. -/
def forwarded (s : Server) (conn : MsgConn) (msg : IMMsgData) : Bool :=
  msg.msgData.length ≠ 0 ∧ conn.msgCntPerSec < maxMsgCntPerSecond ∧
    ¬(msg.fromUserId = msg.toSessionId ∧ checkMsgTypeSingle msg.msgType) ∧ s.getDbServConn

/-- A message goes to the DB proxy with the connection's user as its sender. -/
theorem sent_msgData {conn : MsgConn} {user : ImUser} (h : LoggedIn s c conn user) (env : Env) {pdu : Pdu} {msg : IMMsgData}
    (hcmd : pdu.commandId = .msgData) (hbody : pdu.body = .imMsgData msg) :
    sentToOthers env s c pdu = (if forwarded s conn msg then [Dest.db] else []).map fun d => (d, pdu.setPBMsg (.imMsgData
      { msg with fromUserId := conn.userId, createTime := env.now, attachData := conn.attach })) := by
  have hsent : sentToOthers env s c pdu = ((handleClientMsgData env c pdu).run s).out.filterMap (Effect.toOthers c) := by
    rw [sentToOthers_eq h, dispatch, hcmd]
  simp only [handleClientMsgData, hbody, run_bind_ok (run_getConn h.conn_eq h.live), List.nil_append] at hsent
  rw [hsent]
  by_cases hlen : msg.msgData.length = 0
  · have hnot : forwarded s conn msg = false := decide_eq_false fun hf => hf.1 hlen
    rw [if_pos hlen, hnot]
    rfl
  · rw [if_neg hlen]
    by_cases hcnt : conn.msgCntPerSec ≥ maxMsgCntPerSecond
    · have hnot : forwarded s conn msg = false := decide_eq_false fun hf => absurd hf.2.1 (Nat.not_lt.2 hcnt)
      rw [if_pos hcnt, hnot]
      rfl
    · rw [if_neg hcnt]
      by_cases hself : msg.fromUserId = msg.toSessionId ∧ checkMsgTypeSingle msg.msgType = true
      · have hnot : forwarded s conn msg = false := decide_eq_false fun hf => hf.2.2.1 hself
        rw [if_pos hself, hnot]
        rfl
      · have hdb : forwarded s conn msg = s.getDbServConn := by
          cases hdb : s.getDbServConn with
          | false => exact decide_eq_false fun hf => absurd (hdb.symm.trans hf.2.2.2) nofun
          | true => exact decide_eq_true ⟨hlen, Nat.not_le.1 hcnt, hself, hdb⟩
        rw [if_neg hself, run_bind_ok (run_setConn _ _ _), run_sendDb, hdb]
        exact toOthers_db s.getDbServConn _

/-- Either both requests go to the DB proxy, and there as the same PDU, or neither. -/
theorem kept_iff_of_same {env : Env} {p q : Pdu} {pdu : Pdu} {b b' : Bool}
    (hp : sentToOthers env s c p = (if b then [Dest.db] else []).map fun d => (d, pdu))
    (hq : sentToOthers env s c q = (if b' then [Dest.db] else []).map fun d => (d, pdu))
    (hnames : actingUsers p.commandId pdu.body = [userId]) : IdentityKept env s c userId p q ↔ b = b' := by
  rw [IdentityKept, hp, hq]
  constructor
  · rintro ⟨heq, _⟩
    have hlen := congrArg List.length heq
    cases b <;> cases b' <;> first | rfl | cases hlen
  · rintro rfl
    refine ⟨rfl, fun sent hsent x hx => ?_⟩
    obtain ⟨_, _, rfl⟩ := List.mem_map.1 hsent
    rw [hnames, List.mem_singleton] at hx
    exact hx

/-- A message to oneself is dropped by the id that the client sent, so both must be such messages, or neither. -/
theorem kept_msgData_iff {conn : MsgConn} {user : ImUser} (h : LoggedIn s c conn user) (env : Env) {p q : Pdu}
    (hpq : SameButIdentity p q) (hcmd : p.commandId = .msgData) :
    IdentityKept env s c conn.userId p q ↔ ∀ msg msg', p.body = .imMsgData msg → q.body = .imMsgData msg' →
      msg.msgData.length ≠ 0 → conn.msgCntPerSec < maxMsgCntPerSecond → checkMsgTypeSingle msg.msgType = true →
      s.getDbServConn = true → (msg.fromUserId = msg.toSessionId ↔ msg'.fromUserId = msg'.toSessionId) := by
  refine kept_iff_of_bodies hpq (fun _ _ => Msg.imMsgData.inj) ?_ ?_ ?_
  · intro msg body hbody
    obtain ⟨fromUserId, attachData, hbody⟩ := msgData_of_anonymise_eq hbody
    exact ⟨_, hbody⟩
  · intro pdu hpdu hbody
    rw [sentToOthers_eq h, dispatch, hpdu, hcmd]
    change ((handleClientMsgData env c pdu).run s).out.filterMap _ = _
    unfold handleClientMsgData
    split
    · rename_i msg hmsg
      exact absurd hmsg (hbody msg)
    · rfl
  · intro msg msg' hp hq
    have hbody := body_anonymise_eq hpq
    rw [hp] at hbody
    obtain ⟨fromUserId, attachData, hq'⟩ := msgData_of_anonymise_eq hbody
    obtain rfl := Msg.imMsgData.inj (hq.symm.trans hq')
    have hsentq := sent_msgData h env (hcmd ▸ (commandId_eq hpq).symm) hq
    rw [show q.setPBMsg = p.setPBMsg by rw [eq_of_sameButIdentity hpq]; rfl] at hsentq
    rw [kept_iff_of_same (sent_msgData h env hcmd hp) hsentq rfl, forwarded, forwarded, decide_eq_decide]
    constructor
    · intro hiff hlen hcnt hsingle hdb
      have hto : ∀ a, (msg.msgData.length ≠ 0 ∧ conn.msgCntPerSec < maxMsgCntPerSecond ∧
          ¬(a = msg.toSessionId ∧ checkMsgTypeSingle msg.msgType = true) ∧ s.getDbServConn = true) ↔
          ¬a = msg.toSessionId :=
        fun a => ⟨fun h heq => h.2.2.1 ⟨heq, hsingle⟩, fun h => ⟨hlen, hcnt, fun h' => h h'.1, hdb⟩⟩
      exact not_iff_not.1 ((hto _).symm.trans (hiff.trans (hto _)))
    · intro hself
      constructor
      · rintro ⟨hlen, hcnt, hne, hdb⟩
        exact ⟨hlen, hcnt, fun h' => hne ⟨(hself hlen hcnt h'.2 hdb).2 h'.1, h'.2⟩, hdb⟩
      · rintro ⟨hlen, hcnt, hne, hdb⟩
        exact ⟨hlen, hcnt, fun h' => hne ⟨(hself hlen hcnt h'.2 hdb).1 h'.1, h'.2⟩, hdb⟩

end IdentityAux

open IdentityAux

/-- When the five commands keep the identity. A P2P command reaches someone only with the truth, and so does the
notification that an offline file was fetched; a change of the avatar, and a mobile client's device token, go to the DB
proxy only with the same attached both times; and both of two messages to a user, or neither, name this user as sender. -/
def KeptWhen (env : Env) (s : Server) (c : ConnId) (conn : MsgConn) (user : ImUser) (p q : Pdu) : Prop :=
  match p.commandId with
  | .switchP2pCmd => ∀ msg msg', p.body = .imP2PCmdMsg msg → q.body = .imP2PCmdMsg msg' →
      p2pReceivers s c user msg.toUserId ≠ [] → msg.fromUserId = conn.userId ∧ msg'.fromUserId = conn.userId
  | .fileDelOfflineReq => ∀ msg msg', p.body = .imFileDelOfflineReq msg → q.body = .imFileDelOfflineReq msg' →
      fetchedReceivers env s c msg.fromUserId ≠ [] → msg.toUserId = conn.userId ∧ msg'.toUserId = conn.userId
  | .buddyListChangeAvatarRequest => ∀ msg msg', p.body = .imChangeAvatarReq msg → q.body = .imChangeAvatarReq msg' →
      s.getDbServConn = true → msg.attachData = msg'.attachData
  | .loginReqDevicetoken => ∀ msg msg', p.body = .imDeviceTokenReq msg → q.body = .imDeviceTokenReq msg' →
      (checkClientTypeMobile conn.clientType && s.getDbServConn) = true → msg.attachData = msg'.attachData
  | .msgData => ∀ msg msg', p.body = .imMsgData msg → q.body = .imMsgData msg' →
      msg.msgData.length ≠ 0 → conn.msgCntPerSec < maxMsgCntPerSecond → checkMsgTypeSingle msg.msgType = true →
      s.getDbServConn = true → (msg.fromUserId = msg.toSessionId ↔ msg'.fromUserId = msg'.toSessionId)
  | _ => True

/-- For every logged-in connection and every two PDUs that differ only in who the client says is acting, and in what is
attached: the server sends the same to others, and names the client's user in all of it, exactly when the condition of the
command holds. -/
theorem identity_kept_iff {env : Env} {s : Server} {c : ConnId} {conn : MsgConn} {user : ImUser}
    (h : LoggedIn s c conn user) {p q : Pdu} (hpq : SameButIdentity p q) :
    IdentityKept env s c conn.userId p q ↔ KeptWhen env s c conn user p q := by
  unfold KeptWhen
  split
  · rename_i hcmd
    exact kept_p2p_iff h env hpq hcmd
  · rename_i hcmd
    exact kept_fileDelOffline_iff h env hpq hcmd
  · rename_i hcmd
    exact kept_changeAvatar_iff h env hpq hcmd
  · rename_i hcmd
    exact kept_deviceToken_iff h env hpq hcmd
  · rename_i hcmd
    exact kept_msgData_iff h env hpq hcmd
  · rename_i h1 h2 h3 h4 h5
    refine ⟨fun _ => trivial, fun _ => ?_⟩
    by_cases hbeat : p.commandId = .otherHeartbeat
    · exact kept_heartbeat h env hpq hbeat
    · refine kept_of_not_reads h env hpq ?_
      unfold Cid.readsIdentity
      split
      all_goals first | rfl | contradiction

namespace IdentityAux

/-- The outside world, where nothing matters. -/
def someEnv : Env := { now := 0, tick := 0, random := 0, serialize := fun _ => [] }

/-- User 7's connection. -/
def conn7 : MsgConn :=
  { handle := 5, loginName := "seven", userId := 7, bOpen := true, bKickOff := false, loginTime := 0, clientVersion := "",
    sendMsgList := [], msgCntPerSec := 0, clientType := 1, onlineStatus := 1, lastRecvTick := 0, refCount := 1 }

/-- User 7, with one connection. -/
def user7 : ImUser :=
  { ImUser.new "seven" with userId := 7, bValidate := true, connMap := (∅ : TreeMap Nat ConnId).insert 5 0 }

/-- A server with user 7 logged in, and one server of each kind. -/
def server7 : Server :=
  { conns := fun c => if c = 0 then some conn7 else none
    users := fun r => if r = 0 then some user7 else none
    nextUser := 1
    msgConnMap := (∅ : TreeMap Nat ConnId).insert 5 0
    imUserMap := (∅ : TreeMap Nat UserRef).insert 7 0
    imUserMapByName := (∅ : TreeMap String UserRef).insert "seven" 0
    backends :=
      { dbServerList := [true], dbServerLoginCount := 0, loginServerList := [true], routeServerList := [true],
        masterRs := some 0, fileServerList := [] } }

/-- User 7 is logged in on the only connection. -/
theorem loggedIn7 : LoggedIn server7 0 conn7 user7 := ⟨rfl, by decide, rfl, rfl, rfl⟩

/-- A request for the numbers of unread messages, by whoever the client says. -/
def unreadMsgCntOf (userId : Nat) : Pdu :=
  mkPdu sidMsg .msgUnreadCntRequest 1 (.imUnreadMsgCntReq { userId, attachData := none })

/-- A P2P command to user 8, by whoever the client says. -/
def p2pCmdOf (fromUserId : Nat) : Pdu :=
  mkPdu sidSwitchService .switchP2pCmd 1 (.imP2PCmdMsg { fromUserId, toUserId := 8, cmdMsgData := "" })

end IdentityAux

/-- A request for unread messages is user 7's, also when it says that it is user 99's. -/
theorem identity_kept_unread : IdentityKept someEnv server7 0 7 (unreadMsgCntOf 7) (unreadMsgCntOf 99) :=
  (identity_kept_iff loggedIn7 rfl).2 trivial

/-- A P2P command is user 99's when it says so. -/
theorem identity_not_kept : ¬∀ (env : Env) (s : Server) (c : ConnId) (conn : MsgConn) (user : ImUser) (p q : Pdu),
    LoggedIn s c conn user → SameButIdentity p q → IdentityKept env s c conn.userId p q := by
  intro hall
  obtain ⟨hsame, _⟩ := hall someEnv server7 0 conn7 user7 (p2pCmdOf 7) (p2pCmdOf 99) loggedIn7 rfl
  exact absurd hsame (by decide)

end TeamTalk
