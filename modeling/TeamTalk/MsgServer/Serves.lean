import TeamTalk.MsgServer.HandlePdu

/-!
# What serving a request changes

A request other than a login or a logout changes only counters and lists of connections, and marks connections as kicked
off; nobody's registration changes, and no status is reported.
-/

namespace TeamTalk

open Action

/-- The same connection, but for counters, the list of messages that are not acknowledged, and the kick mark. -/
structure MsgConn.Same (conn conn' : MsgConn) : Prop where
  handle_eq : conn'.handle = conn.handle
  loginName_eq : conn'.loginName = conn.loginName
  userId_eq : conn'.userId = conn.userId
  bOpen_eq : conn'.bOpen = conn.bOpen
  clientType_eq : conn'.clientType = conn.clientType
  refCount_eq : conn'.refCount = conn.refCount

/-- An effect that neither closes or opens a connection, nor reports a status, nor asks for a validation. -/
def Effect.Quiet : Effect → Prop
  | .send _ (.login _) _ => False
  | .send _ _ pdu => pdu.commandId ≠ .otherUserStatusUpdate ∧ pdu.commandId ≠ .otherValidateReq
  | .setKickOff _ => True
  | _ => False

/-- What serving a request changes: the kick mark of connections, as noted, and nobody's registration. -/
structure Serves (s : Server) (out : List Effect) (s' : Server) : Prop where
  users_eq : s'.users = s.users
  nextUser_eq : s'.nextUser = s.nextUser
  msgConnMap_eq : s'.msgConnMap = s.msgConnMap
  imUserMap_eq : s'.imUserMap = s.imUserMap
  imUserMapByName_eq : s'.imUserMapByName = s.imUserMapByName
  backends_eq : s'.backends = s.backends
  conns_none : ∀ c, s.conns c = none → s'.conns c = none ∧ .setKickOff c ∉ out
  conns_some : ∀ c conn, s.conns c = some conn → ∃ conn', s'.conns c = some conn' ∧ conn.Same conn' ∧
    (conn'.bKickOff = true ↔ conn.bKickOff = true ∨ .setKickOff c ∈ out)
  quiet : ∀ e ∈ out, e.Quiet

/-- A connection is the same as itself. -/
theorem MsgConn.Same.refl (conn : MsgConn) : conn.Same conn := ⟨rfl, rfl, rfl, rfl, rfl, rfl⟩

/-- And what is the same twice over is the same. -/
theorem MsgConn.Same.trans {a b c : MsgConn} (h : a.Same b) (h' : b.Same c) : a.Same c :=
  ⟨h'.1.trans h.1, h'.2.trans h.2, h'.3.trans h.3, h'.4.trans h.4, h'.5.trans h.5, h'.6.trans h.6⟩

namespace ServesAux

/-- What does nothing serves. -/
theorem serves_refl (s : Server) : Serves s [] s := by
  refine ⟨rfl, rfl, rfl, rfl, rfl, rfl, ?_, ?_, List.forall_mem_nil _⟩
  · intro c hc
    exact ⟨hc, List.not_mem_nil⟩
  · intro c conn hc
    exact ⟨conn, hc, .refl conn, by simp⟩

/-- Serving composes. -/
theorem composes_serves : Composes Serves := by
  refine ⟨serves_refl, ?_⟩
  intro s s' s'' out out' h h'
  refine ⟨h'.users_eq.trans h.users_eq, h'.nextUser_eq.trans h.nextUser_eq, h'.msgConnMap_eq.trans h.msgConnMap_eq,
    h'.imUserMap_eq.trans h.imUserMap_eq, h'.imUserMapByName_eq.trans h.imUserMapByName_eq,
    h'.backends_eq.trans h.backends_eq, ?_, ?_, ?_⟩
  · intro c hc
    obtain ⟨hc', hout⟩ := h.conns_none c hc
    obtain ⟨hc'', hout'⟩ := h'.conns_none c hc'
    exact ⟨hc'', fun hmem => (List.mem_append.1 hmem).elim hout hout'⟩
  · intro c conn hc
    obtain ⟨conn', hc', hsame, hkick⟩ := h.conns_some c conn hc
    obtain ⟨conn'', hc'', hsame', hkick'⟩ := h'.conns_some c conn' hc'
    refine ⟨conn'', hc'', hsame.trans hsame', ?_⟩
    rw [hkick', hkick, List.mem_append, or_assoc]
  · intro e he
    rcases List.mem_append.1 he with he | he
    · exact h.quiet e he
    · exact h'.quiet e he

variable {s : Server} {c : ConnId}

/-- Sending changes nothing. -/
theorem does_send {self : ConnId} {dest : Dest} {pdu : Pdu} (h : (Effect.send self dest pdu).Quiet) :
    (emit (.send self dest pdu) : Do Unit).Does Serves s := by
  refine ⟨rfl, rfl, rfl, rfl, rfl, rfl, ?_, ?_, ?_⟩
  · intro d hd
    exact ⟨hd, fun hmem => by cases List.mem_singleton.1 hmem⟩
  · intro d conn hd
    refine ⟨conn, hd, .refl conn, or_iff_left ?_ |>.symm⟩
    intro hmem
    cases List.mem_singleton.1 hmem
  · intro e he
    rw [List.mem_singleton.1 he]
    exact h

/-- A connection's counters and list change, or it is marked as kicked off. -/
theorem serves_setConn {conn conn' : MsgConn} {out : List Effect} (hc : s.conns c = some conn) (hsame : conn.Same conn')
    (hout : ∀ e ∈ out, e = .setKickOff c) (hkick : conn'.bKickOff = true ↔ conn.bKickOff = true ∨ .setKickOff c ∈ out) :
    Serves s out (s.setConn c conn') := by
  refine ⟨rfl, rfl, rfl, rfl, rfl, rfl, ?_, ?_, ?_⟩
  · intro d hd
    have hdc : d ≠ c := by
      rintro rfl
      rw [hc] at hd
      cases hd
    refine ⟨by rw [Server.conns_setConn, if_neg hdc, hd], fun hmem => hdc ?_⟩
    exact Effect.setKickOff.inj (hout _ hmem)
  · intro d conn0 hd
    rw [Server.conns_setConn]
    by_cases hdc : d = c
    · subst hdc
      rw [hc] at hd
      obtain rfl := Option.some.inj hd
      rw [if_pos rfl]
      exact ⟨conn', rfl, hsame, hkick⟩
    · rw [if_neg hdc]
      refine ⟨conn0, hd, .refl conn0, (or_iff_left fun hmem => hdc ?_).symm⟩
      exact Effect.setKickOff.inj (hout _ hmem)
  · intro e he
    rw [hout e he]
    trivial

/-- A connection's counters and list change. -/
theorem does_setConn {conn conn' : MsgConn} (hc : s.conns c = some conn) (hsame : conn.Same conn')
    (hkick : conn'.bKickOff = conn.bKickOff) : (setConn c conn').Does Serves s := by
  refine serves_setConn hc hsame (List.forall_mem_nil _) ?_
  rw [hkick]
  exact (or_iff_left List.not_mem_nil).symm

/-- A connection is marked as kicked off. -/
theorem does_setKickOff {conn : MsgConn} (hc : s.conns c = some conn) :
    (setConn c { conn with bKickOff := true } >>= fun _ => emit (.setKickOff c)).Does Serves s := by
  unfold Act.Does
  rw [run_bind_ok (run_setConn c _ s)]
  exact serves_setConn hc ⟨rfl, rfl, rfl, rfl, rfl, rfl⟩ (fun e he => List.mem_singleton.1 he)
    ⟨fun _ => .inr (List.mem_singleton.2 rfl), fun _ => rfl⟩

/-! ## Sending, broadcasts and kicks -/

/-- A quiet PDU to a client serves. -/
theorem does_sendClient {self d : ConnId} {pdu : Pdu} (h : (Effect.send self (.client d) pdu).Quiet) :
    (sendClient self d pdu).Does Serves s :=
  does_send h

/-- A quiet PDU to the database proxy serves. -/
theorem does_sendDb {pdu : Pdu} (h : (Effect.send c .db pdu).Quiet) : (sendDb c pdu).Does Serves s := by
  refine Does.read_bind ?_
  split
  · exact does_send h
  · exact Does.pure composes_serves ()

/-- A quiet PDU to a route server serves. -/
theorem does_sendRoute {pdu : Pdu} (h : ∀ i, (Effect.send c (.route i) pdu).Quiet) : (sendRoute c pdu).Does Serves s := by
  refine Does.read_bind ?_
  split
  · exact does_send (h _)
  · exact Does.pure composes_serves ()

/-- A broadcast serves where the PDU is quiet for every client. -/
theorem does_broadcastPdu {user : ImUser} {pdu : Pdu} (fromConn : Option ConnId)
    (h : ∀ d, (Effect.send c (.client d) pdu).Quiet) : (broadcastPdu c user pdu fromConn).Does Serves s := by
  refine Does.each composes_serves fun d _ s' => ?_
  split
  · exact Does.pure composes_serves ()
  · exact does_sendClient (h d)

/-- Kicking a user's connection serves. -/
theorem does_handleKickUser (user : ImUser) (d : ConnId) (reason : Nat) : (handleKickUser user d reason).Does Serves s := by
  refine does_getConn_bind composes_serves fun conn _ _ => ?_
  split
  · rename_i e _
    refine Does.bind composes_serves (does_sendClient ⟨nofun, nofun⟩) fun _ s' _ _ => ?_
    refine does_getConn_bind composes_serves fun conn' hc _ => ?_
    exact does_setKickOff hc
  · exact Does.pure composes_serves ()

/-- Kicking the connections of one class serves. -/
theorem does_kickOutSameClientType (user : ImUser) (clientType reason : Nat) (fromConn : Option ConnId) :
    (kickOutSameClientType user clientType reason fromConn).Does Serves s := by
  unfold kickOutSameClientType
  induction user.conns with
  | nil => exact Does.pure composes_serves ()
  | cons d ds ih =>
    refine does_getConn_bind composes_serves fun conn _ _ => ?_
    split
    · exact does_handleKickUser user d reason
    · exact ih

/-! ## The handlers -/

/-- A handler that completes a request and forwards it serves. -/
theorem does_forwardToDb {available : Server → Bool} {fill : MsgConn → Msg → Option Msg} {pdu : Pdu}
    (h : (Effect.send c .db pdu).Quiet) : (forwardToDb available fill c pdu).Does Serves s := by
  refine does_getConn_bind composes_serves fun conn _ _ => ?_
  split
  · refine Does.read_bind ?_
    split
    · exact does_send h
    · exact Does.pure composes_serves ()
  · exact Does.pure composes_serves ()

/-- So does one that may answer the client instead. -/
theorem does_forwardOrAnswer {fill : MsgConn → Msg → Option (Msg × Pdu)} {pdu : Pdu} (h : (Effect.send c .db pdu).Quiet)
    (hanswer : ∀ conn body sent, fill conn body = some sent → (Effect.send c (.client c) sent.2).Quiet) :
    (forwardOrAnswer fill c pdu).Does Serves s := by
  refine does_getConn_bind composes_serves fun conn _ _ => ?_
  split
  · rename_i body answer hfill
    refine Does.read_bind ?_
    split
    · exact does_send h
    · exact does_sendClient (hanswer conn pdu.body _ hfill)
  · exact Does.pure composes_serves ()

/-- Taking a message off the send list serves. -/
theorem does_delFromSendList (msgId fromId : Nat) : (delFromSendList c msgId fromId).Does Serves s :=
  does_getConn_bind composes_serves fun _ hc _ => does_setConn hc ⟨rfl, rfl, rfl, rfl, rfl, rfl⟩ rfl

/-- Telling the user's other clients and the route servers serves. -/
theorem does_notifyOthers {conn : MsgConn} {pdu : Pdu} (h : ∀ dest, (∀ i, dest ≠ .login i) → (Effect.send c dest pdu).Quiet) :
    (notifyOthers c conn pdu).Does Serves s := by
  have hroute : ∀ s', (sendRoute c pdu).Does Serves s' := fun s' => does_sendRoute fun i => h _ nofun
  refine Does.read_bind ?_
  split
  · refine does_getUser_bind composes_serves fun user _ => ?_
    exact Does.bind composes_serves (does_broadcastPdu _ fun d => h _ nofun) fun _ s' _ _ => hroute s'
  · exact hroute s

/-- A message from the client serves. -/
theorem does_handleClientMsgData (env : Env) {pdu : Pdu} (h : (Effect.send c .db pdu).Quiet) :
    (handleClientMsgData env c pdu).Does Serves s := by
  unfold handleClientMsgData
  split
  · refine does_getConn_bind composes_serves fun conn hc _ => ?_
    split
    · exact Does.pure composes_serves ()
    · split
      · exact Does.pure composes_serves ()
      · split
        · exact Does.pure composes_serves ()
        · refine Does.bind composes_serves (does_setConn hc ⟨rfl, rfl, rfl, rfl, rfl, rfl⟩ rfl) fun _ s' _ _ => ?_
          exact does_sendDb h
  · exact Does.pure composes_serves ()

/-- Its acknowledgement serves. -/
theorem does_handleClientMsgDataAck (pdu : Pdu) : (handleClientMsgDataAck c pdu).Does Serves s := by
  unfold handleClientMsgDataAck
  split
  · split
    · exact does_delFromSendList _ _
    · exact Does.pure composes_serves ()
  · exact Does.pure composes_serves ()

/-- The mark that a session is read serves. -/
theorem does_handleClientMsgReadAck {pdu : Pdu} (h : (Effect.send c .db pdu).Quiet) :
    (handleClientMsgReadAck c pdu).Does Serves s := by
  unfold handleClientMsgReadAck
  split
  · refine does_getConn_bind composes_serves fun conn _ _ => ?_
    refine Does.bind composes_serves (does_sendDb h) fun _ _ _ _ => ?_
    refine Does.bind composes_serves (does_notifyOthers ?_) fun _ _ _ _ => ?_
    · intro dest hdest
      cases dest with
      | login i => exact absurd rfl (hdest i)
      | _ => exact ⟨nofun, nofun⟩
    · split
      · exact does_delFromSendList _ _
      · exact Does.pure composes_serves ()
  · exact Does.pure composes_serves ()

/-- Removing a session serves. -/
theorem does_handleClientRemoveSessionRequest {pdu : Pdu} (h : (Effect.send c .db pdu).Quiet) :
    (handleClientRemoveSessionRequest c pdu).Does Serves s := by
  unfold handleClientRemoveSessionRequest
  split
  · refine does_getConn_bind composes_serves fun conn _ _ => ?_
    refine Does.bind composes_serves (does_sendDb h) fun _ _ _ _ => ?_
    split
    · refine does_notifyOthers fun dest hdest => ?_
      cases dest with
      | login i => exact absurd rfl (hdest i)
      | _ => exact ⟨nofun, nofun⟩
    · exact Does.pure composes_serves ()
  · exact Does.pure composes_serves ()

/-- A peer to peer command serves. -/
theorem does_handleClientP2PCmdMsg {pdu : Pdu} (h : ∀ dest, (∀ i, dest ≠ .login i) → (Effect.send c dest pdu).Quiet) :
    (handleClientP2PCmdMsg c pdu).Does Serves s := by
  have hroute : ∀ s', (sendRoute c pdu).Does Serves s' := fun s' => does_sendRoute fun i => h _ nofun
  have hcast : ∀ user fromConn s', (broadcastPdu c user pdu fromConn).Does Serves s' := fun _ _ _ =>
    does_broadcastPdu _ fun d => h _ nofun
  unfold handleClientP2PCmdMsg
  split
  · rename_i msg _
    refine does_getConn_bind composes_serves fun conn _ _ => ?_
    refine Does.read_bind ?_
    split
    on_goal 1 =>
      refine does_getUser_bind composes_serves fun user _ => ?_
      refine Does.bind composes_serves (hcast _ _ _) fun _ s' _ _ => ?_
    -- the broadcast to the other user comes after the one to the client's own user, if there is one
    all_goals
      refine Does.read_bind ?_
      split
      · refine does_getUser_bind composes_serves fun user _ => ?_
        exact Does.bind composes_serves (hcast _ _ _) fun _ _ _ _ => hroute _
      · exact hroute _
  · exact Does.pure composes_serves ()

/-- A mobile client that kicks the user's PC serves. -/
theorem does_handleKickPCClient (pdu : Pdu) : (handleKickPCClient c pdu).Does Serves s := by
  have hlast : ∀ pdu pdu' s', pdu.commandId = .otherServerKickUser → pdu'.commandId = .loginResKickpcclient →
      (sendRoute c pdu >>= fun _ => sendClient c c pdu').Does Serves s' := fun pdu pdu' s' h h' => by
    refine Does.bind composes_serves (does_sendRoute fun i => ⟨?_, ?_⟩) fun _ _ _ _ => does_sendClient ⟨?_, ?_⟩
    all_goals first | rw [h] | rw [h']
    all_goals nofun
  unfold handleKickPCClient
  split
  · refine does_getConn_bind composes_serves fun conn _ _ => ?_
    split
    · refine Does.read_bind ?_
      split
      · refine does_getUser_bind composes_serves fun user _ => ?_
        exact Does.bind composes_serves (does_kickOutSameClientType _ _ _ _) fun _ s' _ _ => hlast _ _ s' rfl rfl
      · exact hlast _ _ s rfl rfl
    · exact Does.pure composes_serves ()
  · exact Does.pure composes_serves ()

/-- A device token serves. -/
theorem does_handleClientDeviceToken {pdu : Pdu} (h : (Effect.send c .db pdu).Quiet) :
    (handleClientDeviceToken c pdu).Does Serves s := by
  refine does_getConn_bind composes_serves fun conn _ _ => ?_
  split
  · split
    · exact Does.bind composes_serves (does_sendClient ⟨nofun, nofun⟩) fun _ _ _ _ => does_sendDb h
    · exact Does.pure composes_serves ()
  · exact Does.pure composes_serves ()

/-- A question for users' states serves. -/
theorem does_handleClientUsersStatusRequest {pdu : Pdu} (h : ∀ i, (Effect.send c (.route i) pdu).Quiet) :
    (handleClientUsersStatusRequest c pdu).Does Serves s := by
  unfold handleClientUsersStatusRequest
  split
  · exact does_getConn_bind composes_serves fun conn _ _ => does_sendRoute h
  · exact Does.pure composes_serves ()

/-- A request to send a file serves. -/
theorem does_handleClientFileRequest (env : Env) (pdu : Pdu) : (handleClientFileRequest env c pdu).Does Serves s := by
  unfold handleClientFileRequest
  split
  · refine does_getConn_bind composes_serves fun conn _ _ => Does.read_bind ?_
    split
    · split
      · exact does_send ⟨nofun, nofun⟩
      · split
        · refine does_getUser_bind composes_serves fun user _ => Does.bind composes_serves (Does.pure composes_serves _) ?_
          intro status s' _ _
          dsimp only
          split
          · exact does_send ⟨nofun, nofun⟩
          · exact does_sendRoute fun i => ⟨nofun, nofun⟩
        · refine Does.bind composes_serves (Does.pure composes_serves _) fun status s' _ _ => ?_
          dsimp only
          split
          · exact does_send ⟨nofun, nofun⟩
          · exact does_sendRoute fun i => ⟨nofun, nofun⟩
    · exact does_sendClient ⟨nofun, nofun⟩
  · exact Does.pure composes_serves ()

/-- A question for offline files serves. -/
theorem does_handleClientFileHasOfflineReq {pdu : Pdu} (h : (Effect.send c .db pdu).Quiet) :
    (handleClientFileHasOfflineReq c pdu).Does Serves s := by
  refine does_getConn_bind composes_serves fun conn _ _ => Does.read_bind ?_
  split
  · split
    · exact does_send h
    · exact Does.pure composes_serves ()
  · exact does_sendClient ⟨nofun, nofun⟩

/-- Adding an offline file serves. -/
theorem does_handleClientFileAddOfflineReq (env : Env) {pdu : Pdu} (h : (Effect.send c .db pdu).Quiet) :
    (handleClientFileAddOfflineReq env c pdu).Does Serves s := by
  unfold handleClientFileAddOfflineReq
  split
  · refine does_getConn_bind composes_serves fun conn _ _ => Does.read_bind ?_
    split
    · refine does_getUser_bind composes_serves fun user _ => ?_
      refine Does.bind composes_serves (does_broadcastPdu _ fun d => ⟨nofun, nofun⟩) fun _ s' _ _ => ?_
      exact Does.bind composes_serves (Does.pure composes_serves _) fun _ _ _ _ => does_sendDb h
    · exact Does.bind composes_serves (Does.pure composes_serves _) fun _ _ _ _ => does_sendDb h
  · exact Does.pure composes_serves ()

/-- Deleting one serves. -/
theorem does_handleClientFileDelOfflineReq (env : Env) (pdu : Pdu) :
    (handleClientFileDelOfflineReq env c pdu).Does Serves s := by
  unfold handleClientFileDelOfflineReq
  split
  · refine Does.read_bind ?_
    split
    · dsimp only
      split
      · refine does_getUser_bind composes_serves fun user _ => ?_
        split
        · refine Does.bind composes_serves (does_broadcastPdu _ fun d => ⟨nofun, nofun⟩) fun _ _ _ _ => ?_
          exact Does.bind composes_serves (Does.pure composes_serves _) fun _ _ _ _ => does_send ⟨nofun, nofun⟩
        · exact Does.bind composes_serves (Does.stop composes_serves _) fun _ _ _ _ => does_send ⟨nofun, nofun⟩
      · exact Does.bind composes_serves (Does.pure composes_serves _) fun _ _ _ _ => does_send ⟨nofun, nofun⟩
    · have hstop : ∀ s', (stop .undefinedBehaviour : Do Unit).Does Serves s' := fun _ => Does.stop composes_serves _
      dsimp only
      split
      · refine does_getUser_bind composes_serves fun user _ => ?_
        split
        · refine Does.bind composes_serves (does_broadcastPdu _ fun d => ⟨nofun, nofun⟩) fun _ _ _ _ => ?_
          exact Does.bind composes_serves (Does.pure composes_serves _) fun _ _ _ _ => hstop _
        · exact Does.bind composes_serves (Does.stop composes_serves _) fun _ _ _ _ => hstop _
      · exact Does.bind composes_serves (Does.pure composes_serves _) fun _ _ _ _ => hstop _
  · exact Does.pure composes_serves ()

/-- The acknowledgement of a notice serves. -/
theorem does_handleNotifyAck {pdu : Pdu} (h : (Effect.send c .db pdu).Quiet) : (handleNotifyAck c pdu).Does Serves s := by
  unfold handleNotifyAck
  split
  · exact does_sendDb h
  · exact Does.pure composes_serves ()

end ServesAux

open ServesAux

/-- Every handler but those of login and logout changes only this. -/
theorem does_dispatch (env : Env) (s : Server) (c : ConnId) {pdu : Pdu} (hlogin : pdu.commandId ≠ .loginReqUserlogin)
    (hlogout : pdu.commandId ≠ .loginReqLoginout) : (dispatch env c pdu).Does Serves s := by
  obtain ⟨version, flag, serviceId, commandId, seqNum, reversed, body⟩ := pdu
  cases commandId
  case loginReqUserlogin => exact absurd rfl hlogin
  case loginReqLoginout => exact absurd rfl hlogout
  case otherHeartbeat => exact does_sendClient ⟨nofun, nofun⟩
  case loginReqDevicetoken => exact does_handleClientDeviceToken ⟨nofun, nofun⟩
  case loginReqKickpcclient => exact does_handleKickPCClient _
  case msgData => exact does_handleClientMsgData env ⟨nofun, nofun⟩
  case msgDataAck => exact does_handleClientMsgDataAck _
  case msgTimeRequest => exact does_sendClient ⟨nofun, nofun⟩
  case msgReadAck => exact does_handleClientMsgReadAck ⟨nofun, nofun⟩
  case switchP2pCmd =>
    refine does_handleClientP2PCmdMsg fun dest hdest => ?_
    cases dest with
    | login i => exact absurd rfl (hdest i)
    | _ => exact ⟨nofun, nofun⟩
  case buddyListRemoveSessionReq => exact does_handleClientRemoveSessionRequest ⟨nofun, nofun⟩
  case buddyListUsersStatusRequest => exact does_handleClientUsersStatusRequest fun i => ⟨nofun, nofun⟩
  case groupNormalListRequest | groupInfoRequest | groupChangeMemberRequest | groupShieldGroupRequest =>
    refine does_forwardOrAnswer ⟨nofun, nofun⟩ fun conn body sent hfill => ?_
    cases body <;> cases hfill
    exact ⟨nofun, nofun⟩
  case groupCreateRequest =>
    refine does_forwardOrAnswer ⟨nofun, nofun⟩ fun conn body sent hfill => ?_
    cases body <;> first | cases hfill | skip
    rw [fillGroupCreate] at hfill
    split at hfill
    · cases hfill
    · cases hfill
      exact ⟨nofun, nofun⟩
  case fileRequest => exact does_handleClientFileRequest env _
  case fileHasOfflineReq => exact does_handleClientFileHasOfflineReq ⟨nofun, nofun⟩
  case fileAddOfflineReq => exact does_handleClientFileAddOfflineReq env ⟨nofun, nofun⟩
  case fileDelOfflineReq => exact does_handleClientFileDelOfflineReq env _
  case fileNotifyAck => exact does_handleNotifyAck ⟨nofun, nofun⟩
  all_goals first
    | exact does_forwardToDb ⟨nofun, nofun⟩
    | exact Does.pure composes_serves ()

end TeamTalk
