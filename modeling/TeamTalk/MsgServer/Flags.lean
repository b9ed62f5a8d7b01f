import TeamTalk.MsgServer.EventLoop
import TeamTalk.MsgServer.Serves

/-!
# The flags of a connection

A connection's flags `m_bOpen` and `m_bKickOff` are what has been noted about it: nothing else sets them, and nothing takes
them back.
-/

namespace TeamTalk

open Action

/-- The flags change as it is put out, and nothing else sets them. -/
structure FlagsKept (s : Server) (out : List Effect) (s' : Server) : Prop where
  conns_none : ∀ c, s.conns c = none → s'.conns c = none ∧ .setOpen c ∉ out ∧ .setKickOff c ∉ out
  conns_some : ∀ c conn, s.conns c = some conn → ∃ conn', s'.conns c = some conn' ∧
    (conn'.bOpen = true ↔ conn.bOpen = true ∨ .setOpen c ∈ out) ∧
    (conn'.bKickOff = true ↔ conn.bKickOff = true ∨ .setKickOff c ∈ out)

/-- An effect that sets no flag. -/
def Effect.Plain (e : Effect) : Prop := ∀ c, e ≠ .setOpen c ∧ e ≠ .setKickOff c

namespace FlagsAux

/-- What keeps the flags and then keeps them again keeps them. -/
theorem composes_flagsKept : Composes FlagsKept := by
  constructor
  · intro s
    refine ⟨fun c hc => ⟨hc, List.not_mem_nil, List.not_mem_nil⟩, fun c conn hc => ⟨conn, hc, ?_, ?_⟩⟩
    · exact (or_iff_left List.not_mem_nil).symm
    · exact (or_iff_left List.not_mem_nil).symm
  · intro s s' s'' out out' h h'
    constructor
    · intro c hc
      obtain ⟨hc', hopen, hkick⟩ := h.conns_none c hc
      obtain ⟨hc'', hopen', hkick'⟩ := h'.conns_none c hc'
      exact ⟨hc'', fun hm => (List.mem_append.1 hm).elim hopen hopen', fun hm => (List.mem_append.1 hm).elim hkick hkick'⟩
    · intro c conn hc
      obtain ⟨conn', hc', hopen, hkick⟩ := h.conns_some c conn hc
      obtain ⟨conn'', hc'', hopen', hkick'⟩ := h'.conns_some c conn' hc'
      refine ⟨conn'', hc'', ?_, ?_⟩
      · rw [hopen', hopen, List.mem_append, or_assoc]
      · rw [hkick', hkick, List.mem_append, or_assoc]

/-- Serving a request opens no connection. -/
theorem flagsKept_of_serves {s s' : Server} {out : List Effect} (h : Serves s out s') : FlagsKept s out s' := by
  have hopen : ∀ c, .setOpen c ∉ out := fun c hmem => h.quiet _ hmem
  constructor
  · intro c hc
    obtain ⟨hc', hkick⟩ := h.conns_none c hc
    exact ⟨hc', hopen c, hkick⟩
  · intro c conn hc
    obtain ⟨conn', hc', hsame, hkick⟩ := h.conns_some c conn hc
    refine ⟨conn', hc', ?_, hkick⟩
    rw [hsame.bOpen_eq, or_iff_left (hopen c)]

/-- A handler that serves a client keeps every flag. -/
theorem flags_of_serves {α : Type} {a : Do α} {s : Server} (h : a.Does Serves s) : a.Does FlagsKept s :=
  flagsKept_of_serves h

/-- Where no connection changes, and no flag is noted. -/
theorem flagsKept_of_conns_eq {s s' : Server} {out : List Effect} (h : s'.conns = s.conns) (hout : ∀ e ∈ out, e.Plain) :
    FlagsKept s out s' := by
  constructor
  · intro c hc
    exact ⟨by rw [h, hc], fun hm => (hout _ hm c).1 rfl, fun hm => (hout _ hm c).2 rfl⟩
  · intro c conn hc
    refine ⟨conn, by rw [h, hc], ?_, ?_⟩
    · exact (or_iff_left fun hm => (hout _ hm c).1 rfl).symm
    · exact (or_iff_left fun hm => (hout _ hm c).2 rfl).symm

variable {s : Server} {c : ConnId}

/-- A change of the server that leaves its connections alone keeps the flags. -/
theorem flags_modify {f : Server → Server} (h : ∀ s, (f s).conns = s.conns) : (modify f : Do Unit).Does FlagsKept s :=
  flagsKept_of_conns_eq (h s) (List.forall_mem_nil _)

/-- A plain effect keeps the flags. -/
theorem flags_emit {e : Effect} (h : e.Plain) : (emit e : Do Unit).Does FlagsKept s :=
  flagsKept_of_conns_eq rfl fun _ he => List.mem_singleton.1 he ▸ h

/-- Storing a user keeps the flags. -/
theorem flags_setUser (r : UserRef) (user : ImUser) : (setUser r user).Does FlagsKept s := flags_modify fun _ => rfl

/-- A connection changes, but not its flags. -/
theorem flags_setConn {conn conn' : MsgConn} (hc : s.conns c = some conn) (hopen : conn'.bOpen = conn.bOpen)
    (hkick : conn'.bKickOff = conn.bKickOff) : (setConn c conn').Does FlagsKept s := by
  change FlagsKept s [] (s.setConn c conn')
  constructor
  · intro d hd
    have hdc : d ≠ c := by
      rintro rfl
      rw [hc] at hd
      cases hd
    exact ⟨by rw [Server.conns_setConn, if_neg hdc, hd], List.not_mem_nil, List.not_mem_nil⟩
  · intro d conn0 hd
    rw [Server.conns_setConn]
    by_cases hdc : d = c
    · subst hdc
      rw [hc] at hd
      obtain rfl := Option.some.inj hd
      rw [if_pos rfl]
      refine ⟨conn', rfl, ?_, ?_⟩
      · rw [hopen, or_iff_left List.not_mem_nil]
      · rw [hkick, or_iff_left List.not_mem_nil]
    · rw [if_neg hdc]
      refine ⟨conn0, hd, ?_, ?_⟩
      · exact (or_iff_left List.not_mem_nil).symm
      · exact (or_iff_left List.not_mem_nil).symm

/-- A connection is opened, and it is noted. -/
theorem flagsKept_setOpen {conn : MsgConn} (userId : Nat) (hc : s.conns c = some conn) :
    FlagsKept s [.setOpen c] (s.setConn c { conn with userId, bOpen := true }) := by
  constructor
  · intro d hd
    have hdc : d ≠ c := by
      rintro rfl
      rw [hc] at hd
      cases hd
    refine ⟨by rw [Server.conns_setConn, if_neg hdc, hd], fun hm => hdc ?_, fun hm => by cases List.mem_singleton.1 hm⟩
    exact Effect.setOpen.inj (List.mem_singleton.1 hm)
  · intro d conn0 hd
    rw [Server.conns_setConn]
    have hkick : Effect.setKickOff d ∉ [Effect.setOpen c] := fun hm => by cases List.mem_singleton.1 hm
    by_cases hdc : d = c
    · subst hdc
      rw [hc] at hd
      obtain rfl := Option.some.inj hd
      rw [if_pos rfl]
      exact ⟨_, rfl, ⟨fun _ => .inr (List.mem_singleton.2 rfl), fun _ => rfl⟩, (or_iff_left hkick).symm⟩
    · rw [if_neg hdc]
      refine ⟨conn0, hd, (or_iff_left fun hm => hdc ?_).symm, (or_iff_left hkick).symm⟩
      exact Effect.setOpen.inj (List.mem_singleton.1 hm)

/-! ## Closing, logging in, and the events -/

/-- So does a PDU to the database proxy. -/
theorem flags_sendDb (pdu : Pdu) : (sendDb c pdu).Does FlagsKept s := by
  refine Does.read_bind ?_
  split
  · exact flags_emit fun _ => ⟨nofun, nofun⟩
  · exact Does.pure composes_flagsKept ()

/-- So does a PDU to a route server. -/
theorem flags_sendRoute (pdu : Pdu) : (sendRoute c pdu).Does FlagsKept s := by
  refine Does.read_bind ?_
  split
  · exact flags_emit fun _ => ⟨nofun, nofun⟩
  · exact Does.pure composes_flagsKept ()

/-- So does a PDU to a client. -/
theorem flags_sendClient (d : ConnId) (pdu : Pdu) : (sendClient c d pdu).Does FlagsKept s :=
  flags_emit fun _ => ⟨nofun, nofun⟩

/-- So does the report of a user's status. -/
theorem flags_sendUserStatusUpdate (userStatus : Nat) : (sendUserStatusUpdate c userStatus).Does FlagsKept s := by
  refine does_getConn_bind composes_flagsKept fun conn _ _ => ?_
  split
  · refine Does.read_bind ?_
    split
    · exact Does.pure composes_flagsKept ()
    · refine does_getUser_bind composes_flagsKept fun user _ => ?_
      split
      · have hall : ∀ (dest : Nat → Dest) pdu is s', (each (fun i => emit (.send c (dest i) pdu)) is : Do Unit).Does
            FlagsKept s' := fun dest pdu is s' =>
          Does.each composes_flagsKept fun _ _ _ => flags_emit fun _ => ⟨nofun, nofun⟩
        exact Does.bind composes_flagsKept (Does.read_bind (hall _ _ _ _)) fun _ _ _ _ => Does.read_bind (hall _ _ _ _)
      · exact Does.pure composes_flagsKept ()
  · exact Does.pure composes_flagsKept ()

/-- Removing a user leaves the connections alone. -/
theorem flags_removeImUser (r : UserRef) : (removeImUser r).Does FlagsKept s := by
  refine does_getUser_bind composes_flagsKept fun user _ => ?_
  refine Does.bind composes_flagsKept (flags_modify fun _ => rfl) fun _ _ _ _ => ?_
  exact Does.bind composes_flagsKept (flags_modify fun _ => rfl) fun _ _ _ _ => flags_modify fun _ => rfl

/-- So does removing a user without connections. -/
theorem flags_removeIfEmpty (r : UserRef) :
    (do if (← getUser r).isMsgConnEmpty then removeImUser r : Do Unit).Does FlagsKept s := by
  refine does_getUser_bind composes_flagsKept fun user _ => ?_
  split
  · exact flags_removeImUser r
  · exact Does.pure composes_flagsKept ()

/-- Leaving a validated user's connections keeps the flags. -/
theorem flags_closeById (conn : MsgConn) : (closeById c conn).Does FlagsKept s := by
  refine Does.read_bind ?_
  split
  · exact Does.pure composes_flagsKept ()
  · refine does_getUser_bind composes_flagsKept fun user _ => ?_
    refine Does.bind composes_flagsKept (flags_setUser _ _) fun _ _ _ _ => ?_
    refine Does.bind composes_flagsKept (flags_emit fun _ => ⟨nofun, nofun⟩) fun _ _ _ _ => ?_
    exact Does.bind composes_flagsKept (flags_sendUserStatusUpdate _) fun _ _ _ _ => flags_removeIfEmpty _

/-- So does leaving the ones that are not validated yet. -/
theorem flags_closeByLoginName (conn : MsgConn) : (closeByLoginName c conn).Does FlagsKept s := by
  refine Does.read_bind ?_
  split
  · exact Does.pure composes_flagsKept ()
  · refine does_getUser_bind composes_flagsKept fun user _ => ?_
    exact Does.bind composes_flagsKept (flags_setUser _ _) fun _ _ _ _ => flags_removeIfEmpty _

/-- `ReleaseRef` touches the count of references only. -/
theorem flags_releaseRef : (releaseRef c).Does FlagsKept s :=
  does_getConn_bind composes_flagsKept fun _ hc _ => flags_setConn hc rfl rfl

/-- `Close` closes the connection and changes no other flag. -/
theorem flags_close : (close c).Does FlagsKept s := by
  refine does_getConn_bind composes_flagsKept fun conn _ _ => ?_
  refine Does.bind composes_flagsKept (flags_emit fun _ => ⟨nofun, nofun⟩) fun _ _ _ _ => ?_
  refine Does.bind composes_flagsKept (flags_modify fun _ => rfl) fun _ _ _ _ => ?_
  refine Does.bind composes_flagsKept (flags_emit fun _ => ⟨nofun, nofun⟩) fun _ _ _ _ => ?_
  refine Does.bind composes_flagsKept (flags_closeById conn) fun _ _ _ _ => ?_
  refine Does.bind composes_flagsKept (flags_closeByLoginName conn) fun _ s1 _ _ => Does.read_bind ?_
  have hlast : ∀ s', (releaseRef c >>= fun _ => emit (.releaseRef c)).Does FlagsKept s' := fun s' =>
    Does.bind composes_flagsKept flags_releaseRef fun _ _ _ _ => flags_emit fun _ => ⟨nofun, nofun⟩
  split
  · exact Does.bind composes_flagsKept (flags_sendDb _) fun _ s2 _ _ => hlast s2
  · exact hlast s1

/-- A login request does not open a connection. -/
theorem flags_handleLoginRequest (env : Env) (pdu : Pdu) : (handleLoginRequest env c pdu).Does FlagsKept s := by
  refine does_getConn_bind composes_flagsKept fun conn hc _ => ?_
  split
  · exact Does.pure composes_flagsKept ()
  · refine Does.read_bind ?_
    split
    · exact Does.bind composes_flagsKept (flags_sendClient c _) fun _ _ _ _ => flags_close
    · split
      · have hwait : ∀ r pdu s', (getUser r >>= fun user => setUser r (user.addUnValidateMsgConn c) >>= fun _ =>
            emit (.send c .db pdu)).Does FlagsKept s' := fun r pdu s' =>
          does_getUser_bind composes_flagsKept fun user _ => Does.bind composes_flagsKept (flags_setUser _ _) fun _ _ _ _ =>
            flags_emit fun _ => ⟨nofun, nofun⟩
        refine Does.bind composes_flagsKept (flags_setConn hc rfl rfl) fun _ s1 _ _ => Does.read_bind ?_
        split
        · exact Does.bind composes_flagsKept (Does.pure composes_flagsKept _) fun r s2 _ _ => hwait r _ s2
        · refine Does.bind composes_flagsKept (Does.read_bind ?_) fun r s2 _ _ => ?_
          · exact Does.bind composes_flagsKept (flags_modify fun _ => rfl) fun _ _ _ _ => Does.pure composes_flagsKept _
          · refine Does.bind composes_flagsKept (flags_modify fun _ => rfl) fun _ s3 _ _ => ?_
            exact Does.bind composes_flagsKept (Does.pure composes_flagsKept _) fun r s4 _ _ => hwait r _ s4
      · exact Does.pure composes_flagsKept ()

/-- A logout request keeps the flags. -/
theorem flags_handleLoginOutRequest (pdu : Pdu) : (handleLoginOutRequest c pdu).Does FlagsKept s := by
  refine does_getConn_bind composes_flagsKept fun conn _ _ => ?_
  refine Does.bind composes_flagsKept (flags_sendDb _) fun _ _ _ _ => ?_
  exact Does.bind composes_flagsKept (flags_sendClient c _) fun _ _ _ _ => flags_close

/-- Every command of the switch keeps the flags. -/
theorem flags_dispatch (env : Env) (pdu : Pdu) : (dispatch env c pdu).Does FlagsKept s := by
  by_cases hlogin : pdu.commandId = .loginReqUserlogin
  · rw [dispatch, hlogin]
    exact flags_handleLoginRequest env pdu
  · by_cases hlogout : pdu.commandId = .loginReqLoginout
    · rw [dispatch, hlogout]
      exact flags_handleLoginOutRequest pdu
    · exact flags_of_serves (does_dispatch env s c hlogin hlogout)

/-- `HandlePdu` keeps the flags, whatever the PDU. -/
theorem flags_handlePdu (env : Env) (pdu : Pdu) : (handlePdu env c pdu).Does FlagsKept s := by
  refine Does.bind composes_flagsKept (flags_emit fun _ => ⟨nofun, nofun⟩) fun _ _ _ _ => ?_
  refine does_getConn_bind composes_flagsKept fun conn _ _ => ?_
  split
  · exact Does.stop composes_flagsKept _
  · exact flags_dispatch env pdu

/-- The timer keeps the flags. -/
theorem flags_onTimer (currTick : Nat) : (onTimer c currTick).Does FlagsKept s := by
  refine does_getConn_bind composes_flagsKept fun conn hc _ => ?_
  refine Does.bind composes_flagsKept (flags_setConn hc rfl rfl) fun _ s' out h => ?_
  obtain ⟨-, rfl, -⟩ := (Outcome.mk.injEq ..).mp h
  dsimp only
  have hc' : (s.setConn c { conn with msgCntPerSec := 0 }).conns c = some { conn with msgCntPerSec := 0 } := by
    rw [Server.conns_setConn, if_pos rfl]
  generalize (if checkClientTypeMobile conn.clientType = true then mobileClientTimeout else clientTimeout) = timeout
  split
  · exact flags_close
  · split
    · exact flags_close
    · exact flags_setConn hc' rfl rfl

/-- `AddRef` touches the count of references only. -/
theorem flags_addRef : (addRef c).Does FlagsKept s :=
  does_getConn_bind composes_flagsKept fun _ hc _ => flags_setConn hc rfl rfl

/-- A connection the client closed keeps the flags. -/
theorem flags_onPeerClose : (onPeerClose c).Does FlagsKept s := by
  refine Does.bind composes_flagsKept flags_addRef fun _ _ _ _ => ?_
  exact Does.bind composes_flagsKept flags_close fun _ _ _ _ => flags_releaseRef

/-- The first half of a read keeps the flags. -/
theorem flags_onReadBegin (tick : Nat) : (onReadBegin c tick).Does FlagsKept s := by
  refine Does.bind composes_flagsKept flags_addRef fun _ s' _ _ => ?_
  exact does_getConn_bind composes_flagsKept fun _ hc _ => flags_setConn hc rfl rfl

/-- The second half of a read keeps the flags. -/
theorem flags_onReadEnd (fails : Bool) : (onReadEnd c fails).Does FlagsKept s := by
  unfold onReadEnd
  split
  · exact Does.bind composes_flagsKept flags_close fun _ _ _ _ => flags_releaseRef
  · exact flags_releaseRef

/-! ## The DB proxy's answer -/

/-- The user a login is for is found or made, and the flags stay. -/
theorem flags_userForId (r : UserRef) (loginName : String) (userId : Nat) :
    (userForId r c loginName userId).Does FlagsKept s := by
  refine Does.read_bind ?_
  split
  · refine does_getUser_bind composes_flagsKept fun _ _ => ?_
    refine Does.bind composes_flagsKept (flags_setUser _ _) fun _ _ _ _ => ?_
    refine does_getUser_bind composes_flagsKept fun _ _ => ?_
    refine Does.bind composes_flagsKept (flags_setUser _ _) fun _ _ _ _ => ?_
    refine does_getUser_bind composes_flagsKept fun _ _ => ?_
    split
    · refine Does.bind composes_flagsKept (flags_modify fun _ => rfl) fun _ _ _ _ => ?_
      exact Does.bind composes_flagsKept (flags_modify fun _ => rfl) fun _ _ _ _ => Does.pure composes_flagsKept _
    · exact Does.pure composes_flagsKept _
  · exact Does.pure composes_flagsKept _

/-- An accepted login opens its own connection, and logs that it did. -/
theorem flags_acceptLogin (env : Env) (r : UserRef) (msg : IMValidateRsp) (seqNum : Nat) :
    (acceptLogin env r c msg seqNum).Does FlagsKept s := by
  refine Does.bind composes_flagsKept (flags_userForId _ _ _) fun q _ _ _ => ?_
  refine does_getUser_bind composes_flagsKept fun _ _ => ?_
  refine Does.bind composes_flagsKept (flags_setUser _ _) fun _ _ _ _ => ?_
  refine Does.bind composes_flagsKept (flags_modify fun s => by split <;> rfl) fun _ _ _ _ => ?_
  refine does_getUser_bind composes_flagsKept fun _ _ => does_getConn_bind composes_flagsKept fun _ _ _ => ?_
  refine Does.bind composes_flagsKept (flags_of_serves (ServesAux.does_kickOutSameClientType _ _ _ _)) fun _ _ _ _ => ?_
  refine does_getConn_bind composes_flagsKept fun _ _ _ => ?_
  refine Does.bind composes_flagsKept (flags_sendRoute _) fun _ s' _ _ => ?_
  refine does_getConn_bind composes_flagsKept fun conn hc _ => ?_
  refine Does.modify_emit_bind composes_flagsKept (flagsKept_setOpen _ hc) ?_
  refine Does.bind composes_flagsKept (flags_sendUserStatusUpdate _) fun _ _ _ _ => ?_
  refine does_getUser_bind composes_flagsKept fun _ _ => does_getConn_bind composes_flagsKept fun _ _ _ => ?_
  refine Does.bind composes_flagsKept (flags_setUser _ _) fun _ _ _ _ => ?_
  exact does_getConn_bind composes_flagsKept fun _ _ _ => flags_sendClient c _

/-- A refused login opens none. -/
theorem flags_refuseLogin (env : Env) (msg : IMValidateRsp) (seqNum : Nat) :
    (refuseLogin env c msg seqNum).Does FlagsKept s :=
  Does.bind composes_flagsKept (flags_sendClient c _) fun _ _ _ _ => flags_close

/-- Looking for the connection changes nothing. -/
theorem flags_findByHandle (handle : Nat) (cs : List ConnId) : (findByHandle handle cs).Does FlagsKept s := by
  induction cs with
  | nil => exact Does.pure composes_flagsKept _
  | cons d ds ih =>
    refine does_getConn_bind composes_flagsKept fun conn _ _ => ?_
    split
    · exact Does.pure composes_flagsKept _
    · exact ih

/-- The database proxy's answer opens a connection only where it accepts the login. -/
theorem flags_handleValidateResponse (env : Env) (pdu : Pdu) : (handleValidateResponse env pdu).Does FlagsKept s := by
  unfold handleValidateResponse
  split
  · split
    · exact Does.stop composes_flagsKept _
    · refine Does.read_bind ?_
      split
      · exact Does.pure composes_flagsKept ()
      · refine does_getUser_bind composes_flagsKept fun user _ => ?_
        refine Does.bind composes_flagsKept (flags_findByHandle _ _) fun found _ _ _ => ?_
        split
        · exact Does.pure composes_flagsKept ()
        · refine does_getConn_bind composes_flagsKept fun conn _ _ => ?_
          split
          · exact Does.pure composes_flagsKept ()
          · split
            · exact flags_acceptLogin env _ _ _
            · exact flags_refuseLogin env _ _
  · exact Does.pure composes_flagsKept ()

/-- A kick from the route server serves as any other command does. -/
theorem serves_handleRouteKickUser (pdu : Pdu) : (handleRouteKickUser pdu).Does Serves s := by
  unfold handleRouteKickUser
  split
  · refine Does.read_bind ?_
    split
    · exact does_getUser_bind ServesAux.composes_serves fun user _ => ServesAux.does_kickOutSameClientType _ _ _ _
    · exact Does.pure ServesAux.composes_serves ()
  · exact Does.pure ServesAux.composes_serves ()

end FlagsAux

open FlagsAux

/-- Every connection's flags are what the log says; of a connection that has not been made, the log says nothing. -/
def FlagsLogged (log : List Effect) (l : Loop) : Prop :=
  (∀ c, l.server.conns c = none → .setOpen c ∉ log ∧ .setKickOff c ∉ log) ∧
  ∀ c conn, l.server.conns c = some conn →
    (conn.bOpen = true ↔ .setOpen c ∈ log) ∧ (conn.bKickOff = true ↔ .setKickOff c ∈ log)

namespace FlagsAux

/-- The log accounts for every open connection after what keeps the flags. -/
theorem flagsLogged_of_flagsKept {log out : List Effect} {l l' : Loop} (h : FlagsLogged log l)
    (hk : FlagsKept l.server out l'.server) : FlagsLogged (log ++ out) l' := by
  obtain ⟨hnone, hsome⟩ := h
  constructor
  · intro c hc
    cases hc0 : l.server.conns c with
    | none =>
      obtain ⟨-, hopen, hkick⟩ := hk.conns_none c hc0
      obtain ⟨hopen0, hkick0⟩ := hnone c hc0
      exact ⟨fun hm => (List.mem_append.1 hm).elim hopen0 hopen, fun hm => (List.mem_append.1 hm).elim hkick0 hkick⟩
    | some conn =>
      obtain ⟨conn', hc', -⟩ := hk.conns_some c conn hc0
      rw [hc] at hc'
      cases hc'
  · intro c conn' hc'
    cases hc0 : l.server.conns c with
    | none =>
      obtain ⟨hc, -⟩ := hk.conns_none c hc0
      rw [hc] at hc'
      cases hc'
    | some conn =>
      obtain ⟨conn'', hc'', hopen, hkick⟩ := hk.conns_some c conn hc0
      rw [hc'] at hc''
      obtain rfl := Option.some.inj hc''
      obtain ⟨hopen0, hkick0⟩ := hsome c conn hc0
      rw [hopen, hopen0, hkick, hkick0, List.mem_append, List.mem_append]
      exact ⟨Iff.rfl, Iff.rfl⟩

/-- What each event but a new connection does to the flags. -/
theorem flagsKept_idleStep {l l' : Loop} {e : Event} {out : List Effect}
    (he : ∀ c handle tick clientType, e ≠ .accept c handle tick clientType) (h : l.idleStep e = some (l', out)) :
    FlagsKept l.server out l'.server := by
  have hsame : ∀ {l l' : Loop} {out}, some (l, []) = some (l', out) → FlagsKept l.server out l'.server := fun h => by
    obtain ⟨rfl, rfl⟩ := Prod.mk.inj (Option.some.inj h)
    exact composes_flagsKept.refl _
  cases e with
  | accept c handle tick clientType => exact absurd rfl (he c handle tick clientType)
  | readBegin handle tick pdus fails =>
    simp only [Loop.idleStep] at h
    split at h
    · exact Loop.does_of_exec (fun _ => flags_onReadBegin tick) h
    · exact hsame h
  | readStep env => cases h
  | readEnd => cases h
  | peerClose handle =>
    simp only [Loop.idleStep] at h
    split at h
    · exact Loop.does_of_exec (fun _ => flags_onPeerClose) h
    · exact hsame h
  | timer handle currTick =>
    simp only [Loop.idleStep] at h
    split at h
    · exact Loop.does_of_exec (fun _ => flags_onTimer currTick) h
    · exact hsame h
  | validateResponse env pdu => exact Loop.does_of_exec (fun _ => flags_handleValidateResponse env pdu) h
  | routeKick pdu => exact Loop.does_of_exec (fun _ => flags_of_serves (serves_handleRouteKickUser pdu)) h
  | backends b =>
    obtain ⟨rfl, rfl⟩ := Prod.mk.inj (Option.some.inj h)
    exact flagsKept_of_conns_eq rfl (List.forall_mem_nil _)

/-- Each step of a read keeps the flags. -/
theorem flagsKept_readingStep {l l' : Loop} {r : Reading} {e : Event} {out : List Effect}
    (h : l.readingStep r e = some (l', out)) : FlagsKept l.server out l'.server := by
  cases e with
  | readStep env =>
    obtain ⟨pdu, rest, result, -, hrun, -⟩ := Loop.readingStep_eq_some h
    have hflags := flags_handlePdu (s := l.server) (c := r.conn) env pdu
    rw [Act.Does, hrun] at hflags
    exact hflags
  | readEnd =>
    simp only [Loop.readingStep] at h
    split at h
    · exact Loop.does_of_exec (fun _ => flags_onReadEnd r.fails) h
    · cases h
  | _ => cases h

/-- A new connection has neither flag. -/
theorem flagsLogged_accept {log : List Effect} {l : Loop} {c : ConnId} {handle tick clientType : Nat}
    (h : FlagsLogged log l) (hc : l.server.conns c = none) :
    FlagsLogged log { l with server :=
      { l.server.setConn c (newMsgConn handle tick clientType) with
        msgConnMap := l.server.msgConnMap.insert handle c } } := by
  obtain ⟨hnone, hsome⟩ := h
  have hconns : ∀ d, ({ l.server.setConn c (newMsgConn handle tick clientType) with
      msgConnMap := l.server.msgConnMap.insert handle c } : Server).conns d =
      if d = c then some (newMsgConn handle tick clientType) else l.server.conns d := Server.conns_setConn _ _ _
  constructor
  · intro d hd
    rw [hconns] at hd
    split at hd
    · cases hd
    · exact hnone d hd
  · intro d conn hd
    rw [hconns] at hd
    split at hd
    · rename_i hdc
      obtain rfl := Option.some.inj hd
      obtain ⟨hopen, hkick⟩ := hnone c hc
      rw [hdc]
      exact ⟨⟨fun h => (by cases h), fun h => absurd h hopen⟩, ⟨fun h => (by cases h), fun h => absurd h hkick⟩⟩
    · exact hsome d conn hd

/-- Every step keeps the log and the flags together. -/
theorem flagsLogged_step {log out : List Effect} {l l' : Loop} {e : Event} (h : FlagsLogged log l)
    (hstep : l.step e = some (l', out)) : FlagsLogged (log ++ out) l' := by
  rw [Loop.step] at hstep
  split at hstep
  · by_cases he : ∀ c handle tick clientType, e ≠ .accept c handle tick clientType
    · exact flagsLogged_of_flagsKept h (flagsKept_idleStep he hstep)
    · push Not at he
      obtain ⟨c, handle, tick, clientType, rfl⟩ := he
      simp only [Loop.idleStep] at hstep
      split at hstep
      · rename_i hfresh
        obtain ⟨rfl, rfl⟩ := Prod.mk.inj (Option.some.inj hstep)
        rw [List.append_nil]
        exact flagsLogged_accept h hfresh.1
      · cases hstep
  · exact flagsLogged_of_flagsKept h (flagsKept_readingStep hstep)

end FlagsAux

/-- In every run, whatever its steps, the flags are what the log says. -/
theorem flagsLogged_of_run {b : Backends} {ok : Loop → Event → Prop} {log : List Effect} {l : Loop}
    (h : Machine.Run Loop.step ok (Loop.init b) log l) : FlagsLogged log l := by
  refine h.invariant ⟨?_, ?_⟩ fun hI _ hstep => flagsLogged_step hI hstep
  · intro c _
    exact ⟨List.not_mem_nil, List.not_mem_nil⟩
  · intro c conn hc
    cases hc

end TeamTalk
