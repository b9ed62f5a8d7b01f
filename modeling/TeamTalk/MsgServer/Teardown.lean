import TeamTalk.MsgServer.Validating

/-!
# Tearing down a connection

What `Close` does to a connection, what keeps its object alive, and the invariant that carries both through every handler: as
long as a connection is registered nothing of `Close` has been done to it, and each reference that is counted has a holder.
-/

namespace TeamTalk

open Action
open Std (TreeMap TreeSet)

/-- What `Close` does, and what should happen to a connection once. -/
inductive CloseEffect where
  | netlibClose
  | eraseConn
  | delMsgConn
  | userCntDec (i : Nat)
  | offline (i : Nat)
  | releaseRef
  deriving DecidableEq, Repr

/-- A PDU that counts a user's connection down. -/
def Pdu.countsDown (pdu : Pdu) : Bool :=
  match pdu.body with
  | .imUserCntUpdate m => m.userAction = userCntDec
  | _ => false

/-- A PDU that reports a user offline. -/
def Pdu.reportsOffline (pdu : Pdu) : Bool :=
  pdu.commandId = .otherUserStatusUpdate && match pdu.body with
  | .imUserStatusUpdate m => m.userStatus = userStatusOffline
  | _ => false

/-- Whether this effect of `Close` happened to connection `c`. -/
def CloseEffect.is (c : ConnId) : CloseEffect → Effect → Bool
  | .netlibClose, .netlibClose d => d = c
  | .eraseConn, .eraseConn d => d = c
  | .delMsgConn, .delMsgConn d => d = c
  | .userCntDec i, .send self (.login j) pdu => self = c && j = i && pdu.countsDown
  | .offline i, .send self (.route j) pdu => self = c && j = i && pdu.reportsOffline
  | .releaseRef, .releaseRef d => d = c
  | _, _ => false

/-- How often an effect can be among what other servers are told. -/
def CloseEffect.toldTo : CloseEffect → Nat
  | .userCntDec _ => 1
  | .offline _ => 1
  | _ => 0

namespace Server

/-- A connection that `Close` has taken out of the map of connections. -/
def TornDown (s : Server) (c : ConnId) : Prop := ∃ conn, s.conns c = some conn ∧ s.msgConnMap[conn.handle]? ≠ some c

/-- How many hold a reference to the connection: the map of connections, and the `OnRead` or callback that uses it. -/
def holders (s : Server) (user : Option ConnId) (c : ConnId) (conn : MsgConn) : Nat :=
  (if s.msgConnMap[conn.handle]? = some c then 1 else 0) + if user = some c then 1 else 0

/-- The maps and the objects fit together, while `user` is the connection that an `OnRead` or a callback uses. -/
structure Sound (user : Option ConnId) (s : Server) : Prop where
  mapped : ∀ (handle : Nat) (c : ConnId), s.msgConnMap[handle]? = some c → ∃ conn, s.conns c = some conn ∧ conn.handle = handle
  counted : ∀ c conn, s.conns c = some conn → conn.refCount = s.holders user c conn
  names_lt : ∀ name r, s.getImUserByLoginName name = some r → r < s.nextUser
  names_eq : ∀ name r user, s.getImUserByLoginName name = some r → s.users r = some user → user.loginName = name
  waiting : ∀ name r user c, s.getImUserByLoginName name = some r → s.users r = some user → c ∈ user.unvalidateConnSet →
    ∃ conn, s.conns c = some conn ∧ s.msgConnMap[conn.handle]? = some c ∧ conn.loginName = name

end Server

/-- Every effect of `Close` happened at most once to a connection, none to one that is still registered, and no PDU was
handled afterwards. -/
structure ClosedOnce (log : List Effect) (s : Server) : Prop where
  once : ∀ c (k : CloseEffect), log.countP (k.is c) ≤ 1
  untouched : ∀ c, ¬s.TornDown c → ∀ k : CloseEffect, log.countP (k.is c) = 0
  silent : ∀ c, log.Pairwise fun e e' => e = .netlibClose c → ∀ pdu, e' ≠ .handlePdu c pdu

/-- No registration changes, and users lose waiting connections at most. -/
structure Server.Keeps (s s' : Server) : Prop where
  nextUser_eq : s'.nextUser = s.nextUser
  msgConnMap_eq : s'.msgConnMap = s.msgConnMap
  conns_none : ∀ c, s.conns c = none → s'.conns c = none
  conns_some : ∀ c conn, s.conns c = some conn → ∃ conn', s'.conns c = some conn' ∧ conn'.handle = conn.handle ∧
    conn'.loginName = conn.loginName ∧ conn'.refCount = conn.refCount
  names_sub : ∀ name r, s'.getImUserByLoginName name = some r → s.getImUserByLoginName name = some r
  users_within : ∀ r user', s'.users r = some user' → ∃ user, s.users r = some user ∧ user'.loginName = user.loginName ∧
    ∀ d, d ∈ user'.unvalidateConnSet → d ∈ user.unvalidateConnSet

namespace TeardownAux

open ClosingAux ValidatingAux

variable {s s' : Server} {c : ConnId} {user : Option ConnId} {log out : List Effect}

/-! ## Steps that keep every registration -/

/-- What serves keeps the connections. -/
theorem keeps_of_serves (h : Serves s out s') : s.Keeps s' := by
  refine ⟨h.nextUser_eq, h.msgConnMap_eq, fun d hd => (h.conns_none d hd).1, ?_, ?_, ?_⟩
  · intro d conn hd
    obtain ⟨conn', hd', hsame, -⟩ := h.conns_some d conn hd
    exact ⟨conn', hd', hsame.handle_eq, hsame.loginName_eq, hsame.refCount_eq⟩
  · intro name r hr
    rwa [Server.getImUserByLoginName, h.imUserMapByName_eq] at hr
  · intro r user' hr
    rw [h.users_eq] at hr
    exact ⟨user', hr, rfl, fun d hd => hd⟩

/-- A connection that is there afterwards was there before. -/
theorem keeps_conn_of_some (h : s.Keeps s') {d : ConnId} {conn' : MsgConn} (hd : s'.conns d = some conn') :
    ∃ conn, s.conns d = some conn ∧ conn'.handle = conn.handle ∧ conn'.loginName = conn.loginName ∧
      conn'.refCount = conn.refCount := by
  cases hd0 : s.conns d with
  | none =>
    rw [h.conns_none d hd0] at hd
    cases hd
  | some conn =>
    obtain ⟨conn'', hd', hkeep⟩ := h.conns_some d conn hd0
    rw [hd] at hd'
    obtain rfl := Option.some.inj hd'
    exact ⟨conn, rfl, hkeep⟩

/-- And the state stays sound. -/
theorem sound_of_keeps (hs : s.Sound user) (h : s.Keeps s') : s'.Sound user := by
  refine ⟨?_, ?_, ?_, ?_, ?_⟩
  · intro handle d hd
    rw [h.msgConnMap_eq] at hd
    obtain ⟨conn, hc, hhandle⟩ := hs.mapped handle d hd
    obtain ⟨conn', hc', hhandle', -⟩ := h.conns_some d conn hc
    exact ⟨conn', hc', hhandle'.trans hhandle⟩
  · intro d conn' hd
    obtain ⟨conn, hd0, hhandle, -, href⟩ := keeps_conn_of_some h hd
    rw [href, hs.counted d conn hd0, Server.holders, Server.holders, h.msgConnMap_eq, hhandle]
  · intro name r hr
    rw [h.nextUser_eq]
    exact hs.names_lt name r (h.names_sub name r hr)
  · intro name r user' hr hu
    obtain ⟨user, hu0, hname, -⟩ := h.users_within r user' hu
    rw [hname]
    exact hs.names_eq name r user (h.names_sub name r hr) hu0
  · intro name r user' d hr hu hd
    obtain ⟨user, hu0, -, hsub⟩ := h.users_within r user' hu
    obtain ⟨conn, hc, hmap, hname⟩ := hs.waiting name r user d (h.names_sub name r hr) hu0 (hsub d hd)
    obtain ⟨conn', hc', hhandle, hname', -⟩ := h.conns_some d conn hc
    exact ⟨conn', hc', by rw [h.msgConnMap_eq, hhandle, hmap], hname'.trans hname⟩

/-- It tears nothing down. -/
theorem tornDown_of_keeps (h : s.Keeps s') (d : ConnId) : s'.TornDown d ↔ s.TornDown d := by
  constructor
  · rintro ⟨conn', hd, hmap⟩
    obtain ⟨conn, hd0, hhandle, -⟩ := keeps_conn_of_some h hd
    exact ⟨conn, hd0, by rwa [← h.msgConnMap_eq, ← hhandle]⟩
  · rintro ⟨conn, hd, hmap⟩
    obtain ⟨conn', hd', hhandle, -⟩ := h.conns_some d conn hd
    exact ⟨conn', hd', by rwa [h.msgConnMap_eq, hhandle]⟩

/-- Being torn down is read off the connections and their map. -/
theorem tornDown_congr {d : ConnId} (hconns : s'.conns = s.conns) (hmap : s'.msgConnMap = s.msgConnMap) :
    s'.TornDown d ↔ s.TornDown d := by
  rw [Server.TornDown, hconns, hmap]
  rfl

/-! ## What is put out -/

/-- A harmless effect is no part of a closing. -/
theorem not_is_of_harmless {e : Effect} (h : e.Harmless) (d : ConnId) (k : CloseEffect) : k.is d e = false := by
  cases e with
  | send self dest pdu =>
    cases dest with
    | login i =>
      cases k with
      | userCntDec j =>
        have hdown : pdu.countsDown = false := by
          rw [Pdu.countsDown]
          split
          · exact decide_eq_false (h _ ‹_›)
          · rfl
        simp [CloseEffect.is, hdown]
      | _ => rfl
    | route i =>
      cases k with
      | offline j =>
        have hoff : pdu.reportsOffline = false := by
          rw [Pdu.reportsOffline]
          by_cases hcmd : pdu.commandId = .otherUserStatusUpdate
          · split
            · simp [h hcmd _ ‹_›]
            · simp
          · simp [hcmd]
        simp [CloseEffect.is, hoff]
      | _ => rfl
    | _ => cases k <;> rfl
  | setOpen c => cases k <;> rfl
  | setKickOff c => cases k <;> rfl
  | _ => exact absurd h id

/-- Nor is it a PDU handled. -/
theorem not_handlePdu_of_harmless {e : Effect} (h : e.Harmless) (d : ConnId) (pdu : Pdu) : e ≠ .handlePdu d pdu := by
  rintro rfl
  exact h

/-- So harmless effects add nothing to the count. -/
theorem countP_of_harmless (h : ∀ e ∈ out, e.Harmless) (d : ConnId) (k : CloseEffect) : out.countP (k.is d) = 0 := by
  rw [List.countP_eq_zero]
  intro e he
  rw [not_is_of_harmless (h e he) d k]
  exact Bool.false_ne_true

/-- Something is put out that is no effect of `Close`; if PDUs are handled, then of connections that are not torn down. -/
theorem closedOnce_append (hl : ClosedOnce log s) (htorn : ∀ d, s'.TornDown d ↔ s.TornDown d)
    (hcount : ∀ d (k : CloseEffect), out.countP (k.is d) = 0)
    (hpdu : ∀ d pdu, .handlePdu d pdu ∈ out → ¬s.TornDown d) : ClosedOnce (log ++ out) s' := by
  have hnot : ∀ d, .netlibClose d ∉ out := fun d hd => by
    have := List.countP_eq_zero.1 (hcount d .netlibClose) _ hd
    simp [CloseEffect.is] at this
  refine ⟨?_, ?_, ?_⟩
  · intro d k
    rw [List.countP_append, hcount, Nat.add_zero]
    exact hl.once d k
  · intro d hd k
    rw [List.countP_append, hcount, Nat.add_zero]
    exact hl.untouched d (fun h => hd ((htorn d).2 h)) k
  · intro d
    rw [List.pairwise_append]
    refine ⟨hl.silent d, List.pairwise_of_forall_mem_list fun e he _ _ heq => absurd (heq ▸ he) (hnot d), ?_⟩
    rintro e he e' he' rfl pdu rfl
    have := hl.untouched d (hpdu d pdu he') .netlibClose
    have := List.countP_eq_zero.1 this _ he
    simp [CloseEffect.is] at this

/-- What keeps the connections and is harmless closes nothing a second time. -/
theorem closedOnce_of_keeps (hl : ClosedOnce log s) (h : s.Keeps s') (hout : ∀ e ∈ out, e.Harmless) :
    ClosedOnce (log ++ out) s' := by
  refine closedOnce_append hl (tornDown_of_keeps h) (countP_of_harmless hout) ?_
  intro d pdu hmem
  exact absurd rfl (not_handlePdu_of_harmless (hout _ hmem) d pdu)

/-! ## Accepting a login -/

/-- A user without connections is dropped, any other stays. -/
theorem dropIfEmpty_cases (s : Server) (r : UserRef) (loginName : String) (left : ImUser) :
    s.dropIfEmpty r loginName left = s ∨ s.dropIfEmpty r loginName left =
      { s.setUser r none with imUserMapByName := s.imUserMapByName.erase loginName } := by
  rw [Server.dropIfEmpty]
  split
  · exact .inr rfl
  · exact .inl rfl

/-- The one connection that joined is new. -/
theorem mem_addUnValidateMsgConn {joined : ImUser} {d : ConnId}
    (h : d ∈ (joined.addUnValidateMsgConn c).unvalidateConnSet) : d ∈ joined.unvalidateConnSet ∨ d = c := by
  rcases TreeSet.mem_insert.1 h with h | h
  · exact .inr (Nat.compare_eq_eq.1 h).symm
  · exact .inl h

/-- Choosing the user moves connection `c` to it, and may delete the other. -/
theorem userForId_within {q r : UserRef} {loginName : String} {userId : Nat}
    (h : (userForId r c loginName userId).run s = ⟨.ok q, s', []⟩) :
    s'.conns = s.conns ∧ s'.nextUser = s.nextUser ∧ s'.msgConnMap = s.msgConnMap ∧
    (∀ name p, s'.getImUserByLoginName name = some p → s.getImUserByLoginName name = some p) ∧
    ∀ p user', s'.users p = some user' → ∃ user, s.users p = some user ∧ user'.loginName = user.loginName ∧
      ∀ d, d ∈ user'.unvalidateConnSet → d ∈ user.unvalidateConnSet ∨ (p = q ∧ d = c) := by
  obtain ⟨-, ⟨-, -, rfl⟩ | ⟨joined, left, -, hjoined, hleft, rfl⟩⟩ := userForId_ok h
  · exact ⟨rfl, rfl, rfl, fun _ _ h => h, fun p user' hp => ⟨user', hp, rfl, fun d hd => .inl hd⟩⟩
  · -- both users are replaced
    have hboth : ∀ p user', ((s.setUser q (some (joined.addUnValidateMsgConn c))).setUser r
        (some (left.delUnValidateMsgConn c))).users p = some user' → ∃ user, s.users p = some user ∧
        user'.loginName = user.loginName ∧
        ∀ d, d ∈ user'.unvalidateConnSet → d ∈ user.unvalidateConnSet ∨ (p = q ∧ d = c) := by
      have hjoin : ∀ p user', (s.setUser q (some (joined.addUnValidateMsgConn c))).users p = some user' →
          ∃ user, s.users p = some user ∧ user'.loginName = user.loginName ∧
          ∀ d, d ∈ user'.unvalidateConnSet → d ∈ user.unvalidateConnSet ∨ (p = q ∧ d = c) := by
        intro p user' hp
        rw [Server.users_setUser] at hp
        split at hp
        · rename_i hpq
          obtain rfl := Option.some.inj hp
          rw [hpq]
          refine ⟨joined, hjoined, rfl, fun d hd => ?_⟩
          exact (mem_addUnValidateMsgConn hd).imp id fun h => ⟨rfl, h⟩
        · exact ⟨user', hp, rfl, fun d hd => .inl hd⟩
      intro p user' hp
      rw [Server.users_setUser] at hp
      split at hp
      · rename_i hpr
        obtain rfl := Option.some.inj hp
        obtain ⟨user, hu, hname, hsub⟩ := hjoin r left hleft
        rw [hpr]
        exact ⟨user, hu, hname, fun d hd => hsub d (TreeSet.mem_erase.1 hd).2⟩
      · exact hjoin p user' hp
    rcases dropIfEmpty_cases _ r loginName (left.delUnValidateMsgConn c) with heq | heq
    · rw [heq]
      exact ⟨rfl, rfl, rfl, fun _ _ h => h, hboth⟩
    · rw [heq]
      refine ⟨rfl, rfl, rfl, ?_, ?_⟩
      · intro name p hp
        change (s.imUserMapByName.erase loginName)[name]? = some p at hp
        rw [TreeMap.getElem?_erase] at hp
        split at hp
        · cases hp
        · exact hp
      · intro p user' hp
        change (Server.setUser _ r none).users p = some user' at hp
        rw [Server.users_setUser] at hp
        split at hp
        · cases hp
        · exact hboth p user' hp

/-- A user after the move was there before it, up to the connection that moved. -/
theorem users_of_reassigns {q : UserRef} (h : Reassigns q c s out s') {p : UserRef} {user' : ImUser}
    (hp : s'.users p = some user') : ∃ user, s.users p = some user ∧ user'.loginName = user.loginName ∧
      ∀ d, (p = q → d ≠ c) → (d ∈ user'.unvalidateConnSet ↔ d ∈ user.unvalidateConnSet) := by
  cases hp0 : s.users p with
  | none =>
    rw [h.users_none p hp0] at hp
    cases hp
  | some user =>
    obtain ⟨user'', hp', hname, hwait⟩ := h.users_some p user hp0
    rw [hp] at hp'
    obtain rfl := Option.some.inj hp'
    exact ⟨user, rfl, hname, hwait⟩

/-- An accepted login keeps every registration: the connection leaves the user it waited at. -/
theorem keeps_acceptLogin {env : Env} {r : UserRef} {msg : IMValidateRsp} {seqNum : Nat}
    (h : (acceptLogin env r c msg seqNum).run s = ⟨.ok (), s', out⟩) : s.Keeps s' ∧ ∀ e ∈ out, e.Harmless := by
  obtain ⟨q, s1, s2, user, conn, out1, onlineStatus, hq, hre, hu, hc, rfl, -, rfl⟩ := acceptLogin_ok h
  obtain ⟨hconns, hnext, hmap, hnames, hwithin⟩ := userForId_within hq
  constructor
  · refine ⟨hre.nextUser_eq.trans hnext, hre.msgConnMap_eq.trans hmap, ?_, ?_, ?_, ?_⟩
    · intro d hd
      exact hre.conns_none d (by rw [hconns, hd])
    · intro d conn hd
      obtain ⟨conn', hd', hhandle, hname, href, -⟩ := hre.conns_some d conn (by rw [hconns, hd])
      exact ⟨conn', hd', hhandle, hname, href⟩
    · intro name p hp
      refine hnames name p ?_
      rwa [Server.getImUserByLoginName, ← hre.imUserMapByName_eq]
    · intro p user' hp
      rw [Server.users_setUser] at hp
      split at hp
      · -- the chosen user no longer has the connection among the waiting ones
        rename_i hpq
        obtain rfl := Option.some.inj hp
        obtain ⟨user1, hu1, hname1, hwait1⟩ := users_of_reassigns hre hu
        obtain ⟨user0, hu0, hname0, hwait0⟩ := hwithin q user1 hu1
        rw [hpq]
        refine ⟨user0, hu0, hname1.trans hname0, fun d hd => ?_⟩
        obtain ⟨hdc, hd⟩ := TreeSet.mem_erase.1 hd
        have hne : d ≠ c := fun heq => hdc (Nat.compare_eq_eq.2 heq.symm)
        exact (hwait0 d ((hwait1 d fun _ => hne).1 hd)).resolve_right fun h => hne h.2
      · rename_i hpq
        obtain ⟨user1, hu1, hname1, hwait1⟩ := users_of_reassigns hre hp
        obtain ⟨user0, hu0, hname0, hwait0⟩ := hwithin p user1 hu1
        refine ⟨user0, hu0, hname1.trans hname0, fun d hd => ?_⟩
        exact (hwait0 d ((hwait1 d fun h => absurd h hpq).1 hd)).resolve_right fun h => hpq h.1
  · intro e he
    rcases List.mem_append.1 he with he | he
    · exact hre.harmless e he
    · rw [List.mem_singleton.1 he]
      trivial

/-! ## References -/

/-- A connection changes, but for its handle, and `user'` uses it from now on instead of `user`. Where it waits, it has the
login name. -/
theorem sound_setConn_of_waiting {user' : Option ConnId} {conn conn' : MsgConn} (hs : s.Sound user)
    (hc : s.conns c = some conn) (hhandle : conn'.handle = conn.handle)
    (hname : ∀ name r u, s.getImUserByLoginName name = some r → s.users r = some u → c ∈ u.unvalidateConnSet →
      conn'.loginName = name)
    (href : conn'.refCount = s.holders user' c conn) (huser : ∀ d, d ≠ c → (user' = some d ↔ user = some d)) :
    (s.setConn c conn').Sound user' := by
  refine ⟨?_, ?_, hs.names_lt, hs.names_eq, ?_⟩
  · intro handle d hd
    obtain ⟨conn0, hd0, hh⟩ := hs.mapped handle d hd
    rw [Server.conns_setConn]
    by_cases hdc : d = c
    · subst hdc
      rw [hc] at hd0
      obtain rfl := Option.some.inj hd0
      exact ⟨conn', if_pos rfl, hhandle.trans hh⟩
    · exact ⟨conn0, by rw [if_neg hdc, hd0], hh⟩
  · intro d conn0 hd
    rw [Server.conns_setConn] at hd
    split at hd
    · rename_i hdc
      obtain rfl := Option.some.inj hd
      rw [href, hdc, Server.holders, Server.holders, hhandle]
      rfl
    · rename_i hdc
      rw [hs.counted d conn0 hd, Server.holders, Server.holders]
      simp only [huser d hdc]
      rfl
  · intro name r u d hr hu hd
    obtain ⟨conn0, hd0, hmap, hn⟩ := hs.waiting name r u d hr hu hd
    rw [Server.conns_setConn]
    by_cases hdc : d = c
    · subst hdc
      rw [hc] at hd0
      obtain rfl := Option.some.inj hd0
      exact ⟨conn', if_pos rfl, by rw [hhandle]; exact hmap, hname name r u hr hu hd⟩
    · exact ⟨conn0, by rw [if_neg hdc, hd0], hmap, hn⟩

/-- The same, when the login name stays too. -/
theorem sound_setConn {user' : Option ConnId} {conn conn' : MsgConn} (hs : s.Sound user) (hc : s.conns c = some conn)
    (hhandle : conn'.handle = conn.handle) (hname : conn'.loginName = conn.loginName)
    (href : conn'.refCount = s.holders user' c conn) (huser : ∀ d, d ≠ c → (user' = some d ↔ user = some d)) :
    (s.setConn c conn').Sound user' := by
  refine sound_setConn_of_waiting hs hc hhandle ?_ href huser
  intro name r u hr hu hd
  obtain ⟨conn0, hd0, -, hn⟩ := hs.waiting name r u c hr hu hd
  rw [hc] at hd0
  obtain rfl := Option.some.inj hd0
  rw [hname, hn]

/-- A connection stored under its own handle is as much torn down as it was. -/
theorem tornDown_setConn {conn conn' : MsgConn} (hc : s.conns c = some conn) (hhandle : conn'.handle = conn.handle)
    (d : ConnId) : (s.setConn c conn').TornDown d ↔ s.TornDown d := by
  have hconns : ∀ conn0, (s.setConn c conn').conns d = some conn0 ↔
      if d = c then conn' = conn0 else s.conns d = some conn0 := by
    intro conn0
    rw [Server.conns_setConn]
    split
    · exact Option.some_inj
    · exact Iff.rfl
  constructor
  · rintro ⟨conn0, hd, hmap⟩
    rw [hconns] at hd
    split at hd
    · rename_i hdc
      rw [hdc]
      exact ⟨conn, hc, by rw [← hhandle, hd, ← hdc]; exact hmap⟩
    · exact ⟨conn0, hd, hmap⟩
  · rintro ⟨conn0, hd, hmap⟩
    by_cases hdc : d = c
    · rw [hdc, hc] at hd
      obtain rfl := Option.some.inj hd
      exact ⟨conn', (hconns conn').2 (by rw [if_pos hdc]), by rw [hhandle]; exact hmap⟩
    · exact ⟨conn0, (hconns conn0).2 (by rwa [if_neg hdc]), hmap⟩

/-- And closed as often. -/
theorem closedOnce_setConn {conn conn' : MsgConn} (hl : ClosedOnce log s) (hc : s.conns c = some conn)
    (hhandle : conn'.handle = conn.handle) : ClosedOnce log (s.setConn c conn') := by
  have : ClosedOnce (log ++ []) (s.setConn c conn') := closedOnce_append hl (tornDown_setConn hc hhandle) (fun _ _ => rfl)
    fun _ _ h => by cases h
  rwa [List.append_nil] at this

/-! ## Closing -/

/-- After `Close`, the user of the connection's login name no longer has it waiting. -/
theorem not_waiting_after {conn : MsgConn} {s1 s2 : Server} (h : (closeByLoginName c conn).run s1 = ⟨.ok (), s2, []⟩)
    {r : UserRef} {user2 : ImUser} (hr : s2.getImUserByLoginName conn.loginName = some r) (hu : s2.users r = some user2) :
    c ∉ user2.unvalidateConnSet := by
  obtain ⟨-, ⟨hnone, rfl⟩ | ⟨r', user1, hr', hu1, rfl⟩⟩ := closeByLoginName_ok h
  · rw [hnone] at hr
    cases hr
  · have hsub := (loses_replaceUser hu1 (within_delUnValidateMsgConn user1 c)).names_sub _ r hr
    rw [hr'] at hsub
    obtain rfl := Option.some.inj hsub
    obtain ⟨user3, hu3, hw⟩ := (loses_removeIfEmpty (s1.setUser r' (some (user1.delUnValidateMsgConn c))) r'
      (user1.delUnValidateMsgConn c)).users_within r' user2 hu
    rw [Server.users_setUser, if_pos rfl] at hu3
    obtain rfl := Option.some.inj hu3
    intro hmem
    exact (TreeSet.mem_erase.1 (hw.unvalidate_sub c hmem)).1 (Nat.compare_eq_eq.2 rfl)

/-- `Close` gives up the registration, and the reference that goes with it. -/
theorem sound_close {conn : MsgConn} {s1 s2 : Server} {reported notified : List Effect} (hs : s.Sound user)
    (hmap : s.msgConnMap[conn.handle]? = some c) (h : Closes s c conn out s' s1 s2 reported notified) :
    s'.Sound user ∧ ∀ d, s'.TornDown d ↔ s.TornDown d ∨ d = c := by
  have hl1 := loses_closeById (s := { s with msgConnMap := s.msgConnMap.erase conn.handle }) h.conn_eq h.live h.byId
  have hl := loses_trans hl1 (loses_closeByLoginName h.byLoginName)
  have hconns : s2.conns = s.conns := hl.conns_eq
  have hmap2 : s2.msgConnMap = s.msgConnMap.erase conn.handle := hl.msgConnMap_eq
  -- the map still has every other connection
  have hother : ∀ d connd, s.conns d = some connd → d ≠ c →
      (s2.msgConnMap[connd.handle]? = some d ↔ s.msgConnMap[connd.handle]? = some d) := by
    intro d connd _ hdc
    rw [hmap2, TreeMap.getElem?_erase]
    split
    · rename_i heq
      rw [← Nat.compare_eq_eq.1 heq, hmap]
      exact ⟨fun h => (by cases h), fun h => absurd (Option.some.inj h).symm hdc⟩
    · exact Iff.rfl
  have hself : s2.msgConnMap[conn.handle]? ≠ some c := by
    rw [hmap2, TreeMap.getElem?_erase, if_pos (Nat.compare_eq_eq.2 rfl)]
    nofun
  have hstate : ∀ d conn', s'.conns d = some conn' ↔
      if d = c then { conn with refCount := conn.refCount - 1 } = conn' else s.conns d = some conn' := by
    intro d conn'
    rw [h.state_eq, Server.conns_setConn, hconns]
    split
    · exact Option.some_inj
    · exact Iff.rfl
  have hmap' : s'.msgConnMap = s2.msgConnMap := by
    rw [h.state_eq]
    rfl
  have husers : s'.users = s2.users := by
    rw [h.state_eq]
    rfl
  have hnames : ∀ name, s'.getImUserByLoginName name = s2.getImUserByLoginName name := by
    intro name
    rw [h.state_eq]
    rfl
  refine ⟨⟨?_, ?_, ?_, ?_, ?_⟩, ?_⟩
  · intro handle d hd
    rw [hmap', hmap2, TreeMap.getElem?_erase] at hd
    split at hd
    · cases hd
    · rename_i hne
      obtain ⟨connd, hd0, hh⟩ := hs.mapped handle d hd
      have hdc : d ≠ c := by
        rintro rfl
        rw [h.conn_eq] at hd0
        obtain rfl := Option.some.inj hd0
        exact hne (Nat.compare_eq_eq.2 hh)
      exact ⟨connd, (hstate d connd).2 (by rwa [if_neg hdc]), hh⟩
  · intro d conn' hd
    rw [hstate] at hd
    split at hd
    · rename_i hdc
      rw [← hd, hdc]
      have hcount := hs.counted c conn h.conn_eq
      rw [Server.holders, if_pos hmap] at hcount
      rw [Server.holders, hmap', if_neg hself]
      dsimp only
      omega
    · rename_i hdc
      rw [hs.counted d conn' hd, Server.holders, Server.holders, hmap']
      simp only [hother d conn' hd hdc]
  · intro name r hr
    rw [hnames] at hr
    have hlt := hs.names_lt name r (hl.names_sub name r hr)
    rw [h.state_eq]
    exact hl.nextUser_eq.symm ▸ hlt
  · intro name r user' hr hu
    rw [hnames] at hr
    rw [husers] at hu
    obtain ⟨user0, hu0, hw⟩ := hl.users_within r user' hu
    rw [hw.loginName_eq]
    exact hs.names_eq name r user0 (hl.names_sub name r hr) hu0
  · intro name r user' d hr hu hd
    rw [hnames] at hr
    rw [husers] at hu
    obtain ⟨user0, hu0, hw⟩ := hl.users_within r user' hu
    obtain ⟨connd, hd0, hmapd, hname⟩ := hs.waiting name r user0 d (hl.names_sub name r hr) hu0 (hw.unvalidate_sub d hd)
    have hdc : d ≠ c := by
      rintro rfl
      rw [h.conn_eq] at hd0
      obtain rfl := Option.some.inj hd0
      rw [← hname] at hr
      exact not_waiting_after h.byLoginName hr hu hd
    refine ⟨connd, (hstate d connd).2 (by rwa [if_neg hdc]), ?_, hname⟩
    rw [hmap']
    exact (hother d connd hd0 hdc).2 hmapd
  · intro d
    constructor
    · rintro ⟨conn', hd, hnot⟩
      rw [hstate] at hd
      split at hd
      · exact .inr ‹_›
      · rename_i hdc
        rw [hmap'] at hnot
        exact .inl ⟨conn', hd, fun hreg => hnot ((hother d conn' hd hdc).2 hreg)⟩
    · rintro (⟨connd, hd, hnot⟩ | rfl)
      · have hdc : d ≠ c := by
          rintro rfl
          rw [h.conn_eq] at hd
          obtain rfl := Option.some.inj hd
          exact hnot hmap
        refine ⟨connd, (hstate d connd).2 (by rwa [if_neg hdc]), fun hreg => hnot ?_⟩
        rw [hmap'] at hreg
        exact (hother d connd hd hdc).1 hreg
      · refine ⟨_, (hstate d _).2 (by rw [if_pos rfl]), ?_⟩
        rw [hmap']
        exact hself

/-- No open server is listed twice. -/
theorem nodup_openIndices (l : List Bool) : (Server.openIndices l).Nodup := List.nodup_range.filter _

/-- Each server is told once. -/
theorem countP_told_le {l : List Bool} {p : Effect → Bool} {f : Nat → Effect} {i : Nat} (h : ∀ j, p (f j) = true → j = i) :
    ((Server.openIndices l).map f).countP p ≤ 1 := by
  rw [List.countP_map]
  refine Nat.le_trans (List.countP_mono_left (q := fun j => j == i) fun j _ hj => beq_iff_eq.2 (h j hj)) ?_
  exact List.nodup_iff_count.1 (nodup_openIndices l) i

/-- One report of a state, at most, for each server told. -/
theorem countP_statusOut_le (b : Backends) (d : ConnId) (userAction userStatus userId clientType : Nat) (k : CloseEffect) :
    (statusOut b c userAction userStatus userId clientType).countP (k.is d) ≤ k.toldTo := by
  have hnone : ∀ (l : List Bool) (p : Effect → Bool) (f : Nat → Effect), (∀ j, p (f j) = false) →
      ((Server.openIndices l).map f).countP p = 0 := fun l p f hf => by
    rw [List.countP_map, List.countP_eq_zero]
    intro j _
    exact Bool.eq_false_iff.1 (hf j)
  rw [statusOut, List.countP_append]
  cases k with
  | userCntDec i =>
    rw [hnone b.routeServerList _ _ fun j => rfl, Nat.add_zero]
    refine countP_told_le (i := i) fun j hj => ?_
    simp only [CloseEffect.is, Bool.and_eq_true, decide_eq_true_eq] at hj
    exact hj.1.2
  | offline i =>
    rw [hnone b.loginServerList _ _ fun j => rfl, Nat.zero_add]
    refine countP_told_le (i := i) fun j hj => ?_
    simp only [CloseEffect.is, Bool.and_eq_true, decide_eq_true_eq] at hj
    exact hj.1.2
  | _ => exact Nat.le_of_eq (by rw [hnone _ _ _ fun j => rfl, hnone _ _ _ fun j => rfl]; rfl)

/-- And all that is sent there is sent by the connection that closes. -/
theorem mem_statusOut {b : Backends} {userAction userStatus userId clientType : Nat} {e : Effect}
    (h : e ∈ statusOut b c userAction userStatus userId clientType) : ∃ dest pdu, e = .send c dest pdu := by
  rcases List.mem_append.1 h with h | h
  · obtain ⟨i, -, rfl⟩ := List.mem_map.1 h
    exact ⟨_, _, rfl⟩
  · obtain ⟨i, -, rfl⟩ := List.mem_map.1 h
    exact ⟨_, _, rfl⟩

/-- What `Close` puts out concerns its connection alone, and has each effect at most once. -/
theorem countP_close {conn : MsgConn} {s1 s2 : Server} {reported notified : List Effect}
    (h : Closes s c conn out s' s1 s2 reported notified) (d : ConnId) (k : CloseEffect) :
    out.countP (k.is d) ≤ 1 ∧ (d ≠ c → out.countP (k.is d) = 0) ∧ ∀ pdu, .handlePdu d pdu ∉ out := by
  have hrep := closeById_ok (s := { s with msgConnMap := s.msgConnMap.erase conn.handle }) h.conn_eq h.live h.byId
  have hnot : notified = [] ∨ notified = [.send c .db (offlineNotify conn.userId)] := by
    rw [h.notified_eq]
    split
    · exact .inr rfl
    · exact .inl rfl
  have hstatus : ∃ told userId, reported = [] ∨ reported = .delMsgConn c :: told ∧
      (told = [] ∨ told = statusOut s.backends c userCntDec userStatusOffline userId conn.clientType) := by
    rcases hrep with ⟨-, -, hrep⟩ | ⟨r, u, -, -, -, hrep⟩
    · exact ⟨[], 0, .inl hrep⟩
    · refine ⟨_, u.userId, .inr ⟨hrep, ?_⟩⟩
      split
      · exact .inr rfl
      · exact .inl rfl
  rw [h.out_eq]
  obtain ⟨told, userId, hreported⟩ := hstatus
  have hnotified : notified.countP (k.is d) = 0 := by
    rcases hnot with rfl | rfl
    · rfl
    · cases k <;> rfl
  have htold : told = [] ∨ told = statusOut s.backends c userCntDec userStatusOffline userId conn.clientType →
      told.countP (k.is d) ≤ k.toldTo := by
    rintro (rfl | rfl)
    · exact Nat.zero_le _
    · exact countP_statusOut_le _ _ _ _ _ _ k
  refine ⟨?_, ?_, ?_⟩
  · rw [List.countP_cons, List.countP_cons, List.countP_append, List.countP_append, hnotified, Nat.zero_add]
    obtain rfl | ⟨rfl, hlist⟩ := hreported
    · cases k <;> simp [CloseEffect.is]
      all_goals split <;> omega
    · have hle := htold hlist
      revert hle
      rw [List.countP_cons]
      generalize told.countP (k.is d) = n
      intro hle
      cases k <;> simp [CloseEffect.is, CloseEffect.toldTo] at hle ⊢
      all_goals first | omega | (split <;> omega)
  · intro hdc
    have hcd : c ≠ d := fun heq => hdc heq.symm
    rw [List.countP_eq_zero]
    intro e he
    have hsend : ∀ dest pdu, (k.is d (.send c dest pdu)) = false := by
      intro dest pdu
      cases k <;> cases dest <;> simp [CloseEffect.is, hcd]
    simp only [List.mem_cons, List.mem_append, List.not_mem_nil, or_false] at he
    rcases he with rfl | rfl | he | he | rfl
    · cases k <;> simp [CloseEffect.is, hcd]
    · cases k <;> simp [CloseEffect.is, hcd]
    · obtain rfl | ⟨rfl, hlist⟩ := hreported
      · cases he
      · rcases List.mem_cons.1 he with rfl | he
        · cases k <;> simp [CloseEffect.is, hcd]
        · obtain rfl | rfl := hlist
          · cases he
          · obtain ⟨dest, pdu, rfl⟩ := mem_statusOut he
            rw [hsend]
            exact Bool.false_ne_true
    · obtain rfl | rfl := hnot
      · cases he
      · rw [List.mem_singleton.1 he, hsend]
        exact Bool.false_ne_true
    · cases k <;> simp [CloseEffect.is, hcd]
  · intro pdu he
    simp only [List.mem_cons, List.mem_append, List.not_mem_nil, or_false, reduceCtorEq, false_or] at he
    rcases he with he | he
    · obtain rfl | ⟨rfl, hlist⟩ := hreported
      · cases he
      · rcases List.mem_cons.1 he with he | he
        · cases he
        · obtain rfl | rfl := hlist
          · cases he
          · obtain ⟨dest, pdu', he⟩ := mem_statusOut he
            cases he
    · obtain rfl | rfl := hnot
      · cases he
      · cases List.mem_singleton.1 he

/-- Closing a connection that is registered keeps the log in order. -/
theorem closedOnce_close {conn : MsgConn} {s1 s2 : Server} {reported notified : List Effect} (hl : ClosedOnce log s)
    (hs : s.Sound user) (hmap : s.msgConnMap[conn.handle]? = some c)
    (h : Closes s c conn out s' s1 s2 reported notified) : ClosedOnce (log ++ out) s' := by
  have htorn := (sound_close hs hmap h).2
  have hnot : ¬s.TornDown c := by
    rintro ⟨conn', hc, hreg⟩
    rw [h.conn_eq] at hc
    obtain rfl := Option.some.inj hc
    exact hreg hmap
  refine ⟨?_, ?_, ?_⟩
  · intro d k
    obtain ⟨hle, hother, -⟩ := countP_close h d k
    rw [List.countP_append]
    by_cases hdc : d = c
    · rw [hdc, hl.untouched c hnot, Nat.zero_add, ← hdc]
      exact hle
    · rw [hother hdc, Nat.add_zero]
      exact hl.once d k
  · intro d hd k
    rw [htorn, not_or] at hd
    rw [List.countP_append, hl.untouched d hd.1, (countP_close h d k).2.1 hd.2]
  · intro d
    have hpdu : ∀ pdu, .handlePdu d pdu ∉ out := (countP_close h d .netlibClose).2.2
    rw [List.pairwise_append]
    refine ⟨hl.silent d, List.pairwise_of_forall_mem_list fun e _ e' he' _ pdu heq => hpdu pdu (heq ▸ he'), ?_⟩
    intro e _ e' he' _ pdu heq
    exact hpdu pdu (heq ▸ he')

/-! ## Logging in -/

/-- Making the user leaves the connections alone. -/
theorem withUser_conns (s : Server) (loginName : String) : (s.withUser loginName).1.conns = s.conns := by
  rw [Server.withUser]
  split
  · rfl
  · rfl

/-- The user of a login name is found or made. -/
theorem sound_withUser (hs : s.Sound user) (loginName : String) :
    (s.withUser loginName).1.Sound user ∧ (s.withUser loginName).1.msgConnMap = s.msgConnMap ∧
    (s.withUser loginName).1.getImUserByLoginName loginName = some (s.withUser loginName).2 := by
  rw [Server.withUser]
  cases hr : s.getImUserByLoginName loginName with
  | some r => exact ⟨hs, rfl, hr⟩
  | none =>
    have hname : ∀ name r, (s.imUserMapByName.insert loginName s.nextUser)[name]? = some r →
        (name = loginName ∧ r = s.nextUser) ∨ s.getImUserByLoginName name = some r := by
      intro name r h
      rw [TreeMap.getElem?_insert] at h
      split at h
      · rename_i heq
        exact .inl ⟨(Std.LawfulEqOrd.eq_of_compare heq).symm, (Option.some.inj h).symm⟩
      · exact .inr h
    have huser : ∀ r u, (s.setUser s.nextUser (some (ImUser.new loginName))).users r = some u →
        (r = s.nextUser ∧ u = ImUser.new loginName) ∨ (r ≠ s.nextUser ∧ s.users r = some u) := by
      intro r u h
      rw [Server.users_setUser] at h
      split at h
      · exact .inl ⟨‹_›, (Option.some.inj h).symm⟩
      · exact .inr ⟨‹_›, h⟩
    refine ⟨⟨hs.mapped, hs.counted, ?_, ?_, ?_⟩, rfl, ?_⟩
    · intro name r h
      rcases hname name r h with ⟨-, rfl⟩ | h
      · exact Nat.lt_succ_self _
      · exact Nat.lt_succ_of_lt (hs.names_lt name r h)
    · intro name r u h hu
      rcases hname name r h with ⟨rfl, rfl⟩ | h
      · rcases huser _ u hu with ⟨-, rfl⟩ | ⟨hne, -⟩
        · rfl
        · exact absurd rfl hne
      · rcases huser r u hu with ⟨rfl, -⟩ | ⟨-, hu⟩
        · exact absurd (hs.names_lt name _ h) (Nat.lt_irrefl _)
        · exact hs.names_eq name r u h hu
    · intro name r u d h hu hd
      rcases huser r u hu with ⟨-, rfl⟩ | ⟨hne, hu⟩
      · exact absurd hd TreeSet.not_mem_emptyc
      · rcases hname name r h with ⟨-, rfl⟩ | h
        · exact absurd rfl hne
        · exact hs.waiting name r u d h hu hd
    · change (s.imUserMapByName.insert loginName s.nextUser)[loginName]? = _
      rw [TreeMap.getElem?_insert, if_pos (Std.ReflCmp.compare_self)]

/-- A registered connection waits at the user of its login name. -/
theorem sound_addWaiting {conn : MsgConn} {r : UserRef} {u : ImUser} (hs : s.Sound user) (hc : s.conns c = some conn)
    (hmap : s.msgConnMap[conn.handle]? = some c) (hr : s.getImUserByLoginName conn.loginName = some r)
    (hu : s.users r = some u) : (s.setUser r (some (u.addUnValidateMsgConn c))).Sound user := by
  have huser : ∀ p u', (s.setUser r (some (u.addUnValidateMsgConn c))).users p = some u' →
      (p = r ∧ u' = u.addUnValidateMsgConn c) ∨ s.users p = some u' := by
    intro p u' h
    rw [Server.users_setUser] at h
    split at h
    · exact .inl ⟨‹_›, (Option.some.inj h).symm⟩
    · exact .inr h
  refine ⟨hs.mapped, hs.counted, hs.names_lt, ?_, ?_⟩
  · intro name p u' h hu'
    rcases huser p u' hu' with ⟨rfl, rfl⟩ | hu'
    · exact hs.names_eq name p u h hu
    · exact hs.names_eq name p u' h hu'
  · intro name p u' d h hu' hd
    rcases huser p u' hu' with ⟨rfl, rfl⟩ | hu'
    · rcases mem_addUnValidateMsgConn hd with hd | rfl
      · exact hs.waiting name p u d h hu hd
      · refine ⟨conn, hc, hmap, ?_⟩
        rw [← hs.names_eq name p u h hu, hs.names_eq conn.loginName p u hr hu]
    · exact hs.waiting name p u' d h hu' hd

/-- An accepted login request of a registered connection, which does not already wait at another name's user. -/
theorem sound_login {conn : MsgConn} {env : Env} {pdu : Pdu} {msg : IMLoginReq} (hs : s.Sound user)
    (hc : s.conns c = some conn) (hmap : s.msgConnMap[conn.handle]? = some c)
    (hlive : conn.refCount ≠ 0) (hempty : ¬conn.loginName.length ≠ 0) (hrefuse : loginRefusal s = none)
    (hbody : pdu.body = .imLoginReq msg)
    (hfresh : msg.userName ≠ "" → ∀ q u, s.getImUserByLoginName "" = some q → s.users q = some u →
      c ∉ u.unvalidateConnSet)
    (h : (handleLoginRequest env c pdu).run s = ⟨.ok (), s', out⟩) :
    s'.Sound user ∧ (∀ d, s'.TornDown d ↔ s.TornDown d) ∧ ∀ e ∈ out, e.Harmless := by
  obtain ⟨u, hu, rfl, rfl⟩ := login_accepted_ok hc hlive hempty hrefuse hbody h
  have hnone : conn.loginName = "" := String.length_eq_zero_iff.1 (not_not.1 hempty)
  have hs1 : (s.setConn c (conn.logIn msg)).Sound user := by
    refine sound_setConn_of_waiting hs hc rfl ?_ (hs.counted c conn hc) fun _ _ => Iff.rfl
    intro name r u hr hu hd
    obtain ⟨conn0, hd0, -, hn⟩ := hs.waiting name r u c hr hu hd
    rw [hc] at hd0
    obtain rfl := Option.some.inj hd0
    rw [hnone] at hn
    subst hn
    exact by_contra fun hne => hfresh hne r u hr hu hd
  obtain ⟨hs2, hmap2, hname2⟩ := sound_withUser hs1 msg.userName
  have hconns2 := withUser_conns (s.setConn c (conn.logIn msg)) msg.userName
  have hc2 : ((s.setConn c (conn.logIn msg)).withUser msg.userName).1.conns c = some (conn.logIn msg) := by
    rw [hconns2, Server.conns_setConn, if_pos rfl]
  refine ⟨sound_addWaiting hs2 hc2 (by rw [hmap2]; exact hmap) hname2 hu, ?_, ?_⟩
  · intro d
    rw [← tornDown_setConn hc (show (conn.logIn msg).handle = conn.handle from rfl) d]
    exact tornDown_congr hconns2 hmap2
  · intro e he
    rw [List.mem_singleton.1 he]
    trivial

end TeardownAux

end TeamTalk
