import TeamTalk.MsgServer.Registry

/-!
# Which connection is kicked

`KickOutSameClientType` kicks the first connection of the same class of clients that it finds, in the order of the handles,
also when that one was kicked before.
-/

namespace TeamTalk

open Action

/-- The class of a client type: it without the four low bits. -/
def clientClass (clientType : Nat) : Nat := clientType >>> 4

/-- `KickOutSameClientType` compares the classes. -/
theorem same_class_iff (a b : Nat) : (a ^^^ b) >>> 4 = 0 ↔ clientClass a = clientClass b := by
  rw [Nat.shiftRight_xor_distrib, Nat.xor_eq_zero_iff]
  rfl

namespace Server

/-- A connection of a class of clients, but not `c`. -/
def isOther (s : Server) (cls : Nat) (c d : ConnId) : Bool :=
  (s.conns d).any fun conn => clientClass conn.clientType = cls ∧ d ≠ c

/-- The first such connection of a user, in the order of the handles. -/
def firstOther (s : Server) (user : ImUser) (cls : Nat) (c : ConnId) : Option ConnId := user.conns.find? (s.isOther cls c)

theorem isOther_iff {s : Server} {cls : Nat} {c d : ConnId} {conn : MsgConn} (hd : s.conns d = some conn) :
    s.isOther cls c d = true ↔ clientClass conn.clientType = cls ∧ d ≠ c := by
  simp only [isOther, hd, Option.any_some, decide_eq_true_eq]

/-- Who is found depends on the connections alone. -/
theorem firstOther_congr {s s' : Server} {user user' : ImUser} (hconns : s'.conns = s.conns)
    (hmap : user'.connMap = user.connMap) (cls : Nat) (c : ConnId) : s.firstOther user cls c = s'.firstOther user' cls c := by
  simp only [firstOther, ImUser.conns, hmap]
  congr 1
  funext d
  rw [isOther, isOther, hconns]

end Server

namespace KicksAux

variable {s s' : Server} {user : ImUser} {c d f : ConnId} {conn : MsgConn} {out : List Effect}

/-- A connection that the user has under its handle is kicked. -/
theorem handleKickUser_ok {reason : Nat} (hd : s.conns d = some conn) (hmap : user.connMap[conn.handle]? = some d)
    (h : (handleKickUser user d reason).run s = ⟨.ok (), s', out⟩) : .setKickOff d ∈ out := by
  obtain ⟨conn', s1, out1, out2, hconn, h1, rfl⟩ := run_bind_eq_ok h
  obtain ⟨rfl, hd', -, rfl⟩ := getConn_eq_ok hconn
  rw [hd] at hd'
  obtain rfl := Option.some.inj hd'
  simp only [hmap] at h1
  obtain ⟨out3, h2, rfl⟩ := run_emit_bind_eq_ok h1
  obtain ⟨conn', s2, out4, out5, -, h3, rfl⟩ := run_bind_eq_ok h2
  rw [run_bind_nil (run_setConn _ _ _)] at h3
  obtain ⟨-, -, rfl⟩ := (Outcome.mk.injEq ..).mp h3
  simp only [List.mem_append, List.mem_cons, List.not_mem_nil, or_false, or_true]

/-- The first other connection of the class is kicked. -/
theorem kickFirst_ok {clientType reason : Nat} {ds : List ConnId}
    (hhandle : ∀ d ∈ ds, ∀ conn, s.conns d = some conn → user.connMap[conn.handle]? = some d)
    (h : (kickFirst user clientType reason (some c) ds).run s = ⟨.ok (), s', out⟩)
    (hf : ds.find? (s.isOther (clientClass clientType) c) = some f) : .setKickOff f ∈ out := by
  induction ds generalizing out with
  | nil => cases hf
  | cons d ds ih =>
    obtain ⟨conn, s1, out1, out2, hconn, h1, rfl⟩ := run_bind_eq_ok h
    obtain ⟨rfl, hd, -, rfl⟩ := getConn_eq_ok hconn
    have hother : s1.isOther (clientClass clientType) c d = true ↔ clientClass conn.clientType = clientClass clientType ∧ d ≠ c :=
      Server.isOther_iff hd
    rw [List.find?_cons] at hf
    split at h1
    next hsame =>
      have hself : s1.isOther (clientClass clientType) c d = true :=
        hother.2 ⟨(same_class_iff _ _).1 hsame.1, fun heq => hsame.2 (congrArg some heq)⟩
      rw [hself] at hf
      obtain rfl := Option.some.inj hf
      exact List.mem_append_right _ (handleKickUser_ok hd (hhandle d List.mem_cons_self conn hd) h1)
    next hdiffers =>
      have hself : s1.isOther (clientClass clientType) c d = false := by
        refine Bool.eq_false_iff.2 fun htrue => hdiffers ?_
        obtain ⟨hclass, hne⟩ := hother.1 htrue
        exact ⟨(same_class_iff _ _).2 hclass, fun heq => hne (Option.some.inj heq)⟩
      rw [hself] at hf
      exact List.mem_append_right _ (ih (fun e he => hhandle e (List.mem_cons_of_mem d he)) h1 hf)

/-- An accepted login kicks the first other connection of the class that the user has whom the connection goes to. -/
theorem acceptLogin_kicks {env : Env} {r : UserRef} {msg : IMValidateRsp} {seqNum : Nat}
    (h : (acceptLogin env r c msg seqNum).run s = ⟨.ok (), s', out⟩) :
    ∃ q s1 user conn, (userForId r c msg.userName (msg.userInfo.getD noUserInfo).userId).run s = ⟨.ok q, s1, []⟩ ∧
      s1.users q = some user ∧ s1.conns c = some conn ∧
      ((∀ d ∈ user.conns, ∀ conn, s1.conns d = some conn → user.connMap[conn.handle]? = some d) →
        ∀ f, s1.firstOther user (clientClass conn.clientType) c = some f → .setKickOff f ∈ out) := by
  obtain ⟨q, s1, out0, out1, hq, h1, rfl⟩ := run_bind_eq_ok h
  obtain ⟨rfl, -⟩ := ValidatingAux.userForId_ok hq
  obtain ⟨user, s1', out2, out3, huser, h2, rfl⟩ := run_bind_eq_ok h1
  obtain ⟨rfl, hu, rfl⟩ := getUser_eq_ok huser
  rw [run_bind_nil (run_setUser _ _ _), addImUserById, run_modify_bind] at h2
  change Act.run _ (s1'.register q (user.accepted (msg.userInfo.getD noUserInfo)) _) = _ at h2
  obtain ⟨hconns, -, -, -, husers⟩ := RegistryAux.register_eqs s1' q (user.accepted (msg.userInfo.getD noUserInfo))
    (msg.userInfo.getD noUserInfo).userId
  obtain ⟨user2, s3, out4, out5, huser2, h3, rfl⟩ := run_bind_eq_ok h2
  obtain ⟨rfl, hu2, rfl⟩ := getUser_eq_ok huser2
  rw [husers, if_pos rfl] at hu2
  obtain rfl := Option.some.inj hu2
  obtain ⟨conn, s4, out6, out7, hconn, h4, rfl⟩ := run_bind_eq_ok h3
  obtain ⟨rfl, hc, -, rfl⟩ := getConn_eq_ok hconn
  rw [hconns] at hc
  obtain ⟨_, s5, out8, out9, hkick, -, rfl⟩ := run_bind_eq_ok h4
  refine ⟨q, s1', user, conn, hq, hu, hc, fun hhandle f hf => ?_⟩
  have hmap : (user.accepted (msg.userInfo.getD noUserInfo)).connMap = user.connMap := rfl
  rw [Server.firstOther_congr hconns hmap] at hf
  refine List.mem_append_left out9 (kickFirst_ok (fun d hd conn hcd => ?_) hkick hf)
  rw [hconns] at hcd
  exact hhandle d hd conn hcd

end KicksAux

end TeamTalk
