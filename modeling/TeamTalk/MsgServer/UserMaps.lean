import TeamTalk.MsgServer.EventLoop
import TeamTalk.MsgServer.Validating

/-!
# The users and their maps

Users are found by their login name, and by their id once a connection of theirs has been validated. The invariant below says
how the two maps, the users and the connections fit together. It speaks of the connections through a relation: which of them
are validated and not closed, under which handle and for which user id.
-/

namespace TeamTalk

open Action
open Std (TreeMap TreeSet)

namespace Server

/-- A validated connection that is registered: it is open, and the map of connections has it under its handle. -/
def OpenFor (s : Server) (c : ConnId) (handle userId : Nat) : Prop :=
  ∃ conn, s.conns c = some conn ∧ conn.handle = handle ∧ conn.userId = userId ∧ conn.bOpen = true ∧
    s.msgConnMap[handle]? = some c

/-- The users and the two maps of `CImUserManager` fit together, when `Live` says which connections are validated. A login name
has the id that `idOf` gives. -/
structure Users (idOf : String → Nat) (Live : ConnId → Nat → Nat → Prop) (s : Server) : Prop where
  fresh : ∀ r user, s.users r = some user → r < s.nextUser
  byName : ∀ name r, s.getImUserByLoginName name = some r → ∃ user, s.users r = some user ∧ user.loginName = name
  named : ∀ r user, s.users r = some user → s.getImUserByLoginName user.loginName = some r
  byId : ∀ userId r, s.getImUserById userId = some r → userId ≠ 0 ∧ ∃ user, s.users r = some user ∧ user.userId = userId ∧
    userId = idOf user.loginName ∧ ∃ (handle : Nat) (c : ConnId), user.connMap[handle]? = some c
  idle : ∀ r user, s.users r = some user → s.getImUserById user.userId = some r ∨
    (user.userId = 0 ∧ ∀ handle : Nat, user.connMap[handle]? = none)
  member : ∀ r user (handle : Nat) c, s.users r = some user → user.connMap[handle]? = some c → Live c handle user.userId
  joined : ∀ c (handle : Nat) userId, Live c handle userId → ∃ r user, s.getImUserById userId = some r ∧
    s.users r = some user ∧ user.connMap[handle]? = some c

end Server

namespace UserMapsAux

open ClosingAux ValidatingAux

variable {s s' : Server} {c : ConnId} {r : UserRef} {user user' : ImUser} {idOf : String → Nat}
variable {Live Live' : ConnId → Nat → Nat → Prop}

theorem isMsgConnEmpty_iff (user : ImUser) : user.isMsgConnEmpty = true ↔ ∀ handle : Nat, user.connMap[handle]? = none := by
  rw [ImUser.isMsgConnEmpty, TreeMap.isEmpty_iff_forall_not_mem]
  refine forall_congr' fun handle => ?_
  rw [TreeMap.mem_iff_isSome_getElem?, Option.not_isSome_iff_eq_none]

/-! ## Users that stay -/

/-- Nothing of the registry changes. -/
theorem users_congr (hs : s.Users idOf Live) (husers : s'.users = s.users) (hnext : s'.nextUser = s.nextUser)
    (hid : s'.imUserMap = s.imUserMap) (hname : s'.imUserMapByName = s.imUserMapByName)
    (hlive : ∀ d handle userId, Live' d handle userId ↔ Live d handle userId) : s'.Users idOf Live' := by
  have hids : ∀ userId, s'.getImUserById userId = s.getImUserById userId := fun userId => by
    rw [Server.getImUserById, hid, Server.getImUserById]
  have hnames : ∀ name, s'.getImUserByLoginName name = s.getImUserByLoginName name := fun name => by
    rw [Server.getImUserByLoginName, hname, Server.getImUserByLoginName]
  obtain ⟨h1, h2, h3, h4, h5, h6, h7⟩ := hs
  refine ⟨?_, ?_, ?_, ?_, ?_, ?_, ?_⟩
  all_goals simp only [husers, hnext, hids, hnames, hlive]
  all_goals assumption

/-- A user changes, but not its id, its name and its connections. -/
theorem users_setUser (hs : s.Users idOf Live) (hu : s.users r = some user) (user' : ImUser)
    (hid : user'.userId = user.userId) (hname : user'.loginName = user.loginName)
    (hconns : ∀ handle : Nat, user'.connMap[handle]? = user.connMap[handle]?) :
    (s.setUser r (some user')).Users idOf Live := by
  -- every user after is one before with the same id, name and connections, and the other way round
  have hback : ∀ q u', (s.setUser r (some user')).users q = some u' → ∃ u, s.users q = some u ∧ u'.userId = u.userId ∧
      u'.loginName = u.loginName ∧ ∀ handle : Nat, u'.connMap[handle]? = u.connMap[handle]? := by
    intro q u' hq
    rw [Server.users_setUser] at hq
    split at hq
    · rename_i hqr
      rw [hqr, ← Option.some.inj hq]
      exact ⟨user, hu, hid, hname, hconns⟩
    · exact ⟨u', hq, rfl, rfl, fun _ => rfl⟩
  have hforth : ∀ q u, s.users q = some u → ∃ u', (s.setUser r (some user')).users q = some u' ∧ u'.userId = u.userId ∧
      u'.loginName = u.loginName ∧ ∀ handle : Nat, u'.connMap[handle]? = u.connMap[handle]? := by
    intro q u hq
    rw [Server.users_setUser]
    by_cases hqr : q = r
    · rw [hqr, hu] at hq
      obtain rfl := Option.some.inj hq
      exact ⟨user', if_pos hqr, hid, hname, hconns⟩
    · exact ⟨u, by rw [if_neg hqr, hq], rfl, rfl, fun _ => rfl⟩
  refine ⟨?_, ?_, ?_, ?_, ?_, ?_, ?_⟩
  · intro q u' hq
    obtain ⟨u, hq0, -⟩ := hback q u' hq
    exact hs.fresh q u hq0
  · intro name q hq
    obtain ⟨u, hq0, hn⟩ := hs.byName name q hq
    obtain ⟨u', hq', -, hn', -⟩ := hforth q u hq0
    exact ⟨u', hq', hn'.trans hn⟩
  · intro q u' hq
    obtain ⟨u, hq0, -, hn, -⟩ := hback q u' hq
    rw [hn]
    exact hs.named q u hq0
  · intro userId q hq
    obtain ⟨hne, u, hq0, huid, hof, handle, d, hd⟩ := hs.byId userId q hq
    obtain ⟨u', hq', huid', hn', hc'⟩ := hforth q u hq0
    exact ⟨hne, u', hq', huid'.trans huid, by rw [hn', hof], handle, d, by rw [hc', hd]⟩
  · intro q u' hq
    obtain ⟨u, hq0, huid, -, hc⟩ := hback q u' hq
    rw [huid]
    refine (hs.idle q u hq0).imp id ?_
    rintro ⟨hzero, hnone⟩
    exact ⟨hzero, fun handle => by rw [hc, hnone]⟩
  · intro q u' handle d hq hd
    obtain ⟨u, hq0, huid, -, hc⟩ := hback q u' hq
    rw [huid]
    exact hs.member q u handle d hq0 (by rw [← hc, hd])
  · intro d handle userId hd
    obtain ⟨q, u, hq, hq0, hm⟩ := hs.joined d handle userId hd
    obtain ⟨u', hq', -, -, hc'⟩ := hforth q u hq0
    exact ⟨q, u', hq, hq', by rw [hc', hm]⟩

/-- A new user. -/
theorem users_withUser (hs : s.Users idOf Live) (loginName : String) : (s.withUser loginName).1.Users idOf Live := by
  rw [Server.withUser]
  cases hr : s.getImUserByLoginName loginName with
  | some r => exact hs
  | none =>
    have hold : ∀ q u, s.users q = some u → (s.setUser s.nextUser (some (ImUser.new loginName))).users q = some u := by
      intro q u hq
      rw [Server.users_setUser, if_neg (Nat.ne_of_lt (hs.fresh q u hq)), hq]
    have huser : ∀ q u, (s.setUser s.nextUser (some (ImUser.new loginName))).users q = some u →
        (q = s.nextUser ∧ u = ImUser.new loginName) ∨ s.users q = some u := by
      intro q u h
      rw [Server.users_setUser] at h
      split at h
      · exact .inl ⟨‹_›, (Option.some.inj h).symm⟩
      · exact .inr h
    have hnone : ∀ handle : Nat, (ImUser.new loginName).connMap[handle]? = none := fun _ => TreeMap.getElem?_emptyc
    refine ⟨?_, ?_, ?_, ?_, ?_, ?_, ?_⟩
    · intro q u hq
      rcases huser q u hq with ⟨rfl, -⟩ | hq
      · exact Nat.lt_succ_self _
      · exact Nat.lt_succ_of_lt (hs.fresh q u hq)
    · intro name q hq
      change (s.imUserMapByName.insert loginName s.nextUser)[name]? = some q at hq
      rw [TreeMap.getElem?_insert] at hq
      split at hq
      · rename_i heq
        rw [← Option.some.inj hq, ← Std.LawfulEqOrd.eq_of_compare heq]
        exact ⟨ImUser.new loginName, (Server.users_setUser s _ _ _).trans (if_pos rfl), rfl⟩
      · obtain ⟨u, hq0, hn⟩ := hs.byName name q hq
        exact ⟨u, hold q u hq0, hn⟩
    · intro q u hq
      change (s.imUserMapByName.insert loginName s.nextUser)[u.loginName]? = some q
      rw [TreeMap.getElem?_insert]
      rcases huser q u hq with ⟨rfl, rfl⟩ | hq
      · exact if_pos Std.ReflCmp.compare_self
      · have hname := hs.named q u hq
        rw [if_neg]
        · exact hname
        · intro heq
          rw [← Std.LawfulEqOrd.eq_of_compare heq, hr] at hname
          cases hname
    · intro userId q hq
      obtain ⟨hne, u, hq0, hrest⟩ := hs.byId userId q hq
      exact ⟨hne, u, hold q u hq0, hrest⟩
    · intro q u hq
      rcases huser q u hq with ⟨-, rfl⟩ | hq
      · exact .inr ⟨rfl, hnone⟩
      · exact hs.idle q u hq
    · intro q u handle d hq hd
      rcases huser q u hq with ⟨-, rfl⟩ | hq
      · rw [hnone] at hd
        cases hd
      · exact hs.member q u handle d hq hd
    · intro d handle userId hd
      obtain ⟨q, u, hq, hq0, hm⟩ := hs.joined d handle userId hd
      exact ⟨q, u, hq, hold q u hq0, hm⟩

/-! ## A connection leaves -/

/-- A user with a connection is the only one with its id. -/
theorem users_inj (hs : s.Users idOf Live) {q : UserRef} {u : ImUser} {handle : Nat} (hq : s.users q = some u)
    (hd : u.connMap[handle]? = some c) (hu : s.users r = some user) (hid : u.userId = user.userId) : q = r := by
  have hfind : s.getImUserById u.userId = some q := by
    refine (hs.idle q u hq).resolve_right fun h => ?_
    rw [h.2] at hd
    cases hd
  rcases hs.idle r user hu with h | ⟨hzero, -⟩
  · rw [hid, h] at hfind
    exact (Option.some.inj hfind).symm
  · rw [hid, hzero] at hfind
    exact absurd rfl (hs.byId 0 q hfind).1

/-- User `r` keeps its connections but `c`, and has one left. -/
theorem users_thinned (hs : s.Users idOf Live) (hu : s.users r = some user) (hid : user'.userId = user.userId)
    (hname : user'.loginName = user.loginName)
    (hmem : ∀ (handle : Nat) d, user'.connMap[handle]? = some d ↔ user.connMap[handle]? = some d ∧ d ≠ c)
    (hleft : user'.isMsgConnEmpty = false) (hc : ∀ handle userId, Live c handle userId → userId = user.userId) :
    (s.setUser r (some user')).Users idOf fun d handle userId => Live d handle userId ∧ d ≠ c := by
  have hsome : ∃ (handle : Nat) (d : ConnId), user'.connMap[handle]? = some d := by
    by_contra hnone
    refine Bool.false_ne_true (hleft.symm.trans ((isMsgConnEmpty_iff user').2 fun handle => ?_))
    exact Option.eq_none_iff_forall_ne_some.2 fun d hd => hnone ⟨handle, d, hd⟩
  have hcases : ∀ q u, (s.setUser r (some user')).users q = some u →
      (q = r ∧ u = user') ∨ (q ≠ r ∧ s.users q = some u) := by
    intro q u hq
    rw [Server.users_setUser] at hq
    split at hq
    · exact .inl ⟨‹_›, (Option.some.inj hq).symm⟩
    · exact .inr ⟨‹_›, hq⟩
  have hself : (s.setUser r (some user')).users r = some user' := by rw [Server.users_setUser, if_pos rfl]
  have hother : ∀ q u, q ≠ r → s.users q = some u → (s.setUser r (some user')).users q = some u := by
    intro q u hqr hq
    rw [Server.users_setUser, if_neg hqr, hq]
  refine ⟨?_, ?_, ?_, ?_, ?_, ?_, ?_⟩
  · intro q u hq
    rcases hcases q u hq with ⟨rfl, -⟩ | ⟨-, hq⟩
    · exact hs.fresh q user hu
    · exact hs.fresh q u hq
  · intro name q hq
    obtain ⟨u, hq0, hn⟩ := hs.byName name q hq
    by_cases hqr : q = r
    · subst hqr
      rw [hu] at hq0
      obtain rfl := Option.some.inj hq0
      exact ⟨user', hself, hname.trans hn⟩
    · exact ⟨u, hother q u hqr hq0, hn⟩
  · intro q u hq
    rcases hcases q u hq with ⟨rfl, rfl⟩ | ⟨-, hq⟩
    · rw [hname]
      exact hs.named q user hu
    · exact hs.named q u hq
  · intro userId q hq
    obtain ⟨hne, u, hq0, huid, hof, hhas⟩ := hs.byId userId q hq
    by_cases hqr : q = r
    · subst hqr
      rw [hu] at hq0
      obtain rfl := Option.some.inj hq0
      exact ⟨hne, user', hself, hid.trans huid, by rw [hname, hof], hsome⟩
    · exact ⟨hne, u, hother q u hqr hq0, huid, hof, hhas⟩
  · intro q u hq
    rcases hcases q u hq with ⟨rfl, rfl⟩ | ⟨-, hq⟩
    · refine .inl ?_
      rw [hid]
      refine (hs.idle q user hu).resolve_right fun h => ?_
      obtain ⟨handle, d, hd⟩ := hsome
      have := ((hmem handle d).1 hd).1
      rw [h.2] at this
      cases this
    · exact hs.idle q u hq
  · intro q u handle d hq hd
    rcases hcases q u hq with ⟨rfl, rfl⟩ | ⟨hqr, hq⟩
    · obtain ⟨hd, hdc⟩ := (hmem handle d).1 hd
      rw [hid]
      exact ⟨hs.member q user handle d hu hd, hdc⟩
    · have hlive := hs.member q u handle d hq hd
      refine ⟨hlive, ?_⟩
      rintro rfl
      exact hqr (users_inj hs hq hd hu (hc handle _ hlive))
  · rintro d handle userId ⟨hlive, hdc⟩
    obtain ⟨q, u, hq, hq0, hm⟩ := hs.joined d handle userId hlive
    by_cases hqr : q = r
    · subst hqr
      rw [hu] at hq0
      obtain rfl := Option.some.inj hq0
      exact ⟨q, user', hq, hself, (hmem handle d).2 ⟨hm, hdc⟩⟩
    · exact ⟨q, u, hq, hother q u hqr hq0, hm⟩

/-- User `r`, whose only connection `c` is, is deleted, and taken out of both maps. -/
theorem users_removed (hs : s.Users idOf Live) (hu : s.users r = some user)
    (hall : ∀ (handle : Nat) d, user.connMap[handle]? = some d → d = c)
    (husers : ∀ q, s'.users q = if q = r then none else s.users q) (hnext : s'.nextUser = s.nextUser)
    (hid : ∀ userId, s'.getImUserById userId = if userId = user.userId then none else s.getImUserById userId)
    (hname : ∀ name, s'.getImUserByLoginName name = if name = user.loginName then none else s.getImUserByLoginName name)
    (hc : ∀ handle userId, Live c handle userId → userId = user.userId) :
    s'.Users idOf fun d handle userId => Live d handle userId ∧ d ≠ c := by
  have hback : ∀ q u, s'.users q = some u → q ≠ r ∧ s.users q = some u := by
    intro q u hq
    rw [husers] at hq
    split at hq
    · cases hq
    · exact ⟨‹_›, hq⟩
  have hother : ∀ q u, q ≠ r → s.users q = some u → s'.users q = some u := by
    intro q u hqr hq
    rw [husers, if_neg hqr, hq]
  -- whoever is registered under the user's id is the user
  have hreg : ∀ q, s.getImUserById user.userId = some q → q = r := by
    intro q hq
    rcases hs.idle r user hu with h | ⟨hzero, -⟩
    · rw [hq] at h
      exact Option.some.inj h
    · rw [hzero] at hq
      exact absurd rfl (hs.byId 0 q hq).1
  refine ⟨?_, ?_, ?_, ?_, ?_, ?_, ?_⟩
  · intro q u hq
    rw [hnext]
    exact hs.fresh q u (hback q u hq).2
  · intro name q hq
    rw [hname] at hq
    split at hq
    · cases hq
    · rename_i hne
      obtain ⟨u, hq0, hn⟩ := hs.byName name q hq
      refine ⟨u, hother q u ?_ hq0, hn⟩
      rintro rfl
      rw [hu] at hq0
      obtain rfl := Option.some.inj hq0
      exact hne hn.symm
  · intro q u hq
    obtain ⟨hqr, hq0⟩ := hback q u hq
    have hfind := hs.named q u hq0
    rw [hname, if_neg, hfind]
    intro heq
    rw [heq, hs.named r user hu] at hfind
    exact hqr (Option.some.inj hfind).symm
  · intro userId q hq
    rw [hid] at hq
    split at hq
    · cases hq
    · rename_i hne
      obtain ⟨hzero, u, hq0, huid, hrest⟩ := hs.byId userId q hq
      refine ⟨hzero, u, hother q u ?_ hq0, huid, hrest⟩
      rintro rfl
      rw [hu] at hq0
      obtain rfl := Option.some.inj hq0
      exact hne huid.symm
  · intro q u hq
    obtain ⟨hqr, hq0⟩ := hback q u hq
    refine (hs.idle q u hq0).imp (fun h => ?_) id
    rw [hid, if_neg, h]
    intro heq
    rw [heq] at h
    exact hqr (hreg q h)
  · intro q u handle d hq hd
    obtain ⟨hqr, hq0⟩ := hback q u hq
    have hlive := hs.member q u handle d hq0 hd
    refine ⟨hlive, ?_⟩
    rintro rfl
    exact hqr (users_inj hs hq0 hd hu (hc handle _ hlive))
  · rintro d handle userId ⟨hlive, hdc⟩
    obtain ⟨q, u, hq, hq0, hm⟩ := hs.joined d handle userId hlive
    have hqr : q ≠ r := by
      rintro rfl
      rw [hu] at hq0
      obtain rfl := Option.some.inj hq0
      exact hdc (hall handle d hm)
    refine ⟨q, u, ?_, hother q u hqr hq0, hm⟩
    rw [hid, if_neg, hq]
    rintro rfl
    exact hqr (hreg q hq)

theorem getElem?_erase_nat {β : Type} (m : TreeMap Nat β) (k a : Nat) : (m.erase k)[a]? = if a = k then none else m[a]? := by
  rw [TreeMap.getElem?_erase]
  by_cases h : a = k
  · rw [if_pos (Nat.compare_eq_eq.2 h.symm), if_pos h]
  · rw [if_neg fun heq => h (Nat.compare_eq_eq.1 heq).symm, if_neg h]

theorem getElem?_erase_string {β : Type} (m : TreeMap String β) (k a : String) :
    (m.erase k)[a]? = if a = k then none else m[a]? := by
  rw [TreeMap.getElem?_erase]
  by_cases h : a = k
  · rw [h, if_pos Std.ReflCmp.compare_self, if_pos rfl]
  · rw [if_neg fun heq => h (Std.LawfulEqOrd.eq_of_compare heq).symm, if_neg h]

/-- What `Close` does to one of the users: `c` leaves it, and it is removed when nobody is left. -/
theorem users_replaceUser (hs : s.Users idOf Live) (hu : s.users r = some user) (user' : ImUser)
    (hid : user'.userId = user.userId) (hname : user'.loginName = user.loginName)
    (hmem : ∀ (handle : Nat) d, user'.connMap[handle]? = some d ↔ user.connMap[handle]? = some d ∧ d ≠ c)
    (hc : ∀ handle userId, Live c handle userId → userId = user.userId) :
    (s.replaceUser r user').Users idOf fun d handle userId => Live d handle userId ∧ d ≠ c := by
  rw [Server.replaceUser, Server.removeIfEmpty]
  cases hempty : user'.isMsgConnEmpty with
  | false => exact users_thinned hs hu hid hname hmem hempty hc
  | true =>
    rw [if_pos rfl]
    refine users_removed hs hu ?_ ?_ rfl ?_ ?_ hc
    · intro handle d hd
      by_contra hdc
      have := (hmem handle d).2 ⟨hd, hdc⟩
      rw [(isMsgConnEmpty_iff user').1 hempty] at this
      cases this
    · intro q
      change (Server.setUser (s.setUser r (some user')) r none).users q = _
      rw [Server.users_setUser, Server.users_setUser]
      split <;> rfl
    · intro userId
      rw [← hid]
      exact getElem?_erase_nat s.imUserMap _ _
    · intro name
      rw [← hname]
      exact getElem?_erase_string s.imUserMapByName _ _

/-- `Close`: connection `c` leaves its users. -/
theorem users_closes (hs : s.Users idOf Live) {conn : MsgConn} {s1 s2 : Server} {out reported notified : List Effect}
    (h : Closes s c conn out s' s1 s2 reported notified)
    (hmine : ∀ handle userId, Live c handle userId → userId = conn.userId)
    (hhandle : ∀ d handle userId, Live d handle userId → (handle = conn.handle ↔ d = c)) :
    s'.Users idOf fun d handle userId => Live d handle userId ∧ d ≠ c := by
  have hs0 : Server.Users idOf Live { s with msgConnMap := s.msgConnMap.erase conn.handle } :=
    users_congr hs rfl rfl rfl rfl fun _ _ _ => Iff.rfl
  have hs1 : s1.Users idOf fun d handle userId => Live d handle userId ∧ d ≠ c := by
    rcases closeById_ok (s := { s with msgConnMap := s.msgConnMap.erase conn.handle }) h.conn_eq h.live h.byId with
      ⟨hnone, hs1, -⟩ | ⟨r, user, hr, hu, hs1, -⟩
    · -- nobody is registered under the connection's id, so it is not validated
      rw [hs1]
      refine users_congr hs0 rfl rfl rfl rfl fun d handle userId => and_iff_left_of_imp fun hlive => ?_
      rintro rfl
      obtain ⟨q, u, hq, -⟩ := hs0.joined d handle userId hlive
      rw [hmine handle userId hlive, hnone] at hq
      cases hq
    · rw [hs1]
      obtain ⟨-, u, hu', huid, -⟩ := hs0.byId conn.userId r hr
      rw [hu] at hu'
      obtain rfl := Option.some.inj hu'
      refine users_replaceUser hs0 hu ((user.delMsgConn conn.handle).delUnValidateMsgConn c) rfl rfl ?_ ?_
      · intro handle d
        change (user.connMap.erase conn.handle)[handle]? = some d ↔ _
        rw [getElem?_erase_nat]
        split
        · rename_i heq
          refine ⟨fun h => (by cases h), fun ⟨hd, hdc⟩ => absurd ?_ hdc⟩
          exact (hhandle d handle _ (hs0.member r user handle d hu hd)).1 heq
        · rename_i hne
          refine (and_iff_left_of_imp fun hd hdc => hne ?_).symm
          exact (hhandle d handle _ (hs0.member r user handle d hu hd)).2 hdc
      · intro handle userId hlive
        rw [huid]
        exact hmine handle userId hlive
  have hs2 : s2.Users idOf fun d handle userId => Live d handle userId ∧ d ≠ c := by
    obtain ⟨-, ⟨-, rfl⟩ | ⟨r, user, -, hu, rfl⟩⟩ := closeByLoginName_ok h.byLoginName
    · exact hs1
    · have hgone := users_replaceUser (c := c) hs1 hu (user.delUnValidateMsgConn c) rfl rfl
        (fun handle d => (and_iff_left_of_imp fun hd => (hs1.member r user handle d hu hd).2).symm)
        fun handle userId hlive => absurd rfl hlive.2
      exact users_congr hgone rfl rfl rfl rfl fun d _ _ => (and_iff_left_of_imp fun h => h.2).symm
  rw [h.state_eq]
  exact users_congr hs2 rfl rfl rfl rfl fun _ _ _ => Iff.rfl

/-! ## A connection is validated -/

/-- A user that nobody has joined is deleted, with its name. -/
theorem users_dropIfEmpty (hs : s.Users idOf Live) (hu : s.users r = some user)
    (hidle : user.isMsgConnEmpty = true → user.userId = 0) (hc : ∀ handle userId, ¬Live c handle userId) :
    (s.dropIfEmpty r user.loginName user).Users idOf Live := by
  rw [Server.dropIfEmpty]
  cases hempty : user.isMsgConnEmpty with
  | false => exact hs
  | true =>
    rw [if_pos rfl]
    have hnone := (isMsgConnEmpty_iff user).1 hempty
    have hzero := hidle hempty
    have hgone : Server.Users idOf (fun d handle userId => Live d handle userId ∧ d ≠ c)
        { s.setUser r none with imUserMapByName := s.imUserMapByName.erase user.loginName } := by
      refine users_removed hs hu ?_ (fun q => Server.users_setUser s r none q) rfl ?_ ?_ fun handle userId h => ?_
      · intro handle d hd
        rw [hnone] at hd
        cases hd
      · intro userId
        split
        · rename_i heq
          rw [heq, hzero]
          refine Option.eq_none_iff_forall_ne_some.2 fun q hq => ?_
          exact (hs.byId 0 q hq).1 rfl
        · rfl
      · intro name
        exact getElem?_erase_string s.imUserMapByName _ _
      · exact absurd h (hc handle userId)
    refine users_congr hgone rfl rfl rfl rfl fun d handle userId => (and_iff_left_of_imp fun h => ?_).symm
    rintro rfl
    exact hc handle userId h

/-- Connection `c` joins user `q` under the id that the DB proxy gave; the user is registered under it, or is new. -/
theorem users_join (hs : s.Users idOf Live) {q : UserRef} {handle userId : Nat} (hq : s.users q = some user)
    (s' : Server) (user' : ImUser) (hne : userId ≠ 0) (hof : userId = idOf user.loginName) (hfree : ∀ d userId, ¬Live d handle userId)
    (hreg : s.getImUserById userId = some q ∨
      (s.getImUserById userId = none ∧ user.userId = 0 ∧ ∀ handle : Nat, user.connMap[handle]? = none))
    (husers : ∀ p, s'.users p = if p = q then some user' else s.users p) (hnext : s'.nextUser = s.nextUser)
    (hids : ∀ i, s'.getImUserById i = if i = userId then some q else s.getImUserById i)
    (hnames : ∀ name, s'.getImUserByLoginName name = s.getImUserByLoginName name) (huid : user'.userId = userId)
    (hname : user'.loginName = user.loginName)
    (hconns : ∀ h : Nat, user'.connMap[h]? = if h = handle then some c else user.connMap[h]?) :
    s'.Users idOf fun d h i => Live d h i ∨ (d = c ∧ h = handle ∧ i = userId) := by
  have hcases : ∀ p u, s'.users p = some u → (p = q ∧ u = user') ∨ (p ≠ q ∧ s.users p = some u) := by
    intro p u hp
    rw [husers] at hp
    split at hp
    · exact .inl ⟨‹_›, (Option.some.inj hp).symm⟩
    · exact .inr ⟨‹_›, hp⟩
  have hself : s'.users q = some user' := by rw [husers, if_pos rfl]
  have hother : ∀ p u, p ≠ q → s.users p = some u → s'.users p = some u := by
    intro p u hpq hp
    rw [husers, if_neg hpq, hp]
  -- the user had the id before, when it had a connection
  have hidq : ∀ (h : Nat) (d : ConnId), user.connMap[h]? = some d → user.userId = userId := by
    intro h d hd
    rcases hreg with hreg | ⟨-, -, hnone⟩
    · obtain ⟨-, u, hq', hu, -⟩ := hs.byId userId q hreg
      rw [hq] at hq'
      obtain rfl := Option.some.inj hq'
      exact hu
    · rw [hnone] at hd
      cases hd
  have hfind : ∀ p, s.getImUserById userId = some p → p = q := by
    intro p hp
    rcases hreg with hreg | ⟨hreg, -⟩
    · rw [hp] at hreg
      exact Option.some.inj hreg
    · rw [hp] at hreg
      cases hreg
  refine ⟨?_, ?_, ?_, ?_, ?_, ?_, ?_⟩
  · intro p u hp
    rw [hnext]
    rcases hcases p u hp with ⟨rfl, -⟩ | ⟨-, hp⟩
    · exact hs.fresh p user hq
    · exact hs.fresh p u hp
  · intro name p hp
    rw [hnames] at hp
    obtain ⟨u, hp0, hn⟩ := hs.byName name p hp
    by_cases hpq : p = q
    · subst hpq
      rw [hq] at hp0
      obtain rfl := Option.some.inj hp0
      exact ⟨user', hself, hname.trans hn⟩
    · exact ⟨u, hother p u hpq hp0, hn⟩
  · intro p u hp
    rw [hnames]
    rcases hcases p u hp with ⟨rfl, rfl⟩ | ⟨-, hp⟩
    · rw [hname]
      exact hs.named p user hq
    · exact hs.named p u hp
  · intro i p hp
    rw [hids] at hp
    split at hp
    · rename_i hi
      obtain rfl := Option.some.inj hp
      rw [hi]
      exact ⟨hne, user', hself, huid, by rw [hname, hof], handle, c, by rw [hconns, if_pos rfl]⟩
    · rename_i hi
      obtain ⟨hi0, u, hp0, hu, hrest, h, d, hd⟩ := hs.byId i p hp
      have hpq : p ≠ q := by
        rintro rfl
        rw [hq] at hp0
        obtain rfl := Option.some.inj hp0
        exact hi (hu.symm.trans (hidq h d hd))
      exact ⟨hi0, u, hother p u hpq hp0, hu, hrest, h, d, hd⟩
  · intro p u hp
    rcases hcases p u hp with ⟨rfl, rfl⟩ | ⟨hpq, hp⟩
    · exact .inl (by rw [hids, huid, if_pos rfl])
    · refine (hs.idle p u hp).imp (fun h => ?_) id
      rw [hids, if_neg, h]
      intro heq
      rw [heq] at h
      exact hpq (hfind p h)
  · intro p u h d hp hd
    rcases hcases p u hp with ⟨rfl, rfl⟩ | ⟨hpq, hp⟩
    · rw [hconns] at hd
      split at hd
      · exact .inr ⟨(Option.some.inj hd).symm, ‹_›, huid⟩
      · rw [huid, ← hidq h d hd]
        exact .inl (hs.member p user h d hq hd)
    · exact .inl (hs.member p u h d hp hd)
  · rintro d h i (hlive | ⟨rfl, rfl, rfl⟩)
    · obtain ⟨p, u, hp, hp0, hm⟩ := hs.joined d h i hlive
      by_cases hpq : p = q
      · subst hpq
        rw [hq] at hp0
        obtain rfl := Option.some.inj hp0
        refine ⟨p, user', ?_, hself, ?_⟩
        · rw [hids]
          split
          · rfl
          · exact hp
        · rw [hconns, if_neg, hm]
          rintro rfl
          exact hfree d i hlive
      · refine ⟨p, u, ?_, hother p u hpq hp0, hm⟩
        rw [hids, if_neg, hp]
        rintro rfl
        exact hpq (hfind p hp)
    · exact ⟨q, user', by rw [hids, if_pos rfl], hself, by rw [hconns, if_pos rfl]⟩

end UserMapsAux

end TeamTalk
