import TeamTalk.DbProxy.GroupRuns
import TeamTalk.MsgServer.GroupChat

/-!
# Who opens a group

Requests of clients come through the message server, which writes the user of the connection into them. What a request has done is said
once, as an effect on the store; who came and who left is read from that.
-/

namespace TeamTalk.DbProxy.Groups

open Prog (when)

/-- A message of a client, with the connection that it comes on, and the connection that it takes to the DB proxy. -/
structure GroupRequest where
  conn : MsgConn
  connUuid : Nat
  msg : Msg

/-- What the message server passes on, if it does so. How many messages it lets through is left out. -/
def GroupRequest.passedOn (r : GroupRequest) : Option Msg :=
  match r.msg with
  | .imGroupCreateReq msg => (fillGroupCreate r.conn (.imGroupCreateReq msg)).map Prod.fst
  | .imGroupChangeMemberReq msg => (fillGroupChangeMember r.conn (.imGroupChangeMemberReq msg)).map Prod.fst
  | .imGroupShieldReq msg => (fillGroupShield r.conn (.imGroupShieldReq msg)).map Prod.fst
  | .imMsgData msg => some (.imMsgData { msg with fromUserId := r.conn.userId, attachData := r.conn.attach })
  | _ => none

/-- What the DB proxy does with it. -/
def handleGroupPdu (connUuid : Nat) : Msg → Prog calls Unit
  | .imGroupCreateReq msg => Action.createGroup connUuid msg
  | .imGroupChangeMemberReq msg => Action.modifyMember connUuid msg
  | .imGroupShieldReq msg => Action.setGroupPush connUuid msg
  | .imMsgData msg =>
    when (msg.msgType = msgTypeGroupText ∨ msg.msgType = msgTypeGroupAudio) do
      let _ ← Action.mayWrite msg.fromUserId msg.toSessionId
  | _ => pure ()

/-- The store after a request. -/
def GroupRequest.after (s : Store) (r : GroupRequest) : Store :=
  match r.passedOn with
  | some msg => (s.run (handleGroupPdu r.connUuid msg)).1
  | none => s

/-- One request after another. -/
def requestStep (s : Store) (r : GroupRequest) : Option (Store × List Empty) := some (r.after s, [])

/-- The request comes from a user who has logged in. -/
def GroupRequest.LoggedIn (r : GroupRequest) : Prop := r.conn.bOpen = true ∧ r.conn.userId ≠ 0

namespace Store

/-- Redis has the user among the members of the group. -/
def IsMember (s : Store) (groupId userId : Nat) : Prop := userId ∈ s.groupMember groupId

/-- The group was made by the user. -/
def IsCreator (s : Store) (groupId userId : Nat) : Prop := ∃ row ∈ s.groups, row.id = groupId ∧ row.creator = userId

/-- The group is a temporary one. -/
def IsTemporary (s : Store) (groupId : Nat) : Prop := ∃ row ∈ s.groups, row.id = groupId ∧ row.type = groupTypeTmp

/-- Ids are given in order, and redis has members of groups with a row only. -/
structure Kept (s : Store) : Prop where
  positive : 0 < s.nextGroupId
  known : ∀ g u, s.IsMember g u → g < s.nextGroupId

end Store

/-- The request makes the next group, with the user in its list. -/
def GroupRequest.Lists (r : GroupRequest) (s : Store) (groupId userId : Nat) : Prop :=
  ∃ msg, r.msg = .imGroupCreateReq msg ∧ userId ∈ msg.memberIdList ∧ groupId = s.nextGroupId

/-- The request is to add the user to the group, or to remove him from it. -/
def GroupRequest.Asks (r : GroupRequest) (changeType groupId userId : Nat) : Prop :=
  ∃ msg, r.msg = .imGroupChangeMemberReq msg ∧ msg.changeType = changeType ∧ msg.groupId = groupId ∧ userId ∈ msg.memberIdList

/-- Only insiders open a group, and only the creator removes others. -/
def OnlyInsiders : Prop :=
  ∀ log s, Machine.Run requestStep (fun _ r => r.LoggedIn) Store.init log s → ∀ r : GroupRequest, r.LoggedIn → ∀ g u,
    (¬s.IsMember g u → (r.after s).IsMember g u → r.Lists s g u ∨
      r.Asks groupModifyTypeAdd g u ∧ (s.IsCreator g r.conn.userId ∨ s.IsMember g r.conn.userId)) ∧
    (s.IsMember g u → ¬(r.after s).IsMember g u →
      r.Asks groupModifyTypeDel g u ∧ (s.IsCreator g r.conn.userId ∨ u = r.conn.userId))

namespace InsidersAux

open RunsAux

/-! ## What a request does -/

/-- The members stay who they are; a new group is made; or who may do so adds and removes members. -/
inductive Effect (s : Store) (r : GroupRequest) : Store → Prop where
  | nothing {s' : Store} (hmembers : s'.groupMember = s.groupMember) (hnext : s'.nextGroupId = s.nextGroupId) : Effect s r s'
  | created {msg : IMGroupCreateReq} {s' : Store} (hmsg : r.msg = .imGroupCreateReq msg)
      (hmembers : ∀ g u, s'.IsMember g u ↔ s.IsMember g u ∧ g ≠ s.nextGroupId ∨ g = s.nextGroupId ∧ u ∈ msg.memberIdList)
      (hnext : s'.nextGroupId = s.nextGroupId + 1) : Effect s r s'
  | added {msg : IMGroupChangeMemberReq} {users : List Nat} {s' : Store} (hmsg : r.msg = .imGroupChangeMemberReq msg)
      (htype : msg.changeType = groupModifyTypeAdd) (hwas : s.groupMember msg.groupId ≠ [])
      (hmay : s.IsCreator msg.groupId r.conn.userId ∨ s.IsTemporary msg.groupId) (husers : ∀ u ∈ users, u ∈ msg.memberIdList)
      (hmembers : ∀ g u, s'.IsMember g u ↔ s.IsMember g u ∨ g = msg.groupId ∧ u ∈ users)
      (hnext : s'.nextGroupId = s.nextGroupId) : Effect s r s'
  | removed {msg : IMGroupChangeMemberReq} {s' : Store} (hmsg : r.msg = .imGroupChangeMemberReq msg)
      (htype : msg.changeType = groupModifyTypeDel) (hmay : s.IsCreator msg.groupId r.conn.userId)
      (hmembers : ∀ g u, s'.IsMember g u ↔ s.IsMember g u ∧ ¬(g = msg.groupId ∧ u ∈ msg.memberIdList))
      (hnext : s'.nextGroupId = s.nextGroupId) : Effect s r s'

/-- Who may add is the creator, or anyone to a temporary group; who may remove is the creator. -/
theorem may_of_permits {s : Store} {userId g type : Nat} (hu : userId ≠ 0)
    (h : (s.run (hasModifyPermission userId g type)).2 = true) :
    s.IsCreator g userId ∨ type = groupModifyTypeAdd ∧ s.IsTemporary g := by
  rw [run_hasModifyPermission, decide_eq_false hu, Bool.false_or, List.any_map, List.any_eq_true] at h
  obtain ⟨row, hrow, hpermits⟩ := h
  obtain ⟨hin, hid⟩ := List.mem_filter.1 hrow
  simp only [Function.comp_apply, permits, Bool.and_eq_true, Bool.or_eq_true, beq_iff_eq] at hpermits
  rcases hpermits.2 with ⟨htmp, hadd⟩ | hcreator
  · exact .inr ⟨hadd, row, hin, of_decide_eq_true hid, htmp⟩
  · exact .inl ⟨row, hin, of_decide_eq_true hid, hcreator⟩

theorem effect_createGroup {s : Store} {r : GroupRequest} {msg : IMGroupCreateReq} (hmsg : r.msg = .imGroupCreateReq msg)
    (hkept : s.Kept) (connUuid userId : Nat) (attachData : Option Bytes) :
    Effect s r (s.run (Action.createGroup connUuid { msg with userId, attachData })).1 := by
  simp only [Action.createGroup]
  rw [run_when]
  split
  · rw [run_bind, run_addResponsePdu]
    dsimp only
    by_cases hnobody : msg.groupName = "" ∨ (UserSet.ofList msg.memberIdList).users = []
    · rw [run_createGroup_nobody s hnobody]
      exact .nothing rfl rfl
    · rw [not_or] at hnobody
      rw [run_createGroup s hnobody.1 hnobody.2 (Nat.ne_of_gt hkept.positive)]
      refine .created hmsg (fun g u => ?_) rfl
      simp only [Store.IsMember, mem_withMembers, mem_cleared, UserSet.mem_ofList]
      exact Iff.rfl
  · exact .nothing rfl rfl

theorem effect_modifyMember {s : Store} {r : GroupRequest} {msg : IMGroupChangeMemberReq}
    (hmsg : r.msg = .imGroupChangeMemberReq msg) (hu : r.conn.userId ≠ 0) (connUuid : Nat) (attachData : Option Bytes) :
    Effect s r (s.run (Action.modifyMember connUuid { msg with userId := r.conn.userId, attachData })).1 := by
  simp only [Action.modifyMember]
  rw [run_when]
  split
  · rw [isValidateGroupId, run_bind, run_isExists]
    dsimp only
    split
    · rename_i hwas
      have hwas := of_decide_eq_true hwas
      rw [run_bind, run_addResponsePdu, modifyGroupMember, run_bind]
      have hstore : (s.run (hasModifyPermission r.conn.userId msg.groupId msg.changeType)).1 = s := by
        rw [run_hasModifyPermission]
      rw [hstore]
      split
      · rename_i hpermits
        have hmay := may_of_permits hu hpermits
        rw [run_bind, run_ite]
        split
        · -- users are added
          rename_i hadd
          rw [run_addMember, run_bind, run_when]
          dsimp only
          have hmay := hmay.imp_right And.right
          by_cases hnew : msg.groupId ≠ 0 ∧ s.absent msg.groupId (UserSet.ofList msg.memberIdList).users ≠ []
          · rw [if_pos hnew, decide_eq_true hnew, if_pos rfl]
            have husers : ∀ u ∈ s.absent msg.groupId (UserSet.ofList msg.memberIdList).users, u ∈ msg.memberIdList :=
              fun u hin => UserSet.mem_ofList.1 (mem_of_absent hin)
            exact .added hmsg hadd hwas hmay husers (fun g u => mem_withMembers) rfl
          · rw [if_neg hnew, decide_eq_false hnew, if_neg Bool.false_ne_true]
            exact .nothing rfl rfl
        · rename_i hnot
          rw [run_ite]
          split
          · -- users are removed
            rename_i hdel
            obtain ⟨cur, hrun⟩ := @run_removeMember s msg.groupId (.ofList msg.memberIdList)
            have hmay := hmay.resolve_right fun h => hnot h.1
            rw [hrun, run_bind, run_when]
            dsimp only
            rw [if_pos rfl]
            refine .removed hmsg hdel hmay (fun g u => ?_) rfl
            refine mem_withoutMembers.trans ?_
            rw [UserSet.mem_ofList]
            exact Iff.rfl
          · exact .nothing rfl rfl
      · exact .nothing rfl rfl
    · exact .nothing rfl rfl
  · exact .nothing rfl rfl

theorem effect_setGroupPush {s : Store} {r : GroupRequest} (connUuid : Nat) (msg : IMGroupShieldReq) :
    Effect s r (s.run (Action.setGroupPush connUuid msg)).1 := by
  rw [Action.setGroupPush, isValidateGroupId, run_bind, run_isExists]
  dsimp only
  split
  · rw [run_bind, run_addResponsePdu, setPush, isInGroup, run_bind, run_hget]
    dsimp only
    split
    · exact .nothing rfl rfl
    · exact .nothing rfl rfl
  · exact .nothing rfl rfl

theorem effect_send {s : Store} {r : GroupRequest} (connUuid : Nat) (msg : IMMsgData) :
    Effect s r (s.run (handleGroupPdu connUuid (.imMsgData msg))).1 := by
  rw [handleGroupPdu, run_when]
  split
  · rw [run_bind, run_pure, Action.mayWrite, isValidateGroupId, run_bind, run_isExists]
    dsimp only
    split
    · exact .nothing rfl rfl
    · exact .nothing rfl rfl
  · exact .nothing rfl rfl

theorem effect_request {s : Store} {r : GroupRequest} (hkept : s.Kept) (hr : r.LoggedIn) : Effect s r (r.after s) := by
  rw [GroupRequest.after, GroupRequest.passedOn]
  split
  · rename_i msg' hpassed
    split at hpassed
    · rename_i msg hmsg
      rw [fillGroupCreate] at hpassed
      split at hpassed
      · cases hpassed
      · obtain rfl := Option.some.inj hpassed
        exact effect_createGroup hmsg hkept _ _ _
    · rename_i msg hmsg
      obtain rfl := Option.some.inj hpassed
      exact effect_modifyMember hmsg hr.2 _ _
    · obtain rfl := Option.some.inj hpassed
      exact effect_setGroupPush _ _
    · obtain rfl := Option.some.inj hpassed
      exact effect_send _ _
    · cases hpassed
  · exact .nothing rfl rfl

/-! ## Every request -/

theorem kept_effect {s s' : Store} {r : GroupRequest} (hkept : s.Kept) (h : Effect s r s') : s'.Kept := by
  cases h with
  | nothing hmembers hnext =>
    refine ⟨hnext ▸ hkept.positive, fun g u hin => ?_⟩
    rw [Store.IsMember, hmembers] at hin
    exact hnext ▸ hkept.known g u hin
  | created hmsg hmembers hnext =>
    refine ⟨hnext ▸ Nat.succ_pos _, fun g u hin => ?_⟩
    rw [hnext]
    rcases (hmembers g u).1 hin with ⟨hold, -⟩ | ⟨rfl, -⟩
    · exact Nat.lt_succ_of_lt (hkept.known g u hold)
    · exact Nat.lt_succ_self _
  | added hmsg htype hwas hmay husers hmembers hnext =>
    refine ⟨hnext ▸ hkept.positive, fun g u hin => hnext ▸ ?_⟩
    rcases (hmembers g u).1 hin with hold | ⟨rfl, -⟩
    · exact hkept.known g u hold
    · obtain ⟨u0, hu0⟩ := List.exists_mem_of_ne_nil _ hwas
      exact hkept.known _ u0 hu0
  | removed hmsg htype hmay hmembers hnext =>
    refine ⟨hnext ▸ hkept.positive, fun g u hin => hnext ▸ ?_⟩
    exact hkept.known g u ((hmembers g u).1 hin).1

theorem kept_init : Store.init.Kept := ⟨Nat.one_pos, nofun⟩

/-- Who comes was listed, or added by one who may. -/
theorem comes_effect {s s' : Store} {r : GroupRequest} (h : Effect s r s') {g u : Nat} (hwas : ¬s.IsMember g u)
    (his : s'.IsMember g u) :
    r.Lists s g u ∨ r.Asks groupModifyTypeAdd g u ∧ (s.IsCreator g r.conn.userId ∨ s.IsTemporary g) := by
  cases h with
  | nothing hmembers hnext =>
    rw [Store.IsMember, hmembers] at his
    exact absurd his hwas
  | created hmsg hmembers hnext =>
    rcases (hmembers g u).1 his with ⟨hold, -⟩ | ⟨rfl, hin⟩
    · exact absurd hold hwas
    · exact .inl ⟨_, hmsg, hin, rfl⟩
  | added hmsg htype hsome hmay husers hmembers hnext =>
    rcases (hmembers g u).1 his with hold | ⟨rfl, hin⟩
    · exact absurd hold hwas
    · exact .inr ⟨⟨_, hmsg, htype, rfl, husers u hin⟩, hmay⟩
  | removed hmsg htype hmay hmembers hnext => exact absurd ((hmembers g u).1 his).1 hwas

/-- Who leaves was removed by the creator. -/
theorem leaves_effect {s s' : Store} {r : GroupRequest} (hkept : s.Kept) (h : Effect s r s') {g u : Nat} (hwas : s.IsMember g u)
    (his : ¬s'.IsMember g u) : r.Asks groupModifyTypeDel g u ∧ s.IsCreator g r.conn.userId := by
  cases h with
  | nothing hmembers hnext =>
    rw [Store.IsMember, hmembers] at his
    exact absurd hwas his
  | created hmsg hmembers hnext =>
    -- the group that is cleared had no members
    exact absurd ((hmembers g u).2 (.inl ⟨hwas, Nat.ne_of_lt (hkept.known g u hwas)⟩)) his
  | added hmsg htype hsome hmay husers hmembers hnext => exact absurd ((hmembers g u).2 (.inl hwas)) his
  | removed hmsg htype hmay hmembers hnext =>
    rw [hmembers, not_and, not_not] at his
    obtain ⟨rfl, hin⟩ := his hwas
    exact ⟨⟨_, hmsg, htype, rfl, hin⟩, hmay⟩

/-- A user with a connection. -/
def openConn (handle userId : Nat) : MsgConn :=
  { handle, loginName := "", userId, bOpen := true, bKickOff := false, loginTime := 0, clientVersion := "", sendMsgList := []
    msgCntPerSec := 0, clientType := 0, onlineStatus := 0, lastRecvTick := 0, refCount := 1 }

/-- User 7 makes a temporary group of his own. -/
def firstGroup : GroupRequest :=
  { conn := openConn 1 7, connUuid := 0
    msg := .imGroupCreateReq
      { userId := 0, groupType := groupTypeTmp, groupName := "g", groupAvatar := "", memberIdList := [7], attachData := none } }

/-- User 9, who is not in the group, adds himself. -/
def stranger : GroupRequest :=
  { conn := openConn 2 9, connUuid := 0
    msg := .imGroupChangeMemberReq
      { userId := 0, changeType := groupModifyTypeAdd, groupId := 1, memberIdList := [9], attachData := none } }

end InsidersAux

open InsidersAux

/-- A user comes to a group only when he is in its first list, or at the request of its creator, or, to a temporary group, of any user
who has logged in; he leaves only at the request of its creator. -/
theorem insiders_kept (start : Store) (hstart : start.Kept) (log : List Empty) (s : Store)
    (hrun : Machine.Run requestStep (fun _ r => r.LoggedIn) start log s) (r : GroupRequest) (hr : r.LoggedIn) (g u : Nat) :
    (¬s.IsMember g u → (r.after s).IsMember g u → r.Lists s g u ∨
      r.Asks groupModifyTypeAdd g u ∧ (s.IsCreator g r.conn.userId ∨ s.IsTemporary g)) ∧
    (s.IsMember g u → ¬(r.after s).IsMember g u →
      r.Asks groupModifyTypeDel g u ∧ s.IsCreator g r.conn.userId) := by
  have hkept : s.Kept := by
    refine hrun.invariant (I := fun _ s => s.Kept) hstart fun h hr' hstep => ?_
    obtain ⟨rfl, -⟩ := Prod.mk.inj (Option.some.inj hstep)
    exact kept_effect h (effect_request h hr')
  have heffect := effect_request hkept hr
  exact ⟨comes_effect heffect, leaves_effect hkept heffect⟩

/-- The first group of a store, and the request of a stranger, who comes to it because it is temporary. -/
theorem insiders_kept_stranger : ∃ s, ¬s.IsMember 1 9 ∧ (stranger.after s).IsMember 1 9 ∧
    (stranger.Lists s 1 9 ∨ stranger.Asks groupModifyTypeAdd 1 9 ∧ (s.IsCreator 1 9 ∨ s.IsTemporary 1)) := by
  have hrun : Machine.Run requestStep (fun _ r => r.LoggedIn) Store.init [] _ :=
    .step .start (e := firstGroup) ⟨rfl, by decide⟩ rfl
  have hwas : ¬(firstGroup.after Store.init).IsMember 1 9 := by
    change ¬9 ∈ [7]
    decide
  have his : (stranger.after (firstGroup.after Store.init)).IsMember 1 9 := by
    change 9 ∈ [7, 9]
    decide
  exact ⟨_, hwas, his, (insiders_kept _ kept_init _ _ hrun stranger ⟨rfl, by decide⟩ 1 9).1 hwas his⟩

/-- A stranger opens a temporary group. -/
theorem not_onlyInsiders : ¬OnlyInsiders := by
  intro hall
  have hrun : Machine.Run requestStep (fun _ r => r.LoggedIn) Store.init [] _ :=
    .step .start (e := firstGroup) ⟨rfl, by decide⟩ rfl
  have hwas : ¬(firstGroup.after Store.init).IsMember 1 9 := by
    change ¬9 ∈ [7]
    decide
  have his : (stranger.after (firstGroup.after Store.init)).IsMember 1 9 := by
    change 9 ∈ [7, 9]
    decide
  rcases (hall _ _ hrun stranger ⟨rfl, by decide⟩ 1 9).1 hwas his with ⟨msg, hmsg, -⟩ | ⟨-, hcreator | hmember⟩
  · cases hmsg
  · obtain ⟨row, hrow, -, hcreator⟩ := hcreator
    obtain rfl := List.mem_singleton.1 hrow
    exact absurd hcreator (by decide)
  · exact hwas hmember

end TeamTalk.DbProxy.Groups
