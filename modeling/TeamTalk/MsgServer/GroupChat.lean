import TeamTalk.MsgServer.Requests

/-!
# Group requests

The requests of a client that `CGroupChat` handles: they go to the DB proxy, or are answered at once when there is none.
-/

namespace TeamTalk

open Action

/-- Pass a request on to the DB proxy, or answer the client when no connection to it is open. -/
def forwardOrAnswer (fill : MsgConn → Msg → Option (Msg × Pdu)) (c : ConnId) (pdu : Pdu) : Do Unit := do
  match fill (← getConn c) pdu.body with
  | some (body, answer) =>
    if (← read).getDbServConn then emit (.send c .db (pdu.setPBMsg body))
    else sendClient c c { answer with seqNum := pdu.seqNum }
  | none => return ()

/-- What `HandleClientGroupNormalRequest` passes on, or answers. The answer's user id is never set. -/
def fillGroupNormal (conn : MsgConn) : Msg → Option (Msg × Pdu)
  | .imNormalGroupListReq msg =>
    some (.imNormalGroupListReq { msg with userId := conn.userId, attachData := conn.attach },
      mkPdu sidGroup .groupNormalListResponse 0 (.imNormalGroupListRsp
        { userId := none, groupVersionList := [], attachData := none }))
  | _ => none

/-- `CGroupChat::HandleClientGroupNormalRequest`. -/
def handleClientGroupNormalRequest : ConnId → Pdu → Do Unit := forwardOrAnswer fillGroupNormal

/-- What `HandleClientGroupInfoRequest` passes on, or answers. -/
def fillGroupInfo (conn : MsgConn) : Msg → Option (Msg × Pdu)
  | .imGroupInfoListReq msg =>
    some (.imGroupInfoListReq { msg with userId := conn.userId, attachData := conn.pduAttach },
      mkPdu sidGroup .groupInfoResponse 0 (.imGroupInfoListRsp
        { userId := conn.userId, groupInfoList := [], attachData := none }))
  | _ => none

/-- `CGroupChat::HandleClientGroupInfoRequest`. -/
def handleClientGroupInfoRequest : ConnId → Pdu → Do Unit := forwardOrAnswer fillGroupInfo

/-- What `HandleClientGroupCreateRequest` passes on, or answers. A client may not create a normal group. -/
def fillGroupCreate (conn : MsgConn) : Msg → Option (Msg × Pdu)
  | .imGroupCreateReq msg =>
    if msg.groupType = groupTypeNormal then none
    else
      some (.imGroupCreateReq { msg with userId := conn.userId, attachData := conn.attach },
        mkPdu sidGroup .groupCreateResponse 0 (.imGroupCreateRsp
          { userId := conn.userId, resultCode := 1, groupId := none, groupName := msg.groupName, userIdList := [],
            attachData := none }))
  | _ => none

/-- `CGroupChat::HandleClientGroupCreateRequest`. -/
def handleClientGroupCreateRequest : ConnId → Pdu → Do Unit := forwardOrAnswer fillGroupCreate

/-- What `HandleClientGroupChangeMemberRequest` passes on, or answers. -/
def fillGroupChangeMember (conn : MsgConn) : Msg → Option (Msg × Pdu)
  | .imGroupChangeMemberReq msg =>
    some (.imGroupChangeMemberReq { msg with userId := conn.userId, attachData := conn.attach },
      mkPdu sidGroup .groupChangeMemberResponse 0 (.imGroupChangeMemberRsp
        { userId := conn.userId, changeType := msg.changeType, resultCode := 1, groupId := msg.groupId,
          curUserIdList := [], chgUserIdList := [], attachData := none }))
  | _ => none

/-- `CGroupChat::HandleClientGroupChangeMemberRequest`. -/
def handleClientGroupChangeMemberRequest : ConnId → Pdu → Do Unit := forwardOrAnswer fillGroupChangeMember

/-- What `HandleClientGroupShieldGroupRequest` passes on, or answers. The answer's group id is never set. -/
def fillGroupShield (conn : MsgConn) : Msg → Option (Msg × Pdu)
  | .imGroupShieldReq msg =>
    some (.imGroupShieldReq { msg with userId := conn.userId, attachData := conn.attach },
      mkPdu sidGroup .groupShieldGroupResponse 0 (.imGroupShieldRsp
        { userId := conn.userId, groupId := none, resultCode := 1, attachData := none }))
  | _ => none

/-- `CGroupChat::HandleClientGroupShieldGroupRequest`. -/
def handleClientGroupShieldGroupRequest : ConnId → Pdu → Do Unit := forwardOrAnswer fillGroupShield

end TeamTalk
