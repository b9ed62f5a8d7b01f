import Mathlib
import TeamTalk.Base.UtilPdu
import TeamTalk.Lib.Machine
import TeamTalk.Protocol.BaseDefine

/-!
# Users in route_server

`CUserInfo`: the connections of msg_servers that have reported a user, and how many clients of each type are online, counted
over all of them. `CRouteConn` keeps the map of users up to date.
-/

namespace TeamTalk.RouteServer

open Std (TreeMap TreeSet)

/-- A `CRouteConn*`; no number is given to two connections. -/
abbrev RouteConn := Nat

/-- One more, in `uint32_t`. -/
def countUp (count : Nat) : Nat := (count + 1) % uint32Size

/-- One less, in `uint32_t`. -/
def countDown (count : Nat) : Nat := (count + (uint32Size - 1)) % uint32Size

theorem countUp_of_lt {count : Nat} (h : count + 1 < uint32Size) : countUp count = count + 1 := Nat.mod_eq_of_lt h

theorem countDown_of_pos {count : Nat} (hpos : 0 < count) (hlt : count < uint32Size) : countDown count = count - 1 := by
  rw [countDown]
  simp only [uint32Size] at *
  omega

/-- `CUserInfo`. -/
structure UserInfo where
  routeConnSet : TreeSet RouteConn
  clientTypeList : TreeMap Nat Nat

namespace UserInfo

/-- A new `CUserInfo`. -/
def new : UserInfo := { routeConnSet := ∅, clientTypeList := ∅ }

/-- `CUserInfo::AddRouteConn`. -/
def addRouteConn (user : UserInfo) (c : RouteConn) : UserInfo := { user with routeConnSet := user.routeConnSet.insert c }

/-- `CUserInfo::RemoveRouteConn`. -/
def removeRouteConn (user : UserInfo) (c : RouteConn) : UserInfo := { user with routeConnSet := user.routeConnSet.erase c }

/-- `CUserInfo::FindRouteConn`. -/
def findRouteConn (user : UserInfo) (c : RouteConn) : Bool := user.routeConnSet.contains c

/-- `CUserInfo::AddClientType`. -/
def addClientType (user : UserInfo) (clientType : Nat) : UserInfo :=
  match user.clientTypeList[clientType]? with
  | some count => { user with clientTypeList := user.clientTypeList.insert clientType (countUp count) }
  | none => { user with clientTypeList := user.clientTypeList.insert clientType 1 }

/-- `CUserInfo::RemoveClientType`. -/
def removeClientType (user : UserInfo) (clientType : Nat) : UserInfo :=
  match user.clientTypeList[clientType]? with
  | some count =>
    if countDown count > 0 then { user with clientTypeList := user.clientTypeList.insert clientType (countDown count) }
    else { user with clientTypeList := user.clientTypeList.erase clientType }
  | none => user

/-- `CUserInfo::GetCountByClientType`. -/
def getCountByClientType (user : UserInfo) (clientType : Nat) : Nat := user.clientTypeList.getD clientType 0

/-- `CUserInfo::IsMsgConnNULL`. -/
def isMsgConnNull (user : UserInfo) : Bool := user.clientTypeList.isEmpty

/-- `CUserInfo::IsPCClientLogin`. -/
def isPCClientLogin (user : UserInfo) : Bool := user.clientTypeList.keys.any checkClientTypePc

/-- `CUserInfo::GetStatus`. -/
def getStatus (user : UserInfo) : Nat := if user.isPCClientLogin then userStatusOnline else userStatusOffline

end UserInfo

/-- One entry of a report: `ServerUserStat`, or `IMUserStatusUpdate`. -/
structure UserStat where
  userId : Nat
  status : Nat
  clientType : Nat
  deriving DecidableEq, Repr

/-- The state of route_server: `g_route_conn_map` and `g_user_map`. -/
structure State where
  routeConnMap : Finset RouteConn
  userMap : Nat → Option UserInfo

/-- What is sent: to every msg_server, or in answer. -/
inductive Sent where
  | loginStatusNotify (userId : Nat) (on : Bool)
  | statusNotify (userId status : Nat)
  | usersStatusResponse (c : RouteConn) (stats : List (Nat × Nat))
  deriving DecidableEq, Repr

namespace State

/-- Before any msg_server has connected. -/
def init : State := { routeConnMap := ∅, userMap := fun _ => none }

/-- Change what is known about a user. -/
def setUser (s : State) (userId : Nat) (user : Option UserInfo) : State :=
  { s with userMap := fun u => if u = userId then user else s.userMap u }

/-- `CRouteConn::_UpdateUserStatus`. -/
def updateUserStatus (s : State) (c : RouteConn) (stat : UserStat) : State :=
  match s.userMap stat.userId with
  | some user =>
    if user.findRouteConn c then
      if stat.status = userStatusOffline then
        let user := user.removeClientType stat.clientType
        if user.isMsgConnNull then
          let user := user.removeRouteConn c
          if user.routeConnSet.size = 0 then s.setUser stat.userId none else s.setUser stat.userId (some user)
        else s.setUser stat.userId (some user)
      else s.setUser stat.userId (some (user.addClientType stat.clientType))
    else if stat.status ≠ userStatusOffline then
      s.setUser stat.userId (some ((user.addRouteConn c).addClientType stat.clientType))
    else s
  | none =>
    if stat.status ≠ userStatusOffline then
      s.setUser stat.userId (some ((UserInfo.new.addRouteConn c).addClientType stat.clientType))
    else s

/-- What `CRouteConn::_HandleUserStatusUpdate` tells the msg_servers, once the status is updated. -/
def statusNotifications (s : State) (stat : UserStat) : List Sent :=
  let user := s.userMap stat.userId
  let pcLogin := match user with
    | some user => user.isPCClientLogin
    | none => false
  (if user.isSome then
    if stat.status = userStatusOffline then
      if checkClientTypePc stat.clientType ∧ !pcLogin then [.loginStatusNotify stat.userId false] else []
    else if pcLogin then [.loginStatusNotify stat.userId true] else []
  else []) ++
  if checkClientTypePc stat.clientType then
    if user.isSome ∧ stat.status = userStatusOffline ∧ pcLogin then [] else [.statusNotify stat.userId stat.status]
  else []

/-- The status that `CRouteConn::_HandleUsersStatusRequest` reports for a user. -/
def statusOf (s : State) (userId : Nat) : Nat :=
  match s.userMap userId with
  | some user => user.getStatus
  | none => userStatusOffline

/-- `CRouteConn::Close`. -/
def close (s : State) (c : RouteConn) : State :=
  { routeConnMap := s.routeConnMap.erase c
    userMap := fun u =>
      match s.userMap u with
      | some user => if (user.removeRouteConn c).routeConnSet.size = 0 then none else some (user.removeRouteConn c)
      | none => none }

end State

end TeamTalk.RouteServer
