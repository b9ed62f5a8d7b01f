import TeamTalk.MsgServer.EventLoop
import TeamTalk.RouteServer.Table

/-!
# The PC login status in msg_server

route_server tells the msg_servers when a user's first PC client comes and when the last one goes. msg_server keeps the last
status it was told in the user's object, and looks at it when a file is to be sent and when a message is pushed. What it was
told last about each user is kept beside the two servers; no step depends on it.
-/

namespace TeamTalk.PcLogin

open RouteServer (RouteConn Sent Table)

/-- `IM_PC_LOGIN_STATUS_ON`. -/
abbrev imPcLoginStatusOn : Nat := 1

/-- `IM_PC_LOGIN_STATUS_OFF`. -/
abbrev imPcLoginStatusOff : Nat := 0

/-- `IM_PUSH_TYPE_NORMAL`. -/
abbrev imPushTypeNormal : Nat := 1

/-- `IM_PUSH_TYPE_SILENT`. -/
abbrev imPushTypeSilent : Nat := 2

structure IMServerPCLoginStatusNotify where
  userId : Nat
  loginStatus : Nat
  deriving DecidableEq, Repr

structure UserTokenInfo where
  userId : Nat
  userType : Nat
  token : String
  pushCount : Nat
  pushType : Nat
  deriving DecidableEq, Repr

structure IMPushToUserReq where
  flash : String
  data : String
  userTokenList : List UserTokenInfo
  deriving DecidableEq, Repr

/-- What is sent: by the event loop of msg_server, by route_server, to a mobile client when the PC login status changes, to
route_server to ask for a user's status with a push attached, and to push_server. -/
inductive Out where
  | msg (e : Effect)
  | route (sent : Sent)
  | pcLoginStatusNotify (d : ConnId) (userId loginStat : Nat)
  | usersStatReq (i userId : Nat) (push : IMPushToUserReq)
  | pushToUser (push : IMPushToUserReq)
  deriving DecidableEq, Repr

/-! ## Handlers of msg_server -/

/-- The connections of a list that are mobile clients; none when one of them has been deleted. -/
def mobileConns (s : Server) : List ConnId → Option (List ConnId)
  | [] => some []
  | d :: ds =>
    match s.conns d with
    | none => none
    | some conn =>
      if conn.refCount = 0 then none
      else (mobileConns s ds).map fun rest => if checkClientTypeMobile conn.clientType then d :: rest else rest

/-- `CRouteServConn::_HandlePCLoginStatusNotify`. -/
def handlePCLoginStatusNotify (s : Server) (msg : IMServerPCLoginStatusNotify) : Option (Server × List Out) :=
  match s.getImUserById msg.userId with
  | none => some (s, [])
  | some r =>
    match s.users r with
    | none => none
    | some user =>
      let loginStat := if msg.loginStatus = imPcLoginStatusOn then userStatusOnline else userStatusOffline
      (mobileConns s user.conns).map fun ds =>
        (s.setUser r (some { user with pcLoginStatus := msg.loginStatus }),
          ds.map fun d => .pcLoginStatusNotify d msg.userId loginStat)

/-- The loop of `CDBServConn::_HandleGetDeviceTokenResponse`: the tokens that are pushed to at once, and the questions for
route_server. -/
def pushTokens (s : Server) (fromId : Nat) (flash data : String) : List UserTokenInfo → Option (List UserTokenInfo × List Out)
  | [] => some ([], [])
  | token :: tokens =>
    if fromId = token.userId then pushTokens s fromId flash data tokens
    else
      match s.getImUserById token.userId with
      | some r =>
        match s.users r with
        | none => none
        | some user =>
          let pushType := if user.pcLoginStatus = imPcLoginStatusOn then imPushTypeSilent else imPushTypeNormal
          (pushTokens s fromId flash data tokens).map fun rest => ({ token with pushType } :: rest.1, rest.2)
      | none =>
        let push := { flash, data, userTokenList := [{ token with pushType := imPushTypeNormal }] }
        let ask := s.getRouteServConn.toList.map fun i => .usersStatReq i token.userId push
        (pushTokens s fromId flash data tokens).map fun rest => (rest.1, ask ++ rest.2)

/-- `CDBServConn::_HandleGetDeviceTokenResponse`, once the message is decrypted and the texts are made; and whether a
push_server is connected. -/
def handleGetDeviceTokenResponse (s : Server) (pushServ : Bool) (fromId : Nat) (flash data : String)
    (tokens : List UserTokenInfo) : Option (List Out) :=
  (pushTokens s fromId flash data tokens).map fun pushed =>
    pushed.2 ++ if pushed.1 ≠ [] ∧ pushServ then [.pushToUser { flash, data, userTokenList := pushed.1 }] else []

/-! ## The two servers -/

/-- msg_server and route_server, the notifications under way, and the last one that msg_server received for a user. -/
structure Pair where
  msg : Loop
  route : Table
  pending : List IMServerPCLoginStatusNotify
  heard : Nat → Option Nat

/-- What can happen: an event of either server; the next notification arrives; those under way are lost with the connection;
the DB proxy gives the device tokens that a message is pushed to. -/
inductive Event where
  | msg (e : TeamTalk.Event)
  | route (e : RouteServer.Event)
  | notify
  | lost
  | deviceTokens (pushServ : Bool) (fromId : Nat) (flash data : String) (tokens : List UserTokenInfo)

/-- The notification that a msg_server is sent. -/
def loginStatusNotify : Sent → Option IMServerPCLoginStatusNotify
  | .loginStatusNotify userId on => some { userId, loginStatus := if on then imPcLoginStatusOn else imPcLoginStatusOff }
  | _ => none

namespace Pair

/-- Before any client has connected. -/
def init (b : Backends) : Pair := { msg := Loop.init b, route := Table.init, pending := [], heard := fun _ => none }

/-- A notification is received. -/
def hear (p : Pair) (msg : IMServerPCLoginStatusNotify) : Nat → Option Nat :=
  fun u => if u = msg.userId then some msg.loginStatus else p.heard u

/-- One event; the connection of msg_server to route_server is `self`. -/
def step (self : RouteConn) (p : Pair) : Event → Option (Pair × List Out)
  | .msg e => (p.msg.step e).map fun next => ({ p with msg := next.1 }, next.2.map .msg)
  | .route e =>
    (p.route.step e).map fun next =>
      ({ p with
          route := next.1
          pending := p.pending ++ if self ∈ p.route.server.routeConnMap then next.2.filterMap loginStatusNotify else [] },
        next.2.map .route)
  | .notify =>
    match p.msg.reading, p.pending with
    | none, msg :: rest =>
      (handlePCLoginStatusNotify p.msg.server msg).map fun next =>
        ({ p with msg := { p.msg with server := next.1 }, pending := rest, heard := p.hear msg }, next.2)
    | _, _ => none
  | .lost => some ({ p with pending := [] }, [])
  | .deviceTokens pushServ fromId flash data tokens =>
    match p.msg.reading with
    | none => (handleGetDeviceTokenResponse p.msg.server pushServ fromId flash data tokens).map fun out => (p, out)
    | some _ => none

end Pair

end TeamTalk.PcLogin
