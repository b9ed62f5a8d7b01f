import Mathlib
import TeamTalk.Lib.Action
import TeamTalk.Protocol.Messages

/-!
# The state of msg_server

The client connections, the users, the two maps of `CImUserManager`, and which servers are connected. Connections and users
are objects behind pointers; a pointer is a number, and the two heaps say what is behind it.
-/

namespace TeamTalk

open Std (TreeMap TreeSet)

/-- A `CMsgConn*`. The order of the numbers is the order of the addresses; no number is given to two connections, also not
after the first was deleted. -/
abbrev ConnId := Nat

/-- A `CImUser*`. -/
abbrev UserRef := Nat

/-- `msg_ack_t`. -/
structure MsgAck where
  msgId : Nat
  fromId : Nat
  timestamp : Nat
  deriving DecidableEq, Repr

/-- `CMsgConn`. A reference count of zero means that the object has been deleted. `lastRecvTick` and `refCount` belong to its
base classes. -/
structure MsgConn where
  handle : Nat
  loginName : String
  userId : Nat
  bOpen : Bool
  bKickOff : Bool
  loginTime : Nat
  clientVersion : String
  sendMsgList : List MsgAck
  msgCntPerSec : Nat
  clientType : Nat
  onlineStatus : Nat
  lastRecvTick : Nat
  refCount : Nat
  deriving DecidableEq, Repr

/-- `CImUser`. The set of pointers is ordered by address. -/
structure ImUser where
  userId : Nat
  loginName : String
  nickName : String
  pcLoginStatus : Nat
  bValidate : Bool
  connMap : TreeMap Nat ConnId
  unvalidateConnSet : TreeSet ConnId

/-- A connected file server: whether it is open, and the addresses it gave. -/
structure FileServ where
  isOpen : Bool
  ipList : List IpAddr
  deriving DecidableEq, Repr

/-- The connections to the other servers: whether each is open. `masterRs` is the index of `g_master_rs_conn`. -/
structure Backends where
  dbServerList : List Bool
  dbServerLoginCount : Nat
  loginServerList : List Bool
  routeServerList : List Bool
  masterRs : Option Nat
  fileServerList : List FileServ
  deriving DecidableEq, Repr

/-- The state of msg_server. -/
structure Server where
  conns : ConnId → Option MsgConn
  users : UserRef → Option ImUser
  nextUser : UserRef
  msgConnMap : TreeMap Nat ConnId
  imUserMap : TreeMap Nat UserRef
  imUserMapByName : TreeMap String UserRef
  backends : Backends

/-- The server before any client has connected. -/
def Server.init (backends : Backends) : Server :=
  { conns := fun _ => none, users := fun _ => none, nextUser := 0, msgConnMap := ∅, imUserMap := ∅, imUserMapByName := ∅,
    backends }

/-- Where a PDU is sent. -/
inductive Dest where
  | client (c : ConnId)
  | db
  | route (i : Nat)
  | login (i : Nat)
  | file (i : Nat)
  deriving DecidableEq, Repr

/-- What happens, in order. Sending stands for the call of `SendPdu` that `self` makes, or that is made on its behalf. The
last six note what a function did to the connection. -/
inductive Effect where
  | send (self : ConnId) (dest : Dest) (pdu : Pdu)
  | handlePdu (c : ConnId) (pdu : Pdu)
  | setOpen (c : ConnId)
  | setKickOff (c : ConnId)
  | netlibClose (c : ConnId)
  | eraseConn (c : ConnId)
  | delMsgConn (c : ConnId)
  | releaseRef (c : ConnId)
  deriving DecidableEq, Repr

/-- Why a handler stops early: it throws, or it does what C++ leaves undefined. -/
inductive Stop where
  | thrown (e : PduException)
  | undefinedBehaviour
  deriving DecidableEq, Repr

/-- What the server does. -/
abbrev Do (α : Type) := Action.Act Server Effect Stop α

/-- What a handler reads from outside: the time, the tick count, the random number that picks a file server, and protobuf's
serialization of a message. -/
structure Env where
  now : Nat
  tick : Nat
  random : Nat
  serialize : Msg → Bytes

namespace Server

/-! ## Objects -/

def setConn (s : Server) (c : ConnId) (conn : MsgConn) : Server :=
  { s with conns := Function.update s.conns c (some conn) }

def setUser (s : Server) (r : UserRef) (user : Option ImUser) : Server :=
  { s with users := Function.update s.users r user }

/-- A stored connection is found under its own number only. -/
@[simp] theorem conns_setConn (s : Server) (c : ConnId) (conn : MsgConn) (d : ConnId) :
    (s.setConn c conn).conns d = if d = c then some conn else s.conns d := by
  simp only [setConn, Function.update_apply]

/-- And a stored user under its own reference only. -/
@[simp] theorem users_setUser (s : Server) (r : UserRef) (user : Option ImUser) (q : UserRef) :
    (s.setUser r user).users q = if q = r then user else s.users q := by
  simp only [setUser, Function.update_apply]

/-! ## The other servers -/

/-- `get_db_server_conn_in_range`: whether there is a connection to return. -/
def dbServerConnInRange (b : Backends) (startPos stopPos : Nat) : Bool :=
  (List.range' startPos (stopPos - startPos)).any fun i => b.dbServerList.getD i false

/-- `get_db_serv_conn_for_login`: whether there is a connection to return. Which one is left open. -/
def getDbServConnForLogin (s : Server) : Bool :=
  dbServerConnInRange s.backends 0 s.backends.dbServerLoginCount ||
    dbServerConnInRange s.backends s.backends.dbServerLoginCount s.backends.dbServerList.length

/-- `get_db_serv_conn`: whether there is a connection to return. Which one is left open. -/
def getDbServConn (s : Server) : Bool :=
  dbServerConnInRange s.backends s.backends.dbServerLoginCount s.backends.dbServerList.length ||
    dbServerConnInRange s.backends 0 s.backends.dbServerLoginCount

/-- `is_login_server_available`. -/
def isLoginServerAvailable (s : Server) : Bool := s.backends.loginServerList.any id

/-- `is_route_server_available`. -/
def isRouteServerAvailable (s : Server) : Bool := s.backends.routeServerList.any id

/-- `get_route_serv_conn`. -/
def getRouteServConn (s : Server) : Option Nat := s.backends.masterRs

/-- The positions of the open connections in a list. -/
def openIndices (l : List Bool) : List Nat := (List.range l.length).filter fun i => l.getD i false

/-- `get_random_file_serv_conn`: the one the random number picks, or the next open one after it. -/
def getRandomFileServConn (s : Server) (random : Nat) : Option (Nat × FileServ) :=
  let l := s.backends.fileServerList
  ((List.range l.length).map fun i => (random + i) % l.length).findSome? fun j =>
    match l[j]? with
    | some f => if f.isOpen then some (j, f) else none
    | none => none

/-! ## `CImUserManager` -/

/-- `CImUserManager::GetImUserById`. -/
def getImUserById (s : Server) (userId : Nat) : Option UserRef := s.imUserMap[userId]?

/-- `CImUserManager::GetImUserByLoginName`. -/
def getImUserByLoginName (s : Server) (loginName : String) : Option UserRef := s.imUserMapByName[loginName]?

end Server

/-! ## Following pointers -/

open Action

/-- Follow a `CMsgConn*`: a deleted connection has no defined contents. -/
def getConn (c : ConnId) : Do MsgConn := do
  match (← read).conns c with
  | some conn => if conn.refCount = 0 then stop .undefinedBehaviour else return conn
  | none => stop .undefinedBehaviour

/-- Follow a `CImUser*`. -/
def getUser (r : UserRef) : Do ImUser := do
  match (← read).users r with
  | some user => return user
  | none => stop .undefinedBehaviour

/-- Change a connection. -/
def setConn (c : ConnId) (conn : MsgConn) : Do Unit := modify fun s => s.setConn c conn

/-- Change a user. -/
def setUser (r : UserRef) (user : ImUser) : Do Unit := modify fun s => s.setUser r (some user)

/-- `SendPdu` on a client connection. -/
def sendClient (self c : ConnId) (pdu : Pdu) : Do Unit := emit (.send self (.client c) pdu)

/-- `send_to_all_login_server`. -/
def sendToAllLoginServer (self : ConnId) (pdu : Pdu) : Do Unit := do
  each (fun i => emit (.send self (.login i) pdu)) (Server.openIndices (← read).backends.loginServerList)

/-- `send_to_all_route_server`. -/
def sendToAllRouteServer (self : ConnId) (pdu : Pdu) : Do Unit := do
  each (fun i => emit (.send self (.route i) pdu)) (Server.openIndices (← read).backends.routeServerList)

/-- `SendPdu` on `get_route_serv_conn()`, when there is one. -/
def sendRoute (self : ConnId) (pdu : Pdu) : Do Unit := do
  match (← read).getRouteServConn with
  | some i => emit (.send self (.route i) pdu)
  | none => return ()

/-- `SendPdu` on `get_db_serv_conn()`, when there is one. -/
def sendDb (self : ConnId) (pdu : Pdu) : Do Unit := do
  if (← read).getDbServConn then emit (.send self .db pdu)

/-- A live connection is followed. -/
theorem run_getConn {s : Server} {c : ConnId} {conn : MsgConn} (h : s.conns c = some conn) (hr : conn.refCount ≠ 0) :
    (getConn c).run s = ⟨.ok conn, s, []⟩ := by
  simp only [getConn, run_read_bind, h, if_neg hr, run_pure]

/-- An existing user is followed. -/
theorem run_getUser {s : Server} {r : UserRef} {user : ImUser} (h : s.users r = some user) :
    (getUser r).run s = ⟨.ok user, s, []⟩ := by
  simp only [getUser, run_read_bind, h, run_pure]

/-- Following a `CMsgConn*` with a result: the connection is live. -/
theorem getConn_eq_ok {s s' : Server} {c : ConnId} {conn : MsgConn} {out : List Effect}
    (h : (getConn c).run s = ⟨.ok conn, s', out⟩) : s' = s ∧ s.conns c = some conn ∧ conn.refCount ≠ 0 ∧ out = [] := by
  rw [getConn, run_read_bind] at h
  cases hc : s.conns c with
  | none =>
    rw [hc] at h
    cases h
  | some d =>
    simp only [hc] at h
    by_cases hr : d.refCount = 0
    · rw [if_pos hr] at h
      cases h
    · rw [if_neg hr] at h
      obtain ⟨⟨rfl⟩, rfl, rfl⟩ := (Outcome.mk.injEq ..).mp h
      exact ⟨rfl, rfl, hr, rfl⟩

/-- Following a `CImUser*` with a result: the user exists. -/
theorem getUser_eq_ok {s s' : Server} {r : UserRef} {user : ImUser} {out : List Effect}
    (h : (getUser r).run s = ⟨.ok user, s', out⟩) : s' = s ∧ s.users r = some user ∧ out = [] := by
  rw [getUser, run_read_bind] at h
  cases hr : s.users r with
  | none =>
    rw [hr] at h
    cases h
  | some u =>
    rw [hr] at h
    obtain ⟨⟨rfl⟩, rfl, rfl⟩ := (Outcome.mk.injEq ..).mp h
    exact ⟨rfl, rfl, rfl⟩

section Emits

variable {α : Type} {P : Effect → Prop} {s : Server}

/-- Reading a connection says nothing. -/
theorem emits_getConn (c : ConnId) : (getConn c).Emits P s := by
  refine Emits.read_bind ?_
  split
  · split
    · exact Emits.stop _
    · exact Emits.pure _
  · exact Emits.stop _

/-- Reading a user says nothing. -/
theorem emits_getUser (r : UserRef) : (getUser r).Emits P s := by
  refine Emits.read_bind ?_
  split
  · exact Emits.pure _
  · exact Emits.stop _

/-- What follows the read need only answer for a connection that is still referenced. -/
theorem emits_getConn_bind {c : ConnId} {f : MsgConn → Do α}
    (h : ∀ conn, s.conns c = some conn → conn.refCount ≠ 0 → (f conn).Emits P s) : (getConn c >>= f).Emits P s := by
  refine Emits.bind (emits_getConn c) fun conn s' out hrun => ?_
  obtain ⟨rfl, hc, hr, -⟩ := getConn_eq_ok hrun
  exact h conn hc hr

/-- And what follows the other for a user that is there. -/
theorem emits_getUser_bind {r : UserRef} {f : ImUser → Do α} (h : ∀ user, s.users r = some user → (f user).Emits P s) :
    (getUser r >>= f).Emits P s := by
  refine Emits.bind (emits_getUser r) fun user s' out hrun => ?_
  obtain ⟨rfl, hu, -⟩ := getUser_eq_ok hrun
  exact h user hu

end Emits

section Does

variable {α : Type} {R : Server → List Effect → Server → Prop} {s : Server}

/-- Reading a connection changes nothing. -/
theorem does_getConn (hR : Composes R) (c : ConnId) : (getConn c).Does R s := by
  refine Does.read_bind ?_
  split
  · split
    · exact Does.stop hR _
    · exact Does.pure hR _
  · exact Does.stop hR _

/-- Reading a user changes nothing. -/
theorem does_getUser (hR : Composes R) (r : UserRef) : (getUser r).Does R s := by
  refine Does.read_bind ?_
  split
  · exact Does.pure hR _
  · exact Does.stop hR _

/-- What follows the read is judged on the connection it found. -/
theorem does_getConn_bind (hR : Composes R) {c : ConnId} {f : MsgConn → Do α}
    (h : ∀ conn, s.conns c = some conn → conn.refCount ≠ 0 → (f conn).Does R s) : (getConn c >>= f).Does R s := by
  refine Does.bind hR (does_getConn hR c) fun conn s' out hrun => ?_
  obtain ⟨rfl, hc, hr, -⟩ := getConn_eq_ok hrun
  exact h conn hc hr

/-- And what follows the other on the user it found. -/
theorem does_getUser_bind (hR : Composes R) {r : UserRef} {f : ImUser → Do α}
    (h : ∀ user, s.users r = some user → (f user).Does R s) : (getUser r >>= f).Does R s := by
  refine Does.bind hR (does_getUser hR r) fun user s' out hrun => ?_
  obtain ⟨rfl, hu, -⟩ := getUser_eq_ok hrun
  exact h user hu

end Does

/-- An action that does not throw. -/
def NeverThrows {α : Type} (a : Do α) : Prop := a.StopsOnly (· = .undefinedBehaviour)

/-- Reading a connection throws nothing. -/
theorem neverThrows_getConn (c : ConnId) : NeverThrows (getConn c) := by
  refine StopsOnly.read_bind fun s => ?_
  split
  · split
    · exact StopsOnly.stop rfl
    · exact StopsOnly.pure _
  · exact StopsOnly.stop rfl

/-- Reading a user throws nothing. -/
theorem neverThrows_getUser (r : UserRef) : NeverThrows (getUser r) := by
  refine StopsOnly.read_bind fun s => ?_
  split
  · exact StopsOnly.pure _
  · exact StopsOnly.stop rfl

/-- Neither does a PDU to the database proxy. -/
theorem neverThrows_sendDb (self : ConnId) (pdu : Pdu) : NeverThrows (sendDb self pdu) := by
  refine StopsOnly.read_bind fun s => ?_
  split
  · exact StopsOnly.emit _
  · exact StopsOnly.pure _

/-- Nor one to a route server. -/
theorem neverThrows_sendRoute (self : ConnId) (pdu : Pdu) : NeverThrows (sendRoute self pdu) := by
  refine StopsOnly.read_bind fun s => ?_
  split
  · exact StopsOnly.emit _
  · exact StopsOnly.pure _

/-! ### Running them -/

/-- What storing a connection comes to. -/
@[simp] theorem run_setConn (c : ConnId) (conn : MsgConn) (s : Server) :
    (setConn c conn).run s = ⟨.ok (), s.setConn c conn, []⟩ := rfl

/-- What storing a user comes to. -/
@[simp] theorem run_setUser (r : UserRef) (user : ImUser) (s : Server) :
    (setUser r user).run s = ⟨.ok (), s.setUser r (some user), []⟩ := rfl

/-- A PDU to a client is one send. -/
@[simp] theorem run_sendClient (self c : ConnId) (pdu : Pdu) (s : Server) :
    (sendClient self c pdu).run s = ⟨.ok (), s, [.send self (.client c) pdu]⟩ := rfl

/-- A PDU to the database proxy is one send, where one is connected. -/
theorem run_sendDb (self : ConnId) (pdu : Pdu) (s : Server) :
    (sendDb self pdu).run s = ⟨.ok (), s, if s.getDbServConn then [.send self .db pdu] else []⟩ := by
  simp only [sendDb, run_read_bind]
  split <;> rfl

/-- A PDU to a route server goes to the master, where there is one. -/
theorem run_sendRoute (self : ConnId) (pdu : Pdu) (s : Server) :
    (sendRoute self pdu).run s = ⟨.ok (), s, s.getRouteServConn.toList.map fun i => .send self (.route i) pdu⟩ := by
  simp only [sendRoute, run_read_bind]
  cases s.getRouteServConn <;> rfl

/-- Every open login server is sent to once. -/
theorem run_sendToAllLoginServer (self : ConnId) (pdu : Pdu) (s : Server) :
    (sendToAllLoginServer self pdu).run s =
      ⟨.ok (), s, (Server.openIndices s.backends.loginServerList).map fun i => .send self (.login i) pdu⟩ := by
  simp only [sendToAllLoginServer, run_read_bind, run_each_emit]

/-- Every open route server is sent to once. -/
theorem run_sendToAllRouteServer (self : ConnId) (pdu : Pdu) (s : Server) :
    (sendToAllRouteServer self pdu).run s =
      ⟨.ok (), s, (Server.openIndices s.backends.routeServerList).map fun i => .send self (.route i) pdu⟩ := by
  simp only [sendToAllRouteServer, run_read_bind, run_each_emit]

end TeamTalk
