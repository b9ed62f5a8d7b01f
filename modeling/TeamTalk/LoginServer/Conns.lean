import TeamTalk.Lib.Machine
import TeamTalk.LoginServer.LoginConn

/-!
# The connections of login_server and their maps

`CLoginConn` serves clients and msg_servers. Each kind has its map: what comes from a socket is given to the connection that the map
holds under the handle, and the timer goes through the maps. A connection counts its references, and is freed with the last one.
-/

namespace TeamTalk.LoginServer.Conns

open Std (TreeMap)

/-- `LOGIN_CONN_TYPE_CLIENT` and `LOGIN_CONN_TYPE_MSG_SERV`. -/
inductive ConnType where
  | client
  | msgServ
  deriving DecidableEq, Repr

/-- `CLIENT_TIMEOUT` and `SERVER_TIMEOUT`. -/
def timeout : ConnType → Nat
  | .client => 120000
  | .msgServ => 30000

/-- `CLoginConn`. -/
structure LoginConn where
  handle : Handle
  connType : ConnType
  refCount : Nat
  lastRecvTick : Nat
  deriving DecidableEq, Repr

/-- The sockets that are open, with their callback data, which is one of the two maps; the maps; and the connections. A `CLoginConn*`
is a number that is not given to two connections. -/
structure State where
  sockets : Handle → Option ConnType
  connMap : ConnType → TreeMap Handle Nat
  conns : Nat → Option LoginConn
  nextConn : Nat
  undefinedBehaviour : Bool

/-- What can happen: a socket is accepted for one of the kinds; data comes, which are so many PDUs and perhaps a bad one; a peer
closes; and the timer, with the orders of the two hash maps. -/
inductive Event where
  | accept (h : Handle) (connType : ConnType) (tick : Nat)
  | read (h : Handle) (tick : Nat) (pdus : List Pdu) (bad : Bool)
  | close (h : Handle)
  | timer (tick : Nat) (clients msgServs : List (Handle × Nat))

namespace State

/-- Before anybody has connected. -/
def init : State :=
  { sockets := fun _ => none, connMap := fun _ => ∅, conns := fun _ => none, nextConn := 0, undefinedBehaviour := false }

/-- Change a connection. -/
def setConn (s : State) (c : Nat) (conn : Option LoginConn) : State :=
  { s with conns := fun c' => if c' = c then conn else s.conns c' }

/-- A connection that is freed is used. -/
def usesFreed (s : State) : State := { s with undefinedBehaviour := true }

/-- `OnConnect2`. -/
def onConnect2 (s : State) (h : Handle) (connType : ConnType) (tick : Nat) : State :=
  let c := s.nextConn
  let next := { s.setConn c (some { handle := h, connType := connType, refCount := 1, lastRecvTick := tick }) with
    nextConn := c + 1
    sockets := fun h' => if h' = h then some connType else s.sockets h' }
  match connType with
  | .client => next
  | .msgServ =>
    -- the insertion is the `else` branch
    { next with connMap := fun t => if t = .msgServ then (s.connMap t).insertIfNew h c else s.connMap t }

/-- `AddRef`. -/
def addRef (s : State) (c : Nat) (conn : LoginConn) : State := s.setConn c (some { conn with refCount := conn.refCount + 1 })

/-- `ReleaseRef`. -/
def releaseRef (s : State) (c : Nat) : State :=
  match s.conns c with
  | none => s.usesFreed
  | some conn => s.setConn c (if conn.refCount = 1 then none else some { conn with refCount := conn.refCount - 1 })

/-- The socket is closed, and the connection leaves its map. -/
def unregister (s : State) (conn : LoginConn) : State :=
  { s with
    sockets := fun h' => if h' = conn.handle then none else s.sockets h'
    connMap := fun t => if t = conn.connType then (s.connMap t).erase conn.handle else s.connMap t }

/-- `Close`, without the table of the msg_servers. -/
def close (s : State) (c : Nat) : State :=
  match s.conns c with
  | none => s.usesFreed
  | some conn => (s.unregister conn).releaseRef c

/-- `HandlePdu`. -/
def handlePdu (s : State) (c : Nat) : Pdu → State
  | .reqMsgServer => s.close c
  | _ => s

/-- A turn of the loop of `OnRead`, which takes the PDU out of the buffer of the connection. -/
def readPdu (c : Nat) (s : State) (pdu : Pdu) : State :=
  if (s.handlePdu c pdu).conns c = none then (s.handlePdu c pdu).usesFreed else s.handlePdu c pdu

/-- `OnRead`: a bad PDU is an exception, and closes the connection. -/
def onRead (s : State) (c tick : Nat) (conn : LoginConn) (pdus : List Pdu) (bad : Bool) : State :=
  let s := pdus.foldl (readPdu c) (s.setConn c (some { conn with lastRecvTick := tick }))
  if bad = true then s.close c else s

/-- The connection that a handle leads to, in the map of the callback data. -/
def find (s : State) (h : Handle) (connType : ConnType) : Option (Nat × LoginConn) :=
  match (s.connMap connType)[h]? with
  | none => none
  | some c => (s.conns c).map fun conn => (c, conn)

/-- `imconn_callback`: the connection is kept while it is called. -/
def callback (s : State) (h : Handle) (connType : ConnType) (call : State → Nat → LoginConn → State) : State :=
  match s.find h connType with
  | none => s
  | some (c, conn) => (call (s.addRef c conn) c { conn with refCount := conn.refCount + 1 }).releaseRef c

/-- What the timer does with an entry of a map. -/
def onTimer (tick : Nat) (s : State) (entry : Handle × Nat) : State :=
  match s.conns entry.2 with
  | none => s.usesFreed
  | some conn => if tick > conn.lastRecvTick + timeout conn.connType then s.close entry.2 else s

/-- One step. Data and closes come from open sockets; an accepted socket is a new one. -/
def step (s : State) : Event → Option (State × List Unit)
  | .accept h connType tick => if s.sockets h = none then some (s.onConnect2 h connType tick, []) else none
  | .read h tick pdus bad =>
    match s.sockets h with
    | none => none
    | some connType => some (s.callback h connType fun s c conn => s.onRead c tick conn pdus bad, [])
  | .close h =>
    match s.sockets h with
    | none => none
    | some connType => some (s.callback h connType fun s c _ => s.close c, [])
  | .timer tick clients msgServs =>
    if clients.Perm (s.connMap .client).toList ∧ msgServs.Perm (s.connMap .msgServ).toList then
      some ((clients ++ msgServs).foldl (onTimer tick) s, [])
    else none

end State

end TeamTalk.LoginServer.Conns
