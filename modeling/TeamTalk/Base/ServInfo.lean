import Std.Data.TreeMap.Lemmas
import TeamTalk.Lib.Machine

/-!
# Connections to backend servers

`ServInfo.h` keeps a slot for each configured server, and a connection class (`CFileServConn` here, and the others alike) fills and
resets the slots. What the operating system answers to an attempt to connect is part of the event: a handle, when the socket is
connected or connecting, or none, when the attempt fails at once.
-/

namespace TeamTalk.ServInfo

open Std (TreeMap)

/-- `MAX_RECONNECT_CNT` and `MIN_RECONNECT_CNT`. -/
def maxReconnectCnt : Nat := 64

def minReconnectCnt : Nat := 4

/-- `SERVER_TIMEOUT`. -/
def serverTimeout : Nat := 30000

/-- `serv_info_t`. A `CImConn*` is a number that is not given to two connections. -/
structure Slot where
  serverIp : String
  serverPort : Nat
  idleCnt : Nat
  reconnectCnt : Nat
  servConn : Option Nat
  deriving DecidableEq, Repr

/-- `CFileServConn`: no handle is `NETLIB_INVALID_HANDLE`. -/
structure ServConn where
  handle : Option Nat
  servIdx : Nat
  isOpen : Bool
  lastRecvTick : Nat
  alive : Bool
  deriving DecidableEq, Repr

/-- The slots, the connections, the sockets that are open, and the map of connections. -/
structure State where
  started : Bool
  serverList : List Slot
  conns : Nat → Option ServConn
  nextConn : Nat
  sockets : Nat → Bool
  connMap : TreeMap Nat Nat

/-- What is done: an attempt to connect for a slot, with the answer of the operating system. -/
inductive Effect where
  | connect (i : Nat) (serverIp : String) (serverPort : Nat) (answer : Option Nat)
  deriving DecidableEq, Repr

/-- What can happen: `serv_init`; the timer; and events of sockets: connected, closed (or a bad PDU), data. The answers are those
to the attempts that the call makes for the slots. -/
inductive Event where
  | servInit (tick : Nat) (answers : Nat → Option Nat)
  | timer (tick : Nat) (answers : Nat → Option Nat)
  | confirm (handle : Nat)
  | close (handle : Nat)
  | read (handle tick : Nat)

namespace State

/-- What `read_server_config` gives. The fields that it does not set stand as `serv_init` sets them. -/
def init (config : List (String × Nat)) : State :=
  { started := false
    serverList := config.map fun server =>
      { serverIp := server.1, serverPort := server.2, idleCnt := 0, reconnectCnt := minReconnectCnt / 2, servConn := none }
    conns := fun _ => none, nextConn := 0, sockets := fun _ => false, connMap := ∅ }

/-- Change a slot. -/
def modifySlot (s : State) (i : Nat) (f : Slot → Slot) : State := { s with serverList := s.serverList.modify i f }

/-- Change a connection. -/
def setConn (s : State) (c : Nat) (conn : ServConn) : State :=
  { s with conns := fun c' => if c' = c then some conn else s.conns c' }

/-- `new T()` and `Connect`, and the slot points to the connection, whatever came of it. A handle is that of a new socket. -/
def connect (s : State) (tick i : Nat) (slot : Slot) (answer : Option Nat) : Option (State × List Effect) :=
  let conn := { handle := answer, servIdx := i, isOpen := false, lastRecvTick := tick, alive := true }
  let next := { s.setConn s.nextConn conn with nextConn := s.nextConn + 1 }
  let effect := .connect i slot.serverIp slot.serverPort answer
  match answer with
  | none => some (next.modifySlot i fun slot => { slot with servConn := some s.nextConn }, [effect])
  | some h =>
    if s.sockets h then none
    else
      some ({ next with
        sockets := fun h' => if h' = h then true else s.sockets h'
        connMap := s.connMap.insertIfNew h s.nextConn }.modifySlot i fun slot => { slot with servConn := some s.nextConn }, [effect])

/-- A turn of `serv_init`. -/
def initSlot (tick : Nat) (answers : Nat → Option Nat) (s : State) (i : Nat) : Option (State × List Effect) :=
  match s.serverList[i]? with
  | none => some (s, [])
  | some slot =>
    match s.connect tick i slot (answers i) with
    | none => none
    | some (s, out) =>
      some (s.modifySlot i fun slot => { slot with idleCnt := 0, reconnectCnt := minReconnectCnt / 2 }, out)

/-- A turn of `serv_check_reconnect`. -/
def checkSlot (tick : Nat) (answers : Nat → Option Nat) (s : State) (i : Nat) : Option (State × List Effect) :=
  match s.serverList[i]? with
  | none => some (s, [])
  | some slot =>
    match slot.servConn with
    | some _ => some (s, [])
    | none =>
      let idleCnt := slot.idleCnt + 1
      let s := s.modifySlot i fun slot => { slot with idleCnt := idleCnt }
      if slot.reconnectCnt ≤ idleCnt then s.connect tick i slot (answers i) else some (s, [])

/-- `serv_reset`. -/
def servReset (s : State) (i : Nat) : State :=
  s.modifySlot i fun slot => { slot with
    servConn := none
    idleCnt := 0
    reconnectCnt := if slot.reconnectCnt * 2 > maxReconnectCnt then minReconnectCnt else slot.reconnectCnt * 2 }

/-- `Close`. -/
def close (s : State) (c : Nat) (conn : ServConn) : State :=
  let s := s.servReset conn.servIdx
  let s := s.setConn c { conn with isOpen := false, alive := false }
  match conn.handle with
  | none => s
  | some h => { s with sockets := fun h' => if h' = h then false else s.sockets h', connMap := s.connMap.erase h }

/-- `OnTimer` of a connection in the map. -/
def onTimer (tick : Nat) (s : State) (entry : Nat × Nat) : Option (State × List Effect) :=
  match s.conns entry.2 with
  | none => none
  | some conn => if tick > conn.lastRecvTick + serverTimeout then some (s.close entry.2 conn, []) else some (s, [])

/-- The connection that a handle leads to in the map. -/
def find (s : State) (handle : Nat) : Option (Nat × ServConn) :=
  match s.connMap[handle]? with
  | none => none
  | some c => (s.conns c).map fun conn => (c, conn)

/-- `OnConfirm`. -/
def onConfirm (s : State) (c : Nat) (conn : ServConn) : State :=
  (s.setConn c { conn with isOpen := true }).modifySlot conn.servIdx fun slot => { slot with reconnectCnt := minReconnectCnt / 2 }

/-- The indices of the slots. -/
def indices (s : State) : List Nat := List.range s.serverList.length

/-- One step. -/
def step (s : State) : Event → Option (State × List Effect)
  | .servInit tick answers =>
    if s.started then none else Machine.steps (initSlot tick answers) { s with started := true } s.indices
  | .timer tick answers =>
    if s.started then
      -- first the timers of the connections, then `serv_check_reconnect`
      match Machine.steps (onTimer tick) s s.connMap.toList with
      | none => none
      | some (s', _) => Machine.steps (checkSlot tick answers) s' s'.indices
    else none
  | .confirm handle =>
    match s.find handle with
    | none => some (s, [])
    | some (c, conn) => some (s.onConfirm c conn, [])
  | .close handle =>
    match s.find handle with
    | none => some (s, [])
    | some (c, conn) => some (s.close c conn, [])
  | .read handle tick =>
    match s.find handle with
    | none => some (s, [])
    | some (c, conn) => some (s.setConn c { conn with lastRecvTick := tick }, [])

end State

end TeamTalk.ServInfo
