import TeamTalk.Base.ServInfo
import TeamTalk.Lib.FirstMin

/-!
# The connections in use to route servers and push servers

`CRouteServConn` and `CPushServConn` connect to every server of their list, and use one connection: the route class keeps the
oldest one that is open, the push class the one that was confirmed last. The slots and the connections are those of `ServInfo.h`.
-/

namespace TeamTalk.MasterConns

open ServInfo

/-- `m_connect_time` of the connections, and the global pointer to the connection in use. -/
structure Master where
  connectTime : Nat → Nat
  current : Option Nat

/-- The slots and the connections, the pointer, and the tick count that was read last. -/
structure State where
  conns : ServInfo.State
  master : Master
  now : Nat

/-- What is done: an attempt to connect, and `IMRoleSet` to a connection. -/
inductive Effect where
  | connect (effect : ServInfo.Effect)
  | roleSet (c : Nat)
  deriving DecidableEq, Repr

/-- What can happen. The timer calls the connections in the order of the hash map, which is any order of its entries. -/
inductive Event where
  | servInit (tick : Nat) (answers : Nat → Option Nat)
  | timer (tick : Nat) (order : List (Nat × Nat)) (answers : Nat → Option Nat)
  | confirm (handle tick : Nat)
  | close (handle : Nat)
  | read (handle tick : Nat)

/-- The tick count that is read. -/
def Event.tick? : Event → Option Nat
  | .servInit tick _ => some tick
  | .timer tick _ _ => some tick
  | .confirm _ tick => some tick
  | .close _ => none
  | .read _ tick => some tick

/-- `get_tick_count` computes a `long`. -/
def tickSize : Nat := 2 ^ 63

/-- In what the classes differ: the end of `OnConfirm`, the end of `Close`, and the connections that the timer looks at. -/
structure ConnClass where
  onConfirmed (conns : ServInfo.State) (tick c : Nat) (master : Master) : Master × List Effect
  onClosed (conns : ServInfo.State) (c : Nat) (master : Master) : Master × List Effect
  timed (conn : ServConn) : Bool

/-- `IsOpen`. -/
def isOpen (conns : ServInfo.State) (c : Nat) : Bool := (conns.conns c).any ServConn.isOpen

/-! ## Route servers -/

/-- `oldest_connect_time` at the beginning. -/
def latest : Nat := 2 ^ 64 - 1

/-- `update_master_route_serv_conn`. -/
def updateMasterRouteServConn (conns : ServInfo.State) (master : Master) : Master × List Effect :=
  let oldest := FirstMin.firstMin (fun c => isOpen conns c = true) master.connectTime latest
    (conns.serverList.filterMap Slot.servConn)
  ({ master with current := oldest }, oldest.toList.map .roleSet)

/-- `CRouteServConn`. -/
def routeServConn : ConnClass where
  onConfirmed conns tick c master :=
    let master := { master with connectTime := fun c' => if c' = c then tick else master.connectTime c' }
    if master.current = none then updateMasterRouteServConn conns master else (master, [])
  onClosed conns c master := if master.current = some c then updateMasterRouteServConn conns master else (master, [])
  timed _ := true

/-! ## Push servers -/

/-- `CPushServConn`. -/
def pushServConn : ConnClass where
  onConfirmed _ _ c master := ({ master with current := some c }, [])
  onClosed _ _ master := ({ master with current := none }, [])
  timed conn := conn.isOpen

namespace State

/-- `get_push_serv_conn`. -/
def getPushServConn (s : State) : Option Nat := s.master.current.filter fun c => isOpen s.conns c

/-- Before `serv_init`. -/
def init (config : List (String × Nat)) : State :=
  { conns := ServInfo.State.init config, master := { connectTime := fun _ => 0, current := none }, now := 0 }

/-! ## Steps -/

/-- Take over what the functions of `ServInfo.h` do. -/
def lift (s : State) (next : Option (ServInfo.State × List ServInfo.Effect)) : Option (State × List Effect) :=
  next.map fun next => ({ s with conns := next.1 }, next.2.map .connect)

/-- `Close`. -/
def close (cls : ConnClass) (s : State) (c : Nat) (conn : ServConn) : State × List Effect :=
  let conns := s.conns.close c conn
  let next := cls.onClosed conns c s.master
  ({ s with conns := conns, master := next.1 }, next.2)

/-- `OnConfirm`. -/
def onConfirm (cls : ConnClass) (s : State) (tick c : Nat) (conn : ServConn) : State × List Effect :=
  let conns := s.conns.onConfirm c conn
  let next := cls.onConfirmed conns tick c s.master
  ({ s with conns := conns, master := next.1 }, next.2)

/-- What the timer does with an entry of the map. -/
def onTimer (cls : ConnClass) (tick : Nat) (s : State) (entry : Nat × Nat) : Option (State × List Effect) :=
  match s.conns.conns entry.2 with
  | none => none
  | some conn =>
    if cls.timed conn = true ∧ tick > conn.lastRecvTick + serverTimeout then some (s.close cls entry.2 conn) else some (s, [])

/-- What an event does. A socket tells only once that it is connected. -/
def handle (cls : ConnClass) (s : State) : Event → Option (State × List Effect)
  | .servInit tick answers => s.lift (s.conns.step (.servInit tick answers))
  | .timer tick order answers =>
    if s.conns.started = true ∧ order.Perm s.conns.connMap.toList then
      match Machine.steps (onTimer cls tick) s order with
      | none => none
      | some (s, out) =>
        (s.lift (Machine.steps (ServInfo.State.checkSlot tick answers) s.conns s.conns.indices)).map fun next =>
          (next.1, out ++ next.2)
    else none
  | .confirm handle tick =>
    match s.conns.find handle with
    | none => some (s, [])
    | some (c, conn) => if conn.isOpen = true then none else some (s.onConfirm cls tick c conn)
  | .close handle =>
    match s.conns.find handle with
    | none => some (s, [])
    | some (c, conn) => some (s.close cls c conn)
  | .read handle tick => s.lift (s.conns.step (.read handle tick))

/-- One step. -/
def step (cls : ConnClass) (s : State) (e : Event) : Option (State × List Effect) :=
  match e.tick? with
  | none => s.handle cls e
  | some tick => if tick < tickSize then { s with now := tick }.handle cls e else none

end State

end TeamTalk.MasterConns
