import TeamTalk.Base.UtilPdu
import TeamTalk.Lib.Machine

/-!
# Responses of the DB proxy

Worker threads add responses to a list; the main thread takes them from it one by one, and sends each on the connection with the
response's uuid, if there is one. Both hold `s_list_lock` while they touch the list. What a PDU is does not matter here.
-/

namespace TeamTalk.DbProxy.Responses

/-- `CProxyConn`: its uuid, its socket, and whether that is open. -/
structure ProxyConn where
  uuid : Nat
  handle : Nat
  isOpen : Bool
  deriving DecidableEq, Repr

/-- `ResponsePdu_t`. No PDU means that the connection is to be closed. -/
structure ResponsePdu (π : Type) where
  connUuid : Nat
  pdu : Option π
  deriving DecidableEq, Repr

/-- Who holds `s_list_lock`. -/
inductive Holder where
  | main
  | worker (i : Nat)
  deriving DecidableEq, Repr

/-- Where the main thread is: in the event loop, or in `SendResponsePduList`: before `lock`, before the condition of the loop,
before `unlock` with what it has taken from the list, or with a response in its hand. -/
inductive MainAt (π : Type) where
  | eventLoop
  | locking
  | testing
  | unlocking (taken : Option (ResponsePdu π))
  | sending (resp : ResponsePdu π)
  deriving DecidableEq, Repr

/-- Where a worker thread is: in a handler, or in `AddResponsePdu`: before `lock`, before `push_back`, or before `unlock`. -/
inductive WorkerAt (π : Type) where
  | handler
  | locking (resp : ResponsePdu π)
  | pushing (resp : ResponsePdu π)
  | unlocking
  deriving DecidableEq, Repr

/-- The process. A `CProxyConn*` is a number that is not given to two connections; `sockets` are the open ones. -/
structure State (π : Type) where
  uuidAlloctor : Nat
  conns : Nat → Option ProxyConn
  nextConn : Nat
  sockets : Nat → Bool
  proxyConnMap : Nat → Option Nat
  uuidConnMap : Nat → Option Nat
  responsePduList : List (ResponsePdu π)
  listLock : Option Holder
  main : MainAt π
  workers : Nat → WorkerAt π

/-- What is done with responses and connections. -/
inductive Effect (π : Type) where
  | added (resp : ResponsePdu π)
  | sent (c : Nat) (resp : ResponsePdu π)
  | closedBy (c : Nat) (resp : ResponsePdu π)
  | discarded (resp : ResponsePdu π)
  | freed (resp : ResponsePdu π)
  deriving DecidableEq, Repr

/-- What can happen: a connection comes in on a new socket; a socket is closed, by the peer, for a bad PDU or by the timer;
`SendResponsePduList` is called; a handler calls `AddResponsePdu`; a thread that is in one of these goes on. -/
inductive Event (π : Type) where
  | accept (handle : Nat)
  | close (handle : Nat)
  | sendResponsePduList
  | addResponsePdu (i : Nat) (resp : ResponsePdu π)
  | main
  | worker (i : Nat)

variable {π : Type}

namespace State

/-- At the start. -/
def init (π : Type) : State π :=
  { uuidAlloctor := 0, conns := fun _ => none, nextConn := 0, sockets := fun _ => false, proxyConnMap := fun _ => none,
    uuidConnMap := fun _ => none, responsePduList := [], listLock := none, main := .eventLoop, workers := fun _ => .handler }

/-- `++s_uuid_alloctor`, once more when it comes to zero. -/
def nextUuid (s : State π) : Nat :=
  let uuid := (s.uuidAlloctor + 1) % uint32Size
  if uuid = 0 then 1 else uuid

/-- The constructor and `OnConnect`: neither `insert` replaces an entry. -/
def onConnect (s : State π) (handle : Nat) : State π :=
  { s with
    uuidAlloctor := s.nextUuid
    conns := fun c => if c = s.nextConn then some { uuid := s.nextUuid, handle, isOpen := true } else s.conns c
    nextConn := s.nextConn + 1
    sockets := fun h => if h = handle then true else s.sockets h
    uuidConnMap := fun u => if u = s.nextUuid then (s.uuidConnMap u).or (some s.nextConn) else s.uuidConnMap u
    proxyConnMap := fun h => if h = handle then (s.proxyConnMap h).or (some s.nextConn) else s.proxyConnMap h }

/-- `Close`. -/
def close (s : State π) (c : Nat) (conn : ProxyConn) : State π :=
  { s with
    conns := fun c' => if c' = c then some { conn with isOpen := false } else s.conns c'
    sockets := fun h => if h = conn.handle then false else s.sockets h
    proxyConnMap := fun h => if h = conn.handle then none else s.proxyConnMap h
    uuidConnMap := fun u => if u = conn.uuid then none else s.uuidConnMap u }

/-- The connection that a map leads to. -/
def get (s : State π) : Option Nat → Option (Nat × ProxyConn)
  | none => none
  | some c => (s.conns c).map fun conn => (c, conn)

/-- The turn of `SendResponsePduList` for a response that is taken from the list. -/
def sendResponse (s : State π) (resp : ResponsePdu π) : State π × List (Effect π) :=
  match s.get (s.uuidConnMap resp.connUuid) with
  | none => (s, [.discarded resp, .freed resp])
  | some (c, conn) =>
    match resp.pdu with
    | some _ => (s, [.sent c resp, .freed resp])
    | none => (s.close c conn, [.closedBy c resp, .freed resp])

/-- The main thread goes on in `SendResponsePduList`. -/
def mainStep (s : State π) : Option (State π × List (Effect π)) :=
  match s.main with
  | .eventLoop => none
  | .locking =>
    match s.listLock with
    | none => some ({ s with listLock := some .main, main := .testing }, [])
    | some _ => none
  | .testing =>
    match s.responsePduList with
    | [] => some ({ s with main := .unlocking none }, [])
    | resp :: rest => some ({ s with responsePduList := rest, main := .unlocking (some resp) }, [])
  | .unlocking none => some ({ s with listLock := none, main := .eventLoop }, [])
  | .unlocking (some resp) => some ({ s with listLock := none, main := .sending resp }, [])
  | .sending resp => some ({ (s.sendResponse resp).1 with main := .locking }, (s.sendResponse resp).2)

/-- Set where a worker thread is. -/
def setWorker (s : State π) (i : Nat) (w : WorkerAt π) : State π :=
  { s with workers := fun j => if j = i then w else s.workers j }

/-- A worker thread goes on in `AddResponsePdu`. -/
def workerStep (s : State π) (i : Nat) : Option (State π × List (Effect π)) :=
  match s.workers i with
  | .handler => none
  | .locking resp =>
    match s.listLock with
    | none => some ({ s.setWorker i (.pushing resp) with listLock := some (.worker i) }, [])
    | some _ => none
  | .pushing resp =>
    some ({ s.setWorker i .unlocking with responsePduList := s.responsePduList ++ [resp] }, [.added resp])
  | .unlocking => some ({ s.setWorker i .handler with listLock := none }, [])

/-- One step. The main thread is in the event loop when a connection comes in or is closed. -/
def step (s : State π) : Event π → Option (State π × List (Effect π))
  | .accept handle =>
    match s.main, s.sockets handle with
    | .eventLoop, false => some (s.onConnect handle, [])
    | _, _ => none
  | .close handle =>
    match s.main with
    | .eventLoop =>
      match s.get (s.proxyConnMap handle) with
      | none => some (s, [])
      | some (c, conn) => some (s.close c conn, [])
    | _ => none
  | .sendResponsePduList =>
    match s.main with
    | .eventLoop => some ({ s with main := .locking }, [])
    | _ => none
  | .addResponsePdu i resp =>
    match s.workers i with
    | .handler => some (s.setWorker i (.locking resp), [])
    | _ => none
  | .main => s.mainStep
  | .worker i => s.workerStep i

end State

end TeamTalk.DbProxy.Responses
