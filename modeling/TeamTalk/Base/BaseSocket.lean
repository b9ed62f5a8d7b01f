import TeamTalk.Lib.Machine

/-!
# Sockets and their references

`CBaseSocket`, the map of sockets, the functions of `netlib.cpp`, and what `StartDispatch` does with one event. All of it runs in one
thread: a function of netlib is called between two steps of the dispatch, from a callback or when no event is being dispatched. What the
operating system answers is part of each event.
-/

namespace TeamTalk.Netlib

/-- `net_handle_t`, the number of a descriptor. -/
abbrev Handle := Nat

/-- A `CBaseSocket*`; no number is given to two sockets. -/
abbrev SocketId := Nat

/-- `m_state`. -/
inductive SocketState where
  | idle
  | listening
  | connecting
  | connected
  | closing
  deriving DecidableEq, Repr

/-- `NETLIB_MSG_CONNECT`, and the other messages of a socket. -/
inductive Msg where
  | connect
  | confirm
  | read
  | write
  | close
  deriving DecidableEq, Repr

/-- `CBaseSocket`, with the reference count of `CRefObject`. A socket is deleted when the count becomes zero. The count is an `int`: it
is a number here as long as it does not reach 2^31. -/
structure BaseSocket where
  socket : Handle
  state : SocketState
  callback : Nat
  callbackData : Nat
  refCount : Nat := 1
  deriving DecidableEq, Repr

/-- What is left to do of an event: `OnClose`, `OnRead`, `OnWrite`, or the next turn of the loop of `_AcceptNewSocket`. -/
inductive Handler where
  | onClose
  | onRead
  | onWrite
  | acceptNewSocket
  deriving DecidableEq, Repr

/-- The event that is being dispatched, and its socket. -/
structure Dispatch where
  socket : SocketId
  handlers : List Handler
  deriving DecidableEq, Repr

/-- `g_socket_map`, the descriptors that are open and those that are watched, and all sockets there ever were. -/
structure State where
  sockets : List BaseSocket
  socketMap : Handle → Option SocketId
  watched : Handle → Bool
  opened : Handle → Bool
  dispatch : Option Dispatch

/-- What can be seen. -/
inductive Output where
  /-- A callback that a method of the socket makes. -/
  | callback (id : SocketId) (callback callbackData : Nat) (msg : Msg) (handle : Handle)
  /-- The socket is deleted. -/
  | deleted (id : SocketId)
  /-- `netlib_option` returns and keeps its reference. -/
  | kept (id : SocketId)
  /-- `epoll_ctl` fails to add the descriptor of a new socket, which is logged. -/
  | unwatched (id : SocketId)
  /-- A deleted socket is used. -/
  | undefined
  deriving DecidableEq, Repr

/-- Nothing is open. -/
def State.init : State := ⟨[], fun _ => none, fun _ => false, fun _ => false, none⟩

/-- One place of a map. -/
def put {α : Type} (f : Handle → α) (handle : Handle) (a : α) (h : Handle) : α := if h = handle then a else f h

/-! ## References -/

/-- Use a socket, which must not have been deleted. -/
def State.use (s : State) (id : SocketId) (f : BaseSocket → State × List Output) : State × List Output :=
  match s.sockets[id]? with
  | none => (s, [.undefined])
  | some b => if b.refCount = 0 then (s, [.undefined]) else f b

/-- `AddRef`. -/
def State.addRef (s : State) (id : SocketId) : State × List Output :=
  s.use id fun b => ({ s with sockets := s.sockets.set id { b with refCount := b.refCount + 1 } }, [])

/-- `ReleaseRef`. -/
def State.releaseRef (s : State) (id : SocketId) : State × List Output :=
  s.use id fun b => ({ s with sockets := s.sockets.set id { b with refCount := b.refCount - 1 } },
    if b.refCount = 1 then [.deleted id] else [])

/-- `AddBaseSocket`: `insert` leaves what is there. -/
def addBaseSocket (map : Handle → Option SocketId) (handle : Handle) (id : SocketId) : Handle → Option SocketId :=
  if (map handle).isSome then map else put map handle (some id)

/-- A new socket with an open descriptor, in the map; and `AddEvent`, with what `epoll_ctl` answers. -/
def State.newSocket (s : State) (b : BaseSocket) (added : Bool) : State × List Output :=
  ({ s with
      sockets := s.sockets ++ [b]
      socketMap := addBaseSocket s.socketMap b.socket s.sockets.length
      watched := put s.watched b.socket added
      opened := put s.opened b.socket true },
    if added then [] else [.unwatched s.sockets.length])

/-- One after the other. -/
def andThen (x : State × List Output) (f : State → State × List Output) : State × List Output :=
  ((f x.1).1, x.2 ++ (f x.1).2)

/-- `FindBaseSocket`, and what is done with the socket that is found. -/
def State.withSocket (s : State) (handle : Handle) (f : SocketId → State → State × List Output) : State × List Output :=
  match s.socketMap handle with
  | none => (s, [])
  | some id => andThen (s.addRef id) (f id)

/-! ## The functions of netlib -/

/-- `netlib_listen` and `netlib_connect`: the descriptor, unless something fails. The socket of a failure is deleted again. -/
def State.start (s : State) (state : SocketState) (callback callbackData : Nat) (added : Bool) : Option Handle → State × List Output
  | none => (s, [])
  | some handle => s.newSocket { socket := handle, state, callback, callbackData } added

/-- `netlib_send` and `netlib_recv`: the bytes are the business of the operating system. -/
def State.transfer (s : State) (handle : Handle) : State × List Output :=
  s.withSocket handle fun id s => andThen (s.use id fun _ => (s, [])) fun s => s.releaseRef id

/-- `CBaseSocket::Close`. A descriptor that is closed is not watched, whatever `epoll_ctl` has answered before that. -/
def State.closeSocket (s : State) (id : SocketId) : State × List Output :=
  s.use id fun b =>
    ({ s with watched := put s.watched b.socket false, socketMap := put s.socketMap b.socket none, opened := put s.opened b.socket false } :
      State).releaseRef id

/-- `netlib_close`. -/
def State.close (s : State) (handle : Handle) : State × List Output :=
  s.withSocket handle fun id s => andThen (s.closeSocket id) fun s => s.releaseRef id

/-- The options of `netlib_option`: the callback, its data, and what is got or set through a place that may be missing. -/
inductive Opt where
  | setCallback (callback : Nat)
  | setCallbackData (callbackData : Nat)
  | other (optval : Bool)
  deriving DecidableEq, Repr

/-- `netlib_option`: without a place it returns before `ReleaseRef`. -/
def State.option (s : State) (handle : Handle) (opt : Opt) : State × List Output :=
  s.withSocket handle fun id s =>
    match opt with
    | .setCallback callback =>
      andThen (s.use id fun b => ({ s with sockets := s.sockets.set id { b with callback } }, [])) fun s => s.releaseRef id
    | .setCallbackData callbackData =>
      andThen (s.use id fun b => ({ s with sockets := s.sockets.set id { b with callbackData } }, [])) fun s => s.releaseRef id
    | .other optval => if optval then andThen (s.use id fun _ => (s, [])) fun s => s.releaseRef id else (s, [.kept id])

/-! ## Dispatching an event -/

/-- The flags of an event. -/
structure Flags where
  rdhup : Bool
  read : Bool
  write : Bool
  excep : Bool
  deriving DecidableEq, Repr

/-- What is done for the flags, in this order. -/
def Flags.handlers (flags : Flags) : List Handler :=
  (if flags.rdhup then [.onClose] else []) ++ (if flags.read then [.onRead] else []) ++ (if flags.write then [.onWrite] else []) ++
    (if flags.excep then [.onClose] else [])

/-- What the operating system answers to the next method. -/
structure Answer where
  /-- Whether there are bytes to read. -/
  avail : Bool
  /-- Whether a connection attempt failed. -/
  error : Bool
  /-- What `accept` gives. -/
  accepted : Option Handle
  /-- Whether `epoll_ctl` adds it. -/
  added : Bool
  deriving DecidableEq, Repr

/-- `StartDispatch` takes up an event: the socket is looked up. -/
def State.take (s : State) (handle : Handle) (flags : Flags) : State × List Output :=
  s.withSocket handle fun id s => ({ s with dispatch := some ⟨id, flags.handlers⟩ }, [])

/-- A callback with the message. -/
def BaseSocket.call (b : BaseSocket) (id : SocketId) (msg : Msg) (handle : Handle) : Output :=
  .callback id b.callback b.callbackData msg handle

/-- The next method of the event, up to its callback: `OnClose`, `OnRead`, `OnWrite`, or one turn of `_AcceptNewSocket`. -/
def State.handle (s : State) (id : SocketId) (answer : Answer) (rest : List Handler) : Handler → State × List Output
  | .onClose => s.use id fun b =>
    ({ s with sockets := s.sockets.set id { b with state := .closing }, dispatch := some ⟨id, rest⟩ }, [b.call id .close b.socket])
  | .onRead => s.use id fun b =>
    if b.state = .listening then ({ s with dispatch := some ⟨id, .acceptNewSocket :: rest⟩ }, [])
    else ({ s with dispatch := some ⟨id, rest⟩ }, [b.call id (if answer.avail then .read else .close) b.socket])
  | .onWrite => s.use id fun b =>
    if b.state = .connecting then
      if answer.error then ({ s with dispatch := some ⟨id, rest⟩ }, [b.call id .close b.socket])
      else
        ({ s with sockets := s.sockets.set id { b with state := .connected }, dispatch := some ⟨id, rest⟩ },
          [b.call id .confirm b.socket])
    else ({ s with dispatch := some ⟨id, rest⟩ }, [b.call id .write b.socket])
  | .acceptNewSocket => s.use id fun b =>
    match answer.accepted with
    | none => ({ s with dispatch := some ⟨id, rest⟩ }, [])
    | some handle =>
      andThen (s.newSocket { socket := handle, state := .connected, callback := b.callback, callbackData := b.callbackData } answer.added)
        fun s => ({ s with dispatch := some ⟨id, .acceptNewSocket :: rest⟩ }, [b.call id .connect handle])

/-- The next step of the dispatch; after the last one the reference is released. -/
def State.next (s : State) (d : Dispatch) (answer : Answer) : State × List Output :=
  match d.handlers with
  | [] => andThen (s.releaseRef d.socket) fun s => ({ s with dispatch := none }, [])
  | handler :: rest => s.handle d.socket answer rest handler

/-! ## All steps -/

/-- What happens next. -/
inductive Event where
  | listen (callback callbackData : Nat) (handle : Option Handle) (added : Bool)
  | connect (callback callbackData : Nat) (handle : Option Handle) (added : Bool)
  | transfer (handle : Handle)
  | close (handle : Handle)
  | option (handle : Handle) (opt : Opt)
  | take (handle : Handle) (flags : Flags)
  | next (answer : Answer)
  deriving DecidableEq, Repr

/-- The descriptor that the operating system gives. -/
def Event.fresh : Event → Option Handle
  | .listen _ _ handle _ | .connect _ _ handle _ => handle
  | .next answer => answer.accepted
  | .transfer _ | .close _ | .option _ _ | .take _ _ => none

/-- One step: no new descriptor is one that is open, and one event is dispatched at a time. -/
def State.step (s : State) (e : Event) : Option (State × List Output) :=
  if e.fresh.any s.opened then none
  else
    match e with
    | .listen callback callbackData handle added => some (s.start .listening callback callbackData added handle)
    | .connect callback callbackData handle added => some (s.start .connecting callback callbackData added handle)
    | .transfer handle => some (s.transfer handle)
    | .close handle => some (s.close handle)
    | .option handle opt => some (s.option handle opt)
    | .take handle flags => if s.dispatch.isSome then none else some (s.take handle flags)
    | .next answer => s.dispatch.map fun d => s.next d answer

end TeamTalk.Netlib
