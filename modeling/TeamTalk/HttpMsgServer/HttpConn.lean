import TeamTalk.Base.UtilPdu
import TeamTalk.Lib.Machine

/-!
# Connections of HTTP clients

`CHttpConn` of http_msg_server and of login_server, as far as sending and closing go. A connection has one reference, so `Close` frees
it. What the parser makes of the bytes that have come, and so what a read event leads to, is part of the event; so is what
`netlib_send` takes, where an error is nothing.
-/

namespace TeamTalk.HttpMsgServer

/-- The two servers with a `CHttpConn`. -/
inductive Server where
  | httpMsg
  | login
  deriving DecidableEq, Repr

/-- Who closes a connection. -/
inductive Closer where
  | server
  | peer
  | timeout
  deriving DecidableEq, Repr

/-- `HTTP_CONN_TIMEOUT`. -/
def httpConnTimeout : Nat := 60000

/-- `CHttpConn`. Beside it: what has been handed to `Send`, what has been written to the socket, who closed the connection, and whether
a member was used after that. -/
structure HttpConn where
  busy : Bool
  outBuf : Bytes
  lastRecvTick : Nat
  handed : Bytes
  socket : Bytes
  closedBy : Option Closer
  usedAfterFree : Bool
  deriving DecidableEq, Repr

/-- What a read event leads to: nothing yet, or a request to the DB proxy; the connection is closed; a response is sent; or one is sent
and the connection closed by the caller. -/
inductive Outcome where
  | waits
  | closes
  | sends (data : Bytes) (taken : Nat)
  | sendsAndCloses (data : Bytes) (taken : Nat)
  deriving DecidableEq, Repr

/-- What can happen to a connection. -/
inductive Event where
  | read (tick : Nat) (outcome : Outcome)
  | reply (data : Bytes) (taken : Nat)
  | write (taken : Nat)
  | peerClose
  | timer (tick : Nat)
  deriving DecidableEq, Repr

/-- login_server has no caller of `Send` that closes the connection, and no DB proxy. -/
def Outcome.possible (server : Server) : Outcome → Bool
  | .waits | .closes => true
  | .sends data taken => taken ≤ data.length
  | .sendsAndCloses data taken => server = .httpMsg && taken ≤ data.length

namespace HttpConn

/-- A new connection. -/
def init (tick : Nat) : HttpConn :=
  { busy := false, outBuf := [], lastRecvTick := tick, handed := [], socket := [], closedBy := none, usedAfterFree := false }

/-- `Close`. On a connection that has been freed it reads a member of it, or releases it again. -/
def close (c : HttpConn) (closer : Closer) : HttpConn :=
  match c.closedBy with
  | none => { c with closedBy := some closer }
  | some _ => { c with usedAfterFree := true }

/-- `Send`. When all is taken at once, the connection is closed. -/
def send (c : HttpConn) (data : Bytes) (taken : Nat) : HttpConn :=
  if c.busy then { c with handed := c.handed ++ data, outBuf := c.outBuf ++ data }
  else if taken < data.length then
    { c with handed := c.handed ++ data, socket := c.socket ++ data.take taken, outBuf := c.outBuf ++ data.drop taken, busy := true }
  else { c with handed := c.handed ++ data, socket := c.socket ++ data }.close .server

/-- `OnWrite`. When all is written, login_server changes `m_busy` after the connection has been closed. -/
def onWrite (server : Server) (c : HttpConn) (taken : Nat) : HttpConn :=
  if c.busy then
    let written := { c with socket := c.socket ++ c.outBuf.take taken, outBuf := c.outBuf.drop taken }
    if taken < c.outBuf.length then written
    else
      match server with
      | .httpMsg => { written with busy := false }.close .server
      | .login => { written.close .server with busy := false, usedAfterFree := true }
  else c

/-- What a read event leads to. -/
def onRequest (c : HttpConn) : Outcome → HttpConn
  | .waits => c
  | .closes => c.close .server
  | .sends data taken => c.send data taken
  | .sendsAndCloses data taken => (c.send data taken).close .server

/-- One step. A connection that has been closed is found by no handler. -/
def step (server : Server) (c : HttpConn) (e : Event) : Option (HttpConn × List Unit) :=
  if c.closedBy = none then
    match e with
    | .read tick outcome =>
      if outcome.possible server then some ({ c with lastRecvTick := tick }.onRequest outcome, []) else none
    | .reply data taken =>
      if server = .httpMsg ∧ taken ≤ data.length then some ((c.send data taken).close .server, []) else none
    | .write taken => if taken ≤ c.outBuf.length then some (c.onWrite server taken, []) else none
    | .peerClose => some (c.close .peer, [])
    | .timer tick => some (if c.lastRecvTick + httpConnTimeout < tick then c.close .timeout else c, [])
  else none

end HttpConn

end TeamTalk.HttpMsgServer
