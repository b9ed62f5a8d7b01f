import TeamTalk.Base.UtilPdu
import TeamTalk.Lib.Machine

/-!
# The sending side of a connection

`CImConn::Send` and `OnWrite`. What each call of `netlib_send` answers is part of the event: from an error, which is negative, up to
all that it is given.
-/

namespace TeamTalk

open SimpleBuffer

/-- `NETLIB_MAX_SOCKET_BUF_SIZE`. -/
def netlibMaxSocketBufSize : Nat := 128 * 1024

/-- How much a socket takes at most of what remains. `send_size` is an `int`: a larger number becomes negative, passes the comparison,
and is a huge size for the socket, of which it takes `INT_MAX` bytes. -/
def offered (remain : Nat) : Nat := if remain < intSize then min remain netlibMaxSocketBufSize else intSize - 1

/-- `CImConn`, as far as it sends: `m_busy` and `m_out_buf`. Beside it: what has been passed to `Send`, what the socket has accepted,
and whether something was done that has no defined result. -/
structure OutConn where
  busy : Bool
  outBuf : SimpleBuffer
  passed : Bytes
  accepted : Bytes
  undefinedBehaviour : Bool
  deriving DecidableEq, Repr

/-- A call of `Send`, or an event that the socket can be written; each with what the calls of `netlib_send` answer one after the other.
A call after those answers that it would block. -/
inductive OutEvent where
  | send (data : Bytes) (answers : List Int)
  | onWrite (answers : List Int)
  deriving DecidableEq, Repr

namespace OutConn

/-- A new connection. -/
def init : OutConn := { busy := false, outBuf := SimpleBuffer.init, passed := [], accepted := [], undefinedBehaviour := false }

/-- The loop of `Send`: how much is sent of so many bytes. A socket takes no more than it is given. -/
def sendLoop : List Int → Nat → Nat → Option Nat
  | [], offset, _ => some offset
  | ret :: answers, offset, remain =>
    if remain = 0 ∨ ret ≤ 0 then some offset
    else if ret ≤ offered remain then sendLoop answers (offset + ret.toNat) (remain - ret.toNat)
    else none

/-- The bytes go behind the buffer. -/
def writeOut (c : OutConn) (data : Bytes) : OutConn :=
  match c.outBuf.write (some data) data.length with
  | .ok outBuf => { c with outBuf }
  | .error _ => { c with undefinedBehaviour := true }

/-- `Send`. The length is an `int`. -/
def send (c : OutConn) (data : Bytes) (answers : List Int) : Option OutConn :=
  if data.length < intSize then
    if c.busy then some ({ c with passed := c.passed ++ data }.writeOut data)
    else (sendLoop answers 0 data.length).map fun offset =>
      let sent := { c with passed := c.passed ++ data, accepted := c.accepted ++ data.take offset }
      if offset < data.length then { sent with busy := true }.writeOut (data.drop offset) else sent
  else none

/-- The loop of `OnWrite`. -/
def writeLoop : List Int → OutConn → Option OutConn
  | [], c => some c
  | ret :: answers, c =>
    if c.outBuf.writeOffset = 0 ∨ ret ≤ 0 then some c
    else if ret ≤ offered c.outBuf.writeOffset then
      match c.outBuf.readNull ret.toNat with
      | .ok outBuf => writeLoop answers { c with outBuf, accepted := c.accepted ++ c.outBuf.contents.take ret.toNat }
      | .error _ => some { c with undefinedBehaviour := true }
    else none

/-- `OnWrite`. -/
def onWrite (c : OutConn) (answers : List Int) : Option OutConn :=
  if c.busy then (writeLoop answers c).map fun c => if c.outBuf.writeOffset = 0 then { c with busy := false } else c
  else some c

/-- One step. Nothing is defined any more once something was done that is not. -/
def step (c : OutConn) (e : OutEvent) : Option (OutConn × List Unit) :=
  if c.undefinedBehaviour then none
  else
    match e with
    | .send data answers => (c.send data answers).map fun c => (c, [])
    | .onWrite answers => (c.onWrite answers).map fun c => (c, [])

end OutConn

end TeamTalk
