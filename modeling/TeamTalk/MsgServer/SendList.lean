import TeamTalk.Base.EventDispatch
import TeamTalk.MsgServer.EventLoop

/-!
# Messages that wait for an acknowledgement

`AddToSendList`, `DelFromSendList` and the loop of `OnTimer`, with the ticks as 64-bit numbers and the counters of missed messages, which
the model of the whole server leaves out.
-/

namespace TeamTalk.SendList

open Timers (uint64Size)

/-- `g_down_msg_total_cnt` and `g_down_msg_miss_cnt`. -/
structure Counters where
  downMsgTotalCnt : UInt32
  downMsgMissCnt : UInt32
  deriving DecidableEq, Repr

/-- A client connection, the counters, and whether `Close` has been called for the connection: it is in no map then. -/
structure State where
  conn : MsgConn
  counters : Counters
  closed : Bool

namespace State

/-- A connection that has just been accepted. -/
def new (handle tick clientType : Nat) (counters : Counters) : State := { conn := newMsgConn handle tick clientType, counters, closed := false }

/-- `AddToSendList`, with the tick that it reads. -/
def addToSendList (s : State) (msgId fromId tick : Nat) : State :=
  { s with
    conn := { s.conn with sendMsgList := s.conn.sendMsgList ++ [{ msgId, fromId, timestamp := tick }] }
    counters := { s.counters with downMsgTotalCnt := s.counters.downMsgTotalCnt + 1 } }

/-- `DelFromSendList`. -/
def delFromSendList (s : State) (msgId fromId : Nat) : State :=
  { s with
    conn := { s.conn with sendMsgList := s.conn.sendMsgList.eraseP fun msg => msg.msgId = msgId ∧ msg.fromId = fromId } }

end State

/-! ## `OnTimer` -/

/-- `OnTimer` closes the connection: nothing was received for too long, or the client has not logged in. -/
def timesOut (conn : MsgConn) (currTick : Nat) : Bool :=
  let timeout := if checkClientTypeMobile conn.clientType then mobileClientTimeout else clientTimeout
  currTick > (conn.lastRecvTick + timeout) % uint64Size ||
    (!conn.bOpen && currTick > (conn.loginTime + timeoutWaitLoginResponse) % uint64Size)

/-- The loop of `OnTimer`: what is left of the list, and the counter. It stops at the first message that is not missed yet. -/
def sweep (currTick : Nat) : List MsgAck → UInt32 → List MsgAck × UInt32
  | [], missCnt => ([], missCnt)
  | msg :: rest, missCnt =>
    if currTick ≥ (msg.timestamp + timeoutWaitingMsgDataAck) % uint64Size then sweep currTick rest (missCnt + 1) else (msg :: rest, missCnt)

/-- `OnTimer`. -/
def State.onTimer (s : State) (currTick : Nat) : State :=
  let conn := { s.conn with msgCntPerSec := 0 }
  if timesOut conn currTick then { s with conn, closed := true }
  else
    let swept := sweep currTick conn.sendMsgList s.counters.downMsgMissCnt
    { s with conn := { conn with sendMsgList := swept.1 }, counters := { s.counters with downMsgMissCnt := swept.2 } }

/-! ## Runs -/

/-- What happens to a connection. The last three stand for everything else: other fields change, the counters change for another
connection or are reset by a signal, and the connection is closed for another reason. -/
inductive Event where
  | addToSendList (msgId fromId : Nat)
  | delFromSendList (msgId fromId : Nat)
  | onTimer
  | fields (conn : MsgConn)
  | counters (counters : Counters)
  | close
  deriving DecidableEq

/-- An event, at a tick. -/
def State.step (s : State) (e : Nat × Event) : State :=
  if s.closed then s
  else match e.2 with
    | .addToSendList msgId fromId => s.addToSendList msgId fromId e.1
    | .delFromSendList msgId fromId => s.delFromSendList msgId fromId
    | .onTimer => s.onTimer e.1
    | .fields conn => { s with conn := { conn with sendMsgList := s.conn.sendMsgList } }
    | .counters counters => { s with counters }
    | .close => { s with closed := true }

/-- A run. -/
def State.run (s : State) (events : List (Nat × Event)) : State := events.foldl State.step s

/-- The ticks of a run never go back, and `get_tick_count` computes them as a `long`. -/
structure Clocked (events : List (Nat × Event)) : Prop where
  sorted : (events.map Prod.fst).Pairwise (· ≤ ·)
  long : ∀ e ∈ events, e.1 < 2 ^ 63

end TeamTalk.SendList
