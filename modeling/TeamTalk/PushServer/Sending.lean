import TeamTalk.Lib.Machine
import TeamTalk.PushServer.PushSession

/-!
# How push_server sends

`CTCPSessionAsync::SendMsgAsync` is called by any thread and `SendBufferAsync` by the I/O thread. The mutex of the queue is held
for a few statements only, so each of them is a sequence of steps, between which others take theirs: the test of the queue, the
call of `send`, and the change of the queue. The write events are left out: the I/O thread may run at any time. What `send`
takes is part of the event.
-/

namespace TeamTalk.PushServer.Sending

/-- `MAX_SEND_QUEUE_SIZE`. -/
def maxSendQueueSize : Nat := 100000

/-- A thread outside `SendMsgAsync`; one that has found the queue empty; and one that has yet to queue what is left of its
message, or the whole of it. -/
inductive Caller where
  | outside
  | direct (msg : Bytes)
  | left (rest : Bytes) (whole : Bool)
  deriving DecidableEq, Repr

/-- The I/O thread outside `SendBufferAsync`; with the first buffer of the queue; and with the number of bytes of it sent. -/
inductive Io where
  | outside
  | front
  | sent (n : Nat)
  deriving DecidableEq, Repr

/-- The queue, the flag, what has been written to the socket, and where the threads are. Beside them: the messages of each
thread that have been accepted, and whether something was done that has no defined result. -/
structure State where
  sendQueue : List Bytes
  waitForClose : Bool
  socket : Bytes
  callers : Nat → Caller
  io : Io
  accepted : Nat → List Bytes
  undefined : Bool

/-- What can happen. The answer of `send` is a number of bytes, or none when it would block. -/
inductive Event where
  | call (t : Nat) (msg : Bytes)
  | send (t : Nat) (answer : Option Nat)
  | push (t : Nat)
  | ioBegin
  | ioSend (answer : Option Nat)
  | ioEnd
  | setWaitForClose

namespace State

/-- A new session. -/
def init : State :=
  { sendQueue := [], waitForClose := false, socket := [], callers := fun _ => .outside, io := .outside, accepted := fun _ => []
    undefined := false }

/-- Where a thread is from now on. -/
def setCaller (s : State) (t : Nat) (caller : Caller) : State :=
  { s with callers := fun t' => if t' = t then caller else s.callers t' }

/-- A message is accepted. -/
def accept (s : State) (t : Nat) (msg : Bytes) : State :=
  { s with accepted := fun t' => if t' = t then s.accepted t ++ [msg] else s.accepted t' }

/-- A new `CSimpleBuffer` takes the bytes. -/
def Fits (data : Bytes) : Prop := data.length + data.length / 4 < intSize

instance (data : Bytes) : Decidable (Fits data) := inferInstanceAs (Decidable (_ < _))

/-- A buffer with the bytes is put into the queue. -/
def enqueue (s : State) (data : Bytes) : State :=
  { s with sendQueue := s.sendQueue ++ [data], undefined := s.undefined || !decide (Fits data) }

/-- What `send` may answer: it takes nothing only when it is given nothing. -/
def Takes (data : Bytes) (n : Nat) : Prop := n ≤ data.length ∧ (n = 0 → data = [])

instance (data : Bytes) (n : Nat) : Decidable (Takes data n) := inferInstanceAs (Decidable (_ ∧ _))

/-- `SendMsgAsync`, up to the end of the first lock: a message is queued or refused when the queue is not empty. -/
def call (s : State) (t : Nat) (msg : Bytes) : State :=
  if s.sendQueue.length ≠ 0 then
    if s.waitForClose then s
    else if s.sendQueue.length ≥ maxSendQueueSize then s
    else (s.enqueue msg).accept t msg
  else s.setCaller t (.direct msg)

/-- The `send` of `SendMsgAsync`. A message of which nothing is taken is answered with an exception. -/
def send (s : State) (t : Nat) (msg : Bytes) : Option Nat → Option State
  | none => if msg = [] then none else some (s.setCaller t (.left msg true))
  | some n =>
    if Takes msg n then
      if n = 0 then some (s.setCaller t .outside)
      else
        let s := { s with socket := s.socket ++ msg.take n }.accept t msg
        if n ≠ msg.length then some (s.setCaller t (.left (msg.drop n) false)) else some (s.setCaller t .outside)
    else none

/-- The `send` of `SendBufferAsync`. When nothing is taken, the queue is cleared. -/
def ioSend (s : State) : Option Nat → Option State
  | none => some { s with io := .outside }
  | some n =>
    match s.sendQueue with
    | [] => none
    | data :: _ =>
      if Takes data n then
        if n = 0 then some { s with io := .outside, sendQueue := [] }
        else some { s with io := .sent n, socket := s.socket ++ data.take n }
      else none

/-- The end of `SendBufferAsync`: what was sent is taken out of the buffer, or the buffer out of the queue. -/
def ioEnd (s : State) (n : Nat) : Option State :=
  match s.sendQueue with
  | [] => none
  | data :: rest =>
    some { s with io := .outside, sendQueue := if n ≠ data.length then data.drop n :: rest else rest }

/-- One step. There is none when the connection is closed. -/
def step (s : State) : Event → Option (State × List Unit)
  | .call t msg =>
    match s.callers t with
    | .outside => if msg.length < intSize then some (s.call t msg, []) else none
    | _ => none
  | .send t answer =>
    match s.callers t with
    | .direct msg => (s.send t msg answer).map fun s' => (s', [])
    | _ => none
  | .push t =>
    match s.callers t with
    | .left rest whole =>
      let s := (s.enqueue rest).setCaller t .outside
      some (if whole then s.accept t rest else s, [])
    | _ => none
  | .ioBegin =>
    match s.io with
    | .outside =>
      if s.sendQueue.length = 0 then if s.waitForClose then none else some (s, []) else some ({ s with io := .front }, [])
    | _ => none
  | .ioSend answer =>
    match s.io with
    | .front => (s.ioSend answer).map fun s' => (s', [])
    | _ => none
  | .ioEnd =>
    match s.io with
    | .sent n => (s.ioEnd n).map fun s' => (s', [])
    | _ => none
  | .setWaitForClose => some ({ s with waitForClose := true }, [])

end State

end TeamTalk.PushServer.Sending
