import Mathlib
import TeamTalk.Base.ImPduBase
import TeamTalk.Protocol.BaseDefine

/-!
# The stream reader of push_server

`CPushSessionHandler::OnRecvData` appends what was received to `m_Msg`, and handles one PDU after the other while
`CheckMsgAvailable` says that there is one. The `CSimpleBuffer` of push_server has the fields of the other servers' one, but
counts in `int`, so a size from `2 ^ 31` on has no defined result.
-/

namespace TeamTalk.PushServer

open SimpleBuffer ByteStream

/-! ## `CSimpleBuffer` -/

/-- `CSimpleBuffer::Extend`. -/
def extend (b : SimpleBuffer) (nlen : Nat) : Exec SimpleBuffer :=
  let allocSize := b.writeOffset + nlen
  let allocSize := allocSize + allocSize / 4
  if allocSize < intSize then .ok { b with buffer := realloc b.buffer allocSize } else .error .undefinedBehaviour

/-- The block is extended when what is written has no room in it. -/
def makeRoom (b : SimpleBuffer) (nlen : Nat) : Exec SimpleBuffer :=
  if b.writeOffset + nlen > b.allocSize then extend b nlen else .ok b

/-- `CSimpleBuffer::Write`. -/
def write (b : SimpleBuffer) (data : Bytes) : Exec SimpleBuffer := do
  let b ← makeRoom b data.length
  return { buffer := ← copyAt b.buffer b.writeOffset data, writeOffset := b.writeOffset + data.length }

/-- `CBaseMsg::Remove`: `CSimpleBuffer::Read` with a null pointer. A number that is negative as an `int` moves memory from
before the block. -/
def remove (b : SimpleBuffer) (dataSize : Nat) : Exec SimpleBuffer :=
  if dataSize < intSize then b.readNull dataSize else .error .undefinedBehaviour

/-! ## `CPduMsg` -/

/-- `ST_HEAD`. -/
structure StHead where
  length : Nat
  version : Nat
  flag : Nat
  serviceId : Nat
  commandId : Nat
  error : Nat
  seqNo : Nat
  deriving DecidableEq, Repr

/-- `HEAD_LENGTH`. -/
abbrev headLength : Nat := 16

/-- `CPduMsg`. -/
structure PduMsg where
  databuffer : SimpleBuffer
  sthead : StHead
  deriving DecidableEq, Repr

/-- `PDU_VERSION`. -/
def pduVersion : Nat := 1

/-- A new `CPduMsg`. -/
def PduMsg.new : PduMsg :=
  { databuffer := init
    sthead := { length := 0, version := pduVersion, flag := 0, serviceId := 0, commandId := 0, error := 0, seqNo := 0 } }

/-- The reads of the header's fields. -/
def readHead (buf : Bytes) : Exec StHead := do
  return {
    length := ← readUint32 buf 0
    version := ← readUint16 buf 4
    flag := ← readUint16 buf 6
    serviceId := ← readUint16 buf 8
    commandId := ← readUint16 buf 10
    error := ← readUint16 buf 12
    seqNo := ← readUint16 buf 14 }

/-- `CPduMsg::CheckMsgAvailable`. -/
def PduMsg.checkMsgAvailable (m : PduMsg) : Exec (PduMsg × Bool) := do
  if m.databuffer.writeOffset > headLength then
    let sthead ← readHead m.databuffer.buffer
    return ({ m with sthead }, sthead.length ≤ m.databuffer.writeOffset)
  else return (m, false)

/-- `CBaseMsg::Clear`. -/
def PduMsg.clear (m : PduMsg) : Exec PduMsg := do
  return { m with databuffer := ← m.databuffer.readNull m.databuffer.writeOffset }

/-! ## `CPushSessionHandler` -/

/-- Which way the `switch` of `OnRecvData` goes. -/
inductive PushHandler where
  | heartBeat | pushMsg | undefined
  deriving DecidableEq, Repr

def handlerOf (commandId : Nat) : PushHandler :=
  match Cid.ofCode commandId with
  | .otherHeartbeat => .heartBeat
  | .otherPushToUserReq => .pushMsg
  | _ => .undefined

/-- A PDU that was handled. -/
structure Handled where
  handler : PushHandler
  pdu : Bytes
  deriving DecidableEq, Repr

/-- A session: `m_Msg`, and what was handled. -/
structure Session where
  msg : PduMsg
  handled : List Handled
  closed : Bool
  deriving DecidableEq, Repr

/-- Before anything has been received. -/
def Session.init : Session := { msg := PduMsg.new, handled := [], closed := false }

/-- Whether a handler closes the session at once (`Stop`, or a send that fails, when nothing is left to be sent), by what was
handled before. -/
abbrev Closes := List Handled → Handled → Bool

/-- A PDU is handled. When the session is closed, `OnClose` clears `m_Msg`. -/
def Session.handle (closes : Closes) (s : Session) (h : Handled) : Exec Session := do
  if closes s.handled h then return { msg := ← s.msg.clear, handled := s.handled ++ [h], closed := true }
  else return { s with handled := s.handled ++ [h] }

/-- The loop of `CPushSessionHandler::OnRecvData`. -/
def recvDataLoop (closes : Closes) : Nat → Session → Exec Session
  | 0, _ => throw .outOfFuel
  | fuel + 1, s => do
    let (msg, available) ← s.msg.checkMsgAvailable
    let s := { s with msg }
    if available then
      let pdu ← readAt msg.databuffer.buffer 0 msg.sthead.length
      let s ← s.handle closes ⟨handlerOf msg.sthead.commandId, pdu⟩
      let databuffer ← remove s.msg.databuffer s.msg.sthead.length
      recvDataLoop closes fuel { s with msg := { s.msg with databuffer } }
    else return s

/-- `CPushSessionHandler::OnRecvData`, with so many turns of the loop at most. A closed session receives nothing. -/
def onRecvData (closes : Closes) (fuel : Nat) (s : Session) (szBuf : Bytes) : Exec Session := do
  if s.closed then return s
  let databuffer ← write s.msg.databuffer szBuf
  recvDataLoop closes fuel { s with msg := { s.msg with databuffer } }

/-- One chunk after the other is received. -/
def recvAll (closes : Closes) (fuel : Nat) (chunks : List Bytes) (s : Session) : Exec Session :=
  chunks.foldlM (onRecvData closes fuel) s

/-! ## The format, as the reader sees it -/

open ImPdu (lengthField lengthField_append lengthField_lt header)

/-- The length of the PDU at the front, when the reader sees it: more than a header is there. -/
def frontLength (xs : Bytes) : Option Nat :=
  if headLength < xs.length ∧ 0 < lengthField xs ∧ lengthField xs ≤ xs.length then some (lengthField xs) else none

theorem frontLength_eq_some {xs : Bytes} {n : Nat} :
    frontLength xs = some n ↔ headLength < xs.length ∧ 0 < n ∧ n ≤ xs.length ∧ n = lengthField xs := by
  unfold frontLength
  split
  · rename_i h
    rw [Option.some.injEq]
    constructor
    · rintro rfl
      exact ⟨h.1, h.2.1, h.2.2, rfl⟩
    · exact fun hn => hn.2.2.2.symm
  · rename_i h
    constructor
    · intro hn
      cases hn
    · rintro ⟨h1, h2, h3, rfl⟩
      exact absurd ⟨h1, h2, h3⟩ h

/-- The first PDU and the rest. -/
def cutFront (xs : Bytes) : Option (Bytes × Bytes) := (frontLength xs).map fun n => (xs.take n, xs.drop n)

theorem cutFront_split {xs f r : Bytes} (h : cutFront xs = some (f, r)) : xs = f ++ r := by
  obtain ⟨n, _, hn⟩ := Option.map_eq_some_iff.1 h
  rw [Prod.mk.injEq] at hn
  rw [← hn.1, ← hn.2, List.take_append_drop]

theorem cutFront_nonempty {xs f r : Bytes} (h : cutFront xs = some (f, r)) : f ≠ [] := by
  intro hf
  obtain ⟨n, hfl, hn⟩ := Option.map_eq_some_iff.1 h
  obtain ⟨_, h0, hle, _⟩ := frontLength_eq_some.1 hfl
  rw [Prod.mk.injEq, hf] at hn
  have hlen := congrArg List.length hn.1
  rw [List.length_take, List.length_nil] at hlen
  omega

theorem cutFront_append {xs f r : Bytes} (h : cutFront xs = some (f, r)) (ys : Bytes) : cutFront (xs ++ ys) = some (f, r ++ ys) := by
  obtain ⟨n, hfl, hn⟩ := Option.map_eq_some_iff.1 h
  obtain ⟨h16, h0, hle, hlf⟩ := frontLength_eq_some.1 hfl
  rw [Prod.mk.injEq] at hn
  have h4 : 4 ≤ xs.length := Nat.le_trans (by decide) (Nat.le_of_lt h16)
  have hfl' : frontLength (xs ++ ys) = some n := by
    refine frontLength_eq_some.2 ⟨?_, h0, ?_, ?_⟩
    · rw [List.length_append]
      omega
    · rw [List.length_append]
      omega
    · rw [lengthField_append h4, hlf]
  rw [cutFront, hfl', Option.map_some, List.take_append_of_le_length hle, List.drop_append_of_le_length hle, hn.1, hn.2]

/-- PDUs one after the other, as the reader cuts them off. -/
def format : Framing.Format UInt8 where
  next xs := (frontLength xs).map fun n => (xs.take n, xs.drop n)
  split := cutFront_split
  nonempty := cutFront_nonempty
  extend := cutFront_append

theorem incomplete_iff {xs : Bytes} : format.Incomplete xs ↔ frontLength xs = none := by
  simp only [Framing.Format.Incomplete, format, Option.map_eq_none_iff]

/-- Cutting off the first PDU, in terms of its length. -/
theorem next_eq_some {xs f r : Bytes} (h : format.next xs = some (f, r)) :
    frontLength xs = some f.length ∧ f = xs.take f.length ∧ r = xs.drop f.length := by
  obtain ⟨n, hfl, hn⟩ := Option.map_eq_some_iff.1 h
  have hle := (frontLength_eq_some.1 hfl).2.2.1
  rw [Prod.mk.injEq] at hn
  have hl : f.length = n := by
    rw [← hn.1, List.length_take]
    omega
  rw [hl]
  exact ⟨hfl, hn.1.symm, hn.2.symm⟩

/-- A header whose length field is zero is at the front, and more than the header is there. -/
def ZeroLength (xs : Bytes) : Prop := headLength < xs.length ∧ lengthField xs = 0

end TeamTalk.PushServer
