import TeamTalk.PushServer.ApnsMsg

/-!
# The feedback service

`CAPNSFeedBackHandler::OnRecvData` and `CAPNSFeedBackResMsg`: tuples of a time, a length and a device token. A message is taken to be as
long as a tuple with a token of 32 bytes.
-/

namespace TeamTalk.PushServer.Feedback

open SimpleBuffer ByteStream

/-- `GetDataLength`: the time, the length, and `APNS_FEEDBACK_MSG_TOKEN` bytes. -/
abbrev dataLength : Nat := 4 + 2 + 32

/-- A digit, as `%X` prints it. -/
def hexDigit (n : Nat) : UInt8 := UInt8.ofNat (if n < 10 then 48 + n else 55 + n)

/-- `snprintf` with `%2.2hhX`. -/
def hexByte (byte : UInt8) : Bytes := [hexDigit (byte.toNat / 16), hexDigit (byte.toNat % 16)]

/-- What is taken from a message: `GetTime` and `GetToken`. -/
structure Report where
  time : Nat
  token : Bytes
  deriving DecidableEq, Repr

/-- `ParseFromArray`, into a message whose buffer is given: `none` when it fails. -/
def parseFromArray (databuffer : SimpleBuffer) (buf : Bytes) (len : Nat) : Exec (Option Report) := do
  if databuffer.writeOffset ≠ 0 then return none
  let databuffer ← write databuffer (← readAt buf 0 len)
  if databuffer.writeOffset ≥ dataLength then
    let time ← readUint32 buf 0
    let tokenLength ← readUint16 buf 4
    let binaryToken ← copyAt (List.replicate 32 0) 0 (← readAt buf 6 tokenLength)
    return some ⟨time, binaryToken.flatMap hexByte⟩
  else return none

/-- The handler: the buffer of `m_Msg`, what was reported, and whether `StopFeedBackClient` was called. -/
structure Handler where
  databuffer : SimpleBuffer
  reports : List Report
  stopped : Bool
  deriving DecidableEq, Repr

namespace Handler

/-- Before anything has been received. -/
def init : Handler := { databuffer := SimpleBuffer.init, reports := [], stopped := false }

/-- The loop of `OnRecvData`, with so many turns at most. -/
def recvLoop : Nat → Handler → Exec Handler
  | 0, _ => throw .outOfFuel
  | fuel + 1, s => do
    if s.databuffer.writeOffset ≥ dataLength then
      let report ← parseFromArray SimpleBuffer.init s.databuffer.buffer dataLength
      let databuffer ← remove s.databuffer dataLength
      recvLoop fuel { databuffer, reports := s.reports ++ report.toList, stopped := s.stopped || report.isNone }
    else return s

/-- `OnRecvData`. Each turn takes bytes from the buffer, so there are no more turns than bytes. -/
def onRecvData (s : Handler) (szBuf : Bytes) : Exec Handler := do
  let databuffer ← write s.databuffer szBuf
  recvLoop (databuffer.writeOffset + 1) { s with databuffer }

/-- One read after the other. -/
def recvAll (s : Handler) (reads : List Bytes) : Exec Handler := reads.foldlM onRecvData s

end Handler

/-- `TCP_RECV_SIZE`: the size of the buffer that `CSSLClientAsync::OnRecv` reads into. -/
abbrev tcpRecvSize : Nat := 1024 * 2

end TeamTalk.PushServer.Feedback
