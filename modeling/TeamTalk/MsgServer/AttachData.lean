import TeamTalk.Base.Streams
import TeamTalk.Protocol.Messages

/-!
# Attached data

`CDbAttachData` and `CPduAttachData`: what msg_server attaches to a request for another server, and takes from the answer. Each class has
a constructor that writes a buffer and one that reads received bytes.
-/

namespace TeamTalk.AttachData

/-- `m_type`, `m_handle` and `m_service_type`, which both classes have. -/
structure Prefix where
  type : Nat
  handle : Nat
  serviceType : Nat
  deriving DecidableEq, Repr

/-- The three writes that both constructors begin with. -/
def writePrefix (os : OutStream) (p : Prefix) : Exec OutStream := do
  let os ← os.putUint32 p.type
  let os ← os.putUint32 p.handle
  os.putUint32 p.serviceType

/-- The three reads that both constructors begin with. -/
def readPrefix (is : InStream) : Exec (Prefix × InStream) := do
  let type ← is.get .four
  let handle ← type.2.get .four
  let serviceType ← handle.2.get .four
  return (⟨type.1, handle.1, serviceType.1⟩, serviceType.2)

/-- `CDbAttachData`, writing: its buffer. -/
def writeDb (p : Prefix) : Exec SimpleBuffer := do
  let os ← writePrefix OutStream.new p
  return os.simpBuf

/-- `CDbAttachData`, reading. -/
def readDb (attachData : Bytes) : Exec Prefix := do
  let is ← readPrefix (InStream.new attachData)
  return is.1

/-- `CPduAttachData`, writing: its buffer. -/
def writePdu (p : Prefix) (pdu : Bytes) : Exec SimpleBuffer := do
  let os ← writePrefix OutStream.new p
  let os ← os.writeData pdu
  return os.simpBuf

/-- `CPduAttachData`, reading. `m_pdu` and `m_pduLength` are a range of the received bytes. -/
def readPdu (attachData : Bytes) : Exec (Prefix × InStream.Range) := do
  let is ← readPrefix (InStream.new attachData)
  let pdu ← is.2.readData
  return (is.1, pdu.1)

/-- What `GetBuffer` and `GetLength` give, or `GetPdu` and `GetPduLength`: the bytes of a range. -/
def bytesOf (attachData : Bytes) (range : InStream.Range) : Exec Bytes := readAt attachData range.start range.length

end TeamTalk.AttachData
