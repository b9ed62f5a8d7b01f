import TeamTalk.Base.Jsonxx
import TeamTalk.PushServer.PushSession

/-!
# Messages to the APNs gateway

`CAPNSGateWayMsg`: the payload is built from the fields, and the message is written into a buffer as a frame of items. The device token
is read digit pair by digit pair with `sscanf`, which stores an `unsigned int` where it is told to.
-/

namespace TeamTalk.PushServer

open ByteStream Jsonxx

/-- `APNS_DEVICE_TOKEN_HEX_LENGTH`. -/
abbrev tokenHexLength : Nat := 64

/-- `APNS_DEVICE_TOKEN_BINARY_LENGTH`. -/
abbrev tokenBinaryLength : Nat := 32

/-- `APNS_PAY_LOAD_MAX_LENGTH`. -/
abbrev payLoadMaxLength : Nat := 256

/-- `sizeof(ST_GATEWAY_HEAD)`, which is packed. -/
abbrev gateWayHeadLength : Nat := 5

/-- `CAPNSGateWayMsg`. -/
structure GateWayMsg where
  databuffer : SimpleBuffer
  deviceToken : Bytes
  notificationId : Nat
  expirationDate : Nat
  priority : UInt8
  sound : Bool
  badge : Nat
  customData : Bytes
  alterBody : Bytes
  actionLocKey : Bytes
  locKey : Bytes
  locArgsList : List Bytes
  launchImage : Bytes

namespace GateWayMsg

/-- The constructor. -/
def new : GateWayMsg :=
  { databuffer := SimpleBuffer.init, deviceToken := [], notificationId := 0, expirationDate := 1, priority := 10, sound := true, badge := 0
    customData := [], alterBody := [], actionLocKey := [], locKey := [], locArgsList := [], launchImage := [] }

/-! ## The payload -/

/-- An entry for a text that is not empty. -/
def putText (o : Object) (key text : Bytes) : Object := if text.length ≠ 0 then o.put key (.string text) else o

/-- The alert. jsonxx knows no value for a `list<string>`. -/
def alert (m : GateWayMsg) : Object :=
  let o := putText [] (chars "body") m.alterBody
  let o := putText o (chars "action-loc-key") m.actionLocKey
  let o := putText o (chars "loc-key") m.locKey
  let o := if m.locArgsList.length ≠ 0 then o.put (chars "loc-args") .null else o
  putText o (chars "launch-image") m.launchImage

/-- The `aps` of the payload. -/
def aps (m : GateWayMsg) : Object :=
  if !m.sound then Object.put [] (chars "badge") (.number m.badge)
  else ((Object.put [] (chars "alert") (.object m.alert)).put (chars "badge") (.number m.badge)).put (chars "sound")
    (.string (chars "bingbong.aiff"))

/-- `_BuildPayload`. -/
def buildPayload (m : GateWayMsg) : Bytes :=
  ((Object.put [] (chars "aps") (.object m.aps)).put (chars "custom") (.string m.customData)).json

/-! ## The device token -/

/-- The value of a hexadecimal digit. -/
def hexDigitValue (ch : UInt8) : Option Nat :=
  if 48 ≤ ch ∧ ch ≤ 57 then some (ch.toNat - 48)
  else if 65 ≤ ch ∧ ch ≤ 70 then some (ch.toNat - 55)
  else if 97 ≤ ch ∧ ch ≤ 102 then some (ch.toNat - 87)
  else none

/-- What `sscanf` with `%x` reads from a text of two characters: blanks are skipped, then a sign and the digits. After `0x` there is no
room for a digit. -/
def scanHex (text : Bytes) : Option Nat :=
  let text := text.dropWhile fun ch => ch = 32 ∨ 9 ≤ ch ∧ ch ≤ 13
  let digits := (text.drop (if text.head? = some 43 ∨ text.head? = some 45 then 1 else 0)).takeWhile fun ch => (hexDigitValue ch).isSome
  let value := digits.foldl (fun n ch => n * 16 + (hexDigitValue ch).getD 0) 0
  if digits = [] then none
  else if text.head? = some 45 then some ((uint32Size - value) % uint32Size)
  else some value

/-- The bytes of an `unsigned int` in memory. -/
def littleEndian (n : Nat) : Bytes :=
  [UInt8.ofNat n, UInt8.ofNat (n / 2 ^ 8), UInt8.ofNat (n / 2 ^ 16), UInt8.ofNat (n / 2 ^ 24)]

/-- `sscanf` with `%x`, to a variable of a number of bytes that is zero before. -/
def scanInto (size : Nat) (text : Bytes) : Exec Bytes :=
  match scanHex text with
  | none => .ok (List.replicate size 0)
  | some value => copyAt (List.replicate size 0) 0 (littleEndian value)

/-- The loop over the digit pairs, with a variable of that size: the lowest byte of each value. -/
def scanToken (size : Nat) : Bytes → Exec Bytes
  | a :: b :: rest => do
    let binary ← scanInto size (cString [a, b])
    let deviceToken ← scanToken size rest
    return binary.headD 0 :: deviceToken
  | _ => return []

/-- `szDeviceToken`: the token as a C string, with zeros behind it. -/
def szDeviceToken (m : GateWayMsg) : Bytes :=
  cString m.deviceToken ++ List.replicate (tokenHexLength - (cString m.deviceToken).length) 0

/-- `sizeof(int8_t)`. -/
abbrev binarySize : Nat := 1

/-! ## The frame -/

/-- `Write` with a null pointer: room is made, and the offset moves. -/
def writeNull (b : SimpleBuffer) (nlen : Nat) : Exec SimpleBuffer := do
  let b ← makeRoom b nlen
  return { b with writeOffset := b.writeOffset + nlen }

/-- The three writes of an item: its id, its length and its data. -/
def writeItem (b : SimpleBuffer) (id : UInt8) (data : Bytes) : Exec SimpleBuffer := do
  let b ← write b [id]
  let b ← write b (writeUint16 data.length)
  write b data

/-- `WriteHead`. -/
def writeHead (b : SimpleBuffer) (bodyLength : Nat) : Exec SimpleBuffer := do
  let buffer ← copyAt b.buffer 0 (2 :: writeUint32 bodyLength)
  return { b with buffer }

/-- `SerializeToArray`, with a payload that has been built, and a variable of some size for the digit pairs. -/
def serializeWith (size : Nat) (m : GateWayMsg) (payload : Bytes) : Exec (SimpleBuffer × Bool) := do
  if m.databuffer.writeOffset ≠ 0 then return (m.databuffer, false)
  if m.deviceToken.length ≠ tokenHexLength then return (m.databuffer, false)
  if payload.length > payLoadMaxLength ∨ payload.length = 0 then return (m.databuffer, false)
  let b ← writeNull m.databuffer gateWayHeadLength
  let deviceToken ← scanToken size m.szDeviceToken
  let b ← writeItem b 1 deviceToken
  let b ← writeItem b 2 payload
  let b ← writeItem b 3 (writeUint32 m.notificationId)
  let b ← writeItem b 4 (writeUint32 m.expirationDate)
  let b ← writeItem b 5 [m.priority]
  let b ← writeHead b (b.writeOffset - gateWayHeadLength)
  return (b, true)

/-- `SerializeToArray`. -/
def serializeToArray (m : GateWayMsg) : Exec (SimpleBuffer × Bool) := serializeWith binarySize m m.buildPayload

end GateWayMsg

/-- `PUSH_TYPE_NORMAL`. -/
abbrev pushTypeNormal : Nat := 1

/-- The message that `_HandlePushMsg` makes for a token, at a time. -/
def pushMsg (flash userData token : Bytes) (timeNow pushType pushCount notificationId : Nat) : GateWayMsg :=
  { GateWayMsg.new with
    alterBody := flash, customData := userData, deviceToken := token, expirationDate := (timeNow + 3600) % uint32Size
    sound := pushType = pushTypeNormal, badge := pushCount, notificationId }

end TeamTalk.PushServer
