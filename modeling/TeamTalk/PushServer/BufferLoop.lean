import TeamTalk.Base.UtilPdu
import TeamTalk.Lib.Machine

/-!
# The ring buffer of the push server

`CBufferLoop`: a block with the place of the first byte, the place behind the last one and the number of bytes between. Both places are the
same in an empty buffer and in a full one.
-/

namespace TeamTalk.PushServer

/-- `CBufferLoop`. `m_nbuffer_size` is the length of the block. -/
structure BufferLoop where
  buffer : Bytes
  headPos : Nat
  tailPos : Nat
  usedSize : Nat

namespace BufferLoop

/-- `create_buffer`: the product has to be an `int`. -/
def createBuffer (size : Nat) : Exec BufferLoop :=
  if (size / 4 + 1) * 4 < 2 ^ 31 then .ok ⟨List.replicate ((size / 4 + 1) * 4) 0, 0, 0, 0⟩ else .error .undefinedBehaviour

/-- `m_nbuffer_size`. -/
def bufferSize (b : BufferLoop) : Nat := b.buffer.length

/-- `get_rest_size`. -/
def restSize (b : BufferLoop) : Nat := b.bufferSize - b.usedSize

/-- A sum of two `int`s. -/
def addInt (a b : Nat) : Exec Nat := if a + b < 2 ^ 31 then .ok (a + b) else .error .undefinedBehaviour

/-- The copies of `get_buffer` and `get_buffer_tmp`: how many bytes there are, and the bytes. -/
def copyOut (b : BufferLoop) (size : Nat) : Exec (Nat × Bytes) := do
  let realSize := if size < b.usedSize then size else b.usedSize
  if b.headPos ≤ b.tailPos then return (realSize, ← readAt b.buffer b.headPos realSize)
  else
    let restSize := b.bufferSize - b.headPos
    if realSize ≤ restSize then return (realSize, ← readAt b.buffer b.headPos realSize)
    else return (realSize, (← readAt b.buffer b.headPos restSize) ++ (← readAt b.buffer 0 (realSize - restSize)))

/-- `get_buffer_tmp`. -/
def getBufferTmp (b : BufferLoop) (size : Nat) : Exec (Bool × Nat × Bytes) := do
  return (true, ← b.copyOut size)

/-- `get_buffer`. -/
def getBuffer (b : BufferLoop) (size : Nat) : Exec (BufferLoop × Bool × Nat × Bytes) := do
  let (realSize, bytes) ← b.copyOut size
  let head ← addInt b.headPos realSize
  return ({ b with usedSize := b.usedSize - realSize, headPos := head % b.bufferSize }, true, realSize, bytes)

/-- The copies of `append_buffer`. -/
def copyIn (b : BufferLoop) (data : Bytes) : Exec Bytes := do
  if b.tailPos < b.headPos then copyAt b.buffer b.tailPos data
  else
    let restTail := b.bufferSize - b.tailPos
    if restTail ≥ data.length then copyAt b.buffer b.tailPos data
    else copyAt (← copyAt b.buffer b.tailPos (data.take restTail)) 0 (data.drop restTail)

/-- `append_buffer`: `bret` is not set again. -/
def appendBuffer (b : BufferLoop) (data : Bytes) : Exec (BufferLoop × Bool) := do
  let ret := false
  if b.restSize < data.length then return (b, ret)
  else
    let buffer ← b.copyIn data
    let tail ← addInt b.tailPos data.length
    return ({ b with buffer, tailPos := tail % b.bufferSize, usedSize := b.usedSize + data.length }, ret)

/-! ## Runs -/

/-- The place of a byte, counted from the first one. -/
def place (size head i : Nat) : Nat := if head + i < size then head + i else head + i - size

/-- The bytes in the buffer, the oldest first. -/
def contents (b : BufferLoop) : Bytes := (List.range b.usedSize).map fun i => b.buffer.getD (place b.bufferSize b.headPos i) 0

/-- A call. -/
inductive Event where
  | append (data : Bytes)
  | get (size : Nat)
  | getTmp (size : Nat)

/-- What a call returns: `append_buffer` beside whether the bytes fitted, and the others beside the bytes that were there and whether they
remove what they return. -/
inductive Output where
  | appended (fits answer : Bool)
  | got (removes : Bool) (requested : Nat) (present : Bytes) (answer : Bool) (realSize : Nat) (bytes : Bytes)

/-- The buffer, all bytes that fitted when they were appended, and whether a copy has left the block or a sum an `int`. -/
structure State where
  loop : BufferLoop
  put : Bytes
  outside : Bool

/-- A buffer that was created. -/
def State.init (b : BufferLoop) : State := ⟨b, [], false⟩

/-- What a call does. -/
def call (s : State) : Event → Exec (State × List Output)
  | .append data => do
    let (loop, answer) ← s.loop.appendBuffer data
    let fits : Bool := data.length ≤ s.loop.restSize
    return (⟨loop, if fits then s.put ++ data else s.put, false⟩, [.appended fits answer])
  | .get size => do
    let (loop, answer, realSize, bytes) ← s.loop.getBuffer size
    return ({ s with loop }, [.got true size s.loop.contents answer realSize bytes])
  | .getTmp size => do
    let (answer, realSize, bytes) ← s.loop.getBufferTmp size
    return (s, [.got false size s.loop.contents answer realSize bytes])

/-- One call. -/
def step (s : State) (e : Event) : Option (State × List Output) :=
  if s.outside then none
  else
    match call s e with
    | .error _ => some ({ s with outside := true }, [])
    | .ok result => some result

end BufferLoop

end TeamTalk.PushServer
