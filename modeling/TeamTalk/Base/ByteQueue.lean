import TeamTalk.Base.UtilPdu
import TeamTalk.Lib.Machine

/-!
# A buffer in use

The calls that a `CSimpleBuffer` gets one after the other. Beside the buffer, the state keeps all bytes that were put behind its data and the
sum of the lengths. After a copy that leaves the block nothing more is said.
-/

namespace TeamTalk

/-- `CSimpleBuffer::Read`: how many bytes it returns, and what it copies unless the destination is null. -/
def SimpleBuffer.read (b : SimpleBuffer) (toBuf : Bool) (len : Nat) : Exec (SimpleBuffer × Nat × Option Bytes) := do
  let n := if len > b.writeOffset then b.writeOffset else len
  let copied ← if toBuf then (readAt b.buffer 0 n).map some else pure none
  return (← b.readNull n, n, copied)

namespace ByteQueue

/-- A call. With `fill`, the caller puts bytes behind the data, within the block, before `IncWriteOffset`. -/
inductive Event where
  | extend (len : Nat)
  | write (data : Bytes)
  | writeNull (len : Nat)
  | fill (data : Bytes)
  | read (toBuf : Bool) (len : Nat)

/-- The length that is passed. -/
def Event.len : Event → Nat
  | .extend len => len
  | .write data => data.length
  | .writeNull len => len
  | .fill data => data.length
  | .read _ len => len

/-- What `Read` does: the length that was asked for, the bytes that were there, what is returned, and what is copied. -/
structure Output where
  requested : Nat
  present : Bytes
  returned : Nat
  copied : Option Bytes

/-- The bytes in front that are gone after it. -/
def Output.removed (o : Output) : Bytes := o.present.take o.returned

/-- The buffer, the bytes put into it, the sum of the lengths, and whether a copy has left the block. -/
structure State where
  buffer : SimpleBuffer
  written : Bytes
  total : Nat
  outside : Bool

/-- A new buffer. -/
def init : State := ⟨.init, [], 0, false⟩

/-- What a call does to the buffer, which bytes it puts behind the data, and what it returns. Those of a null pointer are what the block
holds there. `IncWriteOffset` has to stay in the block. -/
def call (b : SimpleBuffer) : Event → Option (Exec (SimpleBuffer × Bytes × List Output))
  | .extend len => some (.ok (b.extend len, [], []))
  | .write data => some ((b.write (some data) data.length).map fun b' => (b', data, []))
  | .writeNull len => some ((b.write none len).map fun b' => (b', b'.contents.drop b.writeOffset, []))
  | .fill data =>
    if b.writeOffset + data.length ≤ b.allocSize then
      some ((copyAt b.buffer b.writeOffset data).map fun buffer =>
        (⟨buffer, (b.writeOffset + data.length) % uint32Size⟩, data, []))
    else none
  | .read toBuf len => some ((b.read toBuf len).map fun r => (r.1, [], [⟨len, b.contents, r.2.1, r.2.2⟩]))

/-- One call. -/
def step (s : State) (e : Event) : Option (State × List Output) :=
  if s.outside then none
  else
    (call s.buffer e).map fun result =>
      match result with
      | .error _ => ({ s with outside := true }, [])
      | .ok (buffer, data, out) => (⟨buffer, s.written ++ data, s.total + e.len, false⟩, out)

end ByteQueue

end TeamTalk
