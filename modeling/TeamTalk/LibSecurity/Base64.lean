import TeamTalk.Base.Base64

/-!
# Base64 in libsecurity

`base64_encode` and `base64_decode` of libsecurity, with the tables of that file.
-/

namespace TeamTalk.LibSecurity

open Base64 (charByte pad isspace maxSize)

/-- `b64_table`. -/
def b64Table : List Char := "ABCDEFGHIJKLMNOPQRSTUVWXYZabcdefghijklmnopqrstuvwxyz0123456789+/".toList

/-- `reverse_table`. -/
def reverseTable : List Nat :=
  [64, 64, 64, 64, 64, 64, 64, 64, 64, 64, 64, 64, 64, 64, 64, 64,
    64, 64, 64, 64, 64, 64, 64, 64, 64, 64, 64, 64, 64, 64, 64, 64,
    64, 64, 64, 64, 64, 64, 64, 64, 64, 64, 64, 62, 64, 64, 64, 63,
    52, 53, 54, 55, 56, 57, 58, 59, 60, 61, 64, 64, 64, 64, 64, 64,
    64, 0, 1, 2, 3, 4, 5, 6, 7, 8, 9, 10, 11, 12, 13, 14,
    15, 16, 17, 18, 19, 20, 21, 22, 23, 24, 25, 64, 64, 64, 64, 64,
    64, 26, 27, 28, 29, 30, 31, 32, 33, 34, 35, 36, 37, 38, 39, 40,
    41, 42, 43, 44, 45, 46, 47, 48, 49, 50, 51, 64, 64, 64, 64, 64]

/-- `retval`, as it is filled: the characters written so far in front of the padding. -/
structure Encoder where
  accumulator : Nat
  bitsCollected : Nat
  retval : Bytes

/-- `retval[outpos++] = b64_table[n & 0x3fu]`. -/
def put (n : Nat) (retval : Bytes) : Bytes := retval ++ [charByte (b64Table.getD (n &&& 0x3f) 'A')]

/-- The `while` loop. -/
def flush (accumulator bitsCollected : Nat) (retval : Bytes) : Nat × Bytes :=
  if bitsCollected ≥ 6 then flush accumulator (bitsCollected - 6) (put (accumulator >>> (bitsCollected - 6)) retval)
  else (bitsCollected, retval)

/-- The body of the `for` loop. -/
def Encoder.step (e : Encoder) (i : UInt8) : Encoder :=
  let accumulator := (e.accumulator <<< 8 ||| i.toNat) % uint32Size
  let flushed := flush accumulator (e.bitsCollected + 8) e.retval
  ⟨accumulator, flushed.1, flushed.2⟩

/-- `base64_encode`. -/
def base64Encode (bindata : Bytes) : Bytes :=
  if bindata.length > maxSize / 4 * 3 then []
  else
    let e := bindata.foldl Encoder.step ⟨0, 0, []⟩
    let retval := if e.bitsCollected > 0 then put (e.accumulator <<< (6 - e.bitsCollected) % uint32Size) e.retval else e.retval
    retval ++ List.replicate ((bindata.length + 2) / 3 * 4 - retval.length) pad

/-- The variables of `base64_decode`. -/
structure Decoder where
  accumulator : Nat
  bitsCollected : Nat
  retval : Bytes

/-- The body of the loop of `base64_decode`; nothing for the early return. -/
def Decoder.step (d : Decoder) (c : UInt8) : Option Decoder :=
  if isspace c.toNat || c = pad then some d
  else if c.toNat > 127 || reverseTable.getD c.toNat 64 > 63 then none
  else
    let accumulator := (d.accumulator <<< 6 ||| reverseTable.getD c.toNat 64) % uint32Size
    let bitsCollected := d.bitsCollected + 6
    if bitsCollected ≥ 8 then
      some ⟨accumulator, bitsCollected - 8, d.retval ++ [UInt8.ofNat (accumulator >>> (bitsCollected - 8) &&& 0xff)]⟩
    else some ⟨accumulator, bitsCollected, d.retval⟩

/-- `base64_decode`. -/
def base64Decode (ascdata : Bytes) : Bytes := ((ascdata.foldlM Decoder.step ⟨0, 0, []⟩).map Decoder.retval).getD []

end TeamTalk.LibSecurity
