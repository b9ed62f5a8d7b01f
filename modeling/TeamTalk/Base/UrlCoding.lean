import TeamTalk.Base.CText

/-!
# Texts and numbers in URLs

`URLEncode` and `URLDecode` of the utilities, and `idtourl` and `urltoid`, which write a number to base 36.
-/

namespace TeamTalk.UrlCoding

/-! ## Percent coding -/

/-- `toHex`. -/
def toHex (x : UInt8) : UInt8 := if x > 9 then x - 10 + 65 else x + 48

/-- `fromHex`: other characters count from `'A'` as well. -/
def fromHex (x : UInt8) : UInt8 := if 48 ≤ x && x ≤ 57 then x - 48 else x - 65 + 10

/-- `isalnum`, in the C locale. -/
def isalnum (ch : UInt8) : Bool := (48 ≤ ch && ch ≤ 57) || (65 ≤ ch && ch ≤ 90) || (97 ≤ ch && ch ≤ 122)

/-- What the loop of `URLEncode` adds for a character. -/
def urlEncodeChar (ch : UInt8) : Bytes := if isalnum ch then [ch] else [37, toHex (ch >>> 4), toHex (ch % 16)]

/-- `URLEncode`. -/
def urlEncode (sIn : Bytes) : Bytes := sIn.flatMap urlEncodeChar

/-- The character of an escape. -/
def escape (x y : UInt8) : UInt8 := fromHex x <<< 4 ||| fromHex y

/-- What `URLDecode` has for an input: the text, unless a place behind the terminator was read, and the places that were read. -/
structure Decoded where
  text : Exec Bytes
  reads : List Nat

/-- The text goes on with what is decoded from there. -/
def Decoded.cons (ch : UInt8) (reads : List Nat) (d : Decoded) : Decoded := ⟨d.text.map (ch :: ·), reads ++ d.reads⟩

/-- The loop of `URLDecode` from a place on. An escape at the end takes the terminator for a character, or goes on behind it. -/
def urlDecodeLoop (ix : Nat) : Bytes → Decoded
  | [] => ⟨.ok [], []⟩
  | [ch] =>
    if ch = 37 then ⟨.error .undefinedBehaviour, [ix, ix + 1, ix + 2]⟩
    else ⟨.ok [if ch = 43 then 32 else ch], [ix]⟩
  | [ch, x] =>
    if ch = 37 then ⟨.ok [escape x 0], [ix, ix + 1, ix + 2]⟩
    else (urlDecodeLoop (ix + 1) [x]).cons (if ch = 43 then 32 else ch) [ix]
  | ch :: x :: y :: rest =>
    if ch = 37 then (urlDecodeLoop (ix + 3) rest).cons (escape x y) [ix, ix + 1, ix + 2]
    else (urlDecodeLoop (ix + 1) (x :: y :: rest)).cons (if ch = 43 then 32 else ch) [ix]

/-- `URLDecode`. -/
def urlDecode (sIn : Bytes) : Decoded := urlDecodeLoop 0 sIn

/-! ## Numbers -/

/-- `digits`. -/
def digits : Bytes := chars "0123456789abcdefghijklmnopqrstuvwxyz"

/-- The loop of `idtourl`, and the version in front: the places in the buffer that are written, and what is written there. -/
def idtourlLoop (ptr : Int) (value : Nat) : List (Int × UInt8) :=
  let rest :=
    if ptr - 1 > 0 ∧ value / 36 ≠ 0 then idtourlLoop (ptr - 1) (value / 36) else [(ptr - 1 - 1, 49)]
  (ptr - 1, digits.getD (value % 36) 0) :: rest
termination_by value
decreasing_by omega

/-- What `idtourl` writes, the terminator first. -/
def idtourlWrites (id : Nat) : List (Int × UInt8) := (63, 0) :: idtourlLoop 63 ((id * 2 + 56) % uint32Size)

/-- `idtourl`: the text from the last place written on. -/
def idtourl (id : Nat) : Bytes := cString ((idtourlWrites id).reverse.map Prod.snd)

/-- The value of a digit, in either case. -/
def digitValue (c : UInt8) : Option Nat :=
  if 48 ≤ c && c ≤ 57 then some (c.toNat - 48)
  else if 97 ≤ c && c ≤ 122 then some (c.toNat - (97 - 10))
  else if 65 ≤ c && c ≤ 90 then some (c.toNat - (65 - 10))
  else none

/-- The body of the loop of `urltoid`. Other characters are passed over. -/
def urltoidStep (number : Nat) (c : UInt8) : Nat :=
  match digitValue c with
  | some c => (number * 36 + c) % uint32Size
  | none => number

/-- `urltoid`: the version in front is not looked at. -/
def urltoid (url : Bytes) : Nat := ((url.drop 1).foldl urltoidStep 0 + (uint32Size - 56)) % uint32Size / 2

end TeamTalk.UrlCoding
