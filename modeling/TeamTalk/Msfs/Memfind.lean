import TeamTalk.Msfs.UploadScan

/-!
# Searching in memory

`memfind` for all its arguments: with a flag for the direction, and a length of the pattern that may be 0. Differences of lengths are taken
in `size_t`, and a place is an `int`.
-/

namespace TeamTalk.Msfs.Memory

/-- The pattern: so many bytes, or those up to the terminator. -/
def pattern (subStr : Bytes) (subLen : Nat) : Bytes := if subLen = 0 then cString subStr else subStr.take subLen

/-- The loop backwards, for so many places. -/
def memfindBack (srcStr sub : Bytes) : Nat → Exec (Option Nat)
  | 0 => .ok none
  | i + 1 =>
    match readAt srcStr i sub.length with
    | .error e => .error e
    | .ok bytes => if bytes = sub then .ok (some i) else memfindBack srcStr sub i

/-- `src_len - sub_len`. -/
def room (srcStr sub : Bytes) : Nat := (((srcStr.length : Int) - sub.length) % 2 ^ 64).toNat

/-- `memfind`. -/
def memfind (srcStr subStr : Bytes) (subLen : Nat) (flag : Bool) : Exec (Option Nat) :=
  if srcStr.length = 0 then .ok none
  else if srcStr.length < subLen then .ok none
  else
    let sub := pattern subStr subLen
    if srcStr.length = sub.length then
      (readAt srcStr 0 srcStr.length).map fun bytes => if bytes = sub then some 0 else none
    else if flag then memfindLoop srcStr sub 0 (room srcStr sub)
    else memfindBack srcStr sub (Int.bmod (room srcStr sub) (2 ^ 32) + 1).toNat

end TeamTalk.Msfs.Memory
