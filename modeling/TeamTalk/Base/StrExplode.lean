import TeamTalk.Base.CText

/-!
# Splitting strings

`CStrExplode`: a first pass counts the separators, a second one stores the items. Counts and lengths are `uint32_t`, and the index is an `int`.
-/

namespace TeamTalk

/-- `CStrExplode`: what `GetItemCnt` and `GetItem` return. An item that was not stored is not initialised. -/
structure StrExplode where
  itemCnt : Nat
  itemList : List (Option Bytes)

namespace StrExplode

/-- The first pass. -/
def countItems (seperator : UInt8) (str : Bytes) : Nat :=
  str.foldl (fun cnt ch => if ch = seperator then (cnt + 1) % uint32Size else cnt) 1

/-- An item is allocated, with a byte for the terminator, and stored. -/
def putItem (itemList : List (Option Bytes)) (idx : Nat) (text : Bytes) : Exec (List (Option Bytes)) :=
  let len := text.length % uint32Size
  if idx < itemList.length ∧ len + 1 < uint32Size then .ok (itemList.set idx (some (text.take len))) else .error .undefinedBehaviour

/-- The second pass: the bytes between `start` and `pos`, and those from `pos` on. -/
def fillItems (seperator : UInt8) (itemList : List (Option Bytes)) (idx : Nat) (start : Bytes) : Bytes → Exec (List (Option Bytes))
  | [] => if start.length % uint32Size ≠ 0 then putItem itemList idx start else .ok itemList
  | ch :: pos =>
    if start ≠ [] ∧ ch = seperator then
      match putItem itemList idx start with
      | .error e => .error e
      | .ok itemList => if idx + 1 < 2 ^ 31 then fillItems seperator itemList (idx + 1) [] pos else .error .undefinedBehaviour
    else fillItems seperator itemList idx (start ++ [ch]) pos

/-- The constructor, for the text up to the terminator. -/
def make (str : Bytes) (seperator : UInt8) : Exec StrExplode :=
  let itemCnt := countItems seperator str
  (fillItems seperator (List.replicate itemCnt none) 0 [] str).map fun itemList => ⟨itemCnt, itemList⟩

end StrExplode

end TeamTalk
