import TeamTalk.Msfs.HttpTask

/-!
# How the body of an upload is read

`OnUpload` walks through the body with pointers and lengths. Here every read names its place, and a read beyond the content has no
defined result; every length that is computed is kept.
-/

namespace TeamTalk.Msfs

/-! ## `memfind` -/

/-- The loop of `memfind`: so many places from one on. -/
def memfindLoop (content sub : Bytes) : Nat → Nat → Exec (Option Nat)
  | _, 0 => .ok none
  | place, n + 1 =>
    match readAt content place sub.length with
    | .error e => .error e
    | .ok bytes => if bytes = sub then .ok (some place) else memfindLoop content sub (place + 1) n

/-- `memfind` in so many bytes from a place of the content on. -/
def memfindAt (content : Bytes) (base len : Nat) (sub : Bytes) : Exec (Option Nat) :=
  if len = 0 ∨ len < sub.length then .ok none
  else if len = sub.length then (readAt content base len).map fun bytes => if bytes = sub then some base else none
  else memfindLoop content sub base (len - sub.length)

/-! ## The walk -/

/-- What the walk comes to: a code, or a file. -/
inductive Verdict where
  | refused (code : Nat)
  | found (part : Part)
  deriving DecidableEq, Repr

/-- The lengths that were computed, and what the walk came to. -/
structure Scan where
  lengths : List Int
  result : Exec Verdict

namespace Scan

/-- The walk ends with a code. -/
def refuse (lengths : List Int) (code : Nat) : Scan := ⟨lengths, .ok (.refused code)⟩

/-- A search from a place to the end of the content: what was not found has a code. -/
def search (content : Bytes) (lengths : List Int) (base : Nat) (sub : Bytes) (code : Nat) (next : List Int → Nat → Scan) : Scan :=
  let lengths := lengths ++ [(content.length : Int) - base]
  match memfindAt content base (content.length - base) sub with
  | .error e => ⟨lengths, .error e⟩
  | .ok none => refuse lengths code
  | .ok (some place) => next lengths place

/-- `uploadFile` copies the bytes of a file that is not too large. -/
def copyFile (content : Bytes) (fileStart : Nat) (fileSize : Int) : Exec Bytes :=
  let size := (fileSize % uint32Size).toNat
  if fileSize ≤ httpUploadMax ∧ size ≤ maxFileSizePerFile then readAt content fileStart size else .ok []

/-- The boundary is searched, then the header of the file, its end and the boundary again. -/
def file (content contentType : Bytes) (lengths : List Int) (type extend : Bytes) : Scan :=
  match stringFind contentType (chars "boundary=") with
  | none => refuse lengths 4
  | some mark =>
    let boundary := contentType.drop (mark + (chars "boundary=").length)
    let lengths := lengths ++ [(contentType.length : Int) - mark - (chars "boundary=").length]
    search content lengths 0 boundary 5 fun lengths first =>
    search content lengths first (chars "Content-Type:") 6 fun lengths header =>
    search content lengths header httpEndMark 7 fun lengths tail =>
    let fileStart := tail + httpEndMark.length
    search content lengths tail boundary 8 fun lengths last =>
    let fileSize : Int := last - httpEndMark.length - fileStart
    ⟨lengths ++ [fileSize], (copyFile content fileStart fileSize).map fun _ => .found { type, extend, fileStart, fileSize }⟩

/-- The lengths that are computed for the width and the height. -/
def sizeLengths (name : Bytes) (dot : Nat) : List Int :=
  match memfindLast name (chars "_") with
  | none => []
  | some low =>
    ((name.length : Int) - (low + 1)) ::
      match memfind ((name.drop low).take (name.length - (low + 1))) (chars "x") with
      | none => []
      | some x => [(x : Int) - 1, (dot : Int) - (low + x) - 1]

/-- The type of the file, from its name. -/
def named (content contentType : Bytes) (lengths : List Int) (name : Bytes) : Scan :=
  match memfindLast name (chars ".") with
  | none => refuse lengths 10
  | some dot =>
    let typeLen := (name.length : Int) - (dot + 1)
    let lengths := lengths ++ [typeLen]
    if typeLen ≤ 15 then
      let type := cString (name.drop (dot + 1))
      file content contentType (lengths ++ sizeLengths name dot) type (sizeText name dot type)
    else refuse lengths 9

/-- The walk of `OnUpload`. -/
def onUpload (content contentType : Bytes) : Scan :=
  search content [] 0 (chars "Content-Disposition:") 2 fun lengths disposition =>
  search content lengths disposition (chars "filename=") 3 fun lengths mark =>
  let start := mark + (chars "filename=").length + 1
  -- the length is still the one from the disposition on
  match memfindAt content start (content.length - disposition) (chars "\"") with
  | .error e => ⟨lengths, .error e⟩
  | .ok none => ⟨lengths, .error .undefinedBehaviour⟩
  | .ok (some quote) =>
    let fileNameLen := (quote : Int) - start
    let lengths := lengths ++ [fileNameLen]
    if fileNameLen ≤ 255 then
      match readAt content start fileNameLen.toNat with
      | .error e => ⟨lengths, .error e⟩
      | .ok name => named content contentType lengths name
    else refuse lengths 11

end Scan

end TeamTalk.Msfs
