import TeamTalk.FileServer.OfflinePaths
import TeamTalk.FileServer.TransferTask

/-!
# The header of an offline file

`OfflineFileHeader` is a block of seven arrays of characters, cleared and then filled by `strncpy` and `sprintf`, and read back as C
strings. A text that does not fit its array is written outside of it, and one without a terminator is read outside of it: neither has
a defined result. The MD5 is given to `sprintf` as the format, with a `size_t` behind it.
-/

namespace TeamTalk.FileServer.OfflineHeader

open OfflinePaths

/-! ## Formats -/

/-- A conversion of an integer: its flags, its width, its precision and its letter. -/
structure Conversion where
  flags : Bytes
  width : Nat
  precision : Option Nat
  letter : UInt8
  deriving DecidableEq, Repr

/-- A number in a format. -/
def natOf (digits : Bytes) : Nat := digits.foldl (fun n ch => n * 10 + (ch.toNat - 48)) 0

/-- The byte is a digit. -/
def isDigit (ch : UInt8) : Bool := 48 ≤ ch && ch ≤ 57

/-- A conversion after its `%`, and the rest of the format. The argument is a `size_t`, so the length is `l` or `z`; what else there
is takes an argument of another type, or none. `#` does nothing defined to a decimal number. -/
def parseConversion (format : Bytes) : Option (Conversion × Bytes) :=
  let flags := format.takeWhile (· ∈ chars "-+ #0")
  let format := format.drop flags.length
  let width := format.takeWhile isDigit
  let format := format.drop width.length
  let (precision, format) :=
    match format with
    | 46 :: format => (some (natOf (format.takeWhile isDigit)), format.dropWhile isDigit)
    | format => (none, format)
  match format with
  | size :: letter :: rest =>
    if size ∈ chars "lz" ∧ letter ∈ chars "diouxX" ∧ ¬(35 ∈ flags ∧ letter ∈ chars "diu") then
      some ({ flags, width := natOf width, precision, letter }, rest)
    else none
  | _ => none

/-- The digits of a conversion. -/
def Conversion.digits (conversion : Conversion) (arg : Nat) : Bytes :=
  let digits (base : Nat) := (Nat.toDigits base arg).map fun ch => UInt8.ofNat ch.toNat
  if conversion.precision = some 0 ∧ arg = 0 then []
  else if conversion.letter ∈ chars "diu" then digits 10
  else if conversion.letter ∈ chars "o" then digits 8
  else if conversion.letter ∈ chars "x" then digits 16
  else (digits 16).map fun ch => if 97 ≤ ch then ch - 32 else ch

/-- What a conversion prints. -/
def Conversion.print (conversion : Conversion) (arg : Nat) : Bytes :=
  let flag (ch : UInt8) : Bool := ch ∈ conversion.flags
  let digits := conversion.digits arg
  let digits := List.replicate (conversion.precision.getD 0 - digits.length) 48 ++ digits
  let digits := if flag 35 ∧ conversion.letter ∈ chars "o" ∧ digits.head? ≠ some 48 then 48 :: digits else digits
  let front :=
    if conversion.letter ∈ chars "di" then if flag 43 then chars "+" else if flag 32 then chars " " else []
    else if flag 35 ∧ arg ≠ 0 ∧ conversion.letter ∈ chars "xX" then [48, conversion.letter] else []
  let room := conversion.width - (front ++ digits).length
  if flag 45 then front ++ digits ++ List.replicate room 32
  else if flag 48 ∧ conversion.precision = none then front ++ List.replicate room 48 ++ digits
  else List.replicate room 32 ++ front ++ digits

/-- The rest of a format: so many bytes at most, and whether the argument has been used. -/
def formatRest (arg : Nat) : Nat → Bool → Bytes → Option Bytes
  | _, _, [] => some []
  | 0, _, _ => none
  | n + 1, used, 37 :: 37 :: rest => (formatRest arg n used rest).map (37 :: ·)
  | n + 1, used, ch :: rest =>
    if ch ≠ 37 then (formatRest arg n used rest).map (ch :: ·)
    else if used then none
    else
      match parseConversion rest with
      | none => none
      | some (conversion, rest) => (formatRest arg n true rest).map (conversion.print arg ++ ·)

/-- `sprintf` with a format and a `size_t`: what it prints, where that is defined. -/
def formatSize (format : Bytes) (arg : Nat) : Option Bytes := formatRest arg format.length false format

/-! ## The block -/

/-- `OfflineTransferTask`, as far as it is kept on disk. The texts are `std::string`s. -/
structure OfflineTask where
  taskId : Bytes
  fromUserId : UInt32
  toUserId : UInt32
  fileName : Bytes
  fileSize : UInt32
  fileMd5 : Bytes
  deriving DecidableEq, Repr

/-- `OfflineFileHeader`. -/
structure Block where
  taskId : Bytes
  fromUserId : Bytes
  toUserId : Bytes
  createTime : Bytes
  fileName : Bytes
  fileSize : Bytes
  fileMd5 : Bytes
  deriving DecidableEq, Repr

namespace Block

/-- The block, as it stands in memory and in the file. -/
def bytes (b : Block) : Bytes := b.taskId ++ b.fromUserId ++ b.toUserId ++ b.createTime ++ b.fileName ++ b.fileSize ++ b.fileMd5

/-- `sizeof (OfflineFileHeader)`. -/
def size : Nat := 1024

/-- The block that `fread` puts together. -/
def ofBytes (file : Bytes) : Block :=
  { taskId := file.take 128, fromUserId := (file.drop 128).take 64, toUserId := (file.drop 192).take 64
    createTime := (file.drop 256).take 128, fileName := (file.drop 384).take 512, fileSize := (file.drop 896).take 64
    fileMd5 := (file.drop 960).take 64 }

end Block

/-- What is written at the start of an array that has been cleared, where it fits. -/
def fill (size : Nat) (written : Bytes) : Option Bytes :=
  if written.length ≤ size then some (written ++ List.replicate (size - written.length) 0) else none

/-- `strncpy`: so many bytes, with zeros behind the text. -/
def strncpy (text : Bytes) (n : Nat) : Bytes := (cString text).take n ++ List.replicate (n - (cString text).length) 0

/-- A text with its terminator. -/
def printed (text : Bytes) : Bytes := text ++ [0]

/-- The header that `DoRecvData` writes. The file name is always empty. -/
def OfflineTask.header (t : OfflineTask) (createTime : UInt64) : Option Block := do
  let md5 := cString t.fileMd5
  let createTime ← fill 128 (printed (decimal createTime.toNat))
  let taskId ← fill 128 (strncpy t.taskId (min 128 t.taskId.length))
  let fromUserId ← fill 64 (printed (decimal t.fromUserId.toNat))
  let toUserId ← fill 64 (printed (decimal t.toUserId.toNat))
  let fileName ← fill 512 (printed [])
  let fileSize ← fill 64 (printed (decimal t.fileSize.toNat))
  let text ← formatSize md5 (min 512 md5.length)
  let fileMd5 ← fill 64 (printed text)
  return { taskId, fromUserId, toUserId, createTime, fileName, fileSize, fileMd5 }

/-! ## Reading -/

/-- An array read as a C string. -/
def fieldText (field : Bytes) : Exec Bytes := if 0 ∈ field then .ok (cString field) else .error .undefinedBehaviour

/-- An array read as a number. -/
def fieldNumber (overflow : IntOverflow) (field : Bytes) : Exec UInt32 := do
  let text ← fieldText field
  match stringToInt overflow text with
  | none => .error .undefinedBehaviour
  | some n => .ok (UInt32.ofNat n)

/-- `LoadFromDisk`, where the files are given by their paths: no task when the file cannot be opened, is shorter than a header, or has
not the size in it. -/
def loadFromDisk (overflow : IntOverflow) (dir : Bytes) (disk : Bytes → Option Bytes) (id : Bytes) :
    Exec (Option (OfflineTask × TransferTaskState)) :=
  if openByRead dir id = [] then .ok none
  else
    match disk (cut bufsiz (pathOf dir id)) with
    | none => .ok none
    | some file =>
      if file.length < Block.size then .ok none
      else do
        let header := Block.ofBytes file
        let fileSize ← fieldNumber overflow header.fileSize
        if file.length - Block.size = fileSize.toNat then
          let taskId ← fieldText header.taskId
          let fromUserId ← fieldNumber overflow header.fromUserId
          let toUserId ← fieldNumber overflow header.toUserId
          let fileName ← fieldText header.fileName
          let fileMd5 ← fieldText header.fileMd5
          return some ({ taskId, fromUserId, toUserId, fileName, fileSize, fileMd5 }, .waitingDownload)
        else return none

end TeamTalk.FileServer.OfflineHeader
