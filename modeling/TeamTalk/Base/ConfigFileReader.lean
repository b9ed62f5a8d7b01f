import TeamTalk.Base.CText
import TeamTalk.Lib.OrderedMap

/-!
# The configuration

`CConfigFileReader`: pairs of names and values, read from a file line by line and written back. A line is read into 256 bytes, and written
from 128.
-/

namespace TeamTalk.ConfigFileReader

/-- The order of bytes without sign, in which `std::string` compares. -/
scoped instance byteOrder : LinearOrder UInt8 where
  le_refl := UInt8.le_refl
  le_trans _ _ _ := UInt8.le_trans
  le_antisymm _ _ := UInt8.le_antisymm
  le_total := UInt8.le_total
  lt_iff_le_not_ge a b := by
    simp only [UInt8.le_iff_toNat_le, UInt8.lt_iff_toNat_lt]
    omega
  toDecidableLE := inferInstance
  min_def _ _ := rfl
  max_def _ _ := rfl

/-- `m_config_map`. -/
abbrev ConfigMap : Type := OrderedMap Bytes Bytes

/-- A blank or a tab. -/
def isBlank (ch : UInt8) : Bool := ch = 32 || ch = 9

/-! ## Reading -/

/-- `_TrimSpace`: the text without blanks at its ends, unless there is nothing else. -/
def trimSpace (name : Bytes) : Option Bytes :=
  let start := name.dropWhile isBlank
  if start = [] then none else some (start.rdropWhile isBlank)

/-- `_ParseLine`: a name that is there keeps its value. -/
def parseLine (map : ConfigMap) (line : Bytes) : ConfigMap :=
  match line.dropWhile (· ≠ 61) with
  | [] => map
  | _ :: rest =>
    match trimSpace (line.takeWhile (· ≠ 61)), trimSpace rest with
    | some key, some value => map.insertNew key value
    | _, _ => map

/-- `fgets`, of at most a number of bytes: what is read, and the rest of the file. -/
def fgets : Nat → Bytes → Bytes × Bytes
  | 0, file => ([], file)
  | _, [] => ([], [])
  | n + 1, ch :: file => if ch = 10 then ([10], file) else ((ch :: (fgets n file).1), (fgets n file).2)

theorem length_fgets (n : Nat) (file : Bytes) : (fgets n file).1.length + (fgets n file).2.length = file.length := by
  induction n generalizing file with
  | zero => simp [fgets]
  | succ n ih =>
    cases file with
    | nil => rfl
    | cons ch file =>
      rw [fgets]
      split
      · simp [Nat.add_comm]
      · have := ih file
        simp only [List.length_cons]
        omega

theorem fgets_ne_nil (n : Nat) {file : Bytes} (h : file ≠ []) : (fgets (n + 1) file).1 ≠ [] := by
  cases file with
  | nil => exact absurd rfl h
  | cons ch file =>
    rw [fgets]
    split <;> simp

/-- What the calls of `fgets` read, with room for 255 bytes. -/
def reads (file : Bytes) : List Bytes :=
  if h : file = [] then [] else (fgets 255 file).1 :: reads (fgets 255 file).2
termination_by file.length
decreasing_by
  have hlen := length_fgets 255 file
  have hpos : 0 < (fgets 255 file).1.length := List.length_pos_iff.2 (fgets_ne_nil 254 h)
  omega

/-- The body of the loop: the line break and a comment are removed. An empty text has no last character. -/
def loadLine (map : ConfigMap) (buf : Bytes) : Exec ConfigMap :=
  let buf := cString buf
  if buf = [] then .error .undefinedBehaviour
  else
    let buf := if buf.getLast? = some 10 then buf.dropLast else buf
    let buf := buf.takeWhile (· ≠ 35)
    .ok (if buf = [] then map else parseLine map buf)

/-- The loop of `_LoadFile`. -/
def loadLines (file : Bytes) : Exec ConfigMap := (reads file).foldlM loadLine .empty

/-! ## Writing -/

/-- `szPaire`: 127 bytes at most, up to the terminator. -/
def szPaire (pair : Bytes × Bytes) : Bytes := cut 128 (cString pair.1 ++ [61] ++ cString pair.2 ++ [10])

/-- What the disk makes of the calls: the file is opened, and which writes succeed. -/
structure Disk where
  opens : Bool
  writes : Nat → Bool

/-- The loop of `_WriteFIle`, from the write with a number on: the result, and the file. -/
def writeLoop (disk : Disk) : Nat → List (Bytes × Bytes) → Bytes → Int × Bytes
  | _, [], file => (0, file)
  | i, pair :: rest, file => if disk.writes i then writeLoop disk (i + 1) rest (file ++ szPaire pair) else (-1, file)

/-- `_WriteFIle`. -/
def writeFile (disk : Disk) (map : ConfigMap) (file : Bytes) : Int × Bytes :=
  if disk.opens then writeLoop disk 0 map.entries [] else (-1, file)

/-! ## The reader -/

/-- `CConfigFileReader`, without the name of its file. -/
structure Reader where
  loadOk : Bool
  configMap : ConfigMap

/-- The constructor, for a file that is there or not. `m_load_ok` is not set when it is not. -/
def load (file : Option Bytes) (uninitialised : Bool) : Exec Reader :=
  match file with
  | none => .ok ⟨uninitialised, .empty⟩
  | some file => (loadLines file).map fun map => ⟨true, map⟩

/-- `SetConfigValue`, with the file as it is: the result, and the file. -/
def Reader.setConfigValue (r : Reader) (disk : Disk) (name value file : Bytes) : Reader × Int × Bytes :=
  if r.loadOk then
    let configMap := r.configMap.assign name value
    ({ r with configMap }, writeFile disk configMap file)
  else (r, -1, file)

end TeamTalk.ConfigFileReader
