import TeamTalk.Base.CText

/-!
# The JSON writer

What jsonxx makes of an object, for the values that the servers put into one: the entries in the order of their names, each on a line
of its own, and the last comma replaced by a blank.
-/

namespace TeamTalk.Jsonxx

/-- `jsonxx::Value`. What is of no type that is known is written as `null`. -/
inductive Value where
  | null
  | number (n : Nat)
  | string (s : Bytes)
  | object (kvMap : List (Bytes × Value))

/-- `jsonxx::Object`: a `std::map`, in the order of its keys. -/
abbrev Object := List (Bytes × Value)

/-- `Object::import` of one value: the value that is there is replaced. -/
def Object.put : Object → Bytes → Value → Object
  | [], key, value => [(key, value)]
  | entry :: rest, key, value =>
    if key = entry.1 then (key, value) :: rest
    else if key < entry.1 then (key, value) :: entry :: rest
    else entry :: Object.put rest key value

/-! ## `json` -/

/-- A hexadecimal digit, in lower case. -/
def hexDigit (n : Nat) : UInt8 := UInt8.ofNat (if n < 10 then 48 + n else 87 + n)

/-- What `escape_string` makes of a byte. -/
def escapeByte (ch : UInt8) : Bytes :=
  if ch = 34 then [92, 34]
  else if ch = 92 then [92, 92]
  else if ch = 47 then [92, 47]
  else if ch = 8 then [92, 98]
  else if ch = 12 then [92, 102]
  else if ch = 10 then [92, 110]
  else if ch = 13 then [92, 114]
  else if ch = 9 then [92, 116]
  else if ch < 32 then [92, 117, 48, 48, hexDigit (ch.toNat / 16), hexDigit (ch.toNat % 16)]
  else [ch]

/-- `escape_string`. -/
def escapeString (input : Bytes) : Bytes := input.flatMap escapeByte

/-- `remove_last_comma`. -/
def removeLastComma (input : Bytes) : Bytes :=
  if 2 < input.length ∧ input[input.length - 2]? = some 44 then input.set (input.length - 2) 32 else input

/-- A text between quotes. -/
def quoted (text : Bytes) : Bytes := 34 :: escapeString text ++ [34]

/-- The tabs in front of a line, and the name if there is one. -/
def label (depth : Nat) (name : Bytes) : Bytes :=
  List.replicate depth 9 ++ if name ≠ [] then quoted name ++ [58, 32] else []

mutual

/-- `tag`: a value with its name. A number is printed with all its digits. -/
def tag (depth : Nat) (name : Bytes) : Value → Bytes
  | .null => label depth name ++ chars "null" ++ [44, 10]
  | .number n => label depth name ++ decimal n ++ [44, 10]
  | .string s => label depth name ++ quoted s ++ [44, 10]
  | .object kvMap =>
    removeLastComma (label depth name ++ [123, 10] ++ tags (depth + 1) kvMap) ++ List.replicate depth 9 ++ [125, 44, 10]

/-- The entries of an object. -/
def tags (depth : Nat) : List (Bytes × Value) → Bytes
  | [] => []
  | entry :: rest => tag depth entry.1 entry.2 ++ tags depth rest

end

/-- `Object::json`. -/
def Object.json (o : Object) : Bytes := removeLastComma (tag 0 [] (.object o))

end TeamTalk.Jsonxx
