import TeamTalk.Base.HttpClient
import TeamTalk.DbProxy.Models
import TeamTalk.DbProxy.Statements
import TeamTalk.Lib.SqlStatement

/-!
# Voice messages

`CAudioModel`: the recording of a voice message is in a store that is reached by HTTP, and its length in time, its size and its URL are
a row of the table `IMAudio`. In the message itself stands the id of the row. The store and what the network does are parameters; the
table does what its statements say. A connection to the database is there, and what is read has been written before.
-/

namespace TeamTalk.DbProxy.Voices

/-! ## The table -/

/-- A row of `IMAudio`: the id, and the other columns as texts, the way MySQL sends them. -/
structure Row where
  id : Nat
  columns : List (Text × Text)
  deriving DecidableEq, Repr

/-- The table, and the id that the next row gets. -/
structure Table where
  rows : List Row
  nextId : Nat
  fresh : ∀ row ∈ rows, row.id < nextId

/-- The text of a column. -/
def Row.value (row : Row) (key : Text) : Option Text := if key = "id".toList then some (int2string row.id) else row.columns.lookup key

/-- `CResultSet::GetInt`, as a `uint32_t`. -/
def Row.getInt (overflow : IntOverflow) (row : Row) (key : Text) : Exec Nat :=
  match row.value key with
  | none => .ok 0
  | some text =>
    match stringToInt overflow (textBytes text) with
    | none => .error .undefinedBehaviour
    | some n => .ok n

/-- `CResultSet::GetString`, in a `string`. There is none of a null pointer. -/
def Row.getString (row : Row) (key : Text) : Exec Text :=
  match row.value key with
  | none => .error .undefinedBehaviour
  | some text => .ok (cStr text)

/-- The table with one more row. -/
def Table.add (t : Table) (columns : List (Text × Text)) : Table where
  rows := t.rows ++ [{ id := t.nextId, columns }]
  nextId := t.nextId + 1
  fresh := by
    intro row hrow
    rcases List.mem_append.1 hrow with hrow | hrow
    · exact Nat.lt_succ_of_lt (t.fresh row hrow)
    · rw [List.mem_singleton.1 hrow]
      exact Nat.lt_succ_self _

/-- `ExecuteUpdate`. A statement that does not insert a row in the table fails. -/
def Table.executeUpdate (t : Table) (sql : Text) : Option Table :=
  match Sql.parseInsert (Statements.Statement.query sql).tokens with
  | none => none
  | some insert => if insert.table = "IMAudio".toList then some (t.add insert.columns) else none

/-- `ExecuteQuery`. A statement that does not select by the id fails. -/
def Table.executeQuery (t : Table) (sql : Text) : Option (List Row) :=
  match Sql.parseSelect (Statements.Statement.query sql).tokens with
  | none => none
  | some select =>
    if select.table = "IMAudio".toList ∧ select.column = "id".toList ∧ select.value.all Char.isDigit then
      some (t.rows.filter fun row => row.id = Nat.ofDigitChars 10 select.value 0)
    else none

/-! ## The store -/

/-- The store: the URL in its answer to what is posted, and what comes in when a URL is fetched. -/
structure FileStore where
  upload : HttpPost → Option Text
  download : Text → Transfer

/-! ## Saving -/

/-- The cost time, in front of the recording, and the recording. -/
def parseAudio (audioData : Bytes) : Exec (Nat × Bytes) := do
  let costTime ← ByteStream.readUint32 audioData 0
  return (costTime, audioData.drop 4)

/-- `UploadByteFile`, of the recording: its size is an `int`, and `append` throws when it is negative. The empty text stands for a
failure. -/
def uploadByteFile (store : FileStore) (fileSite realData : Bytes) : Option Text :=
  if uint32Size / 2 ≤ realData.length then none
  else some (((HttpClient.uploadByteFile fileSite realData).bind store.upload).getD [])

/-- `saveAudioInfo`, of no more than 4 GiB: the table and the id, or -1. There is nothing when an exception is thrown. -/
def saveAudioInfo (store : FileStore) (fileSite : Bytes) (t : Table) (fromId toId createTime : Nat) (audioData : Bytes) :
    Exec (Option (Table × Int)) := do
  let (costTime, realData) ← parseAudio audioData
  match uploadByteFile store fileSite realData with
  | none => return none
  | some [] => return some (t, -1)
  | some path =>
    match t.executeUpdate (Statements.saveAudioInfo fromId toId path realData.length costTime createTime) with
    | none => return some (t, -1)
    | some t' => return some (t', toInt32 (insertId t.nextId))

/-! ## Reading -/

/-- What of `MsgInfo` is read and written here. -/
structure MsgInfo where
  msgType : Nat
  msgData : Bytes
  deriving DecidableEq, Repr

/-- `readAudioContent`: the message with the recording, or as it was. The buffer has four bytes more than the size says. -/
def readAudioContent (store : FileStore) (costTime size : Nat) (path : Text) (msg : MsgInfo) : Exec MsgInfo :=
  if path = [] ∨ costTime = 0 ∨ size = 0 then .ok msg
  else if uint32Size ≤ 4 + size then .error .undefinedBehaviour
  else
    let (audio, whole) := HttpClient.downloadByteFile (store.download path) { fileSize := size, data := ByteStream.writeUint32 costTime }
    .ok (if whole then { msg with msgData := audio.data } else msg)

/-- A row that was found. -/
def readRow (overflow : IntOverflow) (store : FileStore) (msg : MsgInfo) (row : Row) : Exec MsgInfo := do
  let costTime ← row.getInt overflow "duration".toList
  let size ← row.getInt overflow "size".toList
  let path ← row.getString "path".toList
  readAudioContent store costTime size path msg

/-- The text that bytes are in a statement. -/
def bytesText (bytes : Bytes) : Text := bytes.map fun ch => Char.ofNat ch.toNat

/-- A turn of the loop of `readAudios`. A message is erased when its statement fails. -/
def readAudio (overflow : IntOverflow) (store : FileStore) (t : Table) (msg : MsgInfo) : Exec (List MsgInfo) :=
  if msg.msgType = msgTypeGroupAudio ∨ msg.msgType = msgTypeSingleAudio then
    match t.executeQuery ("select * from IMAudio where id=".toList ++ bytesText msg.msgData) with
    | none => .ok []
    | some rows => do
      let msg ← rows.foldlM (readRow overflow store) msg
      return [msg]
  else .ok [msg]

/-- `readAudios`. -/
def readAudios (overflow : IntOverflow) (store : FileStore) (t : Table) : List MsgInfo → Exec (List MsgInfo)
  | [] => .ok []
  | msg :: lsMsg => do
    let first ← readAudio overflow store t msg
    let rest ← readAudios overflow store t lsMsg
    return first ++ rest

end TeamTalk.DbProxy.Voices
