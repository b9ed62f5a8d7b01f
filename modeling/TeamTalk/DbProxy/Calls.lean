import TeamTalk.Base.UtilPdu
import TeamTalk.Lib.Prog

/-!
# The calls of the DB proxy

What the handlers of the DB proxy ask of the connection pools, of the database, of redis and of the file store. The statements and
commands that store messages, sessions and relations stand here with their data; of the others there is only that they are made,
and as much of the answer as the code looks at. A call of a method on a null pointer has no answer.
-/

namespace TeamTalk.DbProxy

/-- The pools, by name: `teamtalk_master` and `teamtalk_slave` of `CDBManager`, the others of `CacheManager`. -/
inductive Pool where
  | master | slave | unread | groupSet | token | groupMember
  deriving DecidableEq, Repr

/-- A `CDBConn*` or `CacheConn*`. -/
structure Conn where
  pool : Pool
  id : Nat
  deriving DecidableEq, Repr

/-- Calls that are told from others; `removeRepeatUser` is for a set of that many users. -/
inductive Site where
  | getRecentSession | judgment | sendGroupMessage | clearMessageCount | removeRepeatUser (users : Nat) | hasOfflineFile
  | doSyncGroupChat | other
  deriving DecidableEq, Repr

/-- What `ExecuteQuery` asks. -/
inductive Query where
  | sessionId (userId peerId type : Nat) (isAll : Bool)
  | relationId (smallId bigId : Nat) (isAll : Bool)
  | other
  deriving DecidableEq, Repr

/-- What `ExecuteUpdate` and prepared statements change. -/
inductive Update where
  | updateSession (sessionId updated : Nat)
  | reviveSession (sessionId updated : Nat)
  | insertSession (userId peerId type created : Nat)
  | reviveRelation (relationId updated : Nat)
  | insertRelation (smallId bigId created : Nat)
  | insertMessage (relateId fromId toId msgId : Nat) (content : Bytes) (type created : Nat)
  | insertGroupMessage (groupId fromId msgId : Nat) (content : Bytes) (type created : Nat)
  | insertAudio (fromId toId : Nat) (path : String) (size duration created : Nat)
  | other
  deriving DecidableEq, Repr

/-- Keys of redis. -/
inductive Key where
  | groupMember (groupId : Nat)
  | msgId (relateId : Nat)
  | groupMsgId (groupId : Nat)
  deriving DecidableEq, Repr

/-- Commands of `CacheConn`. -/
inductive Command where
  | isExists (key : Key)
  | hget (key : Key) (field : Nat)
  | incrBy (key : Key) (value : Int)
  | set (key : Key) (value : String)
  | hgetAll
  | other
  deriving DecidableEq, Repr

/-- What the method of `CacheConn` returns: `hgetAll` how many entries there are, unless it fails. -/
abbrev Command.Reply : Command → Type
  | .isExists _ => Bool
  | .hget _ _ => String
  | .incrBy _ _ => Int
  | .set _ _ => String
  | .hgetAll => Option Nat
  | .other => Nat

/-- The calls. -/
inductive Op where
  | getConn (pool : Pool) (site : Site)
  | relConn (conn : Conn)
  | executeQuery (conn : Conn) (site : Site) (q : Query)
  | executeUpdate (conn : Conn) (u : Update)
  | cache (conn : Conn) (site : Site) (cmd : Command)
  | uploadByteFile (data : Bytes)
  | time
  | pick
  | nullCall
  deriving DecidableEq, Repr

/-- The answers: the id of a connection, or `NULL`; the first column of the rows, or `NULL`; the id of the row that is inserted,
unless the statement fails or changes nothing; `pick` is what depends on data that is left out. -/
abbrev Op.Reply : Op → Type
  | .getConn _ _ => Option Nat
  | .relConn _ => Unit
  | .executeQuery _ _ _ => Option (List Nat)
  | .executeUpdate _ _ => Option Nat
  | .cache _ _ cmd => cmd.Reply
  | .uploadByteFile _ => String
  | .time => Nat
  | .pick => Nat
  | .nullCall => Empty

/-- The calls of the DB proxy. -/
abbrev calls : Signature := { Op := Op, Reply := Op.Reply }

/-- Code of the DB proxy. -/
abbrev Handler (α : Type) : Type := Prog calls α

open Prog

/-- One call. -/
abbrev request (o : Op) : Handler o.Reply := @ask calls o

/-- `GetDBConn` and `GetCacheConn`. -/
def getConn (pool : Pool) (site : Site) : Handler (Option Conn) := do
  let id ← request (.getConn pool site)
  return id.map (Conn.mk pool)

/-- `RelDBConn` and `RelCacheConn`. -/
def relConn (conn : Conn) : Handler Unit := request (.relConn conn)

/-- `ExecuteQuery`. -/
def executeQuery (conn : Conn) (q : Query) : Handler (Option (List Nat)) := request (.executeQuery conn .other q)

/-- `ExecuteUpdate`, also of a prepared statement. -/
def executeUpdate (conn : Conn) (u : Update) : Handler (Option Nat) := request (.executeUpdate conn u)

/-- A method of `CacheConn`. -/
def command (conn : Conn) (cmd : Command) : Handler cmd.Reply := request (.cache conn .other cmd)

/-- `UploadByteFile`: the path, or nothing. -/
def uploadByteFile (data : Bytes) : Handler String := request (.uploadByteFile data)

/-- `time(NULL)`. -/
def time : Handler Nat := request .time

/-- Data that is left out. -/
def pick : Handler Nat := request .pick

/-- A yes or no that depends on data that is left out. -/
def decides : Handler Bool := do
  let n ← pick
  return n ≠ 0

/-- A method is called on a null pointer. -/
def nullCall {α : Type} : Handler α := @Prog.call calls α .nullCall nofun

/-- A connection is taken, used and given back; without one the result is `dflt`. -/
def withConn {α : Type} (pool : Pool) (site : Site) (dflt : α) (body : Conn → Handler α) : Handler α := do
  match ← getConn pool site with
  | some conn =>
    let a ← body conn
    relConn conn
    return a
  | none => return dflt

/-- How many rows there are. -/
def rowCount (rows : Option (List Nat)) : Nat := (rows.map List.length).getD 0

/-- A query whose rows are read into a list. -/
def select (pool : Pool) : Handler Nat :=
  withConn pool .other 0 fun conn => do
    let rows ← executeQuery conn .other
    return rowCount rows

/-- One statement that changes something. -/
def change (pool : Pool) (u : Update) : Handler Bool :=
  withConn pool .other false fun conn => do
    let result ← executeUpdate conn u
    return result.isSome

end TeamTalk.DbProxy
