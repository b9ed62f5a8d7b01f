import TeamTalk.Base.UtilPdu
import TeamTalk.Lib.Machine

/-!
# Connections to redis

`CacheConn` of `CachePool.cpp`: every operation makes sure of a context first, sends one command, and gives up the context when
the reply is lost. A context is a `redisContext*`; no number is given to two of them.
-/

namespace TeamTalk.DbProxy

/-- A `redisContext*`. -/
abbrev Context := Nat

/-- `redisReply`. -/
inductive Reply where
  | status (str : String)
  | string (str : String)
  | integer (integer : Int)
  | array (elements : List Reply)
  | error (str : String)
  | nil

namespace Reply

/-- `str`, up to `len`. -/
def str : Reply → String
  | .status s | .string s | .error s => s
  | _ => ""

/-- `integer`. -/
def toInteger : Reply → Int
  | .integer n => n
  | _ => 0

/-- The elements of an array. -/
def elements : Reply → List Reply
  | .array rs => rs
  | _ => []

/-- A text, and not a status or an error. -/
def isString : Reply → Bool
  | .string _ => true
  | _ => false

/-- What `SELECT` should answer: a status that begins with `OK`. -/
def isOk : Reply → Bool
  | .status s => "OK".toList.isPrefixOf s.toList
  | _ => false

end Reply

/-- A command: its words, or a text that is still to be split. -/
inductive RedisCommand where
  | argv (words : List String)
  | text (format : String)
  deriving DecidableEq, Repr

/-- What is done with contexts. -/
inductive CacheEffect where
  | connect (ctx : Option Context) (err : Bool)
  | select (ctx : Context) (dbNum : Nat) (ok : Bool)
  | command (ctx : Context) (cmd : RedisCommand) (lost : Bool)
  | free (ctx : Context)
  deriving DecidableEq, Repr

/-- What the time is, and what `redisConnectWithTimeout`, `SELECT` and the command answer, if they are called: no context, or
whether it has an error; no reply, or a reply. -/
structure Answers where
  now : Nat
  connect : Option Bool
  select : Option Reply
  reply : Option Reply

/-- `CacheConn`, with the number of the next context. -/
structure CacheConn where
  dbNum : Nat
  context : Option Context
  lastConnectTime : Nat
  nextContext : Context

/-- What an operation leaves behind. -/
structure Done (α : Type) where
  conn : CacheConn
  effects : List CacheEffect
  value : α

namespace CacheConn

/-- The constructor. -/
def new (dbNum : Nat) : CacheConn := { dbNum, context := none, lastConnectTime := 0, nextContext := 0 }

/-- `CacheConn::Init`: 0 comes with the context, other numbers are errors. A context that is not selected stays. -/
def init (c : CacheConn) (a : Answers) : Done (Except Nat Context) :=
  match c.context with
  | some ctx => { conn := c, effects := [], value := .ok ctx }
  | none =>
    if a.now < c.lastConnectTime + 4 then { conn := c, effects := [], value := .error 1 }
    else
      let c := { c with lastConnectTime := a.now }
      match a.connect with
      | none => { conn := c, effects := [.connect none false], value := .error 1 }
      | some true =>
        { conn := { c with nextContext := c.nextContext + 1 }
          effects := [.connect (some c.nextContext) true, .free c.nextContext], value := .error 1 }
      | some false =>
        let ok := a.select.any Reply.isOk
        { conn := { c with context := some c.nextContext, nextContext := c.nextContext + 1 }
          effects := [.connect (some c.nextContext) false, .select c.nextContext c.dbNum ok]
          value := if ok then .ok c.nextContext else .error 2 }

/-- One command: `failed` is returned when there is no context, or no reply, and then the context is given up. -/
def request {α : Type} (c : CacheConn) (a : Answers) (cmd : RedisCommand) (failed : α) (read : Reply → α) : Done α :=
  let i := c.init a
  match i.value with
  | .error _ => { i with value := failed }
  | .ok ctx =>
    match a.reply with
    | none =>
      { conn := { i.conn with context := none }, effects := i.effects ++ [.command ctx cmd true, .free ctx], value := failed }
    | some reply => { conn := i.conn, effects := i.effects ++ [.command ctx cmd false], value := read reply }

/-- The text of a reply of the right type. -/
def readString (r : Reply) : String := if r.isString then r.str else ""

/-- `CacheConn::get`. -/
def get (c : CacheConn) (a : Answers) (key : String) : Done String := c.request a (.argv ["GET", key]) "" readString

/-- `CacheConn::setex`. -/
def setex (c : CacheConn) (a : Answers) (key : String) (timeout : Int) (value : String) : Done String :=
  c.request a (.argv ["SETEX", key, toString timeout, value]) "" Reply.str

/-- `CacheConn::set`. -/
def set (c : CacheConn) (a : Answers) (key value : String) : Done String := c.request a (.argv ["SET", key, value]) "" Reply.str

/-- `CacheConn::mget`: the keys are joined by blanks. Without a key, or with one that is empty, no command is sent. -/
def mget (c : CacheConn) (a : Answers) (keys : List String) : Done (Bool × List (String × String)) :=
  if " ".intercalate keys = "" then
    let i := c.init a
    { i with value := (false, []) }
  else
    c.request a (.text ("MGET " ++ " ".intercalate keys)) (false, []) fun r =>
      (true, (keys.zip r.elements).filterMap fun (key, child) => if child.isString then some (key, child.str) else none)

/-- `CacheConn::isExists`: the context that has been freed stays. -/
def isExists (c : CacheConn) (a : Answers) (key : String) : Done Bool :=
  let i := c.init a
  match i.value with
  | .error _ => { i with value := false }
  | .ok ctx =>
    match a.reply with
    | none =>
      { conn := i.conn, effects := i.effects ++ [.command ctx (.argv ["EXISTS", key]) true, .free ctx], value := false }
    | some reply =>
      { conn := i.conn, effects := i.effects ++ [.command ctx (.argv ["EXISTS", key]) false], value := reply.toInteger ≠ 0 }

/-- `CacheConn::hdel`. -/
def hdel (c : CacheConn) (a : Answers) (key field : String) : Done Int :=
  c.request a (.argv ["HDEL", key, field]) 0 Reply.toInteger

/-- `CacheConn::hget`. -/
def hget (c : CacheConn) (a : Answers) (key field : String) : Done String :=
  c.request a (.argv ["HGET", key, field]) "" readString

/-- Fields and values take turns. -/
def pairs : List Reply → List (String × String)
  | field :: value :: rest => (field.str, value.str) :: pairs rest
  | _ => []

/-- `CacheConn::hgetAll`. -/
def hgetAll (c : CacheConn) (a : Answers) (key : String) : Done (Bool × List (String × String)) :=
  c.request a (.argv ["HGETALL", key]) (false, []) fun r => (true, if r.elements.length % 2 = 0 then pairs r.elements else [])

/-- `CacheConn::hset`. -/
def hset (c : CacheConn) (a : Answers) (key field value : String) : Done Int :=
  c.request a (.argv ["HSET", key, field, value]) (-1) Reply.toInteger

/-- `CacheConn::hincrBy`. -/
def hincrBy (c : CacheConn) (a : Answers) (key field : String) (value : Int) : Done Int :=
  c.request a (.argv ["HINCRBY", key, field, toString value]) (-1) Reply.toInteger

/-- `CacheConn::incrBy`. -/
def incrBy (c : CacheConn) (a : Answers) (key : String) (value : Int) : Done Int :=
  c.request a (.argv ["INCRBY", key, toString value]) (-1) Reply.toInteger

/-- `CacheConn::hmset`. -/
def hmset (c : CacheConn) (a : Answers) (key : String) (hash : List (String × String)) : Done String :=
  c.request a (.argv ("HMSET" :: key :: hash.flatMap fun (field, value) => [field, value])) "" Reply.str

/-- `CacheConn::hmget`. -/
def hmget (c : CacheConn) (a : Answers) (key : String) (fields : List String) : Done (Bool × List String) :=
  c.request a (.argv ("HMGET" :: key :: fields)) (false, []) fun r => (true, r.elements.map Reply.str)

/-- `CacheConn::incr`. -/
def incr (c : CacheConn) (a : Answers) (key : String) : Done Int := c.request a (.argv ["INCR", key]) (-1) Reply.toInteger

/-- `CacheConn::decr`. -/
def decr (c : CacheConn) (a : Answers) (key : String) : Done Int := c.request a (.argv ["DECR", key]) (-1) Reply.toInteger

/-- `CacheConn::lpush`. -/
def lpush (c : CacheConn) (a : Answers) (key value : String) : Done Int :=
  c.request a (.argv ["LPUSH", key, value]) (-1) Reply.toInteger

/-- `CacheConn::rpush`. -/
def rpush (c : CacheConn) (a : Answers) (key value : String) : Done Int :=
  c.request a (.argv ["RPUSH", key, value]) (-1) Reply.toInteger

/-- `CacheConn::llen`. -/
def llen (c : CacheConn) (a : Answers) (key : String) : Done Int := c.request a (.argv ["LLEN", key]) (-1) Reply.toInteger

/-- `%d` prints the low half of a `long`. -/
def low (n : Int) : Int := n.bmod uint32Size

/-- `CacheConn::lrange`. -/
def lrange (c : CacheConn) (a : Answers) (key : String) (start stop : Int) : Done (Bool × List String) :=
  c.request a (.argv ["LRANGE", key, toString (low start), toString (low stop)]) (false, []) fun r =>
    (true, r.elements.map Reply.str)

end CacheConn

/-! ## Sequences of operations -/

/-- An operation, with its arguments. -/
inductive CacheOp where
  | init
  | get (key : String)
  | setex (key : String) (timeout : Int) (value : String)
  | set (key value : String)
  | mget (keys : List String)
  | isExists (key : String)
  | hdel (key field : String)
  | hget (key field : String)
  | hgetAll (key : String)
  | hset (key field value : String)
  | hincrBy (key field : String) (value : Int)
  | incrBy (key : String) (value : Int)
  | hmset (key : String) (hash : List (String × String))
  | hmget (key : String) (fields : List String)
  | incr (key : String)
  | decr (key : String)
  | lpush (key value : String)
  | rpush (key value : String)
  | llen (key : String)
  | lrange (key : String) (start stop : Int)

/-- What is left of an operation when its value is forgotten. -/
def Done.forget {α : Type} (d : Done α) : CacheConn × List CacheEffect := (d.conn, d.effects)

/-- Do an operation. -/
def CacheConn.perform (c : CacheConn) (a : Answers) : CacheOp → CacheConn × List CacheEffect
  | .init => (c.init a).forget
  | .get key => (c.get a key).forget
  | .setex key timeout value => (c.setex a key timeout value).forget
  | .set key value => (c.set a key value).forget
  | .mget keys => (c.mget a keys).forget
  | .isExists key => (c.isExists a key).forget
  | .hdel key field => (c.hdel a key field).forget
  | .hget key field => (c.hget a key field).forget
  | .hgetAll key => (c.hgetAll a key).forget
  | .hset key field value => (c.hset a key field value).forget
  | .hincrBy key field value => (c.hincrBy a key field value).forget
  | .incrBy key value => (c.incrBy a key value).forget
  | .hmset key hash => (c.hmset a key hash).forget
  | .hmget key fields => (c.hmget a key fields).forget
  | .incr key => (c.incr a key).forget
  | .decr key => (c.decr a key).forget
  | .lpush key value => (c.lpush a key value).forget
  | .rpush key value => (c.rpush a key value).forget
  | .llen key => (c.llen a key).forget
  | .lrange key start stop => (c.lrange a key start stop).forget

/-- An operation that was done: when, and what it did with contexts. -/
structure CacheCall where
  now : Nat
  effects : List CacheEffect

namespace CacheConn

/-- One operation of a sequence. -/
def step (c : CacheConn) (e : CacheOp × Answers) : Option (CacheConn × List CacheCall) :=
  some ((c.perform e.2 e.1).1, [{ now := e.2.now, effects := (c.perform e.2 e.1).2 }])

end CacheConn

end TeamTalk.DbProxy
