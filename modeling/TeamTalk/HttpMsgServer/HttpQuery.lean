import TeamTalk.Base.HttpParserWrapper
import TeamTalk.HttpMsgServer.HttpConn

/-!
# The queries of http_msg_server

`CHttpConn::OnRead` parses all bytes that have come, on every read event, and `CHttpQuery::DispatchQuery` makes a request to the DB
proxy of what was found. The vendored HTTP parser and JSON library are parameters: the callbacks that `http_parser_execute` calls for a
buffer, and the operations on JSON values.
-/

namespace TeamTalk.HttpMsgServer

/-- The JSON library. What throws a `std::runtime_error` has no result. -/
structure JsonApi (V : Type) where
  parse : Bytes → Option V
  get : V → String → Option V
  isNull : V → Bool
  asUInt : V → Option Nat
  asString : V → Option Bytes
  size : V → Nat
  item : V → Nat → Option V
  styled : Nat → String → Bytes

/-! ## Responses -/

/-- `HTTP_ERROR_CODE`, as far as it is answered. -/
def httpErrorParment : Nat := 1

/-- `HTTP_ERROR_INTERFACE`. -/
def httpErrorInterface : Nat := 5

/-- `HTTP_ERROR_SERVER_EXCEPTION`. -/
def httpErrorServerException : Nat := 10

/-- `HTTP_ERROR_MSG`. -/
def httpErrorMsg : List String :=
  ["成功", "参数错误", "appKey不存在", "appKey与用户不匹配", "含有不允许发送的Id", "未授权的接口", "未授权的IP", "非法的发送类型",
    "未知错误", "服务器异常", "创建群失败", "更改群成员失败", "消息加密失败"]

/-- `MAX_BUF_SIZE`. -/
def maxBufSize : Nat := 819200

/-- `PackSendResult`, with `HTTP_QUEYR_HEADER`. -/
def packSendResult {V : Type} (api : JsonApi V) (errorCode : Nat) (errorMsg : String) : Bytes :=
  let json := api.styled errorCode errorMsg
  let newline : Bytes := [13, 10]
  cut maxBufSize (chars "HTTP/1.1 200 OK" ++ newline ++ chars "Cache-Control:no-cache" ++ newline ++ chars "Connection:close" ++
    newline ++ chars "Content-Length:" ++ decimal json.length ++ newline ++ chars "Content-Type:text/html;charset=utf-8" ++ newline ++
    newline ++ json)

/-! ## Queries -/

/-- A request to the DB proxy: `IMGroupCreateReq` and `IMGroupChangeMemberReq`. The user id is 0, and the handle of the connection is
attached. -/
inductive Command where
  | createGroup (groupName groupAvatar : Bytes) (groupType : Nat) (members : List Nat) (handle : Nat)
  | changeMember (changeType groupId : Nat) (members : List Nat) (handle : Nat)
  deriving DecidableEq, Repr

/-- What a query leads to: the connection is closed; an error is sent; an error is sent and the connection closed; a request is sent to
the DB proxy; or an exception ends the process. -/
inductive Dispatched where
  | closes
  | sends (data : Bytes)
  | sendsAndCloses (data : Bytes)
  | forwards (command : Command)
  | aborts
  deriving DecidableEq, Repr

section Query

variable {V : Type} (api : JsonApi V)

/-- An error is answered, and the connection closed. -/
def refuse (errorCode : Nat) (msg : Nat) : Dispatched := .sendsAndCloses (packSendResult api errorCode (httpErrorMsg.getD msg ""))

/-- The elements of `user_id_list`, as numbers. -/
def memberIds (list : V) : Option (List Nat) :=
  (List.range (api.size list)).mapM fun i => (api.item list i).bind api.asUInt

/-- The checks that a query makes before it reads its values: there is a DB proxy, and no value is missing. -/
def checkFields (hasConn : Bool) (value : V) (keys : List String) (query : Dispatched) : Dispatched :=
  if hasConn then
    match keys.mapM (api.get value) with
    | none => .aborts
    | some values => if values.any api.isNull then refuse api httpErrorParment 1 else query
  else refuse api httpErrorServerException 9

/-- `_QueryCreateGroup`, once nothing is missing. `user_id` is read and not used. -/
def createGroup (value : V) (handle : Nat) : Option Dispatched := do
  let _ ← (← api.get value "req_user_id") |> api.asUInt
  let groupName ← (← api.get value "group_name") |> api.asString
  let groupType ← (← api.get value "group_type") |> api.asUInt
  let groupAvatar ← (← api.get value "group_avatar") |> api.asString
  let list ← api.get value "user_id_list"
  if groupType ≠ 1 ∧ groupType ≠ 2 then return refuse api httpErrorParment 1
  let members ← memberIds api list
  return .forwards (.createGroup groupName groupAvatar groupType members handle)

/-- `_QueryCreateGroup`. -/
def queryCreateGroup (hasConn : Bool) (value : V) (handle : Nat) : Dispatched :=
  checkFields api hasConn value ["req_user_id", "group_name", "group_type", "group_avatar", "user_id_list"]
    ((createGroup api value handle).getD (refuse api httpErrorParment 1))

/-- `_QueryChangeMember`, once nothing is missing. -/
def changeMember (value : V) (handle : Nat) : Option Dispatched := do
  let _ ← (← api.get value "req_user_id") |> api.asUInt
  let groupId ← (← api.get value "group_id") |> api.asUInt
  let modifyType ← (← api.get value "modify_type") |> api.asUInt
  let list ← api.get value "user_id_list"
  if modifyType ≠ 1 ∧ modifyType ≠ 2 then return refuse api httpErrorParment 1
  let members ← memberIds api list
  return .forwards (.changeMember modifyType groupId members handle)

/-- `_QueryChangeMember`. -/
def queryChangeMember (hasConn : Bool) (value : V) (handle : Nat) : Dispatched :=
  checkFields api hasConn value ["req_user_id", "group_id", "modify_type", "user_id_list"]
    ((changeMember api value handle).getD (refuse api httpErrorParment 1))

/-- The values that `DispatchQuery` reads for `_CheckAuth`, which lets everything pass. -/
def authValues (value : V) : Option (Bytes × Nat) := do
  let appKey ← (← api.get value "app_key") |> api.asString
  let userId ← (← api.get value "req_user_id") |> api.asUInt
  return (appKey, userId)

/-- `DispatchQuery`. Its error is sent without a header. -/
def dispatchQuery (hasConn : Bool) (url postData : Bytes) (handle : Nat) : Dispatched :=
  match api.parse postData with
  | none => .closes
  | some value =>
    if authValues api value = none then .sends (api.styled httpErrorInterface (httpErrorMsg.getD httpErrorInterface ""))
    else if url = chars "/query/CreateGroup" then queryCreateGroup api hasConn value handle
    else if url = chars "/query/ChangeMembers" then queryChangeMember api hasConn value handle
    else .closes

/-- What `OnRead` does with what the parser has collected, if that is complete. The texts are C strings. -/
def onParsed (hasConn : Bool) (parsed : HttpParsed) (handle : Nat) : Option Dispatched :=
  if parsed.readAll then
    if chars "/query/" <+: cString parsed.url then
      some (dispatchQuery api hasConn (cString parsed.url) (cString parsed.bodyContent) handle)
    else some .closes
  else none

end Query

/-! ## The connection -/

/-- A connection with the bytes that have come, and the requests sent to the DB proxy for it. -/
structure QueryConn where
  conn : HttpConn
  inBuf : Bytes
  sent : List Command
  deriving DecidableEq, Repr

/-- What can happen: bytes come, while there is a connection to the DB proxy or not; or what else happens to the connection. -/
inductive QueryEvent where
  | read (tick : Nat) (chunk : Bytes) (hasConn : Bool) (taken : Nat)
  | other (e : Event)
  deriving DecidableEq, Repr

namespace QueryConn

variable {V : Type} (api : JsonApi V) (execute : Bytes → List HttpCallback) (handle : Nat)

/-- A new connection. -/
def init (tick : Nat) : QueryConn := { conn := HttpConn.init tick, inBuf := [], sent := [] }

/-- What a read event leads to on the connection, when the socket takes so much of a response; and the request that is sent. -/
def outcome (taken : Nat) : Option Dispatched → Option (Outcome × List Command)
  | none => some (.waits, [])
  | some .closes => some (.closes, [])
  | some (.sends data) => some (.sends data taken, [])
  | some (.sendsAndCloses data) => some (.sendsAndCloses data taken, [])
  | some (.forwards command) => some (.waits, [command])
  | some .aborts => none

/-- One step. The buffer is parsed from its start on. -/
def step (c : QueryConn) : QueryEvent → Option (QueryConn × List Unit)
  | .read tick chunk hasConn taken =>
    match outcome taken (onParsed api hasConn (HttpParsed.parseHttpContent execute (c.inBuf ++ chunk)) handle) with
    | none => none
    | some (result, commands) =>
      (c.conn.step .httpMsg (.read tick result)).map fun (conn, out) =>
        ({ conn, inBuf := c.inBuf ++ chunk, sent := c.sent ++ commands }, out)
  | .other (.read _ _) => none
  | .other e => (c.conn.step .httpMsg e).map fun (conn, out) => ({ c with conn := conn }, out)

end QueryConn

end TeamTalk.HttpMsgServer
