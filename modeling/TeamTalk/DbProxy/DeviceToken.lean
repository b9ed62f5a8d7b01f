import TeamTalk.Base.ImPduBase
import TeamTalk.Protocol.Messages
import TeamTalk.Lib.Machine

/-!
# Device tokens

`setDevicesToken` and `getDevicesToken` of the DB proxy. The token of a user and the user of a token are kept under keys of one
form in the cache pool `token`. Texts are written to the cache up to their first NUL.
-/

namespace TeamTalk.DbProxy

/-- A `std::string`. -/
abbrev Text := List Char

/-- `int2string`. -/
def int2string (n : Nat) : Text := Nat.toDigits 10 n

/-- `string2int`, for a text that begins with a digit: `atoi` keeps the low 32 bits. -/
def string2int (s : Text) : Nat := Nat.ofDigitChars 10 (s.takeWhile Char.isDigit) 0 % uint32Size

/-- What `c_str` hands to `%s`. -/
def cStr (s : Text) : Text := s.takeWhile (· ≠ '\x00')

/-! ## CacheConn -/

/-- The strings of one redis database. -/
abbrev Cache := Text → Option Text

namespace Cache

/-- `CacheConn::get`: the value, or the empty text. -/
def get (cache : Cache) (key : Text) : Text := (cache (cStr key)).getD []

/-- `CacheConn::set`. -/
def set (cache : Cache) (key value : Text) : Cache := fun k => if k = cStr key then some (cStr value) else cache k

/-- `CacheConn::mget`: a `map` from the keys that have a value. -/
def mget (cache : Cache) (keys : List Text) : List (Text × Text) :=
  (keys.dedup.mergeSort (· ≤ ·)).filterMap fun key => (cache key).map fun value => (key, cStr value)

end Cache

/-- `"device_" + s`. -/
def deviceKey (s : Text) : Text := "device_".toList ++ s

/-- The texts before and behind the first colon. -/
def splitColon (s : Text) : Option (Text × Text) :=
  if ':' ∈ s then some (s.takeWhile (· ≠ ':'), (s.dropWhile (· ≠ ':')).drop 1) else none

/-- `CLIENT_TYPE_WINDOWS`, the default of a field that is not set. -/
def clientTypeWindows : Nat := 0x01

/-- `CLIENT_TYPE_IOS`. -/
def clientTypeIos : Nat := 0x11

/-- `CLIENT_TYPE_ANDROID`. -/
def clientTypeAndroid : Nat := 0x12

/-- `ClientType_IsValid`. -/
def clientTypeIsValid (type : Nat) : Bool :=
  type = clientTypeWindows ∨ type = clientTypeMac ∨ type = clientTypeIos ∨ type = clientTypeAndroid

/-! ## The handlers -/

/-- What is stored for a user. -/
def tokenValue (clientType : Nat) (token : Text) : Text :=
  if clientType = clientTypeIos then "ios:".toList ++ token
  else if clientType = clientTypeAndroid then "android:".toList ++ token
  else token

/-- The token that the user had before no longer belongs to a user. -/
def releaseOld (cache : Cache) (oldValue : Text) : Cache :=
  if oldValue ≠ [] then
    match splitColon oldValue with
    | some (_, oldToken) => if cache.get (deviceKey oldToken) ≠ [] then cache.set (deviceKey oldToken) [] else cache
    | none => cache
  else cache

/-- `setDevicesToken`; `hasConn` says whether the pool gives a connection. -/
def setDevicesToken (hasConn : Bool) (cache : Cache) (msg : IMDeviceTokenReq) : Cache × IMDeviceTokenRsp :=
  let rsp := { userId := some msg.userId, attachData := some (msg.attachData.getD []) }
  if hasConn then
    let token := msg.deviceToken.toList
    let value := tokenValue (msg.clientType.getD clientTypeWindows) token
    let cache := releaseOld cache (cache.get (deviceKey (int2string msg.userId)))
    let cache := cache.set (deviceKey (int2string msg.userId)) value
    (cache.set (deviceKey token) (int2string msg.userId), rsp)
  else (cache, rsp)

/-- `UserTokenInfo`. -/
structure UserTokenInfo where
  userId : Nat
  userType : Nat
  token : Text
  pushCount : Nat
  pushType : Nat
  deriving DecidableEq, Repr

/-- `IMGetDeviceTokenReq`. -/
structure IMGetDeviceTokenReq where
  userId : List Nat
  attachData : Option Bytes
  deriving DecidableEq, Repr

/-- `IMGetDeviceTokenRsp`. -/
structure IMGetDeviceTokenRsp where
  userTokenInfo : List UserTokenInfo
  attachData : Option Bytes
  deriving DecidableEq, Repr

/-- What `getDevicesToken` asks of others: the hour, the shields, and how much a user has not read. -/
structure PushEnv where
  tmHour : Nat
  getPushShield : Nat → Nat
  getUnReadCntAll : Nat → Nat

/-- Is the shield looked at? -/
def PushEnv.isCheckShieldStatus (env : PushEnv) : Bool := 22 ≤ env.tmHour ∨ env.tmHour ≤ 7

/-- The entry of one key; a shielded iOS client has none. -/
def userTokenInfo (env : PushEnv) (entry : Text × Text) : Option UserTokenInfo :=
  let userId := string2int (entry.1.drop "device_".length)
  match splitColon entry.2 with
  | none => none
  | some (type, token) =>
    let clientType := if type = "ios".toList then clientTypeIos else if type = "android".toList then clientTypeAndroid else 0
    if type = "ios".toList ∧ env.isCheckShieldStatus ∧ env.getPushShield userId = 1 then none
    else if clientTypeIsValid clientType then
      some { userId, userType := clientType, token, pushCount := env.getUnReadCntAll userId, pushType := 1 }
    else none

/-- `getDevicesToken`. -/
def getDevicesToken (env : PushEnv) (hasConn : Bool) (cache : Cache) (msg : IMGetDeviceTokenReq) : IMGetDeviceTokenRsp :=
  { userTokenInfo :=
      if hasConn then (cache.mget (msg.userId.map fun id => deviceKey (int2string id))).filterMap (userTokenInfo env) else []
    attachData := some (msg.attachData.getD []) }

/-! ## What msg_server sends -/

/-- What clients do: a token is registered on a connection of a user, or the user logs out. -/
inductive TokenEvent where
  | deviceToken (userId clientType : Nat) (msg : IMDeviceTokenReq)
  | loginOut (userId clientType : Nat)

/-- The request that `_HandleClientDeviceToken` sends: a PC client's is not passed on. -/
def deviceTokenReq (userId clientType : Nat) (msg : IMDeviceTokenReq) : Option IMDeviceTokenReq :=
  if checkClientTypeMobile clientType then some { msg with userId, clientType := some clientType } else none

/-- The request that `_HandleLoginOutRequest` sends, for every client. -/
def loginOutReq (userId : Nat) : IMDeviceTokenReq := { userId, deviceToken := "", clientType := none, attachData := none }

/-- The request that an event causes. -/
def TokenEvent.req : TokenEvent → Option IMDeviceTokenReq
  | .deviceToken userId clientType msg => deviceTokenReq userId clientType msg
  | .loginOut userId _ => some (loginOutReq userId)

/-- One event, up to the end of the request. What is put out is the event. -/
def tokenStep (cache : Cache) (e : TokenEvent) : Option (Cache × List TokenEvent) :=
  match e.req with
  | none => some (cache, [e])
  | some msg => some ((setDevicesToken true cache msg).1, [e])

end TeamTalk.DbProxy
