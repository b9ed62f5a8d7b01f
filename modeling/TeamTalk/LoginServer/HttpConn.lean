import TeamTalk.LoginServer.LoginConn

/-!
# Requests for a msg_server by HTTP

`CHttpConn::_HandleMsgServRequest` looks for the msg_server as `CLoginConn` does, in a loop of its own, and answers with JSON. The
order of the two addresses depends on the address of the client.
-/

namespace TeamTalk.LoginServer

/-- `strMsfsUrl` and `strDiscovery`, from the configuration. -/
structure HttpConfig where
  msfsUrl : String
  discovery : String
  deriving DecidableEq, Repr

/-- What the answer says of a msg_server. -/
structure HttpServer where
  priorIP : String
  backupIP : String
  msfsPrior : String
  msfsBackup : String
  discovery : String
  port : String
  deriving DecidableEq, Repr

/-- The JSON value of an answer. -/
structure HttpValue where
  code : Nat
  msg : String
  server : Option HttpServer
  deriving DecidableEq, Repr

/-- `IpParser::isTelcome`: there are four parts between dots. -/
def isTelcome (ip : String) : Bool := ip.toList.count '.' + 1 = 4

namespace State

/-- The loop over `g_msg_serv_info`: where `it_min_conn` stands at its end, and `min_user_cnt`. -/
def itMinConn (table : List (Handle × MsgServInfo)) : Option (Handle × MsgServInfo) × UInt32 :=
  table.foldl (fun best it =>
    if it.2.curConnCnt < it.2.maxConnCnt ∧ it.2.curConnCnt < best.2 then (some it, it.2.curConnCnt) else best) (none, 0 - 1)

/-- What is said of a msg_server to a client. -/
def httpServer (cfg : HttpConfig) (peerIp : String) (info : MsgServInfo) : HttpServer :=
  { priorIP := if isTelcome peerIp then info.ipAddr1 else info.ipAddr2
    backupIP := if isTelcome peerIp then info.ipAddr2 else info.ipAddr1
    msfsPrior := cfg.msfsUrl
    msfsBackup := cfg.msfsUrl
    discovery := cfg.discovery
    port := toString info.port.toNat }

/-- The answer of `CHttpConn::_HandleMsgServRequest`. -/
def httpMsgServRsp (cfg : HttpConfig) (peerIp : String) (s : State) : HttpValue :=
  if s.msgServInfo.size = 0 then ⟨1, "没有msg_server", none⟩
  else
    match (itMinConn s.msgServInfo.toList).1 with
    | none => ⟨2, "负载过高", none⟩
    | some it => ⟨0, "", some (httpServer cfg peerIp it.2)⟩

end State

end TeamTalk.LoginServer
