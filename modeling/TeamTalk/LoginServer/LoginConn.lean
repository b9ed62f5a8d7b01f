import Mathlib
import TeamTalk.Protocol.BaseDefine

/-!
# Connections of login_server

`CLoginConn`: each msg_server reports how many users it has, and every change of it; login_server keeps the numbers in
`g_msg_serv_info`, the total in `g_total_online_user_cnt`, and sends a client to the server with the fewest users.
-/

namespace TeamTalk.LoginServer

open Std (TreeMap)

/-- `net_handle_t`. -/
abbrev Handle := Nat

/-- `msg_serv_info_t`. -/
structure MsgServInfo where
  ipAddr1 : String
  ipAddr2 : String
  port : UInt16
  maxConnCnt : UInt32
  curConnCnt : UInt32
  hostname : String
  deriving DecidableEq, Repr

/-- `IMMsgServInfo`, as `ParseFromArray` leaves it; what it answers is not looked at, so this may also come from a body that
is malformed. -/
structure IMMsgServInfo where
  ip1 : String
  ip2 : String
  port : UInt32
  maxConnCnt : UInt32
  curConnCnt : UInt32
  hostName : String
  deriving DecidableEq, Repr

/-- `IMMsgServRsp`. -/
structure IMMsgServRsp where
  resultCode : Nat
  priorIp : Option String
  backipIp : Option String
  port : Option UInt16
  deriving DecidableEq, Repr

/-- What `HandlePdu` tells apart; a count update carries the `user_action` that `ParseFromArray` leaves. -/
inductive Pdu where
  | heartbeat
  | msgServInfo (msg : IMMsgServInfo)
  | userCntUpdate (action : UInt32)
  | reqMsgServer
  | other
  deriving DecidableEq, Repr

/-- The state of login_server: `g_msg_serv_conn_map`, `g_msg_serv_info` and `g_total_online_user_cnt`. A client's connection
is never entered in `g_client_conn_map`, so nothing of it is dispatched. -/
structure State where
  msgServConnMap : Finset Handle
  msgServInfo : TreeMap Handle MsgServInfo
  totalOnlineUserCnt : UInt32

namespace State

/-- Before anybody has connected. -/
def init : State := { msgServConnMap := ∅, msgServInfo := ∅, totalOnlineUserCnt := 0 }

/-- `CLoginConn::OnConnect2`. -/
def onConnect (s : State) (h : Handle) : State := { s with msgServConnMap := insert h s.msgServConnMap }

/-- `CLoginConn::Close`. -/
def close (s : State) (h : Handle) : State :=
  let s := { s with msgServConnMap := s.msgServConnMap.erase h }
  match s.msgServInfo[h]? with
  | some info =>
    { s with
      msgServInfo := s.msgServInfo.erase h
      totalOnlineUserCnt := s.totalOnlineUserCnt - info.curConnCnt }
  | none => s

/-- `CLoginConn::_HandleMsgServInfo`: `insert` leaves an entry that exists as it is. -/
def handleMsgServInfo (s : State) (h : Handle) (msg : IMMsgServInfo) : State :=
  let info : MsgServInfo := {
    ipAddr1 := msg.ip1
    ipAddr2 := msg.ip2
    port := msg.port.toUInt16
    maxConnCnt := msg.maxConnCnt
    curConnCnt := msg.curConnCnt
    hostname := msg.hostName }
  { s with
    msgServInfo := s.msgServInfo.insertIfNew h info
    totalOnlineUserCnt := s.totalOnlineUserCnt + info.curConnCnt }

/-- `CLoginConn::_HandleUserCntUpdate`. -/
def handleUserCntUpdate (s : State) (h : Handle) (action : UInt32) : State :=
  match s.msgServInfo[h]? with
  | some info =>
    if action.toNat = userCntInc then
      { s with
        msgServInfo := s.msgServInfo.insert h { info with curConnCnt := info.curConnCnt + 1 }
        totalOnlineUserCnt := s.totalOnlineUserCnt + 1 }
    else
      { s with
        msgServInfo := s.msgServInfo.insert h { info with curConnCnt := info.curConnCnt - 1 }
        totalOnlineUserCnt := s.totalOnlineUserCnt - 1 }
  | none => s

/-- The first msg_server with the fewest users, among those that are not full; `min_user_cnt` begins as `(uint32_t)-1`. -/
def minConn (infos : List MsgServInfo) : Option MsgServInfo :=
  (infos.foldl (fun (best : Option MsgServInfo × UInt32) info =>
    if info.curConnCnt < info.maxConnCnt ∧ info.curConnCnt < best.2 then (some info, info.curConnCnt) else best)
    (none, 0 - 1)).1

/-- The answer of `CLoginConn::_HandleMsgServRequest`. -/
def msgServRsp (s : State) : IMMsgServRsp :=
  if s.msgServInfo.size = 0 then ⟨refuseReasonNoMsgServer, none, none, none⟩
  else
    match minConn s.msgServInfo.values with
    | none => ⟨refuseReasonMsgServerFull, none, none, none⟩
    | some info => ⟨refuseReasonNone, some info.ipAddr1, some info.ipAddr2, some info.port⟩

/-- `CLoginConn::HandlePdu`: the state, and what is sent. -/
def handlePdu (s : State) (h : Handle) : Pdu → State × List IMMsgServRsp
  | .heartbeat => (s, [])
  | .msgServInfo msg => (s.handleMsgServInfo h msg, [])
  | .userCntUpdate action => (s.handleUserCntUpdate h action, [])
  | .reqMsgServer => (s.close h, [s.msgServRsp])
  | .other => (s, [])

end State

/-! ## The event loop -/

/-- login_server, and the connection whose `OnRead` is running. -/
structure Loop where
  server : State
  reading : Option Handle

/-- What can happen. -/
inductive Event where
  | connect (h : Handle)
  | read (h : Handle)
  | handlePdu (pdu : Pdu)
  | readEnd
  | close (h : Handle)

/-- Before anything has happened. -/
def init : Loop := { server := State.init, reading := none }

/-- One event. `imconn_callback` reads only from a connection in the map; `OnRead` then handles what it has read, also after
one of the PDUs has closed the connection. -/
def step (l : Loop) : Event → Option (Loop × List IMMsgServRsp)
  | .connect h =>
    if l.reading = none ∧ h ∉ l.server.msgServConnMap then some ({ l with server := l.server.onConnect h }, []) else none
  | .read h => if l.reading = none ∧ h ∈ l.server.msgServConnMap then some ({ l with reading := some h }, []) else none
  | .handlePdu pdu =>
    match l.reading with
    | some h => some ({ l with server := (l.server.handlePdu h pdu).1 }, (l.server.handlePdu h pdu).2)
    | none => none
  | .readEnd => if l.reading = none then none else some ({ l with reading := none }, [])
  | .close h =>
    -- the peer or the timer, between reads; or an exception, which ends the read
    if (l.reading = none ∧ h ∈ l.server.msgServConnMap) ∨ l.reading = some h then
      some ({ server := l.server.close h, reading := none }, [])
    else none

end TeamTalk.LoginServer
