import TeamTalk.Lib.Machine
import TeamTalk.MsgServer.Closing
import TeamTalk.MsgServer.DBServConn
import TeamTalk.MsgServer.HandlePdu

/-!
# The event loop of msg_server

One thread takes one event after the other: a client connects, sends, or closes its connection, a timer runs out, the DB
proxy answers a login, the route server kicks a user, other servers come and go. The PDUs that one `OnRead` finds are handled
one after the other, with no other event in between.
-/

namespace TeamTalk

open Action

/-- An `OnRead` under way: the PDUs that are still to be handled, and whether the loop ends with an exception: the
authorization check has thrown, or a header whose length is zero follows. -/
structure Reading where
  conn : ConnId
  rest : List Pdu
  fails : Bool

/-- The server between two steps. -/
structure Loop where
  server : Server
  reading : Option Reading

/-- What can happen. -/
inductive Event where
  | accept (c : ConnId) (handle tick clientType : Nat)
  | readBegin (handle tick : Nat) (pdus : List Pdu) (fails : Bool)
  | readStep (env : Env)
  | readEnd
  | peerClose (handle : Nat)
  | timer (handle currTick : Nat)
  | validateResponse (env : Env) (pdu : Pdu)
  | routeKick (pdu : Pdu)
  | backends (b : Backends)

/-- `CMsgConn::CMsgConn` and `OnConnect`. The constructor leaves the client type open. -/
def newMsgConn (handle tick clientType : Nat) : MsgConn :=
  { handle, loginName := "", userId := 0, bOpen := false, bKickOff := false, loginTime := tick, clientVersion := "",
    sendMsgList := [], msgCntPerSec := 0, clientType, onlineStatus := userStatusOffline, lastRecvTick := tick,
    refCount := 1 }

/-- `CRefObject::AddRef`. -/
def addRef (c : ConnId) : Do Unit := do
  let conn ← getConn c
  setConn c { conn with refCount := conn.refCount + 1 }

/-- The `NETLIB_MSG_CLOSE` case of `imconn_callback`. -/
def onPeerClose (c : ConnId) : Do Unit := do
  addRef c
  close c
  releaseRef c

/-- The `NETLIB_MSG_READ` case of `imconn_callback`, up to the first PDU. -/
def onReadBegin (c : ConnId) (tick : Nat) : Do Unit := do
  addRef c
  setConn c { ← getConn c with lastRecvTick := tick }

/-- The same, after the last PDU. -/
def onReadEnd (c : ConnId) (fails : Bool) : Do Unit := do
  if fails then close c
  releaseRef c

namespace Loop

/-- Before any client has connected. -/
def init (b : Backends) : Loop := { server := Server.init b, reading := none }

/-- Run something to its end, or to the exception that ends it. There is no next state when it does what is undefined. -/
def exec (l : Loop) (reading : Option Reading) (a : Do Unit) : Option (Loop × List Effect) :=
  match a.run l.server with
  | ⟨.ok (), server, out⟩ => some (⟨server, reading⟩, out)
  | ⟨.error (.thrown _), server, out⟩ => some (⟨server, reading⟩, out)
  | ⟨.error .undefinedBehaviour, _, _⟩ => none

/-- The connection of a handle: `FindImConn`. -/
def findImConn (l : Loop) (handle : Nat) : Option ConnId := l.server.msgConnMap[handle]?

/-- One event while no `OnRead` is under way. -/
def idleStep (l : Loop) : Event → Option (Loop × List Effect)
  | .accept c handle tick clientType =>
    if l.server.conns c = none ∧ l.findImConn handle = none then
      some ({ l with server :=
        { l.server.setConn c (newMsgConn handle tick clientType) with
          msgConnMap := l.server.msgConnMap.insert handle c } }, [])
    else none
  | .readBegin handle tick pdus fails =>
    match l.findImConn handle with
    | some c => l.exec (some ⟨c, pdus, fails⟩) (onReadBegin c tick)
    | none => some (l, [])
  | .peerClose handle =>
    match l.findImConn handle with
    | some c => l.exec none (onPeerClose c)
    | none => some (l, [])
  | .timer handle currTick =>
    match l.findImConn handle with
    | some c => l.exec none (onTimer c currTick)
    | none => some (l, [])
  | .validateResponse env pdu => l.exec none (handleValidateResponse env pdu)
  | .routeKick pdu => l.exec none (handleRouteKickUser pdu)
  | .backends b => some ({ l with server := { l.server with backends := b } }, [])
  | .readStep _ => none
  | .readEnd => none

/-- One step of `OnRead`: the next PDU, or the end of the loop. -/
def readingStep (l : Loop) (r : Reading) : Event → Option (Loop × List Effect)
  | .readStep env =>
    match r.rest with
    | pdu :: rest =>
      match (handlePdu env r.conn pdu).run l.server with
      | ⟨.ok (), server, out⟩ => some (⟨server, some { r with rest }⟩, out)
      | ⟨.error (.thrown _), server, out⟩ => some (⟨server, some { r with rest := [], fails := true }⟩, out)
      | ⟨.error .undefinedBehaviour, _, _⟩ => none
    | [] => none
  | .readEnd => if r.rest = [] then l.exec none (onReadEnd r.conn r.fails) else none
  | _ => none

/-- One step of the server. -/
def step (l : Loop) (e : Event) : Option (Loop × List Effect) :=
  match l.reading with
  | none => l.idleStep e
  | some r => l.readingStep r e

/-- What was run to its end, or to an exception. -/
theorem exec_eq_some {l l' : Loop} {reading : Option Reading} {a : Do Unit} {out : List Effect}
    (h : l.exec reading a = some (l', out)) : ∃ result, a.run l.server = ⟨result, l'.server, out⟩ ∧ l'.reading = reading ∧
      (result = .ok () ∨ ∃ e, result = .error (.thrown e)) := by
  rw [exec] at h
  split at h
  · rename_i server out' hrun
    obtain ⟨rfl, rfl⟩ := Prod.mk.inj (Option.some.inj h)
    exact ⟨_, hrun, rfl, .inl rfl⟩
  · rename_i e server out' hrun
    obtain ⟨rfl, rfl⟩ := Prod.mk.inj (Option.some.inj h)
    exact ⟨_, hrun, rfl, .inr ⟨e, rfl⟩⟩
  · cases h

/-- The same, for what does not throw. -/
theorem exec_eq_some_of_neverThrows {l l' : Loop} {reading : Option Reading} {a : Do Unit} {out : List Effect}
    (ha : NeverThrows a) (h : l.exec reading a = some (l', out)) :
    a.run l.server = ⟨.ok (), l'.server, out⟩ ∧ l'.reading = reading := by
  obtain ⟨result, hrun, hreading, rfl | ⟨e, rfl⟩⟩ := exec_eq_some h
  · exact ⟨hrun, hreading⟩
  · cases ha l.server (.thrown e) (by rw [hrun])

/-- What was run did what it does. -/
theorem does_of_exec {R : Server → List Effect → Server → Prop} {l l' : Loop} {reading : Option Reading} {a : Do Unit}
    {out : List Effect} (ha : ∀ s, a.Does R s) (h : l.exec reading a = some (l', out)) : R l.server out l'.server := by
  obtain ⟨result, hrun, -, -⟩ := exec_eq_some h
  have hdoes := ha l.server
  rw [Act.Does, hrun] at hdoes
  exact hdoes

/-- What `HandlePdu` did to the next PDU: it came to its end, or the authorization check has thrown. -/
theorem readingStep_eq_some {l l' : Loop} {r : Reading} {env : Env} {out : List Effect}
    (h : l.readingStep r (.readStep env) = some (l', out)) :
    ∃ pdu rest result, r.rest = pdu :: rest ∧ (handlePdu env r.conn pdu).run l.server = ⟨result, l'.server, out⟩ ∧
      ((result = .ok () ∧ l'.reading = some { r with rest }) ∨
        ((∃ e, result = .error (.thrown e)) ∧ l'.reading = some { r with rest := [], fails := true })) := by
  simp only [readingStep] at h
  split at h
  · rename_i pdu rest hrest
    refine ⟨pdu, rest, ?_⟩
    split at h
    · rename_i server out' hrun
      obtain ⟨rfl, rfl⟩ := Prod.mk.inj (Option.some.inj h)
      exact ⟨_, hrest, hrun, .inl ⟨rfl, rfl⟩⟩
    · rename_i e server out' hrun
      obtain ⟨rfl, rfl⟩ := Prod.mk.inj (Option.some.inj h)
      exact ⟨_, hrest, hrun, .inr ⟨⟨e, rfl⟩, rfl⟩⟩
    · cases h
  · cases h

end Loop

/-! ## What does not throw -/

namespace EventLoopAux

open ClosingAux

theorem neverThrows_addRef (c : ConnId) : NeverThrows (addRef c) :=
  StopsOnly.bind (neverThrows_getConn c) fun _ => StopsOnly.modify _

theorem neverThrows_releaseRef (c : ConnId) : NeverThrows (releaseRef c) :=
  StopsOnly.bind (neverThrows_getConn c) fun _ => StopsOnly.modify _

theorem neverThrows_onPeerClose (c : ConnId) : NeverThrows (onPeerClose c) :=
  StopsOnly.bind (neverThrows_addRef c) fun _ => StopsOnly.bind (neverThrows_close c) fun _ => neverThrows_releaseRef c

theorem neverThrows_onReadBegin (c : ConnId) (tick : Nat) : NeverThrows (onReadBegin c tick) :=
  StopsOnly.bind (neverThrows_addRef c) fun _ => StopsOnly.bind (neverThrows_getConn c) fun _ => StopsOnly.modify _

theorem neverThrows_onReadEnd (c : ConnId) (fails : Bool) : NeverThrows (onReadEnd c fails) := by
  unfold onReadEnd
  split
  · exact StopsOnly.bind (neverThrows_close c) fun _ => neverThrows_releaseRef c
  · exact neverThrows_releaseRef c

theorem neverThrows_onTimer (c : ConnId) (currTick : Nat) : NeverThrows (onTimer c currTick) := by
  refine StopsOnly.bind (neverThrows_getConn c) fun conn => StopsOnly.bind (StopsOnly.modify _) fun _ => ?_
  dsimp only
  generalize (if checkClientTypeMobile conn.clientType = true then mobileClientTimeout else clientTimeout) = timeout
  split
  · exact neverThrows_close c
  · split
    · exact neverThrows_close c
    · exact StopsOnly.modify _

end EventLoopAux

end TeamTalk
