import TeamTalk.Lib.Machine

/-!
# The limit on wrong passwords

`doLogin` of the DB proxy for one login name, as the worker threads run it step by step: the errors are pruned and counted, the
password is looked up, and then the errors are cleared, or the time is read and a little later recorded. Each stretch under
`g_cLimitLock` is one step.
-/

namespace TeamTalk.DbProxy.Login

/-- A request between its check and its end: when it was checked, and `tmCurrent` once the password was wrong. -/
structure Request where
  entered : Nat
  tmCurrent : Option Nat
  deriving DecidableEq, Repr

/-- The clock, `g_hmLimits` of the name, and the requests in the threads. -/
structure Limits where
  now : Nat
  lsErrorTime : List Nat
  requests : List Request
  deriving DecidableEq, Repr

/-- What a thread does next, or the clock. -/
inductive LoginEvent where
  | tick (seconds : Nat)
  | check
  | wrong (i : Nat)
  | record (i : Nat)
  | right (i : Nat)
  deriving DecidableEq, Repr

/-- What is seen: a request reaches the password, is refused with code 6, is recorded as failed, or succeeds. -/
inductive LoginOut where
  | passed (time : Nat)
  | refused (time : Nat)
  | recorded (time : Nat)
  | succeeded (time : Nat)
  deriving DecidableEq, Repr

def LoginOut.time : LoginOut → Nat
  | passed t | refused t | recorded t | succeeded t => t

/-- Not older than 30 minutes. -/
def Fresh (now time : Nat) : Prop := now - time ≤ 30 * 60

instance (now time : Nat) : Decidable (Fresh now time) := inferInstanceAs (Decidable (_ ≤ _))

/-- The first error that is too old goes, and all behind it. -/
def prune (now : Nat) (lsErrorTime : List Nat) : List Nat := lsErrorTime.takeWhile fun time => Fresh now time

/-- More than ten errors, the newest not too old. -/
def tooMany (now : Nat) (lsErrorTime : List Nat) : Bool :=
  10 < lsErrorTime.length ∧ lsErrorTime.head?.any fun time => Fresh now time

/-- One step of `doLogin`. -/
def loginStep (s : Limits) : LoginEvent → Option (Limits × List LoginOut)
  | .tick seconds => some ({ s with now := s.now + seconds }, [])
  | .check =>
    let lsErrorTime := prune s.now s.lsErrorTime
    if tooMany s.now lsErrorTime then some ({ s with lsErrorTime }, [.refused s.now])
    else some ({ s with lsErrorTime, requests := s.requests ++ [{ entered := s.now, tmCurrent := none }] }, [.passed s.now])
  | .wrong i =>
    match s.requests[i]? with
    | some { entered, tmCurrent := none } =>
      some ({ s with requests := s.requests.set i { entered, tmCurrent := some s.now } }, [])
    | _ => none
  | .record i =>
    match s.requests[i]? with
    | some { entered := _, tmCurrent := some tmCurrent } =>
      some ({ s with lsErrorTime := tmCurrent :: s.lsErrorTime, requests := s.requests.eraseIdx i }, [.recorded s.now])
    | _ => none
  | .right i =>
    match s.requests[i]? with
    | some { entered := _, tmCurrent := none } =>
      some ({ s with lsErrorTime := [], requests := s.requests.eraseIdx i }, [.succeeded s.now])
    | _ => none

/-- No request of the name has been made. -/
def Limits.init (now : Nat) : Limits := { now, lsErrorTime := [], requests := [] }

end TeamTalk.DbProxy.Login
