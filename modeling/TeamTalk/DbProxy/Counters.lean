import TeamTalk.Lib.Threads

/-!
# Message counters of groups

Redis counts the messages of each group in the hash `<group>_im_group_msg`, and keeps for each member, in the hash
`<user>_<group>_im_user_group`, the count that he has read. Both have the one field `count`. The counts are small enough for
`atoi`.
-/

namespace TeamTalk.DbProxy

open Prog

/-- The field `count` of the hashes, where there is one. -/
structure Counters where
  group : Nat → Option Nat
  user : Nat → Nat → Option Nat

/-- The commands on the hashes. What `HGETALL` finds and `HMSET` writes is a map with at most the field `count`. -/
inductive CounterOp where
  | hincrBy (groupId : Nat)
  | hgetAll (groupId : Nat)
  | hmset (userId groupId : Nat) (mapGroupCount : Option Nat)
  | hgetGroup (groupId : Nat)
  | hgetUser (userId groupId : Nat)
  deriving DecidableEq, Repr

/-- What a command answers, as far as it is looked at. -/
def CounterOp.Reply : CounterOp → Type
  | .hincrBy _ | .hmset .. => Unit
  | .hgetAll _ | .hgetGroup _ | .hgetUser .. => Option Nat

/-- The calls to redis. -/
def counterCalls : Signature := { Op := CounterOp, Reply := CounterOp.Reply }

namespace Counters

/-- No message has been sent. -/
def init : Counters := { group := fun _ => none, user := fun _ _ => none }

/-- The count of a group. -/
def groupCount (c : Counters) (groupId : Nat) : Nat := (c.group groupId).getD 0

/-- The count that a user has read. -/
def userCount (c : Counters) (userId groupId : Nat) : Nat := (c.user userId groupId).getD 0

/-- What redis does. `HMSET` without a field is an error. -/
def serve (c : Counters) : (o : CounterOp) → Counters × o.Reply
  | .hincrBy g => ({ c with group := fun g' => if g' = g then some (c.groupCount g + 1) else c.group g' }, ())
  | .hgetAll g => (c, c.group g)
  | .hmset _ _ none => (c, ())
  | .hmset u g (some n) => ({ c with user := fun u' g' => if u' = u ∧ g' = g then some n else c.user u' g' }, ())
  | .hgetGroup g => (c, c.group g)
  | .hgetUser u g => (c, c.user u g)

end Counters

/-- One command. -/
def redis (o : CounterOp) : Prog counterCalls o.Reply := ask (C := counterCalls) o

/-- `CGroupMessageModel::incMessageCount`. -/
def incMessageCount (userId groupId : Nat) : Prog counterCalls Unit := do
  redis (.hincrBy groupId)
  let mapGroupCount ← redis (.hgetAll groupId)
  redis (.hmset userId groupId mapGroupCount)

/-- `CGroupMessageModel::clearMessageCount`. -/
def clearMessageCount (userId groupId : Nat) : Prog counterCalls Unit := do
  let mapGroupCount ← redis (.hgetAll groupId)
  redis (.hmset userId groupId mapGroupCount)

/-- `CUserModel::clearUserCounter`, of a group. -/
def clearUserCounter (userId peerId : Nat) : Prog counterCalls Unit := do
  let mapGroupCount ← redis (.hgetAll peerId)
  redis (.hmset userId peerId mapGroupCount)

/-- The count that is shown. A user who has read more than was sent keeps the count of the group before. -/
def unreadCount (nCount nGroupCnt nUserCnt : Nat) : Nat := if nUserCnt ≤ nGroupCnt then nGroupCnt - nUserCnt else nCount

/-- `CGroupMessageModel::getUnreadMsgCount`: the groups of a user that have unread messages, and how many. -/
def getUnreadMsgCount (userId : Nat) : Nat → List Nat → Prog counterCalls (List (Nat × Nat))
  | _, [] => pure []
  | nCount, g :: lsGroupId => do
    match ← redis (.hgetGroup g) with
    | none => getUnreadMsgCount userId nCount lsGroupId
    | some nGroupCnt =>
      let nUserCnt ← redis (.hgetUser userId g)
      let nCount := unreadCount nCount nGroupCnt (nUserCnt.getD 0)
      let lsUnreadCount ← getUnreadMsgCount userId nCount lsGroupId
      return if 0 < nCount then (g, nCount) :: lsUnreadCount else lsUnreadCount

/-- What a worker thread may be asked to do. -/
inductive CounterJob where
  | sendMessage (fromId groupId : Nat)
  | clearUserCounter (userId groupId : Nat)
  | getUnreadMsgCount (userId : Nat) (lsGroupId : List Nat)

/-- The commands of a job, once the message is stored. -/
def CounterJob.body : CounterJob → Prog counterCalls Unit
  | .sendMessage fromId groupId => do
    incMessageCount fromId groupId
    clearMessageCount fromId groupId
  | .clearUserCounter userId groupId => DbProxy.clearUserCounter userId groupId
  | .getUnreadMsgCount userId lsGroupId => do
    let _ ← DbProxy.getUnreadMsgCount userId 0 lsGroupId

/-- Redis, and the worker threads. -/
abbrev CounterThreads := Threads counterCalls Counters CounterJob

/-- One command of one thread, or a new job. -/
def counterStep (s : CounterThreads) (e : Sched CounterJob) : Option (CounterThreads × List Empty) :=
  Threads.step Counters.serve CounterJob.body s e

end TeamTalk.DbProxy
