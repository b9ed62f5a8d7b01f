import TeamTalk.FileServer.TransferTask

/-!
# `ChangePullState`

What a login does to a transfer task, with the time of its last update. In the two functions one variable holds the answer of the
role check first, and the result later: where a later check leaves the block, the result is still that of the first.
-/

namespace TeamTalk.FileServer

/-- A transfer task with `create_time_`, which is set again by every update. -/
structure DatedTask where
  task : Task
  createTime : Nat
  deriving DecidableEq, Repr

namespace DatedTask

/-- A change of the task, and `SetLastUpdateTime`. -/
def update (task : Task) (now : Nat) : DatedTask := { task, createTime := now }

/-- `OnlineTransferTask::ChangePullState`. -/
def changePullStateOnline (d : DatedTask) (userId : Nat) (fileRole : ClientFileRole) (now : Nat) : DatedTask × Bool :=
  let rv := d.task.checkByUserIdAndFileRole userId fileRole
  if !rv then (d, rv)
  else if d.task.state ≠ .ready ∧ d.task.state ≠ .waitingSender ∧ d.task.state ≠ .waitingReceiver then (d, rv)
  else if d.task.state = .ready then
    if fileRole = .realtimeSender then (update (d.task.setState .waitingReceiver) now, true)
    else (update (d.task.setState .waitingSender) now, true)
  else if d.task.state = .waitingReceiver ∧ fileRole ≠ .realtimeRecver then (d, rv)
  else if d.task.state = .waitingSender ∧ fileRole ≠ .realtimeSender then (d, rv)
  else (update (d.task.setState .waitingTransfer) now, true)

/-- `OfflineTransferTask::ChangePullState`. -/
def changePullStateOffline (d : DatedTask) (userId : Nat) (fileRole : ClientFileRole) (now : Nat) : DatedTask × Bool :=
  let rv := d.task.checkByUserIdAndFileRole userId fileRole
  if !rv then (d, rv)
  else if d.task.state = .ready then
    if fileRole = .offlineUpload then (update (d.task.setState .waitingUpload) now, true) else (d, rv)
  else if fileRole = .offlineDownload then
    (update { d.task with pc := { d.task.pc with state := .waitingDownload, transferedIdx := 0 } } now, true)
  else if fileRole = .offlineDownloadMobile then
    (update { d.task with mobile := { d.task.mobile with state := .waitingDownload } } now, true)
  else (d, rv)

/-- `ChangePullState`. -/
def changePullState (d : DatedTask) (userId : Nat) (fileRole : ClientFileRole) (now : Nat) : DatedTask × Bool :=
  if d.task.offline then d.changePullStateOffline userId fileRole now else d.changePullStateOnline userId fileRole now

/-- A number of logins, one after the other. -/
def changePullStates (d : DatedTask) (logins : List (Nat × ClientFileRole × Nat)) : DatedTask :=
  logins.foldl (fun d login => (d.changePullState login.1 login.2.1 login.2.2).1) d

/-- Without the time it is the function that the connections of the server use. -/
theorem changePullState_task (d : DatedTask) (userId : Nat) (fileRole : ClientFileRole) (now : Nat) :
    ((d.changePullState userId fileRole now).1.task, (d.changePullState userId fileRole now).2) =
      d.task.changePullState userId fileRole := by
  unfold changePullState Task.changePullState changePullStateOffline changePullStateOnline
  cases hcheck : d.task.checkByUserIdAndFileRole userId fileRole with
  | false => cases d.task.offline <;> rfl
  | true =>
    cases hoffline : d.task.offline with
    | true =>
      have hrole : fileRole = .offlineUpload ∨ fileRole = .offlineDownload ∨ fileRole = .offlineDownloadMobile := by
        cases fileRole <;> simp [Task.checkByUserIdAndFileRole, hoffline] at hcheck ⊢
      unfold Task.changePullStateOffline
      by_cases hready : d.task.state = .ready
      · rcases hrole with rfl | rfl | rfl <;> simp [hready, update]
      · rcases hrole with rfl | rfl | rfl <;> simp [hready, update]
    | false =>
      have hrole : fileRole = .realtimeSender ∨ fileRole = .realtimeRecver := by
        cases fileRole <;> simp [Task.checkByUserIdAndFileRole, hoffline] at hcheck ⊢
      unfold Task.changePullStateOnline
      cases hstate : d.task.state <;> rcases hrole with rfl | rfl <;> simp [update]

end DatedTask

end TeamTalk.FileServer
