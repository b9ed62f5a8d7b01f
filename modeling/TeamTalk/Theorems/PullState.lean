import TeamTalk.FileServer.PullState

/-!
# What `ChangePullState` reports

The documented order of the states of a transfer task, and when the answer of `ChangePullState` tells whether a step of it was
taken. The variable that the role check has set is not reset by the checks behind it, so a login out of order is answered with
success.
-/

namespace TeamTalk.FileServer

/-! ## The documented order -/

/-- The upload has ended, and no failure is noted. A download that was broken off may be begun again. -/
def TransferTaskState.UploadFinished (state : TransferTaskState) : Prop :=
  state = .uploadEnd ∨ state = .waitingDownload ∨ state = .downloading ∨ state = .downloadEnd

instance (state : TransferTaskState) : Decidable state.UploadFinished := inferInstanceAs (Decidable (_ ∨ _))

/-- The steps of the documented order: the task before, the role that logs in, and the task after. -/
inductive Transition : Task → ClientFileRole → Task → Prop where
  | firstSender {t : Task} (online : t.offline = false) (ready : t.state = .ready) :
      Transition t .realtimeSender (t.setState .waitingReceiver)
  | firstRecver {t : Task} (online : t.offline = false) (ready : t.state = .ready) :
      Transition t .realtimeRecver (t.setState .waitingSender)
  | secondRecver {t : Task} (online : t.offline = false) (waiting : t.state = .waitingReceiver) :
      Transition t .realtimeRecver (t.setState .waitingTransfer)
  | secondSender {t : Task} (online : t.offline = false) (waiting : t.state = .waitingSender) :
      Transition t .realtimeSender (t.setState .waitingTransfer)
  | upload {t : Task} (offline : t.offline = true) (ready : t.state = .ready) :
      Transition t .offlineUpload (t.setState .waitingUpload)
  | download {t : Task} (offline : t.offline = true) (finished : t.state.UploadFinished) :
      Transition t .offlineDownload { t with pc := { t.pc with state := .waitingDownload, transferedIdx := 0 } }
  | downloadMobile {t : Task} (offline : t.offline = true) (finished : t.state.UploadFinished) :
      Transition t .offlineDownloadMobile { t with mobile := { t.mobile with state := .waitingDownload } }

/-! ## The properties -/

/-- A user who has the role has taken a step of the documented order, and the time of it is noted. -/
def Performed (d : DatedTask) (userId : Nat) (fileRole : ClientFileRole) (now : Nat) (d' : DatedTask) : Prop :=
  d.task.checkByUserIdAndFileRole userId fileRole = true ∧ Transition d.task fileRole d'.task ∧ d'.createTime = now

/-- What is reported is what was done. -/
structure Reports (d : DatedTask) (userId : Nat) (fileRole : ClientFileRole) (now : Nat) : Prop where
  performed : (d.changePullState userId fileRole now).2 = true ↔
    Performed d userId fileRole now (d.changePullState userId fileRole now).1
  unchanged : (d.changePullState userId fileRole now).2 = false → (d.changePullState userId fileRole now).1 = d

/-- No logins with one role bring a task from its first state to the transfer. -/
def NeverAlone : Prop :=
  ∀ (d : DatedTask) (fileRole : ClientFileRole) (logins : List (Nat × ClientFileRole × Nat)), d.task.state = .ready →
    (∀ login ∈ logins, login.2.1 = fileRole) → (d.changePullStates logins).task.state ≠ .waitingTransfer

/-! ## The condition -/

/-- The states in which a role is expected. -/
def Expected (state : TransferTaskState) : ClientFileRole → Prop
  | .realtimeSender => state = .ready ∨ state = .waitingSender
  | .realtimeRecver => state = .ready ∨ state = .waitingReceiver
  | .offlineUpload => state = .ready
  | .offlineDownload | .offlineDownloadMobile => state.UploadFinished

namespace PullStateAux

variable {d : DatedTask} {userId now : Nat} {fileRole : ClientFileRole}

@[simp] theorem state_setState (t : Task) (state : TransferTaskState) : (t.setState state).state = state := rfl

@[simp] theorem state_waitingDownload (t : Task) :
    Task.state { t with pc := { t.pc with state := .waitingDownload, transferedIdx := 0 } } = .waitingDownload := rfl

@[simp] theorem state_mobile (t : Task) (s : Stream) : Task.state { t with mobile := s } = t.state := rfl

@[simp] theorem task_update (t : Task) (now : Nat) : (DatedTask.update t now).task = t := rfl

/-- Without the role nothing is done, and nothing is reported. -/
theorem changePullState_refused (h : d.task.checkByUserIdAndFileRole userId fileRole = false) :
    d.changePullState userId fileRole now = (d, false) := by
  unfold DatedTask.changePullState DatedTask.changePullStateOffline DatedTask.changePullStateOnline
  simp [h]

/-- With the role every answer is success. -/
theorem changePullState_true (h : d.task.checkByUserIdAndFileRole userId fileRole = true) :
    (d.changePullState userId fileRole now).2 = true := by
  have htask := congrArg Prod.snd (d.changePullState_task userId fileRole now)
  simpa [Task.changePullState, h] using htask

/-- The roles of an offline task. -/
theorem offline_roles (h : d.task.checkByUserIdAndFileRole userId fileRole = true) (ho : d.task.offline = true) :
    fileRole = .offlineUpload ∨ fileRole = .offlineDownload ∨ fileRole = .offlineDownloadMobile := by
  cases fileRole <;> simp [Task.checkByUserIdAndFileRole, ho] at h ⊢

/-- The roles of an online task. -/
theorem online_roles (h : d.task.checkByUserIdAndFileRole userId fileRole = true) (ho : d.task.offline = false) :
    fileRole = .realtimeSender ∨ fileRole = .realtimeRecver := by
  cases fileRole <;> simp [Task.checkByUserIdAndFileRole, ho] at h ⊢

/-- A role that is expected takes its step. -/
theorem performed_of_expected (h : d.task.checkByUserIdAndFileRole userId fileRole = true)
    (he : Expected d.task.state fileRole) :
    Performed d userId fileRole now (d.changePullState userId fileRole now).1 := by
  refine ⟨h, ?_⟩
  cases ho : d.task.offline with
  | true =>
    rw [DatedTask.changePullState, if_pos ho, DatedTask.changePullStateOffline]
    rcases offline_roles h ho with rfl | rfl | rfl
    · have hs : d.task.state = .ready := he
      simp only [h, hs, Bool.not_true, Bool.false_eq_true, if_false, if_true]
      exact ⟨.upload ho hs, rfl⟩
    · have hs : d.task.state ≠ .ready := by rcases he with he | he | he | he <;> simp [he]
      simp only [h, hs, Bool.not_true, Bool.false_eq_true, if_false, if_true]
      exact ⟨.download ho he, rfl⟩
    · have hs : d.task.state ≠ .ready := by rcases he with he | he | he | he <;> simp [he]
      simp only [h, hs, Bool.not_true, Bool.false_eq_true, if_false, if_true, reduceCtorEq]
      exact ⟨.downloadMobile ho he, rfl⟩
  | false =>
    rw [DatedTask.changePullState, if_neg (by simp [ho]), DatedTask.changePullStateOnline]
    rcases online_roles h ho with rfl | rfl
    · rcases he with hs | hs
      · simp only [h, hs, Bool.not_true, Bool.false_eq_true, if_false, if_true, ne_eq, not_true_eq_false, false_and]
        exact ⟨.firstSender ho hs, rfl⟩
      · simp [h, hs, DatedTask.update]
        exact .secondSender ho hs
    · rcases he with hs | hs
      · simp [h, hs, DatedTask.update]
        exact .firstRecver ho hs
      · simp [h, hs, DatedTask.update]
        exact .secondRecver ho hs

/-- The role of a step is expected. -/
theorem expected_of_transition {t t' : Task} (h : Transition t fileRole t') : Expected t.state fileRole := by
  cases h with
  | firstSender online ready => exact .inl ready
  | firstRecver online ready => exact .inl ready
  | secondRecver online waiting => exact .inr waiting
  | secondSender online waiting => exact .inr waiting
  | upload offline ready => exact ready
  | download offline finished => exact finished
  | downloadMobile offline finished => exact finished

/-! ## Logins with one role -/

/-- Where a role alone can bring a task. -/
def Alone (fileRole : ClientFileRole) (state : TransferTaskState) : Prop :=
  state ≠ .waitingTransfer ∧ (fileRole = .realtimeSender → state ≠ .waitingSender) ∧
    (fileRole = .realtimeRecver → state ≠ .waitingReceiver)

/-- One more login with the role. -/
theorem alone_changePullState (h : Alone fileRole d.task.state) :
    Alone fileRole (d.changePullState userId fileRole now).1.task.state := by
  cases hcheck : d.task.checkByUserIdAndFileRole userId fileRole with
  | false =>
    rw [changePullState_refused hcheck]
    exact h
  | true =>
    cases ho : d.task.offline with
    | true =>
      rw [DatedTask.changePullState, if_pos ho, DatedTask.changePullStateOffline]
      rcases offline_roles hcheck ho with rfl | rfl | rfl
      · by_cases hs : d.task.state = .ready
        · simp [hcheck, hs, Alone]
        · simpa [hcheck, hs] using h
      · by_cases hs : d.task.state = .ready
        · simpa [hcheck, hs] using h
        · simp [hcheck, hs, Alone]
      · by_cases hs : d.task.state = .ready
        · simpa [hcheck, hs] using h
        · simpa [hcheck, hs] using h
    | false =>
      obtain ⟨hw, hsender, hrecver⟩ := h
      rw [DatedTask.changePullState, if_neg (by simp [ho]), DatedTask.changePullStateOnline]
      rcases online_roles hcheck ho with rfl | rfl
      · have hs := hsender rfl
        by_cases hready : d.task.state = .ready
        · simp [hcheck, hready, Alone]
        · by_cases hr : d.task.state = .waitingReceiver
          · simp [hcheck, hr, Alone]
          · simpa [hcheck, hready, hr, hs, Alone] using hw
      · have hr := hrecver rfl
        by_cases hready : d.task.state = .ready
        · simp [hcheck, hready, Alone]
        · by_cases hs : d.task.state = .waitingSender
          · simp [hcheck, hs, Alone]
          · simpa [hcheck, hready, hr, hs, Alone] using hw

/-- Any number of logins with the role. -/
theorem alone_changePullStates {logins : List (Nat × ClientFileRole × Nat)} (hrole : ∀ login ∈ logins, login.2.1 = fileRole)
    (h : Alone fileRole d.task.state) : Alone fileRole (d.changePullStates logins).task.state := by
  induction logins generalizing d with
  | nil => exact h
  | cons login logins ih =>
    have hlogin := hrole login List.mem_cons_self
    exact ih (fun l hl => hrole l (List.mem_cons_of_mem login hl)) (hlogin ▸ alone_changePullState (hlogin ▸ h))

/-- Both roles are needed. -/
theorem neverAlone : NeverAlone := by
  intro d fileRole logins hready hrole
  exact (alone_changePullStates hrole ⟨by simp [hready], by simp [hready], by simp [hready]⟩).1

end PullStateAux

open PullStateAux

/-- `ChangePullState` reports what it did exactly when the role is refused, or expected in the state that the task is in; and no
logins with one role alone bring a task to the transfer. -/
theorem reports_iff (d : DatedTask) (userId : Nat) (fileRole : ClientFileRole) (now : Nat) :
    (Reports d userId fileRole now ↔
      (d.task.checkByUserIdAndFileRole userId fileRole = true → Expected d.task.state fileRole)) ∧ NeverAlone := by
  refine ⟨⟨?_, ?_⟩, neverAlone⟩
  · intro h hcheck
    obtain ⟨-, htransition, -⟩ := h.performed.1 (changePullState_true hcheck)
    exact expected_of_transition htransition
  · intro h
    cases hcheck : d.task.checkByUserIdAndFileRole userId fileRole with
    | false =>
      refine ⟨⟨?_, ?_⟩, ?_⟩
      · intro htrue
        rw [changePullState_refused hcheck] at htrue
        cases htrue
      · intro hperformed
        rw [hperformed.1] at hcheck
        cases hcheck
      · intro _
        rw [changePullState_refused hcheck]
    | true =>
      refine ⟨⟨fun _ => performed_of_expected hcheck (h hcheck), fun _ => changePullState_true hcheck⟩, ?_⟩
      intro hfalse
      rw [changePullState_true hcheck] at hfalse
      cases hfalse

/-- The sender of an online file logs in a second time before the receiver has come: success is reported, and nothing was done. -/
theorem not_reports_sender_twice : ¬∀ d userId fileRole now, Reports d userId fileRole now := by
  intro h
  have hreports := h ((DatedTask.mk (Task.new false "a1" 1 2 "a.txt" 5 "") 0).changePullState 1 .realtimeSender 10).1 1
    .realtimeSender 20
  obtain ⟨-, htransition, -⟩ := hreports.performed.1 (by decide)
  rcases expected_of_transition htransition with hstate | hstate
  · exact absurd hstate (by decide)
  · exact absurd hstate (by decide)

end TeamTalk.FileServer
