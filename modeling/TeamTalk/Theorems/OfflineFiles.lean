import Mathlib
import TeamTalk.DbProxy.FileModel

/-!
# Notices of offline files

When a `hasOfflineFile` moves on only what it has reported, and no file goes back to the waiting stage. The updates go by the
status of the rows at their own time, not by the rows that the lookups found, and a client's acknowledgement does not look at
the status at all.
-/

namespace TeamTalk.DbProxy.Files

/-! ## The properties -/

/-- No file that is downloaded or deleted goes back to the waiting stage. -/
def NotBack (files files' : List TransmitFile) : Prop :=
  ∀ (id : Nat) (f f' : TransmitFile), files[id]? = some f → files'[id]? = some f' → f.status ∈ [0, 4, 5] → f'.status ≠ 2

/-- Every file that a query has moved on is in the list that it has reported. -/
def MovesReported (q : Query) (files files' : List TransmitFile) : Prop :=
  ∀ (id : Nat) (f f' : TransmitFile), files[id]? = some f → files'[id]? = some f' → f'.status ≠ f.status →
    id ∈ q.reported.map Prod.fst

/-- What is claimed of a step. -/
def Keeps (s : State) (e : Event) (s' : State) : Prop :=
  match e with
  | .query i => NotBack s.files s'.files ∧ ∀ q, s.queries i = some q → MovesReported q s.files s'.files
  | .notifyClientAck _ _ => NotBack s.files s'.files
  | _ => True

/-! ## The condition -/

/-- A query that has looked for the files to download, and has still to move them on, has found this one, should it be one. The
same for the files whose download is to be told. -/
def Seen (q : Query) (id : Nat) (f : TransmitFile) : Prop :=
  (q.stage ∈ [.getHasSentFile, .respond, .update1to2] → f.toId = q.userId → f.status = 1 → id ∈ q.lsOffline.map Prod.fst) ∧
    (q.stage ∈ [.respond, .update1to2, .update4to5] → f.fromId = q.userId → f.status = 4 → id ∈ q.lsSent.map Prod.fst)

/-- The same for every query that is being handled. -/
def SeenByAll (s : State) (id : Nat) (f : TransmitFile) : Prop :=
  ∀ (i : Nat) (q : Query), s.queries i = some q → Seen q id f

/-- The condition on a step. A file is not added, acknowledged or given a status between a lookup that would then have found it
and the update that goes with it; and a client that does not acknowledge a download does not name a file that is downloaded or
deleted. -/
def FilesKeep (same : String → String → Bool) (s : State) : Event → Prop
  | .addOfflineFile req now => SeenByAll s s.files.length (addOfflineFile req now)
  | .notifyClientAck taskId status => ∀ (id : Nat) (f : TransmitFile), s.files[id]? = some f → same f.taskId taskId = true →
      if status = 0 then SeenByAll s id { f with status := 4 } else f.status ∉ [0, 4, 5]
  | .changeFileStatus taskId status => status ≠ 4294967295 → ∀ (id : Nat) (f : TransmitFile), s.files[id]? = some f →
      same f.taskId taskId = true → SeenByAll s id { f with status }
  | _ => True

namespace OfflineFilesAux

/-! ## The invariant -/

/-- Every query has seen what it has still to move on. -/
def Inv (s : State) : Prop := ∀ (id : Nat) (f : TransmitFile), s.files[id]? = some f → SeenByAll s id f

/-- What is neither to be downloaded nor to be told needs no lookup. -/
theorem seen_of_status {q : Query} {id : Nat} {f : TransmitFile} (h1 : f.status ≠ 1) (h4 : f.status ≠ 4) : Seen q id f :=
  ⟨fun _ _ h => absurd h h1, fun _ _ h => absurd h h4⟩

/-- An update keeps the invariant when every query has seen what it changes. -/
theorem inv_setStatus {s : State} (h : Inv s) (which : TransmitFile → Bool) (status : Nat)
    (hseen : ∀ (id : Nat) (f : TransmitFile), s.files[id]? = some f → which f = true → SeenByAll s id { f with status }) :
    Inv { s with files := setStatus s.files which status } := by
  intro id f' hf'
  obtain ⟨f, hf, ⟨-, rfl⟩ | ⟨hwhich, rfl⟩⟩ := setStatus_cases hf'
  · exact h id f' hf
  · exact hseen id f hf hwhich

/-- An update to a status that no lookup asks for keeps it. -/
theorem inv_setStatus_other {s : State} (h : Inv s) (which : TransmitFile → Bool) {status : Nat} (h1 : status ≠ 1)
    (h4 : status ≠ 4) : Inv { s with files := setStatus s.files which status } :=
  inv_setStatus h which status fun _ _ _ _ _ _ _ => seen_of_status h1 h4

/-- A query comes to its next stage, or is done. -/
theorem inv_setQuery {s : State} (h : Inv s) (i : Nat) {q' : Option Query}
    (hq : ∀ q, q' = some q → ∀ (id : Nat) (f : TransmitFile), s.files[id]? = some f → Seen q id f) : Inv (s.setQuery i q') := by
  intro id f hf j q hj
  simp only [State.setQuery] at hj
  split at hj
  · exact hq q hj id f hf
  · exact h id f hf j q hj

/-- An update to a status that is not the waiting one moves nothing back, and neither does one of rows in other stages. -/
theorem notBack_setStatus {files : List TransmitFile} {which : TransmitFile → Bool} {status : Nat}
    (h : ∀ (id : Nat) (f : TransmitFile), files[id]? = some f → which f = true → f.status ∈ [0, 4, 5] → status ≠ 2) :
    NotBack files (setStatus files which status) := by
  intro id f f' hf hf' hstage
  obtain ⟨g, hg, hcases⟩ := setStatus_cases hf'
  rw [hf] at hg
  cases hg
  rcases hcases with ⟨-, rfl⟩ | ⟨hwhich, rfl⟩
  · intro htwo
    simp [htwo] at hstage
  · exact h id f hf hwhich hstage

/-- What an update moves on is what it asks for. -/
theorem movesReported_setStatus {q : Query} {files : List TransmitFile} {which : TransmitFile → Bool} {status : Nat}
    (h : ∀ (id : Nat) (f : TransmitFile), files[id]? = some f → which f = true → id ∈ q.reported.map Prod.fst) :
    MovesReported q files (setStatus files which status) := by
  intro id f f' hf hf' hne
  obtain ⟨g, hg, hcases⟩ := setStatus_cases hf'
  rw [hf] at hg
  cases hg
  rcases hcases with ⟨-, rfl⟩ | ⟨hwhich, rfl⟩
  · exact absurd rfl hne
  · exact h id f hf hwhich

theorem notBack_refl (files : List TransmitFile) : NotBack files files := by
  intro id f f' hf hf' hstage htwo
  rw [hf] at hf'
  cases hf'
  simp [htwo] at hstage

theorem movesReported_refl (q : Query) (files : List TransmitFile) : MovesReported q files files := by
  intro id f f' hf hf' hne
  rw [hf] at hf'
  cases hf'
  exact absurd rfl hne

/-- The list that is reported has the rows of both lookups. -/
theorem mem_reported {q : Query} {id : Nat} :
    id ∈ q.reported.map Prod.fst ↔ id ∈ q.lsOffline.map Prod.fst ∨ id ∈ q.lsSent.map Prod.fst := by
  simp [Query.reported]

/-! ## A step -/

/-- A step of a query keeps the invariant, moves on only what the query has reported, and moves nothing back. -/
theorem inv_hasOfflineFile {s : State} (h : Inv s) {i : Nat} {q : Query} (hq : s.queries i = some q) :
    Inv (hasOfflineFile s i q).1 ∧ NotBack s.files (hasOfflineFile s i q).1.files ∧
      MovesReported q s.files (hasOfflineFile s i q).1.files := by
  unfold hasOfflineFile
  cases hstage : q.stage with
  | getOfflineFile =>
    refine ⟨inv_setQuery h i ?_, notBack_refl _, movesReported_refl _ _⟩
    intro q' hq' id f hf
    cases hq'
    refine ⟨fun _ hto hone => mem_getOfflineFile.2 ⟨f, hf, hto, hone⟩, ?_⟩
    intro hmem
    simp at hmem
  | getHasSentFile =>
    refine ⟨inv_setQuery h i ?_, notBack_refl _, movesReported_refl _ _⟩
    intro q' hq' id f hf
    cases hq'
    refine ⟨fun _ => (h id f hf i q hq).1 (by simp [hstage]), ?_⟩
    exact fun _ hfrom hfour => mem_getHasSentFile.2 ⟨f, hf, hfrom, hfour⟩
  | respond =>
    refine ⟨inv_setQuery h i ?_, notBack_refl _, movesReported_refl _ _⟩
    intro q' hq' id f hf
    cases hq'
    exact ⟨fun _ => (h id f hf i q hq).1 (by simp [hstage]), fun _ => (h id f hf i q hq).2 (by simp [hstage])⟩
  | update1to2 =>
    refine ⟨inv_setQuery (inv_setStatus_other h _ (by decide) (by decide)) i ?_, notBack_setStatus ?_, movesReported_setStatus ?_⟩
    · intro q' hq' id f hf
      cases hq'
      refine ⟨fun hmem => ?_, fun _ hfrom hfour => ?_⟩
      · simp at hmem
      · exact (inv_setStatus_other h _ (by decide) (by decide) id f hf i q hq).2 (by simp [hstage]) hfrom hfour
    · intro id f _ hwhich hstage'
      simp only [Bool.and_eq_true, decide_eq_true_eq] at hwhich
      simp [hwhich.2] at hstage'
    · intro id f hf hwhich
      simp only [Bool.and_eq_true, decide_eq_true_eq] at hwhich
      exact mem_reported.2 (.inl ((h id f hf i q hq).1 (by simp [hstage]) hwhich.1 hwhich.2))
  | update4to5 =>
    refine ⟨inv_setQuery (inv_setStatus_other h _ (by decide) (by decide)) i (by simp), notBack_setStatus ?_,
      movesReported_setStatus ?_⟩
    · intro _ _ _ _ _
      decide
    · intro id f hf hwhich
      simp only [Bool.and_eq_true, decide_eq_true_eq] at hwhich
      exact mem_reported.2 (.inr ((h id f hf i q hq).2 (by simp [hstage]) hwhich.1 hwhich.2))

theorem inv_start (files : List TransmitFile) : Inv (start files) := by
  intro id f _ i q hq
  simp [start] at hq

section Step

variable {same : String → String → Bool} {s s' : State}

/-- An acknowledgement, or a change of status, under the condition. -/
theorem inv_task (h : Inv s) (taskId : String) {status : Nat}
    (hseen : ∀ (id : Nat) (f : TransmitFile), s.files[id]? = some f → same f.taskId taskId = true →
      SeenByAll s id { f with status }) :
    Inv { s with files := setStatus s.files (fun f => same f.taskId taskId) status } :=
  inv_setStatus h _ status hseen

/-- Every step that meets the condition keeps the invariant, and is as claimed. -/
theorem inv_step (h : Inv s) {e : Event} {out : List HasOfflineRsp} (hstep : step same s e = some (s', out))
    (hmeets : FilesKeep same s e) : Inv s' ∧ Keeps s e s' := by
  cases e with
  | addOfflineFile req now =>
    cases hstep
    refine ⟨?_, trivial⟩
    intro id f hf
    rcases Nat.lt_trichotomy id s.files.length with hlt | rfl | hgt
    · rw [List.getElem?_append_left hlt] at hf
      exact h id f hf
    · rw [List.getElem?_concat_length] at hf
      cases hf
      exact hmeets
    · rw [List.getElem?_eq_none (by simp; omega)] at hf
      cases hf
  | delOfflineFile taskId =>
    cases hstep
    exact ⟨inv_setStatus_other h _ (by decide) (by decide), trivial⟩
  | hasOfflineFile i userId attachData =>
    simp only [step] at hstep
    split at hstep
    · cases hstep
      refine ⟨inv_setQuery h i ?_, trivial⟩
      intro q hq id f _
      cases hq
      refine ⟨fun hmem => ?_, fun hmem => ?_⟩
      · simp at hmem
      · simp at hmem
    · cases hstep
  | query i =>
    obtain ⟨q, hq, heq⟩ := Option.map_eq_some_iff.1 hstep
    obtain ⟨hinv, hback, hmoves⟩ := inv_hasOfflineFile h hq
    rw [heq] at hinv hback hmoves
    refine ⟨hinv, hback, ?_⟩
    intro q' hq'
    rw [hq] at hq'
    cases hq'
    exact hmoves
  | notifyClientAck taskId status =>
    cases hstep
    by_cases hzero : status = 0
    · subst hzero
      refine ⟨inv_task h taskId fun id f hf hsame => ?_, notBack_setStatus fun _ _ _ _ _ => by decide⟩
      have := hmeets id f hf hsame
      rwa [if_pos rfl] at this
    · have hack : ackStatus status = 2 := if_neg hzero
      refine ⟨inv_setStatus_other h _ (by simp [hack]) (by simp [hack]), notBack_setStatus fun id f hf hsame hstage => ?_⟩
      have := hmeets id f hf hsame
      rw [if_neg hzero] at this
      exact absurd hstage this
  | changeFileStatus taskId status =>
    cases hstep
    refine ⟨?_, trivial⟩
    unfold changeFileStatus
    split
    · split
      · exact inv_setStatus_other h _ (by decide) (by decide)
      · exact h
    · rename_i hne
      exact inv_task h taskId (hmeets hne)

end Step

end OfflineFilesAux

open OfflineFilesAux

/-! ## Every run -/

/-- In every run whose steps all meet the condition, a query moves on only what it has reported, and neither a query nor an
acknowledgement moves a file that is downloaded or deleted back to the waiting stage. -/
theorem notices_keep (same : String → String → Bool) (files : List TransmitFile) (es : List Event)
    (h : Machine.Along (step same) (fun s e _ => FilesKeep same s e) (start files) es) :
    Machine.Along (step same) Keeps (start files) es := by
  refine Machine.Along.of_invariant (I := Inv) (P := Keeps) (Q := fun s e _ => FilesKeep same s e) ?_ (inv_start files) h
  intro s e s' out hinv hstep hmeets
  exact inv_step hinv hstep hmeets

/-- User 1 has a file for user 2. -/
def fileFor (status : Nat) : TransmitFile := ⟨1, 2, "a", 3, "t", status, 10, 10, "m"⟩

/-- User 2 asks for its files, acknowledges the one there is, and later its download; user 1 asks. -/
theorem notices_keep_asked : Machine.Along (step fun a b => a == b) Keeps (start [fileFor 1])
    [.hasOfflineFile 0 2 [], .query 0, .query 0, .query 0, .query 0, .query 0, .notifyClientAck "t" 1, .notifyClientAck "t" 0,
      .hasOfflineFile 0 1 [], .query 0, .query 0, .query 0, .query 0, .query 0] := by
  refine notices_keep _ _ _
    ⟨trivial, trivial, trivial, trivial, trivial, trivial, ?_, ?_, trivial, trivial, trivial, trivial, trivial, trivial, trivial⟩
  · intro id f hf _
    rcases id with _ | id
    · cases hf
      rw [if_neg (by decide)]
      decide
    · simp [State.setQuery, start] at hf
  · intro id f hf _ i q hq
    by_cases hi : i = 0
    · subst hi
      cases hq
    · simp [State.setQuery, start, hi] at hq

/-- User 1 sends a file to user 2 while user 2's query is under way: it is moved on, and was not reported. -/
theorem not_notices_keep : ¬∀ (same : String → String → Bool) (files : List TransmitFile) (es : List Event),
    Machine.Along (step same) Keeps (start files) es := by
  intro h
  have hrun := h (fun a b => a == b) []
    [.hasOfflineFile 0 2 [], .query 0, .addOfflineFile ⟨1, 2, "t", "a", 3, "m", 1⟩ 10, .query 0, .query 0, .query 0]
  have hmoved := hrun.2.2.2.2.2.1.2 _ rfl 0 (fileFor 1) (fileFor 2) rfl rfl (by decide)
  exact absurd hmoved (by decide)

/-- A client that acknowledges the notice of a deleted file brings the file back. -/
example : clientAckChangeStatus (fun a b => a == b) [fileFor 0] "t" 1 = [fileFor 2] := by decide

end TeamTalk.DbProxy.Files
