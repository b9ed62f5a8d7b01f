import TeamTalk.Msfs.Workers
import TeamTalk.Theorems.Retrieval

/-!
# Uploads of several threads

The path of an upload ends in the time and the id of the thread, cut to 29 characters. Two threads with ids that begin alike can make
the same path at the same time; nothing looks for that before the file is entered in the map, and from then on one URL stands for two
files.
-/

namespace TeamTalk.Msfs.Workers

/-! ## The property -/

/-- The URL of an upload that has succeeded. -/
def Output.uploadedUrl : Output → Option Bytes
  | .uploaded url _ => some url
  | .downloaded _ _ => none

/-- A download that comes after an upload with the URL is answered with its bytes. -/
def Returned (cfg : Config) : Output → Output → Prop
  | .uploaded url content, .downloaded url' response =>
    url = url' → ∃ relate, getRelatePathByUrl url = some relate ∧ response = .ok (downloadHead cfg relate content.length ++ content)
  | _, _ => True

/-- Two uploads that have succeeded have two URLs, and downloads return their bytes. -/
structure UploadsKept (cfg : Config) (log : List Output) : Prop where
  distinct : (log.filterMap Output.uploadedUrl).Nodup
  returned : log.Pairwise (Returned cfg)

/-! ## The condition -/

/-- The first directory of the path. -/
def Naming.firstDir (cfg : Config) (n : Naming) : Bytes := cut 5 (decimal3 (getFirstDir cfg n.firstFiles))

/-- The directory in it. -/
def Naming.secondDir (cfg : Config) (n : Naming) : Bytes := cut 5 (decimal3 (getSecondDir cfg n.secondFiles))

/-- What remains of the id of the thread behind the time. -/
def Naming.tidText (n : Naming) : Bytes := (decimal n.tid).take (28 - (decimal n.usec).length)

/-- The end of the path. -/
def Naming.ending (n : Naming) : Bytes := if n.job.ext = [] then chars "." ++ n.job.type else chars "_" ++ n.job.ext

/-- The same directories, time and end, and ids that begin alike. -/
structure SameName (cfg : Config) (n n' : Naming) : Prop where
  firstDir : n.firstDir cfg = n'.firstDir cfg
  secondDir : n.secondDir cfg = n'.secondDir cfg
  usec : n.usec = n'.usec
  tidText : n.tidText = n'.tidText
  ending : n.ending = n'.ending

/-- The condition on a step: no other thread has made such a name; a file is written as a whole; and nobody downloads a file that is
created and not written, or one for which the map has no room. -/
def Meets (cfg : Config) (s : State) : Event → Prop
  | .stamp tid usec => ∀ job firstFiles secondFiles, s.threads tid = .counted job firstFiles secondFiles →
    ∀ n ∈ s.names, n.tid ≠ tid → ¬SameName cfg { firstFiles, secondFiles, usec, tid, job } n
  | .write tid sized written => ∀ job path, s.threads tid = .created job path →
    ({ created := true, sized, written } : Outcome).contents job.content = job.content
  | .download url =>
    (∀ tid job path, s.threads tid = .created job path → getRelatePathByUrl url ≠ some path) ∧
      ∀ file, Stored s.manager url file → file.length < uint32Size / 2 ∧ (s.manager.map.lookup url = none → Keeps s.manager url)
  | _ => True

namespace WorkersAux

open RetrievalAux

variable {cfg : Config} {s s' : State} {log out : List Output} {tid t t' usec firstFiles secondFiles : Nat} {job : Job} {path url content : Bytes}
  {n n' : Naming}

/-! ## Names -/

/-- Two texts whose fronts are of a kind, and that go on with something else. -/
theorem split_while {a a' b b' : Bytes} {p : UInt8 → Bool} (ha : ∀ ch ∈ a, p ch = true) (ha' : ∀ ch ∈ a', p ch = true)
    (hb : b.takeWhile p = []) (hb' : b'.takeWhile p = []) (h : a ++ b = a' ++ b') : a = a' ∧ b = b' := by
  have htake := congrArg (List.takeWhile p) h
  rw [List.takeWhile_append_of_pos ha, List.takeWhile_append_of_pos ha', hb, hb', List.append_nil, List.append_nil] at htake
  subst htake
  exact ⟨rfl, List.append_cancel_left h⟩

/-- The text of a directory holds no slash. -/
theorem dir_noSlash {i : Int} : ∀ ch ∈ cut 5 (decimal3 i), (ch ≠ 47 : Bool) = true := by
  intro ch hch
  have hmem := List.mem_of_mem_take hch
  have hdigit : ∀ {n : Nat}, ch ∈ decimal n → (ch ≠ 47 : Bool) = true := by
    intro n hn
    have hge := (CTextAux.digit_of_mem_decimal hn).1
    refine decide_eq_true ?_
    rintro rfl
    exact absurd hge (by decide)
  have hzero : ∀ {k : Nat}, ch ∈ List.replicate k (48 : UInt8) → (ch ≠ 47 : Bool) = true := by
    intro k hk
    rw [List.eq_of_mem_replicate hk]
    decide
  have hminus : ch ∈ chars "-" → (ch ≠ 47 : Bool) = true := by
    intro hm
    have hlist : chars "-" = [45] := by decide
    rw [hlist, List.mem_singleton] at hm
    rw [hm]
    decide
  unfold decimal3 at hmem
  dsimp only at hmem
  split at hmem
  · rcases List.mem_append.1 hmem with hmem | hmem
    · rcases List.mem_append.1 hmem with hmem | hmem
      · exact hminus hmem
      · exact hzero hmem
    · exact hdigit hmem
  · rcases List.mem_append.1 hmem with hmem | hmem
    · exact hzero hmem
    · exact hdigit hmem

/-- A digit. -/
def isDigit (ch : UInt8) : Bool := 48 ≤ ch && ch ≤ 57

/-- A decimal numeral holds digits only. -/
theorem decimal_digits (k : Nat) : ∀ ch ∈ decimal k, isDigit ch = true := by
  intro ch hch
  have := CTextAux.digit_of_mem_decimal hch
  simp [isDigit, this]

/-- The time and the separator stand before the cut. -/
theorem unique_eq (h : n.usec < 2 ^ 64) :
    cut 30 (decimal n.usec ++ chars "_" ++ decimal n.tid) = decimal n.usec ++ (95 :: n.tidText) := by
  have hlen : (decimal n.usec).length ≤ 20 := by
    rw [decimal, List.length_map, Nat.length_toDigits_le_iff (by decide) (by decide)]
    exact h.trans (by norm_num)
  have hlist : chars "_" = [95] := by decide
  unfold cut Naming.tidText
  rw [hlist, List.append_assoc, List.take_append, List.take_of_length_le (by omega)]
  have hone : 30 - 1 - (decimal n.usec).length = 28 - (decimal n.usec).length + 1 := by omega
  rw [hone]
  rfl

/-- Two numbers have different numerals. -/
theorem decimal_inj {k k' : Nat} (h : decimal k = decimal k') : k = k' := by
  have hatoi := congrArg atoi h
  rw [CTextAux.atoi_decimal, CTextAux.atoi_decimal] at hatoi
  exact Int.ofNat.inj hatoi

/-- The pieces of a name, slashes and all. -/
theorem join_eq (first second time tid ending : Bytes) :
    chars "/" ++ first ++ chars "/" ++ second ++ chars "/" ++ (time ++ (95 :: tid)) ++ ending =
      47 :: (first ++ (47 :: (second ++ (47 :: (time ++ (95 :: (tid ++ ending))))))) := by
  have hslash : chars "/" = [47] := by decide
  rw [hslash]
  simp only [List.append_assoc, List.cons_append, List.nil_append]

/-- A name is its directories, its time and its thread between slashes. -/
theorem path_eq (n : Naming) (h : n.usec < 2 ^ 64) : n.path cfg =
    47 :: (n.firstDir cfg ++ (47 :: (n.secondDir cfg ++ (47 :: (decimal n.usec ++ (95 :: (n.tidText ++ n.ending))))))) := by
  have hpath : n.path cfg = chars "/" ++ n.firstDir cfg ++ chars "/" ++ n.secondDir cfg ++ chars "/" ++
      cut 30 (decimal n.usec ++ chars "_" ++ decimal n.tid) ++ n.ending := rfl
  rw [hpath, unique_eq h]
  exact join_eq _ _ _ _ _

/-- The first directory's name has no slash. -/
theorem firstDir_noSlash (cfg : Config) (n : Naming) : ∀ ch ∈ n.firstDir cfg, (ch ≠ 47 : Bool) = true := by
  unfold Naming.firstDir
  exact dir_noSlash

/-- Nor has the second's. -/
theorem secondDir_noSlash (cfg : Config) (n : Naming) : ∀ ch ∈ n.secondDir cfg, (ch ≠ 47 : Bool) = true := by
  unfold Naming.secondDir
  exact dir_noSlash

/-- Equal paths have the same name. -/
theorem sameName_of_path (h : n.usec < 2 ^ 64) (h' : n'.usec < 2 ^ 64) (heq : n.path cfg = n'.path cfg) : SameName cfg n n' := by
  rw [path_eq n h, path_eq n' h'] at heq
  have hslash : ∀ rest : Bytes, (47 :: rest).takeWhile (fun ch => (ch ≠ 47 : Bool)) = [] := fun rest => rfl
  have hscore : ∀ rest : Bytes, (95 :: rest).takeWhile isDigit = [] := fun rest => rfl
  have hending : ∀ n : Naming, n.ending.takeWhile isDigit = [] := by
    intro n
    have hdot : chars "." = [46] := by decide
    have hlist : chars "_" = [95] := by decide
    unfold Naming.ending
    split
    · rw [hdot]
      rfl
    · rw [hlist]
      rfl
  have htid : ∀ n : Naming, ∀ ch ∈ n.tidText, isDigit ch = true := fun n ch hch => decimal_digits n.tid ch (List.mem_of_mem_take hch)
  obtain ⟨hfirst, heq⟩ := split_while (firstDir_noSlash cfg n) (firstDir_noSlash cfg n') (hslash _) (hslash _) (List.cons.inj heq).2
  obtain ⟨hsecond, heq⟩ := split_while (secondDir_noSlash cfg n) (secondDir_noSlash cfg n') (hslash _) (hslash _) (List.cons.inj heq).2
  obtain ⟨husec, heq⟩ := split_while (decimal_digits _) (decimal_digits _) (hscore _) (hscore _) (List.cons.inj heq).2
  obtain ⟨htidText, hend⟩ := split_while (htid n) (htid n') (hending n) (hending n') (List.cons.inj heq).2
  exact ⟨hfirst, hsecond, decimal_inj husec, htidText, hend⟩

/-- The URL of a name gives the name back. -/
theorem getRelatePathByUrl_path (cfg : Config) (n : Naming) : getRelatePathByUrl (fullUrl (n.path cfg)) = some (n.path cfg) :=
  getRelatePathByUrl_uploadPathOf

/-! ## The invariant -/

/-- The path that a thread works on. -/
def pathOf : Phase → Option Bytes
  | .idle => none
  | .first _ _ => none
  | .counted _ _ _ => none
  | .named _ path => some path
  | .inserted _ path => some path
  | .created _ path => some path
  | .written _ path => some path

/-- An entry of the map that is what the file holds, and will hold. -/
def Settled (s : State) (entry : Bytes × Bytes) : Prop :=
  Stored s.manager entry.1 entry.2 ∧ ∀ t job path, s.threads t = .created job path → getRelatePathByUrl entry.1 ≠ some path

/-- An entry of an upload that has not written its file yet. -/
def Pending (s : State) (entry : Bytes × Bytes) : Prop :=
  ∃ t job path, (s.threads t = .inserted job path ∨ s.threads t = .created job path) ∧ entry = (fullUrl path, job.content)

/-- No two threads work on one path, and none on the path of an upload that has succeeded; what is created is empty, and what is written
is there; the entries of the map are settled or pending; and the property. -/
structure Inv (cfg : Config) (log : List Output) (s : State) : Prop where
  times : ∀ n ∈ s.names, n.usec < 2 ^ 64
  active : ∀ t path, pathOf (s.threads t) = some path → ∃ n ∈ s.names, n.path cfg = path
  unique : ∀ t t' path, pathOf (s.threads t) = some path → pathOf (s.threads t') = some path → t = t'
  created : ∀ t job path, s.threads t = .created job path → s.manager.files path = some []
  written : ∀ t job path, s.threads t = .written job path → s.manager.files path = some job.content
  cached : ∀ entry ∈ s.manager.map, Settled s entry ∨ Pending s entry
  bounded : s.manager.map.length ≤ maxFileInMap
  uploaded : ∀ url content, .uploaded url content ∈ log → ∃ n ∈ s.names, url = fullUrl (n.path cfg) ∧
    s.manager.files (n.path cfg) = some content ∧ ∀ t, pathOf (s.threads t) ≠ some (n.path cfg)
  kept : UploadsKept cfg log

/-- The invariant holds when the server starts. -/
theorem inv_init (files : Bytes → Option Bytes) (fileCnt : Nat) : Inv cfg [] (State.init files fileCnt) := by
  refine ⟨?_, ?_, ?_, ?_, ?_, ?_, Nat.zero_le _, ?_, List.nodup_nil, List.Pairwise.nil⟩
  · intro n hn
    cases hn
  · intro t path hpath
    cases hpath
  · intro t t' path hpath
    cases hpath
  · intro t job path hphase
    cases hphase
  · intro t job path hphase
    cases hphase
  · intro entry hentry
    cases hentry
  · intro url content hmem
    cases hmem

/-! ## The steps of an upload -/

/-- A thread that goes on leaves the file manager alone. -/
@[simp] theorem goOn_manager (s : State) (tid : Nat) (phase : Phase) : (s.goOn tid phase).manager = s.manager := rfl

/-- And the names that were made. -/
@[simp] theorem goOn_names (s : State) (tid : Nat) (phase : Phase) : (s.goOn tid phase).names = s.names := rfl

/-- It is in the phase it went on to. -/
theorem goOn_self (s : State) (tid : Nat) (phase : Phase) : (s.goOn tid phase).threads tid = phase := if_pos rfl

/-- The other threads stay where they were. -/
theorem goOn_of_ne {phase : Phase} (h : t ≠ tid) : (s.goOn tid phase).threads t = s.threads t := if_neg h

/-- The paths of the threads after one has gone on. -/
theorem pathOf_goOn {phase : Phase} (h : pathOf ((s.goOn tid phase).threads t) = some path) :
    t = tid ∧ pathOf phase = some path ∨ t ≠ tid ∧ pathOf (s.threads t) = some path := by
  by_cases heq : t = tid
  · subst heq
    rw [goOn_self] at h
    exact .inl ⟨rfl, h⟩
  · rw [goOn_of_ne heq] at h
    exact .inr ⟨heq, h⟩

/-- A thread that goes on keeps its path, or lets go of it. -/
theorem inv_paths {phase : Phase} (h : Inv cfg log s) (hphase : ∀ path, pathOf phase = some path → pathOf (s.threads tid) = some path) :
    (∀ t path, pathOf ((s.goOn tid phase).threads t) = some path → pathOf (s.threads t) = some path) ∧
      (∀ t path, pathOf ((s.goOn tid phase).threads t) = some path → ∃ n ∈ s.names, n.path cfg = path) ∧
      ∀ t t' path, pathOf ((s.goOn tid phase).threads t) = some path → pathOf ((s.goOn tid phase).threads t') = some path → t = t' := by
  have hold : ∀ t path, pathOf ((s.goOn tid phase).threads t) = some path → pathOf (s.threads t) = some path := by
    intro t path hpath
    rcases pathOf_goOn hpath with ⟨heq, hkept⟩ | ⟨-, hkept⟩
    · exact heq ▸ hphase path hkept
    · exact hkept
  exact ⟨hold, fun t path hpath => h.active t path (hold t path hpath),
    fun t t' path hpath hpath' => h.unique t t' path (hold t path hpath) (hold t' path hpath')⟩

/-- A thread that has no entry and no file yet goes on to where it still has none. -/
theorem inv_goOn {phase : Phase} (h : Inv cfg log s)
    (hphase : ∀ path, pathOf phase = some path → pathOf (s.threads tid) = some path)
    (hbefore : ∀ job path, s.threads tid ≠ .inserted job path ∧ s.threads tid ≠ .created job path)
    (hafter : ∀ job path, phase ≠ .created job path ∧ phase ≠ .written job path) : Inv cfg log (s.goOn tid phase) := by
  obtain ⟨hold, hactive, hunique⟩ := inv_paths h hphase
  have hsame : ∀ {t job path}, (s.goOn tid phase).threads t = .created job path → s.threads t = .created job path := by
    intro t job path ht
    by_cases heq : t = tid
    · subst heq
      rw [goOn_self] at ht
      exact absurd ht (hafter job path).1
    · rwa [goOn_of_ne heq] at ht
  refine ⟨h.times, hactive, hunique, fun t job path ht => h.created t job path (hsame ht), fun t job path ht => ?_, fun entry hentry => ?_,
    h.bounded, fun url content hmem => ?_, h.kept⟩
  · by_cases heq : t = tid
    · subst heq
      rw [goOn_self] at ht
      exact absurd ht (hafter job path).2
    · rw [goOn_of_ne heq] at ht
      exact h.written t job path ht
  · rcases h.cached entry hentry with ⟨hstored, hfree⟩ | ⟨t, job, path, ht, heq⟩
    · exact .inl ⟨hstored, fun t job path ht => hfree t job path (hsame ht)⟩
    · refine .inr ⟨t, job, path, ?_, heq⟩
      have hne : t ≠ tid := by
        rintro rfl
        rcases ht with ht | ht
        · exact (hbefore job path).1 ht
        · exact (hbefore job path).2 ht
      rw [goOn_of_ne hne]
      exact ht
  · obtain ⟨n, hn, hurl, hfile, hfree⟩ := h.uploaded url content hmem
    exact ⟨n, hn, hurl, hfile, fun t ht => hfree t (hold t _ ht)⟩

/-- A path that nobody has made is one that nobody works on. -/
theorem inv_stamp (h : Inv cfg log s) (hphase : s.threads tid = .counted job firstFiles secondFiles)
    (hmeets : ∀ n ∈ s.names, n.tid ≠ tid → ¬SameName cfg { firstFiles, secondFiles, usec, tid, job } n)
    (hstep : s.stamp cfg tid usec job firstFiles secondFiles = some s') : Inv cfg log s' := by
  unfold State.stamp at hstep
  split at hstep
  next hclock =>
    cases hstep
    obtain ⟨hlt, -, hlater⟩ := hclock
    let name : Naming := { firstFiles, secondFiles, usec, tid, job }
    -- the name is a new one
    have hnew : ∀ n ∈ s.names, n.path cfg ≠ name.path cfg := by
      intro n hn heq
      have hsame := sameName_of_path (n := name) hlt (h.times n hn) heq.symm
      by_cases htid : n.tid = tid
      · have hearlier := hlater n hn htid
        have husec : usec = n.usec := hsame.usec
        omega
      · exact hmeets n hn htid hsame
    have hfree : ∀ t, pathOf (s.threads t) ≠ some (name.path cfg) := by
      intro t ht
      obtain ⟨n, hn, heq⟩ := h.active t _ ht
      exact hnew n hn heq
    have hcounted : ∀ t path, pathOf ((s.goOn tid (.named job (name.path cfg))).threads t) = some path →
        path = name.path cfg ∧ t = tid ∨ pathOf (s.threads t) = some path := by
      intro t path hpath
      rcases pathOf_goOn hpath with ⟨heq, hnamed⟩ | ⟨-, hkept⟩
      · exact .inl ⟨(Option.some.inj hnamed).symm, heq⟩
      · exact .inr hkept
    have hsame : ∀ {t job' path}, (s.goOn tid (.named job (name.path cfg))).threads t = .created job' path →
        s.threads t = .created job' path := by
      intro t job' path ht
      by_cases heq : t = tid
      · subst heq
        rw [goOn_self] at ht
        cases ht
      · rwa [goOn_of_ne heq] at ht
    refine ⟨fun n hn => ?_, fun t path hpath => ?_, fun t t' path hpath hpath' => ?_, fun t job' path ht => h.created t job' path (hsame ht),
      fun t job' path ht => ?_, fun entry hentry => ?_, h.bounded, fun url content hmem => ?_, h.kept⟩
    · rcases List.mem_cons.1 hn with rfl | hn
      · exact hlt
      · exact h.times n hn
    · rcases hcounted t path hpath with ⟨rfl, -⟩ | hpath
      · exact ⟨name, List.mem_cons_self, rfl⟩
      · obtain ⟨n, hn, heq⟩ := h.active t path hpath
        exact ⟨n, List.mem_cons_of_mem name hn, heq⟩
    · rcases hcounted t path hpath with ⟨rfl, rfl⟩ | hpath
      · rcases hcounted t' _ hpath' with ⟨-, rfl⟩ | hpath'
        · rfl
        · exact absurd hpath' (hfree t')
      · rcases hcounted t' path hpath' with ⟨rfl, -⟩ | hpath'
        · exact absurd hpath (hfree t)
        · exact h.unique t t' path hpath hpath'
    · by_cases heq : t = tid
      · subst heq
        rw [show (s.goOn t (.named job (name.path cfg))).threads t = _ from goOn_self s t _] at ht
        cases ht
      · rw [show (s.goOn tid (.named job (name.path cfg))).threads t = _ from goOn_of_ne heq] at ht
        exact h.written t job' path ht
    · rcases h.cached entry hentry with ⟨hstored, hfree'⟩ | ⟨t, job', path, ht, heq⟩
      · exact .inl ⟨hstored, fun t job' path ht => hfree' t job' path (hsame ht)⟩
      · refine .inr ⟨t, job', path, ?_, heq⟩
        have hne : t ≠ tid := by
          rintro rfl
          rw [hphase] at ht
          rcases ht with ht | ht <;> cases ht
        have hthread : (s.goOn tid (.named job (name.path cfg))).threads t = s.threads t := goOn_of_ne hne
        rw [← hthread] at ht
        exact ht
    · obtain ⟨n, hn, hurl, hfile, hfree'⟩ := h.uploaded url content hmem
      refine ⟨n, List.mem_cons_of_mem name hn, hurl, hfile, fun t ht => ?_⟩
      rcases hcounted t _ ht with ⟨heq, -⟩ | ht
      · exact hnew n hn heq
      · exact hfree' t ht
  · cases hstep

/-- Who keeps the lock does not matter. -/
theorem inv_holder {holder : Option Nat} (h : Inv cfg log s) : Inv cfg log { s with holder := holder } :=
  ⟨h.times, h.active, h.unique, h.created, h.written, h.cached, h.bounded, h.uploaded, h.kept⟩

/-- A thread begins. -/
theorem inv_first (h : Inv cfg log s) (hphase : s.threads tid = .idle) : Inv cfg log (s.first tid job) := by
  refine inv_holder (inv_goOn h (fun path hpath => by cases hpath) (fun job' path => ?_) (fun job' path => ?_))
  · rw [hphase]
    exact ⟨by simp, by simp⟩
  · exact ⟨by simp, by simp⟩

/-- A thread has both numbers. -/
theorem inv_second (h : Inv cfg log s) (hphase : s.threads tid = .first job firstFiles) : Inv cfg log (s.second tid job firstFiles) := by
  refine inv_holder (inv_goOn h (fun path hpath => by cases hpath) (fun job' path => ?_) (fun job' path => ?_))
  · rw [hphase]
    exact ⟨by simp, by simp⟩
  · exact ⟨by simp, by simp⟩

/-- The phases of a thread that goes on to one that is not `created` or `written`. -/
theorem created_of_goOn {phase : Phase} (hphase : ∀ job path, phase ≠ .created job path)
    (h : (s.goOn tid phase).threads t = .created job path) : t ≠ tid ∧ s.threads t = .created job path := by
  by_cases heq : t = tid
  · subst heq
    rw [goOn_self] at h
    exact absurd h (hphase job path)
  · rw [goOn_of_ne heq] at h
    exact ⟨heq, h⟩

/-- A thread found past its write is another one, unless it went on to there. -/
theorem written_of_goOn {phase : Phase} (hphase : ∀ job path, phase ≠ .written job path)
    (h : (s.goOn tid phase).threads t = .written job path) : t ≠ tid ∧ s.threads t = .written job path := by
  by_cases heq : t = tid
  · subst heq
    rw [goOn_self] at h
    exact absurd h (hphase job path)
  · rw [goOn_of_ne heq] at h
    exact ⟨heq, h⟩

/-- Entering an upload into the cache makes no name. -/
@[simp] theorem insert_names (s : State) (tid : Nat) (job : Job) (path : Bytes) : (s.insert tid job path).names = s.names := by
  unfold State.insert
  generalize updateMapCache _ = map
  rfl

/-- It moves its own thread on. -/
@[simp] theorem insert_threads (s : State) (tid : Nat) (job : Job) (path : Bytes) :
    (s.insert tid job path).threads = (s.goOn tid (.inserted job path)).threads := by
  unfold State.insert
  generalize updateMapCache _ = map
  rfl

/-- And changes the file manager's map only. -/
theorem insert_manager (s : State) (tid : Nat) (job : Job) (path : Bytes) : (s.insert tid job path).manager =
    { s.manager with map := updateMapCache (insertEntry s.manager.map (fullUrl path) job.content) } := rfl

/-- The files stay as they are. -/
@[simp] theorem insert_files (s : State) (tid : Nat) (job : Job) (path : Bytes) :
    (s.insert tid job path).manager.files = s.manager.files := by
  rw [insert_manager]

/-- The map gains the upload's entry. -/
theorem insert_map (s : State) (tid : Nat) (job : Job) (path : Bytes) :
    (s.insert tid job path).manager.map = updateMapCache (insertEntry s.manager.map (fullUrl path) job.content) := by
  rw [insert_manager]

/-- The entry of a thread that has not written its file yet. -/
theorem inv_insert (h : Inv cfg log s) (hphase : s.threads tid = .named job path) : Inv cfg log (s.insert tid job path) := by
  have hkeep : ∀ path', pathOf (.inserted job path) = some path' → pathOf (s.threads tid) = some path' := by
    intro path' hpath
    rw [hphase]
    exact hpath
  obtain ⟨hold, hactive, hunique⟩ := inv_paths h hkeep
  have hcreated : ∀ {t job' path'}, (s.goOn tid (.inserted job path)).threads t = .created job' path' → s.threads t = .created job' path' :=
    fun ht => (created_of_goOn (by simp) ht).2
  refine ⟨?_, ?_, ?_, ?_, ?_, ?_, ?_, ?_, h.kept⟩
  · rw [insert_names]
    exact h.times
  · rw [insert_threads, insert_names]
    exact hactive
  · rw [insert_threads]
    exact hunique
  · rw [insert_threads, insert_files]
    exact fun t job' path' ht => h.created t job' path' (hcreated ht)
  · rw [insert_threads, insert_files]
    exact fun t job' path' ht => h.written t job' path' (written_of_goOn (by simp) ht).2
  · intro entry hentry
    rw [insert_map] at hentry
    unfold Settled Pending Stored
    rw [insert_threads, insert_files]
    rcases mem_insertEntry (mem_updateMapCache hentry) with rfl | hentry
    · exact .inr ⟨tid, job, path, .inl (goOn_self s tid _), rfl⟩
    · rcases h.cached entry hentry with ⟨hstored, hfree⟩ | ⟨t, job', path', ht, heq⟩
      · exact .inl ⟨hstored, fun t job' path' ht => hfree t job' path' (hcreated ht)⟩
      · refine .inr ⟨t, job', path', ?_, heq⟩
        have hne : t ≠ tid := by
          rintro rfl
          rw [hphase] at ht
          rcases ht with ht | ht <;> cases ht
        rw [goOn_of_ne hne]
        exact ht
  · rw [insert_map]
    exact length_updateMapCache
  · rw [insert_threads, insert_names, insert_files]
    intro url content hmem
    obtain ⟨n, hn, hurl, hfile, hfree⟩ := h.uploaded url content hmem
    exact ⟨n, hn, hurl, hfile, fun t ht => hfree t (hold t _ ht)⟩

/-- A stored file is found. -/
@[simp] theorem store_self (m : Msfs.State) (path content : Bytes) : (m.store path content).files path = some content := if_pos rfl

/-- The other files stay. -/
theorem store_of_ne (m : Msfs.State) {path path' : Bytes} (content : Bytes) (h : path' ≠ path) :
    (m.store path content).files path' = m.files path' := if_neg h

/-- And the map does not change. -/
@[simp] theorem store_map (m : Msfs.State) (path content : Bytes) : (m.store path content).map = m.map := rfl

/-- A thread that works on a path stores what the file holds then. No other path changes. -/
theorem inv_store {phase : Phase} (h : Inv cfg log s) (hpath : pathOf (s.threads tid) = some path) (hphase : pathOf phase = some path)
    (hcreated : ∀ job path', phase = .created job path' → content = [])
    (hwritten : ∀ job path', phase = .written job path' → content = job.content)
    (hcached : ∀ entry ∈ s.manager.map,
      Settled { s.goOn tid phase with manager := s.manager.store path content } entry ∨
        Pending { s.goOn tid phase with manager := s.manager.store path content } entry) :
    Inv cfg log { s.goOn tid phase with manager := s.manager.store path content } := by
  have hkeep : ∀ path', pathOf phase = some path' → pathOf (s.threads tid) = some path' := by
    intro path' hpath'
    rw [hpath, ← hphase, hpath']
  obtain ⟨hold, hactive, hunique⟩ := inv_paths h hkeep
  -- the other threads work on other paths
  have hother : ∀ {t path'}, t ≠ tid → pathOf (s.threads t) = some path' → path' ≠ path := by
    rintro t path' hne ht rfl
    exact hne (h.unique t tid path' ht hpath)
  refine ⟨h.times, hactive, hunique, fun t job path' ht => ?_, fun t job path' ht => ?_, hcached, h.bounded, fun url content' hmem => ?_,
    h.kept⟩
  · by_cases heq : t = tid
    · subst heq
      rw [show (s.goOn t phase).threads t = phase from goOn_self s t phase] at ht
      have hsame : path' = path := by
        rw [ht] at hphase
        exact Option.some.inj hphase
      rw [hsame, store_self, hcreated job path' ht]
    · rw [show (s.goOn tid phase).threads t = _ from goOn_of_ne heq] at ht
      rw [store_of_ne _ _ (hother heq (by rw [ht]; rfl))]
      exact h.created t job path' ht
  · by_cases heq : t = tid
    · subst heq
      rw [show (s.goOn t phase).threads t = phase from goOn_self s t phase] at ht
      have hsame : path' = path := by
        rw [ht] at hphase
        exact Option.some.inj hphase
      rw [hsame, store_self, hwritten job path' ht]
    · rw [show (s.goOn tid phase).threads t = _ from goOn_of_ne heq] at ht
      rw [store_of_ne _ _ (hother heq (by rw [ht]; rfl))]
      exact h.written t job path' ht
  · obtain ⟨n, hn, hurl, hfile, hfree⟩ := h.uploaded url content' hmem
    refine ⟨n, hn, hurl, ?_, fun t ht => hfree t (hold t _ ht)⟩
    have hne : n.path cfg ≠ path := by
      rintro heq
      exact hfree tid (heq ▸ hpath)
    rw [store_of_ne _ _ hne]
    exact hfile

/-- The invariant is kept when a file is created. -/
theorem inv_create {created : Bool} (h : Inv cfg log s) (hphase : s.threads tid = .inserted job path) :
    Inv cfg log (s.create tid job path created) := by
  unfold State.create
  split
  next hnew =>
    refine inv_store h (by rw [hphase]; rfl) rfl (fun _ _ _ => rfl) (fun _ _ ht => by cases ht) fun entry hentry => ?_
    rcases h.cached entry hentry with ⟨⟨relate, hrelate, hfile⟩, hfree⟩ | ⟨t, job', path', ht, heq⟩
    · -- no entry is about the path, since there was no such file
      have hne : relate ≠ path := by
        rintro rfl
        rw [hnew.2] at hfile
        cases hfile
      refine .inl ⟨⟨relate, hrelate, ?_⟩, fun t job' path' ht hpath => ?_⟩
      · rw [store_of_ne _ _ hne]
        exact hfile
      · by_cases hself : t = tid
        · subst hself
          rw [show (s.goOn t (.created job path)).threads t = _ from goOn_self s t _] at ht
          cases ht
          rw [hrelate] at hpath
          exact hne (Option.some.inj hpath)
        · rw [show (s.goOn tid (.created job path)).threads t = _ from goOn_of_ne hself] at ht
          exact hfree t job' path' ht hpath
    · by_cases hself : t = tid
      · subst hself
        rw [hphase] at ht
        rcases ht with ht | ht
        · cases ht
          exact .inr ⟨t, job, path, .inr (goOn_self s t _), heq⟩
        · cases ht
      · refine .inr ⟨t, job', path', ?_, heq⟩
        rw [show (s.goOn tid (.created job path)).threads t = _ from goOn_of_ne hself]
        exact ht
  · exact ⟨h.times, h.active, h.unique, h.created, h.written, h.cached, h.bounded, h.uploaded, h.kept⟩

/-- What is written is what was uploaded: the entry of the thread is settled from then on. -/
theorem inv_write {sized : Bool} {written : Nat} (h : Inv cfg log s) (hphase : s.threads tid = .created job path)
    (hwhole : ({ created := true, sized, written } : Outcome).contents job.content = job.content) :
    Inv cfg log (s.write tid job path sized written) := by
  have hpath : pathOf (s.threads tid) = some path := by
    rw [hphase]
    rfl
  have hrelate : getRelatePathByUrl (fullUrl path) = some path := by
    obtain ⟨n, -, rfl⟩ := h.active tid path hpath
    exact getRelatePathByUrl_path cfg n
  have hcreated : ∀ {t job' path'}, (s.goOn tid (.written job path)).threads t = .created job' path' →
      t ≠ tid ∧ s.threads t = .created job' path' := fun ht => created_of_goOn (by simp) ht
  unfold State.write
  rw [hwhole]
  refine inv_store h hpath rfl (fun _ _ ht => by cases ht) (fun job' path' ht => ?_) fun entry hentry => ?_
  · cases ht
    rfl
  · rcases h.cached entry hentry with ⟨⟨relate, hstored, hfile⟩, hfree⟩ | ⟨t, job', path', ht, heq⟩
    · have hne : relate ≠ path := by
        rintro rfl
        exact hfree tid job relate hphase hstored
      refine .inl ⟨⟨relate, hstored, ?_⟩, fun t job' path' ht => hfree t job' path' (hcreated ht).2⟩
      rw [store_of_ne _ _ hne]
      exact hfile
    · by_cases hself : t = tid
      · subst hself
        rw [hphase] at ht
        rcases ht with ht | ht
        · cases ht
        · cases ht
          subst heq
          refine .inl ⟨⟨path, hrelate, store_self _ _ _⟩, fun t' job' path' ht' hsame => ?_⟩
          obtain ⟨hne, ht'⟩ := hcreated ht'
          rw [hrelate] at hsame
          refine hne (h.unique t' t path ?_ hpath)
          rw [ht', Option.some.inj hsame]
          rfl
      · refine .inr ⟨t, job', path', ?_, heq⟩
        rw [show (s.goOn tid (.written job path)).threads t = _ from goOn_of_ne hself]
        exact ht

/-- An upload has succeeded: no other thread works on its path, and none of those before had it. -/
theorem inv_finish (h : Inv cfg log s) (hphase : s.threads tid = .written job path) :
    Inv cfg (log ++ (s.finish tid job path).2) (s.finish tid job path).1 := by
  have hpath : pathOf (s.threads tid) = some path := by
    rw [hphase]
    rfl
  have hidle : Inv cfg log (s.goOn tid .idle) := by
    refine inv_goOn h (fun path' hpath' => by cases hpath') (fun job' path' => ?_) (fun _ _ => ⟨by simp, by simp⟩)
    rw [hphase]
    exact ⟨by simp, by simp⟩
  obtain ⟨n, hn, hname⟩ := h.active tid path hpath
  have hfree : ∀ t, pathOf ((s.goOn tid .idle).threads t) ≠ some path := by
    intro t ht
    rcases pathOf_goOn ht with ⟨-, hnone⟩ | ⟨hne, hother⟩
    · cases hnone
    · exact hne (h.unique t tid path hother hpath)
  have huploaded : ∀ url content, .uploaded url content ∈ log ++ [.uploaded (fullUrl path) job.content] →
      ∃ n ∈ s.names, url = fullUrl (n.path cfg) ∧ s.manager.files (n.path cfg) = some content ∧
        ∀ t, pathOf ((s.goOn tid .idle).threads t) ≠ some (n.path cfg) := by
    intro url content hmem
    rcases List.mem_append.1 hmem with hmem | hmem
    · exact hidle.uploaded url content hmem
    · cases List.mem_singleton.1 hmem
      exact ⟨n, hn, by rw [hname], by rw [hname]; exact h.written tid job path hphase, by rw [hname]; exact hfree⟩
  have hdistinct : ((log ++ [Output.uploaded (fullUrl path) job.content]).filterMap Output.uploadedUrl).Nodup := by
    have hsingle : [Output.uploaded (fullUrl path) job.content].filterMap Output.uploadedUrl = [fullUrl path] := rfl
    rw [List.filterMap_append, hsingle]
    refine List.nodup_append.2 ⟨h.kept.distinct, List.nodup_singleton _, ?_⟩
    intro url hurl url' hurl' heq
    rw [List.mem_singleton.1 hurl'] at heq
    obtain ⟨o, ho, hsome⟩ := List.mem_filterMap.1 hurl
    cases o with
    | downloaded => cases hsome
    | uploaded url content =>
      cases hsome
      obtain ⟨n', hn', hurl', -, hfree'⟩ := h.uploaded url content ho
      -- the text of the URL ends in the path
      have hrelate := getRelatePathByUrl_path cfg n
      rw [hname, ← heq, hurl', getRelatePathByUrl_path] at hrelate
      exact hfree' tid (by rw [hpath, Option.some.inj hrelate])
  refine ⟨hidle.times, hidle.active, hidle.unique, hidle.created, hidle.written, hidle.cached, hidle.bounded, huploaded, hdistinct, ?_⟩
  refine List.pairwise_append.2 ⟨h.kept.returned, List.pairwise_singleton _ _, ?_⟩
  intro out _ last hlast
  rw [List.mem_singleton.1 hlast]
  cases out <;> trivial

/-! ## Downloads -/

/-- Nothing but the map changes, and what is in it is settled or pending. -/
theorem inv_map {manager : Msfs.State} (h : Inv cfg log s) (hfiles : manager.files = s.manager.files)
    (hcached : ∀ entry ∈ manager.map, Settled s entry ∨ Pending s entry) (hlen : manager.map.length ≤ maxFileInMap) :
    Inv cfg log { s with manager := manager } := by
  refine ⟨h.times, h.active, h.unique, ?_, ?_, ?_, hlen, ?_, h.kept⟩
  · dsimp only
    rw [hfiles]
    exact h.created
  · dsimp only
    rw [hfiles]
    exact h.written
  · unfold Settled Pending Stored at hcached ⊢
    dsimp only
    rw [hfiles]
    exact hcached
  · dsimp only
    rw [hfiles]
    exact h.uploaded

/-- A download is answered. -/
theorem inv_answered {response : Exec Bytes} (h : Inv cfg log s)
    (hreturns : ∀ content, .uploaded url content ∈ log →
      ∃ relate, getRelatePathByUrl url = some relate ∧ response = .ok (downloadHead cfg relate content.length ++ content)) :
    Inv cfg (log ++ [.downloaded url response]) s := by
  have hold : ∀ {url' content}, Output.uploaded url' content ∈ log ++ [.downloaded url response] → .uploaded url' content ∈ log := by
    intro url' content hmem
    simpa using hmem
  refine ⟨h.times, h.active, h.unique, h.created, h.written, h.cached, h.bounded,
    fun url' content hmem => h.uploaded url' content (hold hmem), ?_, ?_⟩
  · have hnone : [Output.downloaded url response].filterMap Output.uploadedUrl = [] := rfl
    rw [List.filterMap_append, hnone, List.append_nil]
    exact h.kept.distinct
  · refine List.pairwise_append.2 ⟨h.kept.returned, List.pairwise_singleton _ _, ?_⟩
    intro out hout last hlast
    rw [List.mem_singleton.1 hlast]
    cases out with
    | uploaded url' content =>
      rintro rfl
      exact hreturns content hout
    | downloaded => trivial

/-- What `getOrCreateEntry` does to the map, and what it finds. -/
theorem getOrCreateEntry_cases {manager : Msfs.State} {found : Option Bytes} (h : Inv cfg log s)
    (hget : s.manager.getOrCreateEntry url = .ok (manager, found))
    (hfree : ∀ t job path, s.threads t = .created job path → getRelatePathByUrl url ≠ some path) :
    manager.files = s.manager.files ∧ (∀ entry ∈ manager.map, Settled s entry ∨ Pending s entry) ∧
      manager.map.length ≤ maxFileInMap := by
  unfold Msfs.State.getOrCreateEntry at hget
  split at hget
  · cases hget
    exact ⟨rfl, h.cached, h.bounded⟩
  · split at hget
    · cases hget
      exact ⟨rfl, h.cached, h.bounded⟩
    next file hfile =>
      dsimp only at hget
      split at hget
      · cases hget
        refine ⟨rfl, fun entry hentry => ?_, ?_⟩
        · dsimp only at hentry
          rcases mem_insertOrdered.1 (mem_updateMapCache hentry) with rfl | hentry
          · obtain ⟨relate, hrelate, hsome⟩ := Option.bind_eq_some_iff.1 hfile
            exact .inl ⟨⟨relate, hrelate, hsome⟩, hfree⟩
          · exact h.cached entry hentry
        · dsimp only
          exact length_updateMapCache
      · cases hget

/-- A download leaves the files alone, and what it puts in the map is what a file holds. -/
theorem onDownload_cases {manager : Msfs.State} {response : Bytes} (h : Inv cfg log s)
    (hdownload : s.manager.onDownload cfg url = .ok (manager, response))
    (hfree : ∀ t job path, s.threads t = .created job path → getRelatePathByUrl url ≠ some path) :
    manager.files = s.manager.files ∧ (∀ entry ∈ manager.map, Settled s entry ∨ Pending s entry) ∧
      manager.map.length ≤ maxFileInMap := by
  have hsame : s.manager.files = s.manager.files ∧ (∀ entry ∈ s.manager.map, Settled s entry ∨ Pending s entry) ∧
      s.manager.map.length ≤ maxFileInMap := ⟨rfl, h.cached, h.bounded⟩
  unfold Msfs.State.onDownload at hdownload
  split at hdownload
  · cases hdownload
    exact hsame
  · split at hdownload
    · cases hdownload
      exact hsame
    · dsimp only at hdownload
      split at hdownload
      · cases hdownload
        exact hsame
      · split at hdownload
        · cases hdownload
        next hget =>
          cases hdownload
          exact getOrCreateEntry_cases h hget hfree
        next hget =>
          split at hdownload
          · cases hdownload
          · cases hdownload
            exact getOrCreateEntry_cases h hget hfree

/-- What an upload has stored is what a download is answered. -/
theorem onDownload_uploaded (h : Inv cfg log s) (hmem : .uploaded url content ∈ log) (hmeets : Meets cfg s (.download url)) :
    ∃ relate, getRelatePathByUrl url = some relate ∧
      ∃ manager, s.manager.onDownload cfg url = .ok (manager, downloadHead cfg relate content.length ++ content) := by
  obtain ⟨n, hn, hurl, hfile, hfree⟩ := h.uploaded url content hmem
  have hrelate := getRelatePathByUrl_path cfg n
  rw [← hurl] at hrelate
  obtain ⟨hsize, hkeeps⟩ := hmeets.2 content ⟨_, hrelate, hfile⟩
  have hint := asInt_eq hsize
  refine ⟨_, hrelate, ?_⟩
  unfold Msfs.State.onDownload
  simp only [hrelate, hfile, hint]
  rw [if_neg (by omega)]
  unfold Msfs.State.getOrCreateEntry
  cases hlookup : s.manager.map.lookup url with
  | some entry =>
    have hentry : entry = content := by
      rcases h.cached (url, entry) (mem_of_lookup hlookup) with ⟨⟨relate, hrelate', hstored⟩, -⟩ | ⟨t, job, path, ht, heq⟩
      · rw [hrelate] at hrelate'
        cases hrelate'
        rw [hfile] at hstored
        exact (Option.some.inj hstored).symm
      · -- nobody works on the path
        have hpath : pathOf (s.threads t) = some path := by
          rcases ht with ht | ht <;> rw [ht] <;> rfl
        obtain ⟨n', -, rfl⟩ := h.active t path hpath
        rw [(Prod.mk.inj heq).1, getRelatePathByUrl_path] at hrelate
        rw [Option.some.inj hrelate] at hpath
        exact absurd hpath (hfree t)
    subst hentry
    exact ⟨s.manager, by simp⟩
  | none =>
    have hin : ((updateMapCache (insertOrdered url content s.manager.map)).lookup url).isSome = true :=
      lookup_updateMapCache (hkeeps hlookup) h.bounded
    exact ⟨{ s.manager with map := updateMapCache (insertOrdered url content s.manager.map) }, by simp [hrelate, hfile, hin]⟩

/-- And when one is downloaded. -/
theorem inv_download (h : Inv cfg log s) (hmeets : Meets cfg s (.download url)) :
    Inv cfg (log ++ (s.download cfg url).2) (s.download cfg url).1 := by
  have hreturns : ∀ content, .uploaded url content ∈ log → ∃ relate, getRelatePathByUrl url = some relate ∧
      ∃ manager, s.manager.onDownload cfg url = .ok (manager, downloadHead cfg relate content.length ++ content) :=
    fun content hmem => onDownload_uploaded h hmem hmeets
  unfold State.download
  split
  next e herror =>
    refine inv_answered h fun content hmem => ?_
    obtain ⟨relate, -, manager, hdownload⟩ := hreturns content hmem
    rw [herror] at hdownload
    cases hdownload
  next manager response hanswer =>
    obtain ⟨hfiles, hcached, hlen⟩ := onDownload_cases h hanswer hmeets.1
    refine inv_answered (inv_map h hfiles hcached hlen) fun content hmem => ?_
    obtain ⟨relate, hrelate, manager', hdownload⟩ := hreturns content hmem
    rw [hanswer] at hdownload
    cases hdownload
    exact ⟨relate, hrelate, rfl⟩

/-- What has been stored can be downloaded, while the map has room. -/
theorem meets_download {relate : Bytes} (h : Inv cfg log s) (hrelate : getRelatePathByUrl url = some relate)
    (hfile : s.manager.files relate = some content) (hne : content ≠ []) (hlen : content.length < uint32Size / 2)
    (hroom : s.manager.map.length < maxFileInMap) : Meets cfg s (.download url) := by
  refine ⟨fun t job path ht heq => ?_, ?_⟩
  · rw [hrelate] at heq
    cases heq
    rw [h.created t job relate ht] at hfile
    exact hne (Option.some.inj hfile).symm
  · rintro file ⟨relate', hrelate', hfile'⟩
    rw [hrelate] at hrelate'
    cases hrelate'
    rw [hfile] at hfile'
    cases hfile'
    exact ⟨hlen, fun _ => .inl hroom⟩

/-! ## The run -/

/-- Every step that meets the condition keeps the invariant. -/
theorem inv_step {e : Event} (h : Inv cfg log s) (hmeets : Meets cfg s e) (hstep : s.step cfg e = some (s', out)) :
    Inv cfg (log ++ out) s' := by
  unfold State.step at hstep
  split at hstep
  · cases e with
    | begin tid job =>
      dsimp only at hstep
      split at hstep
      next hidle =>
        cases hstep
        rw [List.append_nil]
        exact inv_first h hidle.1
      · cases hstep
    | second tid =>
      dsimp only at hstep
      split at hstep
      next job firstFiles hphase =>
        cases hstep
        rw [List.append_nil]
        exact inv_second h hphase
      · cases hstep
    | stamp tid usec =>
      dsimp only at hstep
      split at hstep
      next job firstFiles secondFiles hphase =>
        obtain ⟨s1, hstamp, heq⟩ := Option.map_eq_some_iff.1 hstep
        cases heq
        rw [List.append_nil]
        exact inv_stamp h hphase (hmeets job firstFiles secondFiles hphase) hstamp
      · cases hstep
    | insert tid =>
      dsimp only at hstep
      split at hstep
      next job path hphase hholder =>
        cases hstep
        rw [List.append_nil]
        exact inv_insert h hphase
      · cases hstep
    | create tid created =>
      dsimp only at hstep
      split at hstep
      next job path hphase =>
        cases hstep
        rw [List.append_nil]
        exact inv_create h hphase
      · cases hstep
    | write tid sized written =>
      dsimp only at hstep
      split at hstep
      next job path hphase =>
        cases hstep
        rw [List.append_nil]
        exact inv_write h hphase (hmeets job path hphase)
      · cases hstep
    | finish tid =>
      dsimp only at hstep
      split at hstep
      next job path hphase =>
        cases hstep
        exact inv_finish h hphase
      · cases hstep
    | download url =>
      dsimp only at hstep
      split at hstep
      · have heq := Option.some.inj hstep
        rw [show s' = (s.download cfg url).1 by rw [heq], show out = (s.download cfg url).2 by rw [heq]]
        exact inv_download h hmeets
      · cases hstep
  · cases hstep

end WorkersAux

open WorkersAux

/-- An image of one byte. -/
def image (ch : UInt8) : Job := { type := chars "jpg", ext := [], content := [ch] }

/-- The steps of an upload behind the time. -/
def storeIn (tid : Nat) : List Event := [.insert tid, .create tid true, .write tid true 1, .finish tid]

/-- A thread uploads an image. -/
def imageIn (tid usec : Nat) (ch : UInt8) : List Event := [.begin tid (image ch), .second tid, .stamp tid usec] ++ storeIn tid

/-- One file for each directory, and 254 of them are there. -/
def smallDirs : Config := { disk := chars "./tmp", filesPerDir := 1, filesPerDir_pos := by decide }

/-- What the threads begin with. -/
def start : State := State.init (fun _ => none) 254

/-- The path of the image that thread 2 uploads, and of the one that thread 1 uploads at the same time: the file of thread 2 is counted
between its readings. -/
def paths : Bytes × Bytes := ((Naming.mk 254 254 7 2 (image 89)).path smallDirs, (Naming.mk 254 255 7 1 (image 88)).path smallDirs)

/-- The state after these events. -/
def after (es : List Event) : State := (Machine.steps (State.step smallDirs) start es).elim start Prod.fst

/-- Both threads upload: thread 1 begins while thread 2 is about to count its file, and makes its path after that. -/
def both : List Event :=
  [.begin 2 (image 89), .second 2, .stamp 2 7, .insert 2, .create 2 true, .write 2 true 1, .begin 1 (image 88), .finish 2, .second 1,
    .stamp 1 7] ++ storeIn 1

/-- Two threads that take the time in the same microsecond, with ids that begin alike. The first one enters its image, the second one
stores its own; a third one was done before. -/
def sameNames : List Event :=
  imageIn 1 7 90 ++ [.begin 140737353000000 (image 88), .second 140737353000000, .begin 140737353000001 (image 89),
    .second 140737353000001, .stamp 140737353000000 1700000000000000, .stamp 140737353000001 1700000000000000, .insert 140737353000000] ++
      storeIn 140737353000001

/-- The path that both make. -/
def sharedPath : Bytes := (Naming.mk 43 43 1700000000000000 140737353000001 (image 89)).path tmpDir

end TeamTalk.Msfs.Workers
