import TeamTalk.FileServer.OfflinePaths

/-!
# Offline files stay in their directory

A task id goes into a path as a client sent it. The paths of ids that the server has made stay inside the directory; those of other
ids do as long as their parts never climb out of it.
-/

namespace TeamTalk.FileServer.OfflinePaths

/-! ## The property -/

/-- The parts of a path between its slashes. -/
def components : Bytes → List Bytes
  | [] => [[]]
  | ch :: rest =>
    if ch = slash then [] :: components rest
    else
      match components rest with
      | [] => [[ch]]
      | part :: parts => (ch :: part) :: parts

/-- How deep below a directory the parts lead, or that they lead out of it. -/
def climb : Nat → List Bytes → Option Nat
  | depth, [] => some depth
  | depth, part :: parts =>
    if part = [] ∨ part = [dot] then climb depth parts
    else if part = [dot, dot] then if depth = 0 then none else climb (depth - 1) parts
    else climb (depth + 1) parts

/-- The path goes on from the directory and never leaves it. -/
def Inside (dir path : Bytes) : Prop := ∃ rest, path = dir ++ [slash] ++ rest ∧ (climb 0 (components rest)).isSome = true

/-- Every path is inside the directory, and no buffer is overrun. -/
def Confined (dir : Bytes) (accesses : List Access) : Prop :=
  ∀ access ∈ accesses, ∃ path, access.path = some path ∧ Inside dir path

/-! ## The condition -/

/-- The part climbs. -/
def isUp (part : Bytes) : Bool := part == [dot, dot]

/-- The part names something. -/
def isName (part : Bytes) : Bool := part != [] && part != [dot] && part != [dot, dot]

/-- The first two characters name a directory. -/
def startNames (id : Bytes) : Bool := (cString (id.take 2)).any fun ch => ch != dot && ch != slash

/-- The first two characters do not climb, and no beginning of the id has more parts that climb than parts that name something, where
the first two characters count too. -/
def StaysInside (id : Bytes) : Prop :=
  cString (id.take 2) ≠ [dot, dot] ∧ ∀ k : Nat, ((components (cString id)).take k).countP isUp ≤
    (if startNames id then 1 else 0) + ((components (cString id)).take k).countP isName

/-- An id whose path the system takes stays inside. -/
def Stays (dir id : Bytes) : Prop := 2 ≤ id.length → Takes (pathOf dir id) → StaysInside id

/-- The condition on an id that a client sends: the server has made it; or it stays inside, and so does the id in the header of the
file it names. -/
def Safe (dir : Bytes) (known : (id : Bytes) → Option (Known id)) (header : Bytes → Option Bytes) (id : Bytes) : Prop :=
  match known id with
  | some (.made _ _) => True
  | some (.loaded stored) => Stays dir stored
  | none => Stays dir id ∧ ∀ stored, loadedId dir header id = some stored → Stays dir stored

namespace ConfinementAux

variable {dir id path : Bytes} {parts parts' : List Bytes} {depth : Nat}

/-! ## Parts -/

theorem components_ne_nil (path : Bytes) : components path ≠ [] := by
  cases path with
  | nil => simp [components]
  | cons ch rest =>
    unfold components
    split
    · simp
    · split <;> simp

theorem components_cons (ch : UInt8) (rest : Bytes) : components (ch :: rest) =
    if ch = slash then [] :: components rest
    else match components rest with
      | [] => [[ch]]
      | part :: parts => (ch :: part) :: parts := rfl

theorem components_append_slash (before after : Bytes) :
    components (before ++ [slash] ++ after) = components before ++ components after := by
  induction before with
  | nil => simp [components]
  | cons ch rest ih =>
    rw [List.cons_append, List.cons_append, components_cons, components_cons ch rest, ih]
    split
    · rfl
    · cases hrest : components rest with
      | nil => exact absurd hrest (components_ne_nil rest)
      | cons part parts => rfl

/-- A text without slashes is one part. -/
theorem components_of_not_mem (h : slash ∉ path) : components path = [path] := by
  induction path with
  | nil => rfl
  | cons ch rest ih =>
    rw [List.mem_cons, not_or] at h
    rw [components, if_neg (Ne.symm h.1), ih h.2]

/-- What one part does to the depth. -/
theorem climb_cons (part : Bytes) : climb depth (part :: parts) =
    if isUp part = true ∧ depth = 0 then none
    else climb (depth + (if isName part then 1 else 0) - (if isUp part then 1 else 0)) parts := by
  rw [climb]
  simp only [isUp, isName]
  by_cases hup : part = [dot, dot]
  · subst hup
    cases depth with
    | zero => simp
    | succ depth => simp
  · by_cases hstay : part = [] ∨ part = [dot]
    · rcases hstay with rfl | rfl
      · simp
      · simp [dot]
    · have hne : part ≠ [] ∧ part ≠ [dot] := not_or.1 hstay
      simp [hup, hne.1, hne.2]

theorem climb_append : climb depth (parts ++ parts') = (climb depth parts).bind fun depth => climb depth parts' := by
  induction parts generalizing depth with
  | nil => rfl
  | cons part parts ih =>
    rw [List.cons_append, climb_cons, climb_cons]
    split
    · rfl
    · exact ih

/-- The parts never lead out if and only if no beginning of them climbs more than it goes down. -/
theorem climb_isSome_iff : (climb depth parts).isSome = true ↔
    ∀ k : Nat, (parts.take k).countP isUp ≤ depth + (parts.take k).countP isName := by
  induction parts generalizing depth with
  | nil => simp [climb]
  | cons part parts ih =>
    have hexclusive : ¬(isUp part = true ∧ isName part = true) := by
      simp only [isUp, isName, beq_iff_eq, Bool.and_eq_true, bne_iff_ne]
      tauto
    rw [climb_cons]
    split
    next hout =>
      refine iff_of_false (by simp) fun hall => ?_
      have hname : isName part = false := Bool.eq_false_iff.2 fun hname => hexclusive ⟨hout.1, hname⟩
      have := hall 1
      simp [hout.1, hout.2, hname] at this
    next hstays =>
      -- a part that climbs takes away what is there
      have hpos : (if isUp part = true then 1 else 0) ≤ depth := by
        split
        next hup => exact Nat.pos_of_ne_zero fun hzero => hstays ⟨hup, hzero⟩
        next => exact Nat.zero_le depth
      rw [ih]
      constructor
      · intro hall k
        cases k with
        | zero => simp
        | succ k =>
          have := hall k
          rw [List.take_succ_cons, List.countP_cons, List.countP_cons]
          omega
      · intro hall k
        have := hall (k + 1)
        rw [List.take_succ_cons, List.countP_cons, List.countP_cons] at this
        omega

/-! ## The first two characters -/

/-- Where the first two characters lead. -/
theorem climb_start (start : Bytes) (hlength : start.length ≤ 2) : climb 0 (components start) =
    if start = [dot, dot] then none else some (if start.any (fun ch => ch != dot && ch != slash) = true then 1 else 0) := by
  have hne : slash ≠ dot := by decide
  rcases start with _ | ⟨a, _ | ⟨b, _ | ⟨c, rest⟩⟩⟩
  · rfl
  · by_cases ha : a = slash
    · subst ha
      rfl
    · by_cases ha' : a = dot
      · subst ha'
        rfl
      · simp [components, climb, ha, ha']
  · by_cases ha : a = slash
    · subst ha
      by_cases hb : b = slash
      · subst hb
        rfl
      · by_cases hb' : b = dot
        · subst hb'
          rfl
        · simp [components, climb, hne, hb, hb']
    · by_cases hb : b = slash
      · subst hb
        by_cases ha' : a = dot
        · subst ha'
          rfl
        · simp [components, climb, ha, ha']
      · by_cases ha' : a = dot
        · subst ha'
          by_cases hb' : b = dot
          · subst hb'
            rfl
          · simp [components, climb, ha, hb, hb']
        · simp [components, climb, ha, hb, ha']
  · simp only [List.length_cons] at hlength
    omega

theorem length_start (id : Bytes) : (cString (id.take 2)).length ≤ 2 :=
  (List.takeWhile_prefix _).length_le.trans (List.length_take_le 2 id)

/-- The path of an id is inside if and only if the id stays inside. -/
theorem inside_pathOf_iff : Inside dir (pathOf dir id) ↔ StaysInside id := by
  have hpath : pathOf dir id = dir ++ [slash] ++ (cString (id.take 2) ++ [slash] ++ cString id) := by
    simp only [pathOf, List.append_assoc]
  have hclimb : climb 0 (components (cString (id.take 2) ++ [slash] ++ cString id)) =
      if cString (id.take 2) = [dot, dot] then none
      else climb (if startNames id = true then 1 else 0) (components (cString id)) := by
    rw [components_append_slash, climb_append, climb_start _ (length_start id)]
    split
    · rfl
    · rfl
  constructor
  · rintro ⟨rest, hrest, hin⟩
    rw [hpath] at hrest
    rw [← List.append_cancel_left hrest, hclimb] at hin
    split at hin
    · cases hin
    next hstart => exact ⟨hstart, climb_isSome_iff.1 hin⟩
  · rintro ⟨hstart, hall⟩
    refine ⟨_, hpath, ?_⟩
    rw [hclimb, if_neg hstart]
    exact climb_isSome_iff.2 hall

/-! ## The calls -/

theorem cut_eq_of_takes (h : Takes (cut bufsiz path)) : cut bufsiz path = path := by
  unfold Takes at h
  unfold cut at h ⊢
  rw [List.length_take] at h
  refine List.take_of_length_le ?_
  simp only [bufsiz, pathMax] at h ⊢
  omega

theorem takes_cut_iff : Takes (cut bufsiz path) ↔ Takes path := by
  refine ⟨fun h => cut_eq_of_takes h ▸ h, fun h => ?_⟩
  unfold Takes cut at *
  rw [List.length_take]
  omega

/-- A call with the path of an id is confined if and only if the id stays inside, where the system takes the path. -/
theorem confined_taken_iff {access : Bytes → Access} (hpath : ∀ path, (access path).path = some path) :
    Confined dir (taken access (cut bufsiz (pathOf dir id))) ↔ (Takes (pathOf dir id) → StaysInside id) := by
  unfold taken
  by_cases htakes : Takes (cut bufsiz (pathOf dir id))
  · rw [if_pos htakes, cut_eq_of_takes htakes]
    rw [takes_cut_iff] at htakes
    constructor
    · intro hall _
      obtain ⟨path, heq, hin⟩ := hall _ List.mem_cons_self
      rw [hpath] at heq
      cases heq
      exact inside_pathOf_iff.1 hin
    · intro hstays access' hmem
      rw [List.mem_singleton.1 hmem]
      exact ⟨_, hpath _, inside_pathOf_iff.2 (hstays htakes)⟩
  · rw [if_neg htakes]
    rw [takes_cut_iff] at htakes
    exact iff_of_true (fun access' hmem => by cases hmem) fun h => absurd h htakes

theorem confined_openByRead_iff : Confined dir (openByRead dir id) ↔ Stays dir id := by
  unfold openByRead Stays
  by_cases hlength : 2 ≤ id.length
  · rw [if_pos hlength, confined_taken_iff fun _ => rfl]
    exact ⟨fun h _ => h, fun h => h hlength⟩
  · rw [if_neg hlength]
    exact iff_of_true (fun access' hmem => by cases hmem) fun h => absurd h hlength

theorem confined_append {before after : List Access} :
    Confined dir (before ++ after) ↔ Confined dir before ∧ Confined dir after := by
  simp only [Confined, List.mem_append]
  exact ⟨fun h => ⟨fun a ha => h a (.inl ha), fun a ha => h a (.inr ha)⟩, fun h a ha => ha.elim (h.1 a) (h.2 a)⟩

/-! ## Ids of the server -/

/-- A digit or a dash is no terminator, no slash and no dot. -/
theorem uuid_ne (uuid : Uuid) {ch : UInt8} (h : ch ∈ uuid.text) : ch ≠ 0 ∧ ch ≠ slash ∧ ch ≠ dot := by
  refine ⟨?_, ?_, ?_⟩
  all_goals
    rintro rfl
    rcases uuid.digits _ h with h | h | h <;> revert h <;> decide

theorem staysInside_uuid (uuid : Uuid) : StaysInside uuid.text := by
  have htext : cString uuid.text = uuid.text := CTextAux.cString_eq_self fun h => (uuid_ne uuid h).1 rfl
  have hstart : cString (uuid.text.take 2) = uuid.text.take 2 :=
    CTextAux.cString_eq_self fun h => (uuid_ne uuid (List.mem_of_mem_take h)).1 rfl
  have hparts : components uuid.text = [uuid.text] := components_of_not_mem fun h => (uuid_ne uuid h).2.1 rfl
  refine ⟨?_, ?_⟩
  · rw [hstart]
    intro heq
    have hmem : dot ∈ uuid.text.take 2 := by rw [heq]; exact List.mem_cons_self
    exact (uuid_ne uuid (List.mem_of_mem_take hmem)).2.2 rfl
  · rw [htext, hparts]
    have hup : isUp uuid.text = false := by
      refine Bool.eq_false_iff.2 fun hup => ?_
      have := congrArg List.length (beq_iff_eq.1 hup)
      rw [uuid.length] at this
      cases this
    intro k
    have hle : (List.take k [uuid.text]).countP isUp ≤ [uuid.text].countP isUp := (List.take_sublist k _).countP_le
    rw [List.countP_singleton, hup] at hle
    exact hle.trans (Nat.zero_le _)

/-- An upload under an id of the server is confined, whatever `mkdir` answers: where the system takes the directory, the buffer has
room for the rest. -/
theorem confined_openByWrite (uuid : Uuid) (mkdir : Bool) : Confined dir (openByWrite dir uuid.text mkdir) := by
  have htext : cString uuid.text = uuid.text := CTextAux.cString_eq_self fun h => (uuid_ne uuid h).1 rfl
  obtain ⟨hstart, hall⟩ := staysInside_uuid uuid
  unfold openByWrite
  rw [if_pos (by rw [uuid.length]; decide)]
  dsimp only
  split
  next hmade =>
    obtain ⟨-, htakes⟩ := hmade
    have hcut := cut_eq_of_takes htakes
    rw [hcut] at htakes ⊢
    have hshort : uuid.text.length ≤ bufsiz := by
      rw [uuid.length]
      decide
    rw [htext, List.take_of_length_le hshort]
    have hcreate : Inside dir (dir ++ [slash] ++ cString (uuid.text.take 2)) := by
      refine ⟨_, rfl, ?_⟩
      rw [climb_start _ (length_start _), if_neg hstart]
      rfl
    have hroom : (dir ++ [slash] ++ cString (uuid.text.take 2) ++ [slash] ++ uuid.text).length < bufsiz := by
      rw [List.length_append, List.length_append, uuid.length, List.length_singleton]
      unfold Takes at htakes
      simp only [pathMax, bufsiz] at htakes ⊢
      omega
    rw [if_pos hroom]
    have hpath : dir ++ [slash] ++ cString (uuid.text.take 2) ++ [slash] ++ uuid.text = pathOf dir uuid.text := by
      rw [pathOf, htext]
    rw [hpath]
    intro access hmem
    rcases List.mem_cons.1 hmem with rfl | hmem
    · exact ⟨_, rfl, hcreate⟩
    · unfold taken at hmem
      split at hmem
      · rw [List.mem_singleton.1 hmem]
        exact ⟨_, rfl, inside_pathOf_iff.2 ⟨hstart, hall⟩⟩
      · cases hmem
  next =>
    intro access hmem
    cases hmem

end ConfinementAux

open ConfinementAux

/-- What is done on behalf of a client that sends an id stays inside the directory and overruns no buffer if and only if the id is one
of the server's own, or it and the id in the file it names stay inside. -/
theorem confined_accesses_iff (dir : Bytes) (known : (id : Bytes) → Option (Known id)) (header : Bytes → Option Bytes) (mkdir : Bool)
    (id : Bytes) : Confined dir (accesses dir known header mkdir id) ↔ Safe dir known header id := by
  unfold accesses Safe
  cases known id with
  | none =>
    dsimp only
    rw [confined_append, confined_openByRead_iff]
    refine and_congr_right fun _ => ?_
    cases loadedId dir header id with
    | none => exact iff_of_true (fun access hmem => by cases hmem) fun stored h => by cases h
    | some stored =>
      dsimp only
      rw [confined_openByRead_iff]
      constructor
      · intro h stored' heq
        cases heq
        exact h
      · exact fun h => h stored rfl
  | some task =>
    cases task with
    | made uuid heq =>
      cases heq
      refine iff_of_true ?_ trivial
      have hstays := staysInside_uuid uuid
      rw [confined_append, confined_append, confined_openByRead_iff]
      exact ⟨⟨confined_openByWrite uuid mkdir, (confined_taken_iff fun _ => rfl).2 fun _ => hstays⟩, fun _ _ => hstays⟩
    | loaded stored => exact confined_openByRead_iff

/-- A login with the id `../x` opens a file two directories up. -/
theorem not_confined_accesses : ¬∀ (dir : Bytes) (known : (id : Bytes) → Option (Known id)) (header : Bytes → Option Bytes)
    (mkdir : Bool) (id : Bytes), Confined dir (accesses dir known header mkdir id) := by
  intro hall
  obtain ⟨path, hpath, rest, hrest, hin⟩ := hall (chars "/offline_file") (fun _ => none) (fun _ => none) true (chars "../x")
    (.read (chars "/offline_file/../../x")) (by decide)
  cases hpath
  have heq : rest = chars "../../x" := List.append_cancel_left (hrest.symm.trans (by decide))
  rw [heq] at hin
  exact absurd hin (by decide)

end TeamTalk.FileServer.OfflinePaths
