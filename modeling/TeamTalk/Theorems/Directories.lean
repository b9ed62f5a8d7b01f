import TeamTalk.Msfs.Directories

/-!
# Files in directories

Each file is put into a directory that `initDir` made: up to 256 · 255 times the number of files for a directory. From then on the first
number is greater than 255.
-/

namespace TeamTalk.Msfs

/-! ## The property -/

/-- With so many files, the next one is put into a directory: both numbers are in range, not all of the next files have the same ones, and the
path leads to a directory that was made. -/
structure WellPlaced (cfg : Config) (totFiles : Nat) (first second : Int) : Prop where
  first_range : 0 ≤ first ∧ first ≤ 255
  second_range : 0 ≤ second ∧ second ≤ 255
  spread : ∃ n ≤ cfg.filesPerDir, directories cfg (totFiles + n) ≠ .ok (first, second)
  made : ∀ mkdir, (initDir mkdir).1 = 0 → ∀ usec tid, ∃ dir ∈ (initDir mkdir).2, ∃ name,
    47 ∉ name ∧ createFileRelatePath cfg totFiles usec tid = dir ++ 47 :: name

/-- The numbers are computed, and they are right. -/
def Places (cfg : Config) (totFiles : Nat) : Prop :=
  ∃ first second, directories cfg totFiles = .ok (first, second) ∧ WellPlaced cfg totFiles first second

/-! ## The condition -/

/-- The product has room in an `int`, and the cast of the first number is at most 255. -/
structure InRange (cfg : Config) (totFiles : Nat) : Prop where
  product : cfg.filesPerDir * 255 < 2 ^ 31
  first : totFiles / cfg.filesPerDir / 255 % 2 ^ 32 ≤ 255

namespace DirectoriesAux

variable {cfg : Config} {totFiles usec tid : Nat} {mkdir : Bytes → Bool}

theorem mkdirs_eq {dirs : List Bytes} (h : (mkdirs mkdir dirs).1 = 0) : (mkdirs mkdir dirs).2 = dirs := by
  induction dirs with
  | nil => rfl
  | cons dir dirs ih =>
    rw [mkdirs] at h ⊢
    split at h
    · rename_i hmkdir
      rw [if_pos hmkdir, ih h]
    · cases h

theorem mem_initDirs {i j : Nat} (hi : i ≤ 255) (hj : j ≤ 255) : dirPath i j ∈ initDirs := by
  have hi' : i ∈ List.range (firstDirMax + 1) := List.mem_range.2 (by rw [firstDirMax]; omega)
  have hj' : j ∈ List.range (secondDirMax + 1) := List.mem_range.2 (by rw [secondDirMax]; omega)
  rw [initDirs]
  exact List.mem_cons_of_mem _ (List.mem_flatMap.2 ⟨i, hi', List.mem_cons_of_mem _ (List.mem_map_of_mem hj')⟩)

/-- A number of a file is not divided by slashes. -/
theorem unique_noSlash : 47 ∉ cut 30 (decimal usec ++ chars "_" ++ decimal tid) := by
  have hdigits : ∀ n, 47 ∉ decimal n := fun n hmem => absurd (CTextAux.digit_of_mem_decimal hmem).1 (by decide)
  have hline : chars "_" = [95] := by decide
  intro hmem
  rw [cut] at hmem
  rcases List.mem_append.1 (List.mem_of_mem_take hmem) with hmem | hmem
  · rw [hline] at hmem
    rcases List.mem_append.1 hmem with hmem | hmem
    · exact hdigits usec hmem
    · exact absurd (List.mem_singleton.1 hmem) (by decide)
  · exact hdigits tid hmem

theorem createFileRelatePath_eq (cfg : Config) (totFiles usec tid : Nat) : createFileRelatePath cfg totFiles usec tid =
    dirPath (getFirstDir cfg totFiles) (getSecondDir cfg totFiles) ++ 47 :: cut 30 (decimal usec ++ chars "_" ++ decimal tid) := by
  have hslash : chars "/" = [47] := by decide
  rw [createFileRelatePath, relatePathOf, dirPath, dirName, dirName, hslash]
  simp only [List.append_assoc, List.singleton_append]

theorem asInt_mod (q : Nat) : asInt (q % 255) = ((q % 255 : Nat) : Int) := by
  unfold asInt uint32Size
  rw [Int.bmod]
  split <;> omega

theorem asInt_range (q : Nat) : (0 ≤ asInt q ∧ asInt q ≤ 255) ↔ q % 2 ^ 32 ≤ 255 := by
  unfold asInt uint32Size
  rw [Int.bmod]
  split <;> omega

/-- The second number is a remainder. -/
theorem getSecondDir_eq (cfg : Config) (totFiles : Nat) :
    getSecondDir cfg totFiles = ((totFiles / cfg.filesPerDir % 255 : Nat) : Int) := by
  have hsecond : totFiles % (cfg.filesPerDir * firstDirMax) / cfg.filesPerDir = totFiles / cfg.filesPerDir % 255 := by
    rw [firstDirMax]
    exact Nat.mod_mul_right_div_self totFiles cfg.filesPerDir 255
  unfold getSecondDir
  rw [hsecond]
  exact asInt_mod _

theorem getFirstDir_range : (0 ≤ getFirstDir cfg totFiles ∧ getFirstDir cfg totFiles ≤ 255) ↔
    totFiles / cfg.filesPerDir / 255 % 2 ^ 32 ≤ 255 := asInt_range _

/-- After as many files as there are for a directory, the second number is another. -/
theorem getSecondDir_ne (cfg : Config) (totFiles : Nat) :
    getSecondDir cfg (totFiles + cfg.filesPerDir) ≠ getSecondDir cfg totFiles := by
  rw [getSecondDir_eq, getSecondDir_eq, Nat.add_div_right _ cfg.filesPerDir_pos]
  generalize totFiles / cfg.filesPerDir = q
  omega

end DirectoriesAux

open DirectoriesAux

/-- A file is put into a directory as it should be exactly when the product and the first number are in range. -/
theorem places_iff (cfg : Config) (totFiles : Nat) : Places cfg totFiles ↔ InRange cfg totFiles := by
  constructor
  · rintro ⟨first, second, hdirs, hplaced⟩
    rw [directories] at hdirs
    split at hdirs
    · rename_i hproduct
      obtain ⟨rfl, rfl⟩ := Prod.mk.inj (Except.ok.inj hdirs)
      exact ⟨hproduct, getFirstDir_range.1 hplaced.first_range⟩
    · cases hdirs
  · rintro ⟨hproduct, hfirst⟩
    have hdirs : ∀ n, directories cfg n = .ok (getFirstDir cfg n, getSecondDir cfg n) := fun n => if_pos hproduct
    have hrange := getFirstDir_range.2 hfirst
    have hsecond := Nat.mod_lt (totFiles / cfg.filesPerDir) (by decide : 0 < 255)
    refine ⟨_, _, hdirs totFiles, hrange, by rw [getSecondDir_eq]; omega, ⟨cfg.filesPerDir, Nat.le_refl _, fun heq => ?_⟩, ?_⟩
    · rw [hdirs] at heq
      exact getSecondDir_ne cfg totFiles (Prod.mk.inj (Except.ok.inj heq)).2
    · intro mkdir hinit usec tid
      refine ⟨_, ?_, _, unique_noSlash, createFileRelatePath_eq cfg totFiles usec tid⟩
      rw [initDir, mkdirs_eq hinit, getSecondDir_eq, ← Int.toNat_of_nonneg hrange.1]
      exact mem_initDirs (by omega) (by omega)

/-- With one file for a directory, the file after 65280 others is put into a first directory 256. -/
theorem first_out_of_range : ¬ ∀ (cfg : Config) (totFiles : Nat), Places cfg totFiles := by
  intro h
  obtain ⟨first, second, hdirs, hplaced⟩ := h ⟨[], 1, by decide⟩ 65280
  obtain ⟨rfl, rfl⟩ := Prod.mk.inj (Except.ok.inj hdirs)
  have := hplaced.first_range.2
  revert this
  decide

end TeamTalk.Msfs
