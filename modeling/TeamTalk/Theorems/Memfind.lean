import TeamTalk.Msfs.Memfind
import TeamTalk.Theorems.UploadScan

/-!
# What `memfind` finds

Backwards it finds the last place of the pattern. Forwards it does not try the last place there is room for. A pattern whose length is
passed as 0 may be longer than the source, which is not looked at again.
-/

namespace TeamTalk.Msfs.Memory

open UploadScanAux

/-! ## The property -/

/-- The result is the first place of the pattern or the last one, or `NULL` when it stands nowhere. -/
structure Finds (src sub : Bytes) (flag : Bool) (result : Option Nat) : Prop where
  found : ∀ i, result = some i → if flag then Search.First src sub i else Search.Last src sub i
  null : result = none → ∀ i, ¬sub <+: src.drop i

/-- The source is searched without reading outside it. -/
def Searches (src subStr : Bytes) (subLen : Nat) (flag : Bool) : Prop :=
  ∃ result, memfind src subStr subLen flag = .ok result ∧ Finds src (pattern subStr subLen) flag result

/-! ## The condition -/

/-- Forwards, the pattern does not first stand at the end of a longer source; and one whose length is passed as 0 is not longer than the
source, except backwards, where the difference of the lengths is a negative `int`. -/
structure Reached (src sub : Bytes) (subLen : Nat) (flag : Bool) : Prop where
  inside : flag = true → sub.length < src.length → ¬Search.First src sub (src.length - sub.length)
  short : subLen = 0 → src.length < sub.length → flag = false ∧ (sub.length - src.length - 1) % 2 ^ 32 < 2 ^ 31

namespace MemfindAux

variable {src sub subStr : Bytes} {subLen n i : Nat} {flag : Bool}

/-- The loop backwards tries the places from the last one on. -/
theorem memfindBack_eq (h : n + sub.length ≤ src.length + 1) :
    ∃ result, memfindBack src sub n = .ok result ∧ (∀ i, result = some i → sub <+: src.drop i ∧ ∀ j > i, j < n → ¬sub <+: src.drop j) ∧
      (result = none → ∀ j < n, ¬sub <+: src.drop j) := by
  induction n with
  | zero => exact ⟨none, rfl, (fun i hi => by cases hi), fun _ j hj => absurd hj (Nat.not_lt_zero j)⟩
  | succ n ih =>
    have hread : readAt src n sub.length = .ok ((src.drop n).take sub.length) := if_pos (by omega)
    rw [memfindBack, hread]
    simp only
    by_cases heq : (src.drop n).take sub.length = sub
    · rw [if_pos heq]
      refine ⟨some n, rfl, fun i hi => ?_, (fun hnone => by cases hnone)⟩
      obtain rfl := Option.some.inj hi
      exact ⟨List.prefix_iff_eq_take.2 heq.symm, fun j hj hlt => by omega⟩
    · rw [if_neg heq]
      have hhere : ¬sub <+: src.drop n := fun hfront => heq (List.prefix_iff_eq_take.1 hfront).symm
      obtain ⟨result, hresult, hfound, hnull⟩ := ih (by omega)
      refine ⟨result, hresult, fun i hi => ⟨(hfound i hi).1, fun j hj hlt => ?_⟩, fun hnone j hlt => ?_⟩
      · rcases Nat.lt_succ_iff_lt_or_eq.1 hlt with hlt | rfl
        · exact (hfound i hi).2 j hj hlt
        · exact hhere
      · rcases Nat.lt_succ_iff_lt_or_eq.1 hlt with hlt | rfl
        · exact hnull hnone j hlt
        · exact hhere

/-- Without room there is no place. -/
theorem finds_none (h : src.length < sub.length) (hsub : sub ≠ []) : Finds src sub flag none := by
  refine ⟨(fun i hi => by cases hi), fun _ i hfront => ?_⟩
  have := Search.add_length_le hfront hsub
  omega

/-- With room for one place it is that one. -/
theorem finds_whole (h : src.length = sub.length) (hsub : sub ≠ []) : Finds src sub flag (if src = sub then some 0 else none) := by
  have honly : ∀ i, sub <+: src.drop i → i = 0 ∧ src = sub := by
    intro i hfront
    have := Search.add_length_le hfront hsub
    obtain rfl : i = 0 := by omega
    exact ⟨rfl, (hfront.eq_of_length h.symm).symm⟩
  split
  · rename_i heq
    refine ⟨fun i hi => ?_, fun hnone => by cases hnone⟩
    obtain rfl := Option.some.inj hi
    have hhere : sub <+: src.drop 0 := heq ▸ List.prefix_refl _
    split
    · exact ⟨hhere, fun j hj => absurd hj (Nat.not_lt_zero j)⟩
    · exact ⟨hhere, fun j hj hfront => by
        have := (honly j hfront).1
        omega⟩
  · rename_i hne
    exact ⟨(fun i hi => by cases hi), fun _ i hfront => hne (honly i hfront).2⟩

theorem room_of_lt (h : sub.length < src.length) (hsrc : src.length < 2 ^ 31) : room src sub = src.length - sub.length := by
  rw [room]
  omega

/-- Forwards, the loop finds the pattern unless it first stands at the end. -/
theorem forwards_iff (h : sub.length < src.length) (hsrc : src.length < 2 ^ 31) (hsub : sub ≠ []) :
    (∃ result, memfindLoop src sub 0 (room src sub) = .ok result ∧ Finds src sub true result) ↔
      ¬Search.First src sub (src.length - sub.length) := by
  rw [room_of_lt h hsrc, memfindLoop_eq (by omega)]
  generalize hresult : ((List.range (src.length - sub.length)).find? fun i => sub.isPrefixOf (src.drop (0 + i))).map (0 + ·) = result
  have hsome : ∀ i, result = some i ↔ i < src.length - sub.length ∧ Search.First src sub i := by
    intro i
    rw [← hresult]
    simp only [Nat.zero_add, Option.map_id']
    exact Search.find?_range_eq_some
  constructor
  · rintro ⟨_, heq, hfinds⟩ hlast
    obtain rfl := Except.ok.inj heq
    cases hcase : result with
    | none => exact hfinds.null hcase _ hlast.here
    | some i =>
      obtain ⟨hlt, hfirst⟩ := (hsome i).1 hcase
      exact hlt.ne (hfirst.unique hlast)
  · intro hlast
    refine ⟨result, rfl, fun i hi => ((hsome i).1 hi).2, fun hnone i hfront => ?_⟩
    obtain ⟨j, hfirst⟩ := Search.exists_first hfront
    have hroom := hfirst.le_length hsub
    rcases Nat.lt_or_eq_of_le (show j ≤ src.length - sub.length by omega) with hlt | rfl
    · have := (hsome j).2 ⟨hlt, hfirst⟩
      rw [hnone] at this
      cases this
    · exact hlast hfirst

/-- Backwards it always does. -/
theorem backwards (h : sub.length < src.length) (hsrc : src.length < 2 ^ 31) (hsub : sub ≠ []) :
    ∃ result, memfindBack src sub (Int.bmod (room src sub) (2 ^ 32) + 1).toNat = .ok result ∧ Finds src sub false result := by
  have hplaces : (Int.bmod (room src sub) (2 ^ 32) + 1).toNat = src.length - sub.length + 1 := by
    rw [room_of_lt h hsrc, Int.bmod]
    split <;> omega
  obtain ⟨result, hresult, hfound, hnull⟩ := @memfindBack_eq src sub (src.length - sub.length + 1) (by omega)
  have hroom : ∀ j, sub <+: src.drop j → j < src.length - sub.length + 1 := by
    intro j hfront
    have := Search.add_length_le hfront hsub
    omega
  rw [hplaces]
  exact ⟨result, hresult, fun i hi => ⟨(hfound i hi).1, fun j hj hfront => (hfound i hi).2 j hj (hroom j hfront) hfront⟩,
    fun hnone i hfront => hnull hnone i (hroom i hfront) hfront⟩

/-- A pattern that is longer than the source: reading it is tried forwards, and backwards unless the difference is negative. -/
theorem longer_iff (h : src.length < sub.length) (hsize : sub.length < 2 ^ 64) (hsub : sub ≠ []) :
    (∃ result, (if flag then memfindLoop src sub 0 (room src sub)
      else memfindBack src sub (Int.bmod (room src sub) (2 ^ 32) + 1).toNat) = .ok result ∧ Finds src sub flag result) ↔
      flag = false ∧ (sub.length - src.length - 1) % 2 ^ 32 < 2 ^ 31 := by
  have hread : ∀ i, readAt src i sub.length = .error .undefinedBehaviour := fun i => if_neg (by omega)
  cases flag with
  | true =>
    obtain ⟨n, hn⟩ : ∃ n, room src sub = n + 1 := ⟨room src sub - 1, by rw [room]; omega⟩
    refine iff_of_false ?_ fun hflag => by cases hflag.1
    rintro ⟨result, hresult, -⟩
    rw [if_pos rfl, hn, memfindLoop, hread] at hresult
    cases hresult
  | false =>
    simp only [Bool.false_eq_true, if_false, true_and]
    have hplaces : (sub.length - src.length - 1) % 2 ^ 32 < 2 ^ 31 ↔ (Int.bmod (room src sub) (2 ^ 32) + 1).toNat = 0 := by
      rw [room, Int.bmod]
      split <;> omega
    rw [hplaces]
    cases hplace : (Int.bmod (room src sub) (2 ^ 32) + 1).toNat with
    | zero => exact iff_of_true ⟨none, rfl, finds_none h hsub⟩ rfl
    | succ n =>
      refine iff_of_false ?_ (Nat.succ_ne_zero n)
      rintro ⟨result, hresult, -⟩
      rw [memfindBack, hread] at hresult
      cases hresult

end MemfindAux

open MemfindAux

/-- A pattern is found as it should be exactly when the search reaches all places there is room for, and no others. -/
theorem searches_iff (src subStr : Bytes) (subLen : Nat) (flag : Bool) (hsrc : src.length ≠ 0) (hsrc' : src.length < 2 ^ 31)
    (hread : subLen ≤ subStr.length) (hsize : subStr.length < 2 ^ 64) (hsub : pattern subStr subLen ≠ []) :
    Searches src subStr subLen flag ↔ Reached src (pattern subStr subLen) subLen flag := by
  have hpattern : subLen ≠ 0 → (pattern subStr subLen).length = subLen := by
    intro hne
    rw [pattern, if_neg hne]
    exact List.length_take_of_le hread
  have hlen : (pattern subStr subLen).length < 2 ^ 64 := by
    refine lt_of_le_of_lt ?_ hsize
    rw [pattern]
    split
    · exact (List.takeWhile_prefix _).length_le
    · exact List.length_take_le' _ _
  rw [Searches, memfind, if_neg hsrc]
  generalize pattern subStr subLen = sub at *
  by_cases hshort : src.length < subLen
  · have hsubLen : subLen ≠ 0 := by omega
    have hsublen := hpattern hsubLen
    rw [if_pos hshort]
    exact iff_of_true ⟨none, rfl, finds_none (by omega) hsub⟩ ⟨fun _ hlt => by omega, fun hzero => absurd hzero hsubLen⟩
  · rw [if_neg hshort]
    simp only
    rcases lt_trichotomy src.length sub.length with hlt | heq | hgt
    · have hzero : subLen = 0 := by
        by_contra hne
        have := hpattern hne
        omega
      rw [if_neg hlt.ne, longer_iff hlt hlen hsub]
      exact ⟨fun h => ⟨fun _ hgt => by omega, fun _ _ => h⟩, fun h => h.short hzero hlt⟩
    · have hwhole : readAt src 0 src.length = .ok src := by simp [readAt]
      rw [if_pos heq, hwhole]
      exact iff_of_true ⟨_, rfl, finds_whole heq hsub⟩ ⟨fun _ hlt => by omega, fun _ hlt => by omega⟩
    · rw [if_neg hgt.ne']
      cases flag with
      | true =>
        refine (forwards_iff hgt hsrc' hsub).trans ⟨fun h => ⟨fun _ _ => h, fun _ hlt => by omega⟩, fun h => h.inside rfl hgt⟩
      | false =>
        simp only [Bool.false_eq_true, if_false]
        exact iff_of_true (backwards hgt hsrc' hsub) ⟨(fun hflag => by cases hflag), fun _ hlt => by omega⟩

/-- A pattern before the end is found. -/
theorem searches_front : Searches [97, 98, 99] [97, 98] 2 true := by
  refine (searches_iff _ _ _ _ (by simp) (by simp) (by simp) (by simp) (by simp [pattern])).2 ⟨fun _ _ hfirst => ?_, fun h => by cases h⟩
  exact hfirst.before 0 (by decide) (by decide)

/-- One at the end is not. -/
theorem last_place_missed : ¬Searches [97, 98, 99] [98, 99] 2 true := by
  rintro ⟨result, hresult, hfinds⟩
  simp [memfind, pattern, room] at hresult
  obtain rfl : none = result := Except.ok.inj hresult
  exact hfinds.null rfl 1 ⟨[], rfl⟩

end TeamTalk.Msfs.Memory
