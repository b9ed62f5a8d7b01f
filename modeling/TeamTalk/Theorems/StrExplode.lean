import TeamTalk.Base.StrExplode

/-!
# The items of a string

`CStrExplode` yields the fields of a string exactly when none of them is empty: the first pass counts a separator wherever it stands, and
the second passes over one that stands at the start of an item.
-/

namespace TeamTalk.StrExplode

/-! ## The property -/

/-- The fields into which a separator divides a string, with those that are empty or without them. -/
def fields (keep : Bool) (seperator : UInt8) (str : Bytes) : List Bytes :=
  if keep then str.splitOn seperator else (str.splitOn seperator).filter fun field => field ≠ []

/-- The items are the fields, and each that is counted is there. -/
structure Yields (keep : Bool) (seperator : UInt8) (str : Bytes) (e : StrExplode) : Prop where
  count : e.itemCnt = (fields keep seperator str).length
  items : e.itemList = (fields keep seperator str).map some

/-- The string is split, in one way or the other. -/
def Splits (str : Bytes) (seperator : UInt8) : Prop := ∃ keep e, make str seperator = .ok e ∧ Yields keep seperator str e

/-! ## The condition -/

/-- No field is empty, and the numbers have room in their types. -/
structure Filled (str : Bytes) (seperator : UInt8) : Prop where
  notEmpty : ∀ field ∈ str.splitOn seperator, field ≠ []
  count : (str.splitOn seperator).length ≤ 2 ^ 31
  lengths : ∀ field ∈ str.splitOn seperator, field.length + 1 < uint32Size

namespace StrExplodeAux

variable {seperator ch : UInt8} {start rest str field : Bytes} {items items' : List (Option Bytes)} {idx n : Nat}

/-- The fields of a string from the bytes of its first one that have been passed. -/
def fieldsFrom (seperator : UInt8) (start : Bytes) : Bytes → List Bytes
  | [] => [start]
  | ch :: pos => if ch = seperator then start :: fieldsFrom seperator [] pos else fieldsFrom seperator (start ++ [ch]) pos

theorem fieldsFrom_empty (seperator : UInt8) (str : Bytes) : fieldsFrom seperator [] str = str.splitOn seperator := by
  have hfrom : ∀ start, fieldsFrom seperator start str = List.splitOnPPrepend (· == seperator) str start.reverse := by
    intro start
    induction str generalizing start with
    | nil => simp [fieldsFrom]
    | cons ch str ih =>
      rw [fieldsFrom]
      split
      · rename_i h
        rw [List.splitOnPPrepend_cons_pos (by simpa using h), List.reverse_reverse, ih]
        rfl
      · rename_i h
        rw [List.splitOnPPrepend_cons_neg (by simpa using h), ih, List.reverse_append]
        rfl
  exact hfrom []

/-! ## The first pass -/

theorem length_fieldsFrom (seperator : UInt8) (start rest : Bytes) :
    (fieldsFrom seperator start rest).length = rest.count seperator + 1 := by
  induction rest generalizing start with
  | nil => rfl
  | cons ch rest ih =>
    rw [fieldsFrom]
    split
    · rename_i h
      subst h
      rw [List.length_cons, ih, List.count_cons_self]
    · rename_i h
      rw [ih, List.count_cons_of_ne h]

theorem length_splitOn (seperator : UInt8) (str : Bytes) : (str.splitOn seperator).length = str.count seperator + 1 := by
  rw [← fieldsFrom_empty, length_fieldsFrom]

/-- The first pass counts all fields. -/
theorem countItems_eq (seperator : UInt8) (str : Bytes) : countItems seperator str = (str.splitOn seperator).length % uint32Size := by
  have hfold : ∀ cnt, cnt < uint32Size →
      str.foldl (fun cnt ch => if ch = seperator then (cnt + 1) % uint32Size else cnt) cnt = (cnt + str.count seperator) % uint32Size := by
    intro cnt hcnt
    induction str generalizing cnt with
    | nil => simp [Nat.mod_eq_of_lt hcnt]
    | cons ch str ih =>
      rw [List.foldl_cons]
      split
      · rename_i h
        subst h
        rw [ih _ (Nat.mod_lt _ (by decide)), List.count_cons_self, Nat.mod_add_mod]
        congr 1
        omega
      · rename_i h
        rw [ih cnt hcnt, List.count_cons_of_ne h]
  rw [countItems, hfold 1 (by decide), length_splitOn, Nat.add_comm]

/-! ## The second pass -/

/-- What is stored, without regard to the room for it. -/
def pieces (seperator : UInt8) (start : Bytes) : Bytes → List Bytes
  | [] => if start.length % uint32Size ≠ 0 then [start] else []
  | ch :: pos =>
    if start ≠ [] ∧ ch = seperator then start :: pieces seperator [] pos else pieces seperator (start ++ [ch]) pos

/-- A separator is passed over only behind another one, or at the start. -/
theorem count_le (seperator : UInt8) (start rest : Bytes) :
    rest.count seperator ≤ 2 * (pieces seperator start rest).length + if start = [] then 1 else 0 := by
  induction rest generalizing start with
  | nil => simp
  | cons ch rest ih =>
    have hcount := List.count_cons (a := seperator) (b := ch) (l := rest)
    rw [pieces]
    split
    · rename_i h
      have := ih []
      rw [if_pos rfl] at this
      rw [if_neg h.1, hcount, List.length_cons]
      split <;> omega
    · rename_i h
      have := ih (start ++ [ch])
      rw [if_neg (by simp)] at this
      rw [hcount]
      by_cases hstart : start = []
      · rw [if_pos hstart]
        split <;> omega
      · have hch : ¬(ch == seperator) = true := fun heq => h ⟨hstart, eq_of_beq heq⟩
        rw [if_neg hstart, if_neg hch]
        omega

/-- There are as many pieces as fields only if they are the same and none is empty. -/
theorem pieces_le (seperator : UInt8) (start rest : Bytes) : (pieces seperator start rest).length ≤ (fieldsFrom seperator start rest).length ∧
    ((pieces seperator start rest).length = (fieldsFrom seperator start rest).length →
      pieces seperator start rest = fieldsFrom seperator start rest ∧ ∀ field ∈ fieldsFrom seperator start rest, field ≠ []) := by
  induction rest generalizing start with
  | nil =>
    rw [pieces, fieldsFrom]
    split
    · rename_i h
      refine ⟨Nat.le_refl _, fun _ => ⟨rfl, fun field hfield => ?_⟩⟩
      rw [List.mem_singleton.1 hfield]
      rintro rfl
      exact h rfl
    · exact ⟨Nat.zero_le _, fun h => by cases h⟩
  | cons ch rest ih =>
    rw [pieces, fieldsFrom]
    by_cases hch : ch = seperator
    · rw [if_pos hch]
      by_cases hstart : start = []
      · -- the separator becomes part of an item: there is a field more
        have hle := (ih (start ++ [ch])).1
        have hlt : (pieces seperator (start ++ [ch]) rest).length < (start :: fieldsFrom seperator [] rest).length := by
          rw [length_fieldsFrom] at hle
          rw [List.length_cons, length_fieldsFrom]
          exact Nat.lt_succ_of_le hle
        rw [if_neg fun h => h.1 hstart]
        exact ⟨hlt.le, fun heq => absurd heq hlt.ne⟩
      · obtain ⟨hle, heq⟩ := ih []
        rw [if_pos ⟨hstart, hch⟩]
        refine ⟨Nat.succ_le_succ hle, fun hlen => ?_⟩
        obtain ⟨hsame, hfields⟩ := heq (Nat.succ.inj hlen)
        exact ⟨by rw [hsame], List.forall_mem_cons.2 ⟨hstart, hfields⟩⟩
    · rw [if_neg fun h => hch h.2, if_neg hch]
      exact ih (start ++ [ch])

/-- Fields that are not empty, and not too long, are the pieces. -/
theorem pieces_eq (h : ∀ field ∈ fieldsFrom seperator start rest, field ≠ [] ∧ field.length + 1 < uint32Size) :
    pieces seperator start rest = fieldsFrom seperator start rest := by
  induction rest generalizing start with
  | nil =>
    obtain ⟨hne, hlen⟩ := h start List.mem_cons_self
    have := List.length_pos_iff.2 hne
    rw [pieces, fieldsFrom, if_pos]
    rw [Nat.mod_eq_of_lt (by omega)]
    omega
  | cons ch rest ih =>
    rw [fieldsFrom] at h
    rw [pieces, fieldsFrom]
    split at h
    · rename_i hch
      obtain ⟨hstart, hrest⟩ := List.forall_mem_cons.1 h
      rw [if_pos ⟨hstart.1, hch⟩, if_pos hch, ih hrest]
    · rename_i hch
      rw [if_neg fun hboth => hch hboth.2, if_neg hch, ih h]

/-- What is stored of a piece. -/
def stored (text : Bytes) : Bytes := text.take (text.length % uint32Size)

theorem stored_of_lt (h : field.length + 1 < uint32Size) : stored field = field := by
  rw [stored, Nat.mod_eq_of_lt (by omega), List.take_length]

theorem putItem_eq (h : putItem items idx start = .ok items') : idx < items.length ∧ start.length % uint32Size + 1 < uint32Size ∧
    items' = items.take idx ++ some (stored start) :: items.drop (idx + 1) := by
  simp only [putItem] at h
  split at h
  · rename_i hroom
    obtain rfl := Except.ok.inj h
    exact ⟨hroom.1, hroom.2, List.set_eq_take_append_cons_drop.trans (if_pos hroom.1)⟩
  · cases h

/-- Where the second pass comes to an end, it has stored the pieces one behind the other. -/
theorem fillItems_eq (hidx : idx < 2 ^ 31) (h : fillItems seperator items idx start rest = .ok items') :
    (pieces seperator start rest ≠ [] → idx + (pieces seperator start rest).length ≤ items.length ∧
      idx + (pieces seperator start rest).length ≤ 2 ^ 31) ∧
    (∀ text ∈ pieces seperator start rest, text.length % uint32Size + 1 < uint32Size) ∧
    items' = items.take idx ++ (pieces seperator start rest).map (fun text => some (stored text)) ++
      items.drop (idx + (pieces seperator start rest).length) := by
  induction rest generalizing items idx start with
  | nil =>
    rw [fillItems] at h
    rw [pieces]
    split at h
    · rename_i hlen
      obtain ⟨hroom, hstart, hitems⟩ := putItem_eq h
      rw [if_pos hlen]
      exact ⟨fun _ => ⟨hroom, hidx⟩, List.forall_mem_singleton.2 hstart, by simpa using hitems⟩
    · rename_i hlen
      obtain rfl := Except.ok.inj h
      rw [if_neg hlen]
      exact ⟨fun hne => absurd rfl hne, (fun text htext => by cases htext), by simp⟩
  | cons ch rest ih =>
    rw [fillItems] at h
    rw [pieces]
    split at h
    · rename_i hclose
      cases hput : putItem items idx start with
      | error e => rw [hput] at h; cases h
      | ok items₁ =>
        obtain ⟨hroom, hstart, hitems⟩ := putItem_eq hput
        rw [hput] at h
        simp only at h
        split at h
        · rename_i hnext
          obtain ⟨hbounds, hlens, hitems'⟩ := ih hnext h
          have hlength : items₁.length = items.length := by
            rw [hitems]
            simp
            omega
          have hfront : (items.take idx ++ [some (stored start)]).length = idx + 1 := by
            simp
            omega
          have hparts : items₁ = (items.take idx ++ [some (stored start)]) ++ items.drop (idx + 1) := by simpa using hitems
          rw [if_pos hclose, List.length_cons]
          refine ⟨fun _ => ?_, List.forall_mem_cons.2 ⟨hstart, hlens⟩, ?_⟩
          · by_cases hne : pieces seperator [] rest = []
            · rw [hne, List.length_nil]
              omega
            · have := hbounds hne
              omega
          · rw [hitems', ← List.drop_drop, hparts, List.take_left' hfront, List.drop_left' hfront, List.drop_drop, List.map_cons]
            simp [Nat.add_assoc, Nat.add_comm 1]
        · cases h
    · rename_i hclose
      rw [if_neg hclose]
      exact ih hidx h

/-- With room for the pieces, the second pass comes to an end. -/
theorem fillItems_ok (hlens : ∀ text ∈ pieces seperator start rest, text.length % uint32Size + 1 < uint32Size)
    (hroom : idx + (pieces seperator start rest).length ≤ items.length) (hidx : idx + rest.count seperator < 2 ^ 31) :
    ∃ items', fillItems seperator items idx start rest = .ok items' := by
  induction rest generalizing items idx start with
  | nil =>
    rw [pieces] at hlens hroom
    rw [fillItems]
    split
    · rename_i hlen
      rw [if_pos hlen] at hlens hroom
      exact ⟨_, if_pos ⟨hroom, hlens start List.mem_cons_self⟩⟩
    · exact ⟨items, rfl⟩
  | cons ch rest ih =>
    rw [pieces] at hlens hroom
    rw [fillItems]
    split
    · rename_i hclose
      rw [if_pos hclose] at hlens hroom
      rw [hclose.2, List.count_cons_self] at hidx
      rw [List.length_cons] at hroom
      have hput : putItem items idx start = .ok (items.set idx (some (stored start))) :=
        if_pos ⟨by omega, hlens start List.mem_cons_self⟩
      rw [hput]
      simp only
      rw [if_pos (by omega)]
      exact ih (fun text htext => hlens text (List.mem_cons_of_mem _ htext)) (by rw [List.length_set]; omega) (by omega)
    · rename_i hclose
      rw [if_neg hclose] at hlens hroom
      have hcount : rest.count seperator ≤ (ch :: rest).count seperator := List.count_le_count_cons
      exact ih hlens hroom (by omega)

/-! ## Both passes -/

/-- No field is dropped when none is empty. -/
theorem fields_of_notEmpty (keep : Bool) (h : ∀ field ∈ str.splitOn seperator, field ≠ []) :
    fields keep seperator str = str.splitOn seperator := by
  rw [fields]
  split
  · rfl
  · exact List.filter_eq_self.2 fun field hfield => decide_eq_true (h field hfield)

theorem splits_of_filled (h : Filled str seperator) : Splits str seperator := by
  obtain ⟨hne, hcount, hlens⟩ := h
  have hpieces : pieces seperator [] str = str.splitOn seperator := by
    rw [← fieldsFrom_empty] at hne hlens ⊢
    exact pieces_eq fun field hfield => ⟨hne field hfield, hlens field hfield⟩
  have hcnt : countItems seperator str = (str.splitOn seperator).length := by
    rw [countItems_eq, Nat.mod_eq_of_lt (lt_of_le_of_lt hcount (by decide))]
  have hstored : (str.splitOn seperator).map (fun text => some (stored text)) = (str.splitOn seperator).map some :=
    List.map_congr_left fun field hfield => by rw [stored_of_lt (hlens field hfield)]
  obtain ⟨items', hfill⟩ : ∃ items', fillItems seperator (List.replicate (countItems seperator str) none) 0 [] str = .ok items' := by
    refine fillItems_ok (fun text htext => ?_) ?_ ?_
    · rw [hpieces] at htext
      have hlen := hlens text htext
      rwa [Nat.mod_eq_of_lt (by omega)]
    · rw [hpieces, hcnt, List.length_replicate, Nat.zero_add]
    · rw [length_splitOn] at hcount
      omega
  obtain ⟨-, -, hitems⟩ := fillItems_eq (by decide) hfill
  refine ⟨true, ⟨_, items'⟩, by rw [make, hfill]; rfl, hcnt, ?_⟩
  rw [hitems, hpieces, hstored, hcnt]
  simp [fields]

theorem filled_of_splits (h : Splits str seperator) : Filled str seperator := by
  obtain ⟨keep, e, hmake, hcount, hitems⟩ := h
  rw [make] at hmake
  cases hfill : fillItems seperator (List.replicate (countItems seperator str) none) 0 [] str with
  | error e => rw [hfill] at hmake; cases hmake
  | ok items' =>
    rw [hfill] at hmake
    obtain rfl := Except.ok.inj hmake
    obtain ⟨hbounds, hlens, heq⟩ := fillItems_eq (by decide) hfill
    simp only at hcount hitems
    rw [List.take_zero, List.nil_append, Nat.zero_add, List.drop_replicate] at heq
    rw [List.length_replicate] at hbounds
    -- every item that is counted has been stored
    have hle : countItems seperator str ≤ (pieces seperator [] str).length := by
      by_contra hlt
      have hnone : none ∈ items' := by
        rw [heq]
        exact List.mem_append_right _ (List.mem_replicate.2 ⟨by omega, rfl⟩)
      rw [hitems] at hnone
      obtain ⟨field, -, hfield⟩ := List.mem_map.1 hnone
      cases hfield
    have hge : (pieces seperator [] str).length ≤ countItems seperator str ∧ (pieces seperator [] str).length ≤ 2 ^ 31 := by
      by_cases hne : pieces seperator [] str = []
      · rw [hne]
        exact ⟨Nat.zero_le _, Nat.zero_le _⟩
      · have := hbounds hne
        omega
    -- there are not so many separators that the count wraps around
    have hcnt := countItems_eq seperator str
    have hpassed := count_le seperator [] str
    have hlength := length_splitOn seperator str
    rw [if_pos rfl] at hpassed
    have hsame : (pieces seperator [] str).length = (str.splitOn seperator).length := by
      rw [uint32Size] at hcnt
      omega
    obtain ⟨hpieces, hne⟩ := (pieces_le seperator [] str).2 (by rw [hsame, fieldsFrom_empty])
    rw [fieldsFrom_empty] at hpieces hne
    have hstored : ∀ field ∈ str.splitOn seperator, some (stored field) = some field := by
      rw [fields_of_notEmpty keep hne] at hitems
      refine List.map_inj_left.1 ?_
      rw [← hitems, heq, hpieces, Nat.sub_eq_zero_of_le (hpieces ▸ hle), List.replicate_zero, List.append_nil]
    refine ⟨hne, hsame ▸ hge.2, fun field hfield => ?_⟩
    have hlen := congrArg List.length (Option.some.inj (hstored field hfield))
    have hroom := hlens field (hpieces ▸ hfield)
    rw [stored, List.length_take] at hlen
    omega

end StrExplodeAux

open StrExplodeAux

/-- A string is split into its fields exactly when none of them is empty, as far as the numbers have room in their types. -/
theorem splits_iff (str : Bytes) (seperator : UInt8) : Splits str seperator ↔ Filled str seperator :=
  ⟨filled_of_splits, splits_of_filled⟩

/-- Two separators next to each other: three items are counted, the second begins with a separator, and the third is not initialised. -/
theorem adjacent_seperators : make (chars "a;;b") 59 = .ok ⟨3, [some (chars "a"), some (chars ";b"), none]⟩ ∧
    ¬ ∀ str seperator, Splits str seperator := by
  have hmake : make (chars "a;;b") 59 = .ok ⟨3, [some (chars "a"), some (chars ";b"), none]⟩ := by rfl
  refine ⟨hmake, fun h => ?_⟩
  obtain ⟨keep, e, heq, -, hitems⟩ := h (chars "a;;b") 59
  obtain rfl := Except.ok.inj (hmake.symm.trans heq)
  have hnone : none ∈ (fields keep 59 (chars "a;;b")).map some := hitems ▸ by simp
  obtain ⟨field, -, hfield⟩ := List.mem_map.1 hnone
  cases hfield

end TeamTalk.StrExplode
