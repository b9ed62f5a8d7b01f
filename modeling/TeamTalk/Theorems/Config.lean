import TeamTalk.Base.ConfigFileReader

/-!
# The configuration comes back

What `SetConfigValue` writes is read back by the constructor: exactly when each line fits into the 128 bytes it is made in. A longer one
loses its line break, and is read together with the next.
-/

namespace TeamTalk.ConfigFileReader

/-! ## The property -/

/-- A name or a value that can stand in a line. -/
structure Clean (text : Bytes) : Prop where
  notEmpty : text ≠ []
  noTerminator : 0 ∉ text
  noBreak : 10 ∉ text
  noComment : 35 ∉ text
  first : ∀ ch ∈ text.head?, isBlank ch = false
  last : ∀ h : text ≠ [], isBlank (text.getLast h) = false

/-- An entry that can stand in a line. -/
structure CleanEntry (e : Bytes × Bytes) : Prop where
  name : Clean e.1
  noEquals : 61 ∉ e.1
  value : Clean e.2

/-- A configuration whose entries can stand in lines. -/
def CleanMap (map : ConfigMap) : Prop := ∀ e ∈ map.entries, CleanEntry e

/-- Loading the file that was written gives the configuration of the reader. -/
def Survives (written : Reader × Int × Bytes) : Prop := loadLines written.2.2 = .ok written.1.configMap

/-! ## The condition -/

/-- Each line fits with its line break; the last one may do without. -/
def Fits : List (Bytes × Bytes) → Prop
  | [] => True
  | [e] => e.1.length + e.2.length + 1 ≤ 127
  | e :: rest => e.1.length + e.2.length + 2 ≤ 127 ∧ Fits rest

instance decidableFits : (entries : List (Bytes × Bytes)) → Decidable (Fits entries)
  | [] => inferInstanceAs (Decidable True)
  | [e] => inferInstanceAs (Decidable (e.1.length + e.2.length + 1 ≤ 127))
  | e :: e₂ :: rest =>
    have := decidableFits (e₂ :: rest)
    inferInstanceAs (Decidable (e.1.length + e.2.length + 2 ≤ 127 ∧ Fits (e₂ :: rest)))

namespace ConfigAux

/-! ## Reads -/

/-- `fgets` reads past what has no line break. -/
theorem fgets_append (n : Nat) {x : Bytes} (y : Bytes) (h : 10 ∉ x) (hlen : x.length ≤ n) :
    fgets n (x ++ y) = (x ++ (fgets (n - x.length) y).1, (fgets (n - x.length) y).2) := by
  induction x generalizing n with
  | nil => simp
  | cons ch x ih =>
    obtain ⟨hch, hx⟩ := not_or.1 (mt List.mem_cons.2 h)
    cases n with
    | zero => simp at hlen
    | succ n =>
      have := ih n hx (by simpa using hlen)
      simp [fgets, Ne.symm hch, this]

/-- And stops after one. -/
theorem fgets_break (n : Nat) (y : Bytes) : fgets (n + 1) (10 :: y) = ([10], y) := by simp [fgets]

/-- At the end there is nothing to read. -/
theorem fgets_nil (n : Nat) : fgets n [] = ([], []) := by cases n <;> rfl

/-- What was read and what is left are the file. -/
theorem fgets_parts (n : Nat) (file : Bytes) : (fgets n file).1 ++ (fgets n file).2 = file := by
  induction n generalizing file with
  | zero => rfl
  | succ n ih =>
    cases file with
    | nil => rfl
    | cons ch file =>
      rw [fgets]
      split
      · rename_i h
        simp [h]
      · simp [ih file]

/-- An empty file has no reads. -/
theorem reads_nil : reads [] = [] := by simp [reads]

/-- Any other begins with one of 255 bytes at most. -/
theorem reads_of_ne_nil {file : Bytes} (h : file ≠ []) : reads file = (fgets 255 file).1 :: reads (fgets 255 file).2 := by
  rw [reads, dif_neg h]

/-- A line with its line break is one read. -/
theorem reads_line {x : Bytes} (y : Bytes) (h : 10 ∉ x) (hlen : x.length < 255) : reads (x ++ 10 :: y) = (x ++ [10]) :: reads y := by
  obtain ⟨n, hn⟩ : ∃ n, 255 - x.length = n + 1 := ⟨254 - x.length, by omega⟩
  rw [reads_of_ne_nil (by simp), fgets_append 255 _ h (Nat.le_of_lt hlen), hn, fgets_break]

/-- So is the end of the file without one. -/
theorem reads_last {x : Bytes} (hne : x ≠ []) (h : 10 ∉ x) (hlen : x.length ≤ 255) : reads x = [x] := by
  have := fgets_append 255 [] h hlen
  rw [List.append_nil, fgets_nil, List.append_nil] at this
  rw [reads_of_ne_nil hne, this, reads_nil]

/-! ## Lines -/

/-- The line of an entry. -/
def line (e : Bytes × Bytes) : Bytes := e.1 ++ 61 :: e.2

/-- A line is its name, its value and the sign between. -/
theorem length_line (e : Bytes × Bytes) : (line e).length = e.1.length + e.2.length + 1 := by
  simp [line, Nat.add_assoc]

variable {e : Bytes × Bytes} {es : List (Bytes × Bytes)} {map map' : ConfigMap}

/-- And has no other bytes. -/
theorem not_mem_line {ch : UInt8} (hname : ch ∉ e.1) (hvalue : ch ∉ e.2) (h : ch ≠ 61) : ch ∉ line e := by
  simp [line, hname, hvalue, h]

/-- What `writeFile` writes for a clean entry, cut at 127 bytes. -/
theorem szPaire_eq (h : CleanEntry e) : szPaire e = (line e ++ [10]).take 127 := by
  simp [szPaire, cut, line, CTextAux.cString_eq_self h.name.noTerminator, CTextAux.cString_eq_self h.value.noTerminator]

/-- The whole line, where it fits. -/
theorem szPaire_of_fits (h : CleanEntry e) (hlen : (line e).length < 127) : szPaire e = line e ++ [10] := by
  rw [szPaire_eq h]
  exact List.take_of_length_le (by simpa using hlen)

/-- And its beginning, where it does not. -/
theorem szPaire_of_long (h : CleanEntry e) (hlen : 127 ≤ (line e).length) : szPaire e = (line e).take 127 := by
  rw [szPaire_eq h, List.take_append_of_le_length hlen]

/-- A clean line has no line break. -/
theorem noBreak_line (h : CleanEntry e) : 10 ∉ line e := not_mem_line h.name.noBreak h.value.noBreak (by decide)

/-- What is written for an entry: at most 127 bytes, with a line break at the end or none. -/
theorem szPaire_shape (h : CleanEntry e) : ∃ x, 10 ∉ x ∧ x.length ≤ 127 ∧ (szPaire e = x ∨ szPaire e = x ++ [10]) := by
  rcases Nat.lt_or_ge (line e).length 127 with hlen | hlen
  · exact ⟨line e, noBreak_line h, Nat.le_of_lt hlen, .inr (szPaire_of_fits h hlen)⟩
  · exact ⟨(line e).take 127, fun hmem => noBreak_line h (List.mem_of_mem_take hmem), List.length_take_le _ _,
      .inl (szPaire_of_long h hlen)⟩

/-- The rest of what is written for an entry is read in one call, which may read more. -/
theorem fgets_rest {n : Nat} {s y : Bytes} (h : CleanEntry e) (hs : s <:+ szPaire e) (hn : 128 ≤ n) : (fgets n (s ++ y)).2 <:+ y := by
  have hplain {x : Bytes} (hx : 10 ∉ x) (hlen : x.length ≤ 127) : (fgets n (x ++ y)).2 <:+ y := by
    rw [fgets_append n y hx (by omega)]
    exact ⟨_, fgets_parts _ y⟩
  obtain ⟨x, hx, hlen, hpiece | hpiece⟩ := szPaire_shape h
  · rw [hpiece] at hs
    exact hplain (fun hmem => hx (hs.subset hmem)) (hs.length_le.trans hlen)
  · rw [hpiece, List.suffix_concat_iff] at hs
    rcases hs with rfl | ⟨t, rfl, ht⟩
    · exact hplain (by simp) (by simp)
    · have hlen' := ht.length_le
      obtain ⟨m, hm⟩ : ∃ m, n - t.length = m + 1 := ⟨n - t.length - 1, by omega⟩
      rw [List.append_assoc, List.singleton_append, fgets_append n _ (fun hmem => hx (ht.subset hmem)) (by omega), hm, fgets_break]

/-- No entry takes two reads: a read that starts in its line goes to its end. -/
theorem length_reads_le (h : ∀ e ∈ es, CleanEntry e) {y : Bytes} (hy : y <:+ es.flatMap szPaire) : (reads y).length ≤ es.length := by
  induction es generalizing y with
  | nil => simp [List.suffix_nil.1 hy, reads_nil]
  | cons e es ih =>
    obtain ⟨he, hes⟩ := List.forall_mem_cons.1 h
    rw [List.flatMap_cons] at hy
    rcases List.suffix_or_suffix_of_suffix hy (List.suffix_append _ _) with hy' | ⟨s, rfl⟩
    · exact (ih hes hy').trans (Nat.le_succ _)
    · have hs : s <:+ szPaire e := by
        obtain ⟨t, ht⟩ := hy
        rw [← List.append_assoc] at ht
        exact ⟨t, List.append_cancel_right ht⟩
      by_cases hne : s ++ es.flatMap szPaire = []
      · simp [hne, reads_nil]
      · rw [reads_of_ne_nil hne]
        exact Nat.succ_le_succ (ih hes (fgets_rest he hs (by decide)))

/-! ## What is loaded -/

/-- A clean text is trimmed to itself. -/
theorem trimSpace_of_clean {text : Bytes} (h : Clean text) : trimSpace text = some text := by
  have hstart : text.dropWhile isBlank = text := by
    cases text with
    | nil => rfl
    | cons ch text => simp [List.dropWhile, h.first ch rfl]
  have hend : text.rdropWhile isBlank = text := List.rdropWhile_eq_self_iff.2 fun hne => by simp [h.last hne]
  simp [trimSpace, hstart, hend, h.notEmpty]

/-- A line is parsed back to its entry. -/
theorem parseLine_line (h : CleanEntry e) : parseLine map (line e) = map.insertNew e.1 e.2 := by
  have hname : ∀ ch ∈ e.1, decide (ch ≠ 61) = true := fun ch hch => decide_eq_true fun heq => h.noEquals (heq ▸ hch)
  have hdrop : (line e).dropWhile (· ≠ 61) = 61 :: e.2 := by
    rw [line, List.dropWhile_append_of_pos hname]
    simp [List.dropWhile]
  have htake : (line e).takeWhile (· ≠ 61) = e.1 := by
    rw [line, List.takeWhile_append_of_pos hname]
    simp [List.takeWhile]
  simp only [parseLine, hdrop, htake, trimSpace_of_clean h.name, trimSpace_of_clean h.value]

/-- A line is loaded as its entry, with its line break or without. -/
theorem loadLine_line (h : CleanEntry e) {buf : Bytes} (hbuf : buf = line e ∨ buf = line e ++ [10]) :
    loadLine map buf = .ok (map.insertNew e.1 e.2) := by
  have hzero : 0 ∉ line e := not_mem_line h.name.noTerminator h.value.noTerminator (by decide)
  have hcomment : (line e).takeWhile (· ≠ 35) = line e := by
    have := not_mem_line h.name.noComment h.value.noComment (by decide)
    exact List.takeWhile_eq_self_iff.2 fun ch hch => decide_eq_true fun heq => this (heq ▸ hch)
  have hne : line e ≠ [] := by simp [line]
  rcases hbuf with rfl | rfl
  · have hlast : (line e).getLast? ≠ some 10 := fun hlast => noBreak_line h (List.mem_of_getLast? hlast)
    simp only [loadLine, CTextAux.cString_eq_self hzero]
    rw [if_neg hne, if_neg hlast, hcomment, if_neg hne, parseLine_line h]
  · have hzero' : 0 ∉ line e ++ [10] := by simp [hzero]
    simp only [loadLine, CTextAux.cString_eq_self hzero']
    rw [if_neg (List.append_ne_nil_of_right_ne_nil _ (List.cons_ne_nil _ _)), if_pos List.getLast?_concat, List.dropLast_concat, hcomment,
      if_neg hne, parseLine_line h]

/-- Trimming adds nothing. -/
theorem length_trimSpace_le {text text' : Bytes} (h : trimSpace text = some text') : text'.length ≤ text.length := by
  simp only [trimSpace] at h
  split at h
  · cases h
  · cases h
    exact (List.rdropWhile_prefix isBlank _).length_le.trans (List.dropWhile_suffix isBlank).length_le

/-- A line adds one entry or none. -/
theorem parseLine_cases (text : Bytes) : parseLine map text = map ∨
    ∃ name value, name.length + value.length + 1 ≤ text.length ∧ parseLine map text = map.insertNew name value := by
  simp only [parseLine]
  split
  · exact .inl rfl
  · rename_i ch rest hdrop
    split
    · rename_i key value hkey hvalue
      have hparts := congrArg List.length (List.takeWhile_append_dropWhile (p := (· ≠ 61)) (l := text))
      rw [hdrop, List.length_append, List.length_cons] at hparts
      have := length_trimSpace_le hkey
      have := length_trimSpace_le hvalue
      exact .inr ⟨key, value, by omega, rfl⟩
    · exact .inl rfl

/-- A read adds an entry at most, and none that is longer than what was read. -/
theorem loadLine_cases {buf : Bytes} (h : loadLine map buf = .ok map') :
    map' = map ∨ ∃ name value, name.length + value.length + 1 ≤ buf.length ∧ map' = map.insertNew name value := by
  simp only [loadLine] at h
  split at h
  · cases h
  · generalize htext : (if (cString buf).getLast? = some 10 then (cString buf).dropLast else cString buf).takeWhile (· ≠ 35) = text at h
    have hlen : text.length ≤ buf.length := by
      rw [← htext]
      refine (List.takeWhile_prefix _).length_le.trans (le_trans ?_ (List.takeWhile_prefix (· ≠ 0)).length_le)
      split
      · exact (List.dropLast_prefix _).length_le
      · exact Nat.le_refl _
    obtain rfl := Except.ok.inj h
    split
    · exact .inl rfl
    · rcases parseLine_cases text with hmap | ⟨name, value, hparts, hmap⟩
      · exact .inl hmap
      · exact .inr ⟨name, value, hparts.trans hlen, hmap⟩

/-- And so does a read. -/
theorem length_loadLine_le {buf : Bytes} (h : loadLine map buf = .ok map') : map'.entries.length ≤ map.entries.length + 1 := by
  rcases loadLine_cases h with rfl | ⟨name, value, -, rfl⟩
  · exact Nat.le_succ _
  · exact OrderedMap.length_putList_le

/-- There are no more entries than reads. -/
theorem length_foldlM_le {bufs : List Bytes} (h : bufs.foldlM loadLine map = .ok map') :
    map'.entries.length ≤ map.entries.length + bufs.length := by
  induction bufs generalizing map with
  | nil =>
    obtain rfl := Except.ok.inj h
    exact Nat.le_refl _
  | cons buf bufs ih =>
    rw [List.foldlM_cons] at h
    cases hline : loadLine map buf with
    | error err => rw [hline] at h; cases h
    | ok map₁ =>
      rw [hline] at h
      have := ih h
      have := length_loadLine_le hline
      simp only [List.length_cons]
      omega

/-! ## Entry by entry -/

/-- The last line comes back when it fits, with its line break or just without. -/
theorem last_iff (map : ConfigMap) (h : CleanEntry e) (hnew : ∀ x ∈ map.entries, x.1 < e.1) :
    (∃ map', (reads (szPaire e)).foldlM loadLine map = .ok map' ∧ map'.entries = map.entries ++ [e]) ↔ (line e).length ≤ 127 := by
  have hinsert : (map.insertNew e.1 e.2).entries = map.entries ++ [e] := OrderedMap.putList_of_last hnew
  constructor
  · rintro ⟨map', hload, hmap⟩
    by_contra hlong
    have htake : ((line e).take 127).length = 127 := List.length_take_of_le (by omega)
    have hbreak : 10 ∉ (line e).take 127 := fun hmem => noBreak_line h (List.mem_of_mem_take hmem)
    rw [szPaire_of_long h (by omega), reads_last (by simp [line]) hbreak (by omega), List.foldlM_cons] at hload
    have hline : loadLine map ((line e).take 127) = .ok map' := by
      cases hline : loadLine map ((line e).take 127) <;> rw [hline] at hload <;> exact hload
    have hmem : e ∈ map'.entries := by simp [hmap]
    have hold : e ∉ map.entries := fun hmem => lt_irrefl _ (hnew e hmem)
    rcases loadLine_cases hline with rfl | ⟨name, value, hparts, rfl⟩
    · exact hold hmem
    · rcases OrderedMap.mem_insertNew hmem with rfl | hmem
      · rw [length_line] at hlong
        simp only at hlong hparts
        omega
      · exact hold hmem
  · intro hlen
    refine ⟨_, ?_, hinsert⟩
    rcases Nat.lt_or_eq_of_le hlen with hlen | hlen
    · rw [szPaire_of_fits h hlen, reads_line [] (noBreak_line h) (by omega), reads_nil, List.foldlM_cons, loadLine_line h (.inr rfl)]
      rfl
    · rw [szPaire_of_long h (by omega), List.take_of_length_le (by omega),
        reads_last (by simp [line]) (noBreak_line h) (by omega), List.foldlM_cons, loadLine_line h (.inl rfl)]
      rfl

/-- The written entries come back, behind those that are there, exactly when their lines fit. -/
theorem entries_iff (map : ConfigMap) (h : ∀ e ∈ es, CleanEntry e) (hordered : (map.entries ++ es).Pairwise fun a b => a.1 < b.1) :
    (∃ map', (reads (es.flatMap szPaire)).foldlM loadLine map = .ok map' ∧ map'.entries = map.entries ++ es) ↔ Fits es := by
  induction es generalizing map with
  | nil => simp [reads_nil, Fits, pure, Except.pure]
  | cons e es ih =>
    obtain ⟨he, hes⟩ := List.forall_mem_cons.1 h
    have hnew : ∀ x ∈ map.entries, x.1 < e.1 := fun x hx => (List.pairwise_append.1 hordered).2.2 x hx e List.mem_cons_self
    cases es with
    | nil =>
      rw [List.flatMap_cons, List.flatMap_nil, List.append_nil, last_iff _ he hnew, length_line]
      rfl
    | cons e₂ es =>
      have hinsert : (map.insertNew e.1 e.2).entries = map.entries ++ [e] := OrderedMap.putList_of_last hnew
      have hfits : Fits (e :: e₂ :: es) ↔ (line e).length < 127 ∧ Fits (e₂ :: es) := by
        rw [length_line]
        exact and_congr_left' (by omega)
      rw [hfits, List.flatMap_cons]
      by_cases hlen : (line e).length < 127
      · have hih := ih (map.insertNew e.1 e.2) hes (by rw [hinsert]; simpa using hordered)
        rw [hinsert, List.append_assoc] at hih
        rw [szPaire_of_fits he hlen, List.append_assoc, List.singleton_append, reads_line _ (noBreak_line he) (by omega),
          List.foldlM_cons, loadLine_line he (.inr rfl)]
        exact hih.trans (and_iff_right hlen).symm
      · -- The line break is cut off: one read takes the next line as well, and there are too few reads for the entries.
        refine iff_of_false ?_ fun hfit => hlen hfit.1
        rintro ⟨map', hload, hmap⟩
        have htake : ((line e).take 127).length = 127 := List.length_take_of_le (by omega)
        have hbreak : 10 ∉ (line e).take 127 := fun hmem => noBreak_line he (List.mem_of_mem_take hmem)
        have hsuffix : (fgets 255 (szPaire e ++ (e₂ :: es).flatMap szPaire)).2 <:+ es.flatMap szPaire := by
          rw [szPaire_of_long he (by omega), fgets_append 255 _ hbreak (by omega), htake, List.flatMap_cons]
          exact fgets_rest (hes e₂ List.mem_cons_self) (List.suffix_refl _) (by decide)
        have hne : szPaire e ++ (e₂ :: es).flatMap szPaire ≠ [] := by
          rw [szPaire_of_long he (by omega)]
          exact List.append_ne_nil_of_left_ne_nil (List.length_pos_iff.1 (by omega)) _
        have hreads := length_reads_le (fun x hx => hes x (List.mem_cons_of_mem e₂ hx)) hsuffix
        have hcount := length_foldlM_le hload
        rw [hmap, reads_of_ne_nil hne] at hcount
        simp only [List.length_append, List.length_cons] at hcount
        omega

/-- The lines that are written one after another. -/
theorem writeLoop_eq (disk : Disk) (i : Nat) (file : Bytes) (h : (writeLoop disk i es file).1 = 0) :
    (writeLoop disk i es file).2 = file ++ es.flatMap szPaire := by
  induction es generalizing i file with
  | nil => simp [writeLoop]
  | cons e es ih =>
    rw [writeLoop] at h ⊢
    split at h
    · rename_i hwrites
      rw [if_pos hwrites, ih (i + 1) _ h, List.flatMap_cons, List.append_assoc]
    · cases h

/-- The file that is written is the entries' lines. -/
theorem writeFile_eq {disk : Disk} {file : Bytes} (h : (writeFile disk map file).1 = 0) :
    (writeFile disk map file).2 = map.entries.flatMap szPaire := by
  rw [writeFile] at h ⊢
  split at h
  · rename_i hopens
    rw [if_pos hopens, writeLoop_eq disk 0 [] h, List.nil_append]
  · cases h

end ConfigAux

open ConfigAux

/-- A configuration that was written with success comes back exactly when its lines fit. -/
theorem survives_iff (r : Reader) (disk : Disk) (name value file : Bytes) (hclean : CleanMap (r.configMap.assign name value))
    (hresult : (r.setConfigValue disk name value file).2.1 = 0) :
    Survives (r.setConfigValue disk name value file) ↔ Fits (r.configMap.assign name value).entries := by
  have hok : r.loadOk = true := by
    by_contra hok
    simp [Reader.setConfigValue, hok] at hresult
  simp only [Reader.setConfigValue, hok, if_true] at hresult ⊢
  simp only [Survives, loadLines, writeFile_eq hresult]
  have hall := entries_iff .empty hclean (by simpa [OrderedMap.empty] using (r.configMap.assign name value).ordered)
  simp only [OrderedMap.empty, List.nil_append] at hall
  rw [← hall]
  constructor
  · exact fun h => ⟨_, h, rfl⟩
  · rintro ⟨map', h, hmap⟩
    exact OrderedMap.ext hmap ▸ h

/-- A name and a value that fit are loaded again. -/
theorem survives_short : Survives ((⟨true, .empty⟩ : Reader).setConfigValue ⟨true, fun _ => true⟩ [97] [49, 50] []) := by
  refine (survives_iff _ _ _ _ _ (fun e he => ?_) rfl).2 (by decide)
  obtain rfl : e = ([97], [49, 50]) := List.mem_singleton.1 he
  exact ⟨⟨by simp, by simp, by simp, by simp, by simp [isBlank], by simp [isBlank]⟩, by simp,
    ⟨by simp, by simp, by simp, by simp, by simp [isBlank], by simp [isBlank]⟩⟩

/-- A value of 126 bytes is written without its last one, and `SetConfigValue` reports success. -/
theorem lost_byte : ¬ ∀ (r : Reader) (disk : Disk) (name value file : Bytes), CleanMap (r.configMap.assign name value) →
    (r.setConfigValue disk name value file).2.1 = 0 → Survives (r.setConfigValue disk name value file) := by
  intro h
  have hname : Clean [97] := ⟨by simp, by simp, by simp, by simp, by simp [isBlank], by simp [isBlank]⟩
  have hvalue : Clean (List.replicate 126 97) := ⟨by simp, by simp, by simp, by simp, by simp [isBlank], by simp [isBlank]⟩
  have hclean : CleanEntry ([97], List.replicate 126 97) := ⟨hname, by simp, hvalue⟩
  have hback := h ⟨true, .empty⟩ ⟨true, fun _ => true⟩ [97] (List.replicate 126 97) []
    (fun e he => List.mem_singleton.1 he ▸ hclean) rfl
  have hlong := (last_iff .empty hclean fun x hx => by cases hx).1 ⟨_, hback, rfl⟩
  simp [length_line] at hlong

end TeamTalk.ConfigFileReader
