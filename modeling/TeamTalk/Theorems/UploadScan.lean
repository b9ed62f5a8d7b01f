import TeamTalk.Lib.Search
import TeamTalk.Msfs.UploadScan

/-!
# Uploads are read within their content

The walk through the body of an upload stays within the content, computes no negative length and ends with one answer, unless the quote
behind the file name is missing, the height stands before the width, the boundary follows the headers at once, or the file cannot be
created.
-/

namespace TeamTalk.Msfs

/-! ## The property -/

/-- A response to the client. -/
def Output.isResponse : Output → Bool
  | .refused _ => true
  | .success _ _ _ _ => true
  | .download _ _ => true
  | .undefinedBehaviour => false

/-- The walk reads and copies within the content, no length is negative, and there is one response. -/
structure SafelyAnswered (cfg : Config) (s : State) (u : Upload) : Prop where
  within : ∃ verdict, (Scan.onUpload u.content u.contentType).result = .ok verdict
  lengths : ∀ len ∈ (Scan.onUpload u.content u.contentType).lengths, 0 ≤ len
  answered : (s.onUpload cfg u).2.countP Output.isResponse = 1

/-! ## The condition -/

/-- The name of the file, with a dot that leaves a short type. -/
def Named (content name : Bytes) (dot : Nat) : Prop :=
  fileName content = .ok name ∧ memfindLast name (chars ".") = some dot ∧ name.length ≤ dot + 16

/-- The boundary that the content type names. -/
def boundaryOf (contentType : Bytes) : Option Bytes :=
  (stringFind contentType (chars "boundary=")).map fun mark => contentType.drop (mark + (chars "boundary=").length)

/-- The headers of the file end here: the boundary is searched, then `Content-Type:` and the end mark. -/
def HeadersEnd (content boundary : Bytes) (tail : Nat) : Prop :=
  ∃ first header n, memfind content boundary = some first ∧ memfind (content.drop first) (chars "Content-Type:") = some header ∧
    memfind (content.drop (first + header)) httpEndMark = some n ∧ tail = first + header + n

/-- There is a quote behind the file name. -/
def Quoted (content : Bytes) : Prop :=
  ∀ disposition mark, memfind content (chars "Content-Disposition:") = some disposition →
    memfind (content.drop disposition) (chars "filename=") = some mark →
      34 ∈ content.drop (disposition + mark + (chars "filename=").length + 1)

/-- The dot of the name stands behind the `x` of the size in it. -/
def Sized (content : Bytes) : Prop :=
  ∀ name dot low x, Named content name dot → memfindLast name (chars "_") = some low →
    memfind ((name.drop low).take (name.length - (low + 1))) (chars "x") = some x → low + x < dot

/-- The boundary does not come before the fifth byte behind the headers. -/
def Ended (content contentType : Bytes) : Prop :=
  ∀ name dot boundary tail last, Named content name dot → boundaryOf contentType = some boundary →
    HeadersEnd content boundary tail → memfind (content.drop tail) boundary = some last → 8 ≤ last

/-- The condition on an upload; and a file that is not too large can be created. -/
structure UploadMeets (cfg : Config) (s : State) (u : Upload) : Prop where
  quoted : Quoted u.content
  sized : Sized u.content
  ended : Ended u.content u.contentType
  created : ∀ part, findPart u.content u.contentType = .ok part → (part.fileSize % uint32Size).toNat ≤ maxFileSizePerFile →
    u.outcome.created = true ∧ s.files (uploadPath cfg s.totFiles u.usec u.tid part.type part.extend) = none

namespace UploadScanAux

variable {content contentType sub src name : Bytes} {base place n i code : Nat} {lengths : List Int} {next : List Int → Nat → Scan}

/-! ## `memfind` -/

/-- A prefix, by comparing as many bytes. -/
theorem isPrefixOf_eq (src sub : Bytes) : sub.isPrefixOf src = decide (src.take sub.length = sub) := by
  rw [Bool.eq_iff_iff, List.isPrefixOf_iff_prefix, decide_eq_true_iff, List.prefix_iff_eq_take, eq_comm]

/-- The loop finds the first place that matches. -/
theorem memfindLoop_eq (h : place + n + sub.length ≤ content.length) : memfindLoop content sub place n =
    .ok (((List.range n).find? fun i => sub.isPrefixOf (content.drop (place + i))).map (place + ·)) := by
  induction n generalizing place with
  | zero => rfl
  | succ n ih =>
    have hread : readAt content place sub.length = .ok ((content.drop place).take sub.length) := if_pos (by omega)
    unfold memfindLoop
    rw [hread]
    dsimp only
    rw [List.range_succ_eq_map, List.find?_cons, isPrefixOf_eq]
    simp only [Nat.add_zero]
    by_cases heq : (content.drop place).take sub.length = sub
    · simp [heq]
    · rw [if_neg heq, ih (by omega), List.find?_map]
      simp only [heq, decide_false, Function.comp_def, Option.map_map, Nat.succ_eq_add_one, Nat.add_comm, Nat.add_left_comm]

/-- A search to the end of the content stays within it, and finds what the search in the rest of the content finds. -/
theorem memfindAt_eq (hbase : base ≤ content.length) :
    memfindAt content base (content.length - base) sub = .ok ((memfind (content.drop base) sub).map (base + ·)) := by
  unfold memfindAt memfind
  simp only [List.length_drop]
  split
  · rfl
  · split
    next heq =>
      rw [heq, readAt, if_pos (by omega), ← heq, ← List.length_drop, List.take_length]
      simp only [Except.map]
      split <;> rfl
    next =>
      rw [memfindLoop_eq (by omega)]
      simp only [List.drop_drop]

/-- What is found lies inside. -/
theorem memfind_le (h : memfind src sub = some i) : i + sub.length ≤ src.length := by
  unfold memfind at h
  split at h
  · cases h
  · split at h
    · split at h
      · cases h
        omega
      · cases h
    · have := (Search.find?_range_eq_some.1 h).1
      omega

/-- So the source is not empty. -/
theorem memfind_pos (h : memfind src sub = some i) : 0 < src.length := by
  rw [Nat.pos_iff_ne_zero]
  intro hzero
  rw [memfind, if_pos (.inl hzero)] at h
  cases h

/-- And the pattern is there. -/
theorem memfind_prefix (h : memfind src sub = some i) : sub <+: src.drop i := by
  unfold memfind at h
  split at h
  · cases h
  · split at h
    · split at h
      next heq =>
        cases h
        rw [heq]
        exact List.prefix_refl sub
      · cases h
    · exact (Search.find?_range_eq_some.1 h).2.here

/-- The same for the search from the end. -/
theorem memfindLast_front (h : memfindLast src sub = some i) : i + sub.length ≤ src.length ∧ sub <+: src.drop i := by
  unfold memfindLast at h
  split at h
  · cases h
  · split at h
    · split at h
      next heq =>
        cases h
        rw [heq]
        exact ⟨by simp, List.prefix_refl sub⟩
      · cases h
    · have hprefix : sub.isPrefixOf (src.drop i) = true := List.find?_some (p := fun i => sub.isPrefixOf (src.drop i)) h
      have hmem := List.mem_range.1 (List.mem_reverse.1 (List.mem_of_find?_eq_some h))
      exact ⟨by omega, List.isPrefixOf_iff_prefix.1 hprefix⟩

/-! ## The quote -/

/-- A search for one byte that may leave the content: it does when the byte is not there. -/
theorem memfindLoop_byte {b : UInt8} (hn : 0 < n) (h : content.length < place + n) : memfindLoop content [b] place n =
    ((content.drop place).idxOf? b).elim (.error .undefinedBehaviour) fun i => .ok (some (place + i)) := by
  induction n generalizing place with
  | zero => exact absurd hn (lt_irrefl 0)
  | succ n ih =>
    unfold memfindLoop
    rcases lt_or_ge place content.length with hlt | hge
    · have hread : readAt content place 1 = .ok [content[place]] := by
        rw [readAt, if_pos (by omega), List.drop_eq_getElem_cons hlt]
        rfl
      rw [List.length_singleton, hread, List.drop_eq_getElem_cons hlt, List.idxOf?_cons]
      by_cases heq : content[place] = b
      · simp [heq]
      · simp only [List.cons.injEq, heq, false_and, if_false]
        rw [ih (by omega) (by omega)]
        cases (content.drop (place + 1)).idxOf? b with
        | none => simp [heq]
        | some i =>
          simp only [Option.elim_some, beq_iff_eq, heq, if_false, Option.map_some]
          rw [Nat.add_right_comm, Nat.add_assoc]
    · have hread : readAt content place 1 = .error .undefinedBehaviour := if_neg (by omega)
      rw [List.length_singleton, hread, List.drop_of_length_le hge]
      rfl

/-- The search for the quote goes on beyond the content. -/
theorem memfindAt_quote {disposition mark : Nat} (hmark : mark + 9 ≤ content.length) (hle : disposition ≤ mark) :
    memfindAt content (mark + 9 + 1) (content.length - disposition) (chars "\"") =
      ((content.drop (mark + 9 + 1)).idxOf? 34).elim (.error .undefinedBehaviour) fun i => .ok (some (mark + 9 + 1 + i)) := by
  have hquote : chars "\"" = [34] := by decide
  unfold memfindAt
  rw [hquote, List.length_singleton, if_neg (by omega), if_neg (by omega)]
  exact memfindLoop_byte (by omega) (by omega)

/-! ## The walk -/

/-- No length is negative. -/
def Nonneg (lengths : List Int) : Prop := ∀ len ∈ lengths, 0 ≤ len

/-- Two lists of lengths without a negative one. -/
theorem nonneg_append {lengths more : List Int} : Nonneg (lengths ++ more) ↔ Nonneg lengths ∧ Nonneg more := List.forall_mem_append

/-- One more length. -/
theorem nonneg_snoc {len : Int} : Nonneg (lengths ++ [len]) ↔ Nonneg lengths ∧ 0 ≤ len := by
  rw [nonneg_append]
  simp [Nonneg]

/-- The walk stays within the content, and no length is negative. -/
def Good (scan : Scan) : Prop := (∃ verdict, scan.result = .ok verdict) ∧ Nonneg scan.lengths

/-- A refusal reads nothing. -/
theorem good_refuse (h : Nonneg lengths) (code : Nat) : Good (Scan.refuse lengths code) := ⟨⟨_, rfl⟩, h⟩

/-- What a search does. -/
theorem search_eq (hbase : base ≤ content.length) : Scan.search content lengths base sub code next =
    (memfind (content.drop base) sub).elim (Scan.refuse (lengths ++ [(content.length : Int) - base]) code) fun i =>
      next (lengths ++ [(content.length : Int) - base]) (base + i) := by
  unfold Scan.search
  rw [memfindAt_eq hbase]
  cases memfind (content.drop base) sub <;> rfl

/-- A search is good when all goes well behind what is found. -/
theorem search_good {Q : Nat → Prop} (hbase : base ≤ content.length) (hnonneg : Nonneg lengths)
    (hnext : ∀ lengths i, Nonneg lengths → memfind (content.drop base) sub = some i → base + i + sub.length ≤ content.length →
      (Good (next lengths (base + i)) ↔ Q i)) :
    Good (Scan.search content lengths base sub code next) ↔ ∀ i, memfind (content.drop base) sub = some i → Q i := by
  rw [search_eq hbase]
  have hmore : Nonneg (lengths ++ [(content.length : Int) - base]) := nonneg_snoc.2 ⟨hnonneg, by omega⟩
  cases hfind : memfind (content.drop base) sub with
  | none =>
    refine iff_of_true (good_refuse hmore code) fun i hi => ?_
    cases hi
  | some i =>
    have hle := memfind_le hfind
    rw [List.length_drop] at hle
    refine (hnext _ i hmore hfind (by omega)).trans ⟨fun hq j hj => ?_, fun hq => hq i rfl⟩
    cases hj
    exact hq

/-! ### The file -/

/-- The copy stays within the content, for a size that is not negative, and none is made for one that is. -/
theorem copyFile_ok (fileStart : Nat) {last : Nat} (hlast : last ≤ content.length) (hstart : fileStart ≤ last + 8) :
    ∃ bytes, Scan.copyFile content fileStart ((last : Int) - 4 - fileStart) = .ok bytes := by
  unfold Scan.copyFile
  dsimp only
  split
  next hsmall =>
    refine ⟨_, if_pos ?_⟩
    obtain ⟨-, hsize⟩ := hsmall
    unfold maxFileSizePerFile uint32Size at *
    omega
  · exact ⟨_, rfl⟩

/-- A result that is mapped is still one. -/
theorem map_ok {α β : Type} {x : Exec α} {a : α} (h : x = .ok a) (f : α → β) : ∃ b, x.map f = .ok b := ⟨f a, by rw [h]; rfl⟩

/-- A search keeps the lengths that were computed before it. -/
theorem search_keeps (hnext : ∀ lengths i, lengths ⊆ (next lengths i).lengths) :
    lengths ⊆ (Scan.search content lengths base sub code next).lengths := by
  intro len hlen
  have hmore : len ∈ lengths ++ [(content.length : Int) - base] := List.mem_append_left _ hlen
  unfold Scan.search
  dsimp only
  split
  · exact hmore
  · exact hmore
  next i _ => exact hnext _ i hmore

/-- The last search keeps the lengths before it. -/
theorem file_keeps {type ext : Bytes} : lengths ⊆ (Scan.file content contentType lengths type ext).lengths := by
  intro len hlen
  unfold Scan.file
  split
  · exact hlen
  · refine search_keeps (fun lengths first => ?_) (List.mem_append_left _ hlen)
    refine search_keeps fun lengths header => ?_
    refine search_keeps fun lengths tail => ?_
    refine search_keeps fun lengths last => ?_
    exact List.subset_append_left _ _

/-- And is safe exactly when the headers end before the boundary's room does. -/
theorem file_good {type ext : Bytes} (hnonneg : Nonneg lengths) : Good (Scan.file content contentType lengths type ext) ↔
    ∀ boundary tail last, boundaryOf contentType = some boundary → HeadersEnd content boundary tail →
      memfind (content.drop tail) boundary = some last → 8 ≤ last := by
  unfold Scan.file boundaryOf
  cases hmark : stringFind contentType (chars "boundary=") with
  | none =>
    refine iff_of_true (good_refuse hnonneg 4) fun boundary tail last hboundary => ?_
    cases hboundary
  | some mark =>
    have hmarkLe := (Search.find?_range_eq_some.1 hmark).2.le_length (by decide)
    have hmore : Nonneg (lengths ++ [(contentType.length : Int) - mark - (chars "boundary=").length]) :=
      nonneg_snoc.2 ⟨hnonneg, by omega⟩
    dsimp only
    generalize hboundary : contentType.drop (mark + (chars "boundary=").length) = boundary
    -- the four searches in turn
    refine (search_good (Q := fun first => ∀ header, memfind (content.drop first) (chars "Content-Type:") = some header → ∀ n,
      memfind (content.drop (first + header)) httpEndMark = some n → ∀ last,
        memfind (content.drop (first + header + n)) boundary = some last → 8 ≤ last) (Nat.zero_le _) hmore ?_).trans ?_
    · intro lengths first hnonneg hfirst hle
      rw [Nat.zero_add] at hle ⊢
      refine search_good (by omega) hnonneg fun lengths header hnonneg hheader hle => ?_
      refine search_good (by omega) hnonneg fun lengths n hnonneg hn hle => ?_
      refine search_good (by omega) hnonneg fun lengths last hnonneg hlast hle => ?_
      have hend : httpEndMark.length = 4 := rfl
      rw [hend]
      constructor
      · intro hgood
        have hsize := (nonneg_snoc.1 hgood.2).2
        omega
      · intro hfar
        have hend : first + header + n + last ≤ content.length := by omega
        obtain ⟨bytes, hcopy⟩ := copyFile_ok (first + header + n + 4) hend (by omega)
        exact ⟨map_ok hcopy _, nonneg_snoc.2 ⟨hnonneg, by omega⟩⟩
    · have hnamed : Option.map (fun mark => contentType.drop (mark + (chars "boundary=").length)) (some mark) = some boundary := by
        rw [Option.map_some, hboundary]
      constructor
      · rintro hall boundary' tail last hboundary' ⟨first, header, n, hfirst, hheader, hn, rfl⟩ hlast
        cases hnamed.symm.trans hboundary'
        exact hall first hfirst header hheader n hn last hlast
      · intro hall first hfirst header hheader n hn last hlast
        exact hall boundary _ last hnamed ⟨first, header, n, hfirst, hheader, hn, rfl⟩ hlast

/-! ### The name -/

/-- An `x` stands behind the underscore, not on it. -/
theorem size_pos {low x : Nat} (hlow : memfindLast name (chars "_") = some low)
    (hx : memfind ((name.drop low).take (name.length - (low + 1))) (chars "x") = some x) : 0 < x := by
  rw [Nat.pos_iff_ne_zero]
  rintro rfl
  obtain ⟨-, rest, hrest⟩ := memfindLast_front hlow
  obtain ⟨rest', hrest'⟩ := memfind_prefix hx
  rw [List.drop_zero, ← hrest] at hrest'
  have hunderscore : chars "_" = [95] := by decide
  have hletter : chars "x" = [120] := by decide
  rw [hunderscore, hletter] at hrest'
  cases hn : name.length - (low + 1) with
  | zero =>
    rw [hn] at hrest'
    simp at hrest'
  | succ n =>
    rw [hn] at hrest'
    simp at hrest'

/-- The lengths of the width and the height. -/
theorem sizeLengths_nonneg {dot : Nat} : Nonneg (Scan.sizeLengths name dot) ↔ ∀ low x, memfindLast name (chars "_") = some low →
    memfind ((name.drop low).take (name.length - (low + 1))) (chars "x") = some x → low + x < dot := by
  unfold Scan.sizeLengths
  cases hlow : memfindLast name (chars "_") with
  | none =>
    refine iff_of_true (fun len hlen => ?_) fun low x hlow' => ?_
    · cases hlen
    · cases hlow'
  | some low =>
    have hlowLe := (memfindLast_front hlow).1
    have hone : (chars "_").length = 1 := by decide
    dsimp only
    cases hx : memfind ((name.drop low).take (name.length - (low + 1))) (chars "x") with
    | none =>
      refine iff_of_true (fun len hlen => ?_) ?_
      · cases List.mem_singleton.1 hlen
        omega
      · rintro _ x ⟨⟩ hx'
        rw [hx] at hx'
        cases hx'
    | some x =>
      have hpos := size_pos hlow hx
      constructor
      · rintro hnonneg _ _ ⟨⟩ hx'
        cases hx.symm.trans hx'
        have := hnonneg ((dot : Int) - (low + x) - 1) (by simp)
        omega
      · intro hall len hlen
        have hlt := hall low x rfl hx
        simp only [List.mem_cons, List.not_mem_nil, or_false] at hlen
        omega

/-- The search from a name on. -/
theorem named_good (hnonneg : Nonneg lengths) (hname : fileName content = .ok name) : Good (Scan.named content contentType lengths name) ↔
    (∀ dot low x, Named content name dot → memfindLast name (chars "_") = some low →
      memfind ((name.drop low).take (name.length - (low + 1))) (chars "x") = some x → low + x < dot) ∧
    ∀ dot boundary tail last, Named content name dot → boundaryOf contentType = some boundary → HeadersEnd content boundary tail →
      memfind (content.drop tail) boundary = some last → 8 ≤ last := by
  unfold Scan.named
  have hnamed : ∀ {dot}, Named content name dot ↔ memfindLast name (chars ".") = some dot ∧ name.length ≤ dot + 16 := by
    intro dot
    rw [Named, hname]
    simp
  simp only [hnamed]
  cases hdot : memfindLast name (chars ".") with
  | none =>
    refine iff_of_true (good_refuse hnonneg 10) ⟨?_, ?_⟩
    · rintro dot low x ⟨hdot', -⟩
      cases hdot'
    · rintro dot boundary tail last ⟨hdot', -⟩
      cases hdot'
  | some dot =>
    have hdotLe := (memfindLast_front hdot).1
    have hone : (chars ".").length = 1 := by decide
    have hmore : Nonneg (lengths ++ [(name.length : Int) - (dot + 1)]) := nonneg_snoc.2 ⟨hnonneg, by omega⟩
    dsimp only
    split
    next hshort =>
      by_cases hsize : Nonneg (Scan.sizeLengths name dot)
      · refine (file_good (nonneg_append.2 ⟨hmore, hsize⟩)).trans ?_
        constructor
        · intro hfile
          refine ⟨?_, ?_⟩
          · rintro _ low x ⟨⟨⟩, -⟩
            exact sizeLengths_nonneg.1 hsize low x
          · rintro _ boundary tail last ⟨⟨⟩, -⟩
            exact hfile boundary tail last
        · rintro ⟨-, hfile⟩ boundary tail last
          exact hfile dot boundary tail last ⟨rfl, by omega⟩
      · -- the negative length is kept
        refine iff_of_false (fun hgood => ?_) ?_
        · exact hsize fun len hlen => hgood.2 len (file_keeps (List.mem_append_right _ hlen))
        · rintro ⟨hall, -⟩
          exact hsize (sizeLengths_nonneg.2 fun low x => hall dot low x ⟨rfl, by omega⟩)
    next hlong =>
      refine iff_of_true (good_refuse hmore 9) ⟨?_, ?_⟩
      · rintro _ low x ⟨⟨⟩, hle⟩
        omega
      · rintro _ boundary tail last ⟨⟨⟩, hle⟩
        omega

/-! ### The whole walk -/

/-- What the name is, where the marks before it are found. -/
theorem fileName_of {disposition mark : Nat} (hdisposition : memfind content (chars "Content-Disposition:") = some disposition)
    (hmark : memfind (content.drop disposition) (chars "filename=") = some mark) : fileName content =
      ((content.drop (disposition + mark + (chars "filename=").length + 1)).idxOf? 34).elim (.error .undefinedBehaviour) fun n =>
        if n ≤ 255 then .ok ((content.drop (disposition + mark + (chars "filename=").length + 1)).take n) else .error (.code 11) := by
  unfold fileName
  simp only [hdisposition, orCode, bind, Except.bind, hmark]
  cases (content.drop (disposition + mark + (chars "filename=").length + 1)).idxOf? 34 <;> rfl

/-- Where there is a name, the marks before it are found. -/
theorem marks_of_fileName (h : fileName content = .ok name) : ∃ disposition mark,
    memfind content (chars "Content-Disposition:") = some disposition ∧
      memfind (content.drop disposition) (chars "filename=") = some mark := by
  cases hdisposition : memfind content (chars "Content-Disposition:") with
  | none =>
    unfold fileName at h
    simp [hdisposition, orCode, bind, Except.bind] at h
  | some disposition =>
    cases hmark : memfind (content.drop disposition) (chars "filename=") with
    | none =>
      unfold fileName at h
      simp [hdisposition, hmark, orCode, bind, Except.bind] at h
    | some mark => exact ⟨disposition, mark, rfl, hmark⟩

/-- And the whole of it. -/
theorem onUpload_good : Good (Scan.onUpload content contentType) ↔ Quoted content ∧ Sized content ∧ Ended content contentType := by
  -- what is to hold of the name that follows the two marks
  let NameGood (disposition mark : Nat) : Prop :=
    34 ∈ content.drop (disposition + mark + (chars "filename=").length + 1) ∧ ∀ name, fileName content = .ok name →
      (∀ dot low x, Named content name dot → memfindLast name (chars "_") = some low →
        memfind ((name.drop low).take (name.length - (low + 1))) (chars "x") = some x → low + x < dot) ∧
      ∀ dot boundary tail last, Named content name dot → boundaryOf contentType = some boundary → HeadersEnd content boundary tail →
        memfind (content.drop tail) boundary = some last → 8 ≤ last
  have hlen : (chars "filename=").length = 9 := by decide
  unfold Scan.onUpload
  refine (search_good (Q := fun disposition => ∀ mark, memfind (content.drop disposition) (chars "filename=") = some mark →
    NameGood disposition mark) (Nat.zero_le _) (fun len hlen => by cases hlen) ?_).trans ?_
  · intro lengths disposition hnonneg hdisposition hle
    rw [Nat.zero_add] at hle ⊢
    rw [List.drop_zero] at hdisposition
    refine search_good (by omega) hnonneg fun lengths mark hnonneg hmark hle => ?_
    have hname := fileName_of hdisposition hmark
    rw [hlen] at hname hle ⊢
    simp only [NameGood, hlen]
    rw [memfindAt_quote (by omega) (by omega)]
    cases hquote : (content.drop (disposition + mark + 9 + 1)).idxOf? 34 with
    | none =>
      refine iff_of_false ?_ fun hgood => List.idxOf?_eq_none_iff.1 hquote hgood.1
      rintro ⟨⟨verdict, hverdict⟩, -⟩
      cases hverdict
    | some n =>
      rw [hquote, Option.elim_some] at hname
      have hin : 34 ∈ content.drop (disposition + mark + 9 + 1) := by
        by_contra hnot
        rw [List.idxOf?_eq_none_iff.2 hnot] at hquote
        cases hquote
      have hnLe : n < (content.drop (disposition + mark + 9 + 1)).length := by
        obtain ⟨hlt, -⟩ := List.idxOf?_eq_some_iff.1 hquote
        exact hlt
      rw [List.length_drop] at hnLe
      have hmore : Nonneg (lengths ++ [((disposition + mark + 9 + 1 + n : Nat) : Int) - (disposition + mark + 9 + 1 : Nat)]) :=
        nonneg_snoc.2 ⟨hnonneg, by omega⟩
      simp only [Option.elim_some]
      by_cases hshort : n ≤ 255
      · rw [if_pos hshort] at hname
        have htoNat : (((disposition + mark + 9 + 1 + n : Nat) : Int) - (disposition + mark + 9 + 1 : Nat)).toNat = n := by omega
        have hread : readAt content (disposition + mark + 9 + 1) n = .ok ((content.drop (disposition + mark + 9 + 1)).take n) :=
          if_pos (by omega)
        rw [if_pos (by omega), htoNat, hread]
        refine (named_good hmore hname).trans ⟨fun hgood => ⟨hin, fun name hname' => ?_⟩, fun hgood => hgood.2 _ hname⟩
        rw [hname] at hname'
        cases hname'
        exact hgood
      · rw [if_neg hshort] at hname
        rw [if_neg (by omega)]
        refine iff_of_true (good_refuse hmore 11) ⟨hin, fun name hname' => ?_⟩
        rw [hname] at hname'
        cases hname'
  · rw [List.drop_zero]
    constructor
    · intro hall
      refine ⟨fun disposition mark hdisposition hmark => (hall disposition hdisposition mark hmark).1, ?_, ?_⟩
      · intro name dot low x hnamed
        obtain ⟨disposition, mark, hdisposition, hmark⟩ := marks_of_fileName hnamed.1
        exact ((hall disposition hdisposition mark hmark).2 name hnamed.1).1 dot low x hnamed
      · intro name dot boundary tail last hnamed
        obtain ⟨disposition, mark, hdisposition, hmark⟩ := marks_of_fileName hnamed.1
        exact ((hall disposition hdisposition mark hmark).2 name hnamed.1).2 dot boundary tail last hnamed
    · rintro ⟨hquoted, hsized, hended⟩ disposition hdisposition mark hmark
      exact ⟨hquoted disposition mark hdisposition hmark, fun name _ => ⟨fun dot low x => hsized name dot low x,
        fun dot boundary tail last => hended name dot boundary tail last⟩⟩

/-! ## The walk and what is found -/

/-- What the walk comes to, in the words of `findPart`. -/
def verdictOf : Except Refusal Part → Exec Verdict
  | .error (.code n) => .ok (.refused n)
  | .error .undefinedBehaviour => .error .undefinedBehaviour
  | .ok part => .ok (.found part)

/-- A search that fails is refused with its code. -/
theorem verdictOf_orCode (n : Nat) (x : Option Nat) (f : Nat → Except Refusal Part) :
    verdictOf (orCode n x >>= f) = x.elim (.ok (.refused n)) fun i => verdictOf (f i) := by
  cases x <;> rfl

/-- What one search leads to. -/
theorem search_result (hbase : base ≤ content.length) : (Scan.search content lengths base sub code next).result =
    (memfind (content.drop base) sub).elim (.ok (.refused code)) fun i =>
      (next (lengths ++ [(content.length : Int) - base]) (base + i)).result := by
  rw [search_eq hbase]
  cases memfind (content.drop base) sub <;> rfl

/-- Two continuations of a search agree when they agree on what is found within the content. -/
theorem elim_congr {β : Type} {none : β} {f g : Nat → β} (hbase : base ≤ content.length)
    (h : ∀ i, memfind (content.drop base) sub = some i → base + i ≤ content.length → f i = g i) :
    (memfind (content.drop base) sub).elim none f = (memfind (content.drop base) sub).elim none g := by
  cases hfind : memfind (content.drop base) sub with
  | none => rfl
  | some i =>
    have hle := memfind_le hfind
    rw [List.length_drop] at hle
    exact h i hfind (by omega)

/-- What `findPart` does behind the name. -/
def partOf (content contentType name : Bytes) (dot : Nat) : Except Refusal Part := do
  let type := cString (name.drop (dot + 1))
  let mark ← orCode 4 (stringFind contentType (chars "boundary="))
  let boundary := contentType.drop (mark + (chars "boundary=").length)
  let first ← orCode 5 (memfind content boundary)
  let header ← orCode 6 (memfind (content.drop first) (chars "Content-Type:"))
  let tail ← orCode 7 (memfind (content.drop (first + header)) httpEndMark)
  let tail := first + header + tail
  let fileStart := tail + httpEndMark.length
  let last ← orCode 8 (memfind (content.drop tail) boundary)
  return { type, extend := sizeText name dot type, fileStart, fileSize := (tail + last : Int) - httpEndMark.length - fileStart }

/-- The part, search by search. -/
theorem findPart_eq : findPart content contentType = (fileName content >>= fun name =>
    orCode 10 (memfindLast name (chars ".")) >>= fun dot =>
      if (name.drop (dot + 1)).length > 15 then .error (.code 9) else partOf content contentType name dot) := by
  unfold findPart partOf
  refine congrArg (fileName content >>= ·) (funext fun name => congrArg (orCode 10 _ >>= ·) (funext fun dot => ?_))
  dsimp only
  split <;> rfl

/-- The last search's verdict. -/
theorem file_result {dot : Nat} : (Scan.file content contentType lengths (cString (name.drop (dot + 1)))
    (sizeText name dot (cString (name.drop (dot + 1))))).result = verdictOf (partOf content contentType name dot) := by
  unfold Scan.file partOf
  dsimp only
  rw [verdictOf_orCode]
  cases stringFind contentType (chars "boundary=") with
  | none => rfl
  | some mark =>
    rw [Option.elim_some, verdictOf_orCode]
    dsimp only
    generalize contentType.drop (mark + (chars "boundary=").length) = boundary
    rw [search_result (Nat.zero_le _)]
    refine elim_congr (Nat.zero_le _) fun first _ hfirst => ?_
    rw [Nat.zero_add] at hfirst ⊢
    rw [verdictOf_orCode, search_result hfirst]
    refine elim_congr hfirst fun header _ hheader => ?_
    rw [verdictOf_orCode, search_result hheader]
    refine elim_congr hheader fun n _ hn => ?_
    rw [verdictOf_orCode, search_result hn]
    refine elim_congr hn fun last _ hlast => ?_
    have hend : httpEndMark.length = 4 := rfl
    rw [hend]
    obtain ⟨bytes, hcopy⟩ := copyFile_ok (first + header + n + 4) hlast (by omega)
    have hsize : ((first + header + n + last : Nat) : Int) = (first + header + n : Nat) + last := by omega
    simp only [hsize] at hcopy ⊢
    exact congrArg (Except.map _) hcopy

/-- What is made of the name, in the words of the walk. -/
theorem verdictOf_fileName (f : Bytes → Except Refusal Part) : verdictOf (fileName content >>= f) =
    (memfind content (chars "Content-Disposition:")).elim (.ok (.refused 2)) fun disposition =>
      (memfind (content.drop disposition) (chars "filename=")).elim (.ok (.refused 3)) fun mark =>
        ((content.drop (disposition + mark + (chars "filename=").length + 1)).idxOf? 34).elim (.error .undefinedBehaviour) fun n =>
          if n ≤ 255 then verdictOf (f ((content.drop (disposition + mark + (chars "filename=").length + 1)).take n))
          else .ok (.refused 11) := by
  unfold fileName
  cases memfind content (chars "Content-Disposition:") with
  | none => rfl
  | some disposition =>
    simp only [orCode, bind, Except.bind, Option.elim_some]
    cases memfind (content.drop disposition) (chars "filename=") with
    | none => rfl
    | some mark =>
      simp only [Option.elim_some]
      cases (content.drop (disposition + mark + (chars "filename=").length + 1)).idxOf? 34 with
      | none => rfl
      | some n =>
        simp only [Option.elim_some]
        by_cases hshort : n ≤ 255
        · rw [if_pos hshort, if_pos hshort]
        · rw [if_neg hshort, if_neg hshort]
          rfl

/-- And the verdict from a name on. -/
theorem named_result : (Scan.named content contentType lengths name).result =
    verdictOf (orCode 10 (memfindLast name (chars ".")) >>= fun dot =>
      if (name.drop (dot + 1)).length > 15 then .error (.code 9) else partOf content contentType name dot) := by
  unfold Scan.named
  rw [verdictOf_orCode]
  cases hdot : memfindLast name (chars ".") with
  | none => rfl
  | some dot =>
    have hle := (memfindLast_front hdot).1
    have hone : (chars ".").length = 1 := by decide
    dsimp only [Option.elim_some]
    rw [List.length_drop]
    by_cases hshort : (name.length : Int) - (dot + 1) ≤ 15
    · rw [if_pos hshort, if_neg (by omega)]
      exact file_result
    · rw [if_neg hshort, if_pos (by omega)]
      rfl

/-- The walk comes to what `findPart` finds. -/
theorem onUpload_result : (Scan.onUpload content contentType).result = verdictOf (findPart content contentType) := by
  have hlen : (chars "filename=").length = 9 := by decide
  rw [findPart_eq, verdictOf_fileName]
  unfold Scan.onUpload
  rw [search_result (Nat.zero_le _)]
  refine elim_congr (Nat.zero_le content.length : (0 : Nat) ≤ content.length) fun disposition _ hdisposition => ?_
  rw [Nat.zero_add] at hdisposition ⊢
  rw [search_result hdisposition]
  cases hmark : memfind (content.drop disposition) (chars "filename=") with
  | none => rfl
  | some mark =>
    have hle := memfind_le hmark
    rw [List.length_drop, hlen] at hle
    simp only [Option.elim_some, hlen]
    rw [memfindAt_quote (by omega) (by omega)]
    cases hquote : (content.drop (disposition + mark + 9 + 1)).idxOf? 34 with
    | none => rfl
    | some n =>
      obtain ⟨hlt, -⟩ := List.idxOf?_eq_some_iff.1 hquote
      rw [List.length_drop] at hlt
      simp only [Option.elim_some]
      have htoNat : (((disposition + mark + 9 + 1 + n : Nat) : Int) - (disposition + mark + 9 + 1 : Nat)).toNat = n := by omega
      have hread : readAt content (disposition + mark + 9 + 1) n = .ok ((content.drop (disposition + mark + 9 + 1)).take n) :=
        if_pos (by omega)
      by_cases hshort : n ≤ 255
      · rw [if_pos (by omega), if_pos hshort, htoNat, hread]
        exact named_result
      · rw [if_neg (by omega), if_neg hshort]
        rfl

/-! ## The answer -/

/-- A search whose steps went through found its place. -/
theorem orCode_bind_ok {α : Type} {x : Option Nat} {f : Nat → Except Refusal α} {a : α} (h : (orCode n x >>= f) = .ok a) :
    ∃ i, x = some i ∧ f i = .ok a := by
  cases x with
  | none => cases h
  | some i => exact ⟨i, rfl, h⟩

/-- A file that is found is not larger than the content. -/
theorem fileSize_le {part : Part} (h : findPart content contentType = .ok part) : part.fileSize ≤ content.length := by
  rw [findPart_eq] at h
  cases hname : fileName content with
  | error e =>
    rw [hname] at h
    cases h
  | ok name =>
    rw [hname] at h
    obtain ⟨dot, -, hpart⟩ := orCode_bind_ok h
    split at hpart
    · cases hpart
    · unfold partOf at hpart
      obtain ⟨mark, -, hpart⟩ := orCode_bind_ok hpart
      obtain ⟨first, -, hpart⟩ := orCode_bind_ok hpart
      obtain ⟨header, -, hpart⟩ := orCode_bind_ok hpart
      obtain ⟨n, -, hpart⟩ := orCode_bind_ok hpart
      obtain ⟨last, hlast, hpart⟩ := orCode_bind_ok hpart
      cases hpart
      have hle := memfind_le hlast
      have hpos := memfind_pos hlast
      simp only [List.length_drop] at hle hpos
      have hend : httpEndMark.length = 4 := rfl
      dsimp only
      rw [hend]
      omega

/-- There is one response to a body that the walk stays in, when the file can be created. -/
theorem answered_iff {cfg : Config} {s : State} {u : Upload} (hlen : (u.content.length : Int) ≤ httpUploadMax)
    (hwithin : findPart u.content u.contentType ≠ .error .undefinedBehaviour) :
    (s.onUpload cfg u).2.countP Output.isResponse = 1 ↔ ∀ part, findPart u.content u.contentType = .ok part →
      (part.fileSize % uint32Size).toNat ≤ maxFileSizePerFile →
        u.outcome.created = true ∧ s.files (uploadPath cfg s.totFiles u.usec u.tid part.type part.extend) = none := by
  unfold State.onUpload
  cases hfind : findPart u.content u.contentType with
  | error e =>
    cases e with
    | code n =>
      refine iff_of_true rfl fun part hpart => ?_
      cases hpart
    | undefinedBehaviour => exact absurd hfind hwithin
  | ok part =>
    have hsize := (fileSize_le hfind).trans hlen
    dsimp only
    rw [if_pos hsize]
    unfold State.uploadFile
    by_cases hlarge : (part.fileSize % uint32Size).toNat > maxFileSizePerFile
    · rw [if_pos hlarge]
      refine iff_of_true rfl fun part' hpart hsmall => ?_
      cases hpart
      exact absurd hsmall (Nat.not_le.2 hlarge)
    · rw [if_neg hlarge]
      by_cases hcreated : u.outcome.created = true ∧ s.files (uploadPath cfg s.totFiles u.usec u.tid part.type part.extend) = none
      · simp only [if_pos hcreated]
        refine iff_of_true rfl fun part' hpart _ => ?_
        cases hpart
        exact hcreated
      · simp only [if_neg hcreated]
        refine iff_of_false (fun hone => by cases hone) fun hall => ?_
        exact hcreated (hall part rfl (Nat.not_lt.1 hlarge))

end UploadScanAux

open UploadScanAux

/-- An upload that the HTTP layer accepts is read within its content, with no negative length, and gets one answer, if and only if it meets
the condition. -/
theorem safelyAnswered_iff (cfg : Config) (s : State) (u : Upload) (hlen : (u.content.length : Int) ≤ httpUploadMax) :
    SafelyAnswered cfg s u ↔ UploadMeets cfg s u := by
  have hwithin : (∃ verdict, (Scan.onUpload u.content u.contentType).result = .ok verdict) →
      findPart u.content u.contentType ≠ .error .undefinedBehaviour := by
    rintro ⟨verdict, hverdict⟩ hundefined
    rw [onUpload_result, hundefined] at hverdict
    cases hverdict
  constructor
  · rintro ⟨hin, hlengths, hanswered⟩
    obtain ⟨hquoted, hsized, hended⟩ := onUpload_good.1 ⟨hin, hlengths⟩
    exact ⟨hquoted, hsized, hended, (answered_iff hlen (hwithin hin)).1 hanswered⟩
  · rintro ⟨hquoted, hsized, hended, hcreated⟩
    obtain ⟨hin, hlengths⟩ := onUpload_good.2 ⟨hquoted, hsized, hended⟩
    exact ⟨hin, hlengths, (answered_iff hlen (hwithin hin)).2 hcreated⟩

/-- A body that ends within the file name. -/
def unquoted : Upload :=
  { content := chars "Content-Disposition: form-data; filename=\"1.audio"
    contentType := chars "multipart/form-data; boundary=b"
    host := chars "127.0.0.1"
    usec := 0
    tid := 0
    outcome := { created := true, sized := true, written := 0 } }

/-- The directory of the files. -/
def disk : Config := { disk := chars "/tmp", filesPerDir := 1, filesPerDir_pos := Nat.one_pos }

/-- A body with an image of one byte; its name has the size of the image. -/
def sizedImage : Upload :=
  { content := line "--BB" ++ line "Content-Disposition: form-data; filename=\"a_1x2.jpg\"" ++ line "Content-Type: image/jpeg" ++
      [13, 10] ++ line "X" ++ line "--BB--"
    contentType := chars "multipart/form-data; boundary=BB"
    host := chars "127.0.0.1"
    usec := 7
    tid := 1
    outcome := { created := true, sized := true, written := 1 } }

/-- What is found in it. -/
def sizedPart : Part := { type := chars "jpg", extend := chars "1x2.jpg", fileStart := 88, fileSize := 1 }

/-- Where things stand in it. -/
theorem sizedImage_evaluated :
    (findPart sizedImage.content sizedImage.contentType = .ok sizedPart ∧
      fileName sizedImage.content = .ok (chars "a_1x2.jpg")) ∧
    (memfind sizedImage.content (chars "Content-Disposition:") = some 6 ∧
      memfind (sizedImage.content.drop 6) (chars "filename=") = some 32 ∧
      34 ∈ sizedImage.content.drop (6 + 32 + (chars "filename=").length + 1)) ∧
    (memfindLast (chars "a_1x2.jpg") (chars ".") = some 5 ∧ memfindLast (chars "a_1x2.jpg") (chars "_") = some 1 ∧
      memfind (((chars "a_1x2.jpg").drop 1).take ((chars "a_1x2.jpg").length - (1 + 1))) (chars "x") = some 2) ∧
    boundaryOf sizedImage.contentType = some (chars "BB") ∧ memfind sizedImage.content (chars "BB") = some 2 ∧
      memfind (sizedImage.content.drop 2) (chars "Content-Type:") = some 58 ∧
      memfind (sizedImage.content.drop (2 + 58)) httpEndMark = some 24 ∧
      memfind (sizedImage.content.drop (2 + 58 + 24)) (chars "BB") = some 9 := by
  decide +kernel

/-- The image is read within the body, and answered once. -/
theorem safelyAnswered_iff_image : findPart sizedImage.content sizedImage.contentType = .ok sizedPart ∧
    SafelyAnswered disk (State.init (fun _ => none) 0) sizedImage := by
  obtain ⟨⟨hpart, hname⟩, ⟨hfrom, hmarked, hquote⟩, ⟨hdotted, hlowered, hsized⟩, hbound, hfound, htyped, hended, hclosed⟩ :=
    sizedImage_evaluated
  refine ⟨hpart, (safelyAnswered_iff _ _ _ (by decide)).2 ⟨?_, ?_, ?_, ?_⟩⟩
  · intro disposition mark hdisposition hmark
    rw [hfrom] at hdisposition
    cases hdisposition
    rw [hmarked] at hmark
    cases hmark
    exact hquote
  · rintro name dot low x ⟨hname', hdot, -⟩ hlow hx
    rw [hname] at hname'
    cases hname'
    rw [hdotted] at hdot
    rw [hlowered] at hlow
    cases hdot
    cases hlow
    rw [hsized] at hx
    cases hx
    decide
  · rintro name dot boundary tail last - hboundary ⟨first, header, n, hfirst, hheader, hend, rfl⟩ hlast
    rw [hbound] at hboundary
    cases hboundary
    rw [hfound] at hfirst
    cases hfirst
    rw [htyped] at hheader
    cases hheader
    rw [hended] at hend
    cases hend
    rw [hclosed] at hlast
    cases hlast
    decide
  · intro part hfound' _
    rw [hpart] at hfound'
    cases hfound'
    exact ⟨rfl, rfl⟩

/-- Without the quote behind the name, the search for it leaves the content. -/
theorem not_safelyAnswered : ¬∀ cfg s (u : Upload), (u.content.length : Int) ≤ httpUploadMax → SafelyAnswered cfg s u := by
  intro hall
  obtain ⟨verdict, hverdict⟩ := (hall disk (State.init (fun _ => none) 0) unquoted (by decide)).within
  have hleft : (Scan.onUpload unquoted.content unquoted.contentType).result.isOk = false := by decide
  rw [hverdict] at hleft
  cases hleft

end TeamTalk.Msfs
