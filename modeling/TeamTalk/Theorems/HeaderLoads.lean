import TeamTalk.FileServer.OfflineHeader

/-!
# A stored file is loaded back

What `DoRecvData` writes into the header, `LoadFromDisk` reads back: but for the file name, and as long as each text ends inside its
array.
-/

namespace TeamTalk.FileServer.OfflineHeader

open OfflinePaths CTextAux

/-! ## The property -/

/-- What `Compute_file_md5` writes: 32 hexadecimal digits. -/
structure HexDigest where
  text : Bytes
  length : text.length = 32
  digits : ∀ ch ∈ text, (48 ≤ ch ∧ ch ≤ 57) ∨ (97 ≤ ch ∧ ch ≤ 102)

/-- The upload has been completed: the file at the path that was opened is the header and the content, as long as the task says, and
the digests were equal. -/
structure Completed (dir : Bytes) (md5 : Bytes → HexDigest) (t : OfflineTask) (createTime : UInt64) (disk : Bytes → Option Bytes)
    (content : Bytes) : Prop where
  stored : ∃ made path header, openByWrite dir t.taskId true = [.create made, .write path] ∧ t.header createTime = some header ∧
    disk path = some (header.bytes ++ content)
  size : content.length = t.fileSize.toNat
  equal : cString t.fileMd5 = (md5 content).text

/-- Nothing is written outside the fields of the header; and a completed upload is loaded back as the same task, ready for
download. -/
def LoadsBack (overflow : IntOverflow) (dir : Bytes) (md5 : Bytes → HexDigest) (t : OfflineTask) (createTime : UInt64)
    (disk : Bytes → Option Bytes) (content : Bytes) : Prop :=
  (t.header createTime).isSome = true ∧
    (Completed dir md5 t createTime disk content →
      loadFromDisk overflow dir disk t.taskId = .ok (some (t, .waitingDownload)))

/-! ## The condition -/

/-- The MD5, as a format, prints a text that fits its array with the terminator. -/
def Md5Fits (fileMd5 : Bytes) : Prop :=
  ∃ text, formatSize (cString fileMd5) (min 512 (cString fileMd5).length) = some text ∧ text.length < 64

/-- The numbers are no larger than an `int`. -/
def NumbersFit (t : OfflineTask) : Prop :=
  t.fromUserId.toNat < 2147483648 ∧ t.toUserId.toNat < 2147483648 ∧ t.fileSize.toNat < 2147483648

/-- The task has no file name, its id leaves room for a terminator, and neither the id nor the MD5 has one inside. -/
structure TextsFit (t : OfflineTask) : Prop where
  fileName : t.fileName = []
  length : t.taskId.length < 128
  taskId : 0 ∉ t.taskId
  fileMd5 : 0 ∉ t.fileMd5

namespace HeaderLoadsAux

variable {overflow : IntOverflow} {dir : Bytes} {text field : Bytes} {size n : Nat}

/-! ## Arrays -/

theorem length_fill (h : fill size text = some field) : field.length = size := by
  unfold fill at h
  split at h
  next hle =>
    cases h
    rw [List.length_append, List.length_replicate]
    omega
  · cases h

theorem fill_printed (h : text.length < size) : fill size (printed text) = some (text ++ 0 :: List.replicate (size - (text.length + 1)) 0) := by
  unfold fill printed
  rw [List.length_append, List.length_singleton, if_pos (by omega), List.append_assoc]
  rfl

theorem cString_append_zero (h : 0 ∉ text) (rest : Bytes) : cString (text ++ 0 :: rest) = text := by
  unfold cString
  rw [List.takeWhile_append_of_pos]
  · simp
  · intro ch hch
    exact decide_eq_true fun hzero => h (hzero ▸ hch)

theorem fieldText_printed (h : 0 ∉ text) (hfill : fill size (printed text) = some field) : fieldText field = .ok text := by
  have hlt : text.length < size := by
    unfold fill printed at hfill
    split at hfill
    next hle =>
      rw [List.length_append, List.length_singleton] at hle
      omega
    · cases hfill
  rw [fill_printed hlt] at hfill
  cases hfill
  unfold fieldText
  rw [if_pos (by simp), cString_append_zero h]

/-- What is read of an array has no terminator inside, and is shorter than the array. -/
theorem of_fieldText (h : fieldText field = .ok text) : 0 ∉ text ∧ text.length < field.length := by
  unfold fieldText at h
  split at h
  next hmem =>
    cases h
    have hnot : 0 ∉ cString field := fun hin => by
      have := List.mem_takeWhile_imp hin
      simp at this
    refine ⟨hnot, lt_of_le_of_ne (List.takeWhile_prefix _).length_le fun heq => hnot ?_⟩
    have hall : cString field = field := (List.takeWhile_prefix _).eq_of_length heq
    rw [hall]
    exact hmem
  · cases h

/-! ## Numbers -/

theorem length_decimal (hsize : 0 < size) (h : n < 10 ^ size) : (decimal n).length ≤ size := by
  rw [decimal, List.length_map]
  exact (Nat.length_toDigits_le_iff (by decide) hsize).2 h

theorem not_mem_decimal (n : Nat) : (0 : UInt8) ∉ decimal n := fun h => absurd (digit_of_mem_decimal h).1 (by decide)

/-- A number that was printed is read back, if it is no larger than an `int` or wraps. -/
theorem fieldNumber_printed {n : UInt32} (h : fill size (printed (decimal n.toNat)) = some field) :
    fieldNumber overflow field = if overflow = .wraps ∨ n.toNat < 2147483648 then .ok n else .error .undefinedBehaviour := by
  have hlt : n.toNat < 4294967296 := n.toNat_lt
  have hclamp : clampLong (n.toNat : Int) = n.toNat := by
    unfold clampLong
    omega
  have hmod : ((n.toNat : Int) % uint32Size).toNat = n.toNat := by
    norm_num
    omega
  have hconvert : stringToInt overflow (decimal n.toNat) =
      if overflow = .wraps ∨ n.toNat < 2147483648 then some n.toNat else none := by
    rw [stringToInt, atoi_decimal, hclamp, IntOverflow.toUint32, hmod]
    refine if_congr (or_congr_right ?_) rfl rfl
    omega
  unfold fieldNumber
  rw [fieldText_printed (not_mem_decimal _) h]
  simp only [bind, Except.bind, hconvert]
  by_cases hfits : overflow = .wraps ∨ n.toNat < 2147483648
  · rw [if_pos hfits, if_pos hfits]
    exact congrArg Except.ok UInt32.ofNat_toNat
  · rw [if_neg hfits, if_neg hfits]

/-! ## Formats -/

/-- A format without `%` is printed as it is. -/
theorem formatRest_plain {arg fuel : Nat} {used : Bool} (h : (37 : UInt8) ∉ text) (hfuel : text.length ≤ fuel) :
    formatRest arg fuel used text = some text := by
  induction text generalizing fuel with
  | nil => cases fuel <;> rfl
  | cons ch rest ih =>
    rw [List.mem_cons, not_or] at h
    cases fuel with
    | zero => simp at hfuel
    | succ fuel =>
      have hrest := ih h.2 (Nat.le_of_succ_le_succ hfuel)
      rw [formatRest, if_pos (Ne.symm h.1), hrest]
      · rfl
      · exact fun rest' heq _ => h.1 heq.symm

theorem formatSize_plain {arg : Nat} (h : (37 : UInt8) ∉ text) : formatSize text arg = some text := formatRest_plain h le_rfl

/-! ## The block -/

variable {t : OfflineTask} {createTime : UInt64} {b : Block} {content : Bytes}

/-- What is in each field of a header. -/
structure Filled (t : OfflineTask) (b : Block) : Prop where
  taskId : fill 128 (strncpy t.taskId (min 128 t.taskId.length)) = some b.taskId
  fromUserId : fill 64 (printed (decimal t.fromUserId.toNat)) = some b.fromUserId
  toUserId : fill 64 (printed (decimal t.toUserId.toNat)) = some b.toUserId
  createTime : ∃ text, fill 128 text = some b.createTime
  fileName : fill 512 (printed []) = some b.fileName
  fileSize : fill 64 (printed (decimal t.fileSize.toNat)) = some b.fileSize
  fileMd5 : ∃ text, formatSize (cString t.fileMd5) (min 512 (cString t.fileMd5).length) = some text ∧
    fill 64 (printed text) = some b.fileMd5

theorem filled_of_header (h : t.header createTime = some b) : Filled t b := by
  unfold OfflineTask.header at h
  simp only [Option.pure_def, Option.bind_eq_bind, Option.bind_eq_some_iff, Option.some.injEq] at h
  obtain ⟨time, htime, id, hid, fromUser, hfrom, toUser, hto, name, hname, fileSize, hsize, text, htext, md5, hmd5, rfl⟩ := h
  exact ⟨hid, hfrom, hto, ⟨_, htime⟩, hname, hsize, text, htext, hmd5⟩

theorem isSome_fill_decimal (size : Nat) {room : Nat} (hpos : 0 < room) (hn : n < 10 ^ room) (hroom : room < size) :
    ∃ field, fill size (printed (decimal n)) = some field :=
  ⟨_, fill_printed ((length_decimal hpos hn).trans_lt hroom)⟩

/-- All fields but the MD5 have room for what is written. -/
theorem isSome_header_iff : (t.header createTime).isSome = true ↔ Md5Fits t.fileMd5 := by
  constructor
  · intro h
    obtain ⟨b, hb⟩ := Option.isSome_iff_exists.1 h
    obtain ⟨text, htext, hfill⟩ := (filled_of_header hb).fileMd5
    refine ⟨text, htext, ?_⟩
    unfold fill printed at hfill
    split at hfill
    next hle =>
      rw [List.length_append, List.length_singleton] at hle
      omega
    · cases hfill
  · rintro ⟨text, htext, hlt⟩
    have htime : createTime.toNat < 10 ^ 20 := createTime.toNat_lt.trans (by norm_num)
    have huint : ∀ n : UInt32, n.toNat < 10 ^ 10 := fun n => n.toNat_lt.trans (by norm_num)
    obtain ⟨field1, h1⟩ := isSome_fill_decimal 128 (by decide) htime (by decide)
    obtain ⟨field2, h2⟩ := isSome_fill_decimal 64 (by decide) (huint t.fromUserId) (by decide)
    obtain ⟨field3, h3⟩ := isSome_fill_decimal 64 (by decide) (huint t.toUserId) (by decide)
    obtain ⟨field4, h4⟩ := isSome_fill_decimal 64 (by decide) (huint t.fileSize) (by decide)
    have hid : (strncpy t.taskId (min 128 t.taskId.length)).length ≤ 128 := by
      unfold strncpy
      rw [List.length_append, List.length_take, List.length_replicate]
      omega
    have h5 : ∃ field, fill 128 (strncpy t.taskId (min 128 t.taskId.length)) = some field := ⟨_, if_pos hid⟩
    obtain ⟨field5, h5⟩ := h5
    have h6 : ∃ field, fill 512 (printed []) = some field := ⟨_, if_pos (by decide)⟩
    obtain ⟨field6, h6⟩ := h6
    have h7 := fill_printed hlt
    unfold OfflineTask.header
    dsimp only
    rw [h1, h2, h3, h4, h5, h6, htext]
    simp [h7]

/-- A part of a text is found by its place and its length. -/
theorem take_drop_part (before part : Bytes) {file : Bytes} (hfile : ∃ after, file = before ++ part ++ after) {place : Nat}
    (hplace : before.length = place) (hlength : part.length = size) : (file.drop place).take size = part := by
  obtain ⟨after, rfl⟩ := hfile
  rw [List.append_assoc, List.drop_left' hplace, List.take_left' hlength]

/-- The header in a file is read as it was written. -/
theorem ofBytes_bytes (h : Filled t b) (content : Bytes) : Block.ofBytes (b.bytes ++ content) = b ∧ b.bytes.length = Block.size := by
  have h1 := length_fill h.taskId
  have h2 := length_fill h.fromUserId
  have h3 := length_fill h.toUserId
  obtain ⟨_, htime⟩ := h.createTime
  have h4 := length_fill htime
  have h5 := length_fill h.fileName
  have h6 := length_fill h.fileSize
  obtain ⟨_, -, hmd5⟩ := h.fileMd5
  have h7 := length_fill hmd5
  constructor
  · have e1 : (b.bytes ++ content).take 128 = b.taskId := by
      simp only [Block.bytes, List.append_assoc]
      exact List.take_left' h1
    have e2 : ((b.bytes ++ content).drop 128).take 64 = b.fromUserId := by
      refine take_drop_part b.taskId _ ?_ h1 h2
      simp only [Block.bytes, List.append_assoc]
      exact ⟨_, rfl⟩
    have e3 : ((b.bytes ++ content).drop 192).take 64 = b.toUserId := by
      refine take_drop_part (b.taskId ++ b.fromUserId) _ ?_ (by simp [h1, h2]) h3
      simp only [Block.bytes, List.append_assoc]
      exact ⟨_, rfl⟩
    have e4 : ((b.bytes ++ content).drop 256).take 128 = b.createTime := by
      refine take_drop_part (b.taskId ++ b.fromUserId ++ b.toUserId) _ ?_ (by simp [h1, h2, h3]) h4
      simp only [Block.bytes, List.append_assoc]
      exact ⟨_, rfl⟩
    have e5 : ((b.bytes ++ content).drop 384).take 512 = b.fileName := by
      refine take_drop_part (b.taskId ++ b.fromUserId ++ b.toUserId ++ b.createTime) _ ?_ (by simp [h1, h2, h3, h4]) h5
      simp only [Block.bytes, List.append_assoc]
      exact ⟨_, rfl⟩
    have e6 : ((b.bytes ++ content).drop 896).take 64 = b.fileSize := by
      refine take_drop_part (b.taskId ++ b.fromUserId ++ b.toUserId ++ b.createTime ++ b.fileName) _ ?_
        (by simp [h1, h2, h3, h4, h5]) h6
      simp only [Block.bytes, List.append_assoc]
      exact ⟨_, rfl⟩
    have e7 : ((b.bytes ++ content).drop 960).take 64 = b.fileMd5 := by
      refine take_drop_part (b.taskId ++ b.fromUserId ++ b.toUserId ++ b.createTime ++ b.fileName ++ b.fileSize) _ ?_
        (by simp [h1, h2, h3, h4, h5, h6]) h7
      simp only [Block.bytes, List.append_assoc]
      exact ⟨_, rfl⟩
    simp only [Block.ofBytes, e1, e2, e3, e4, e5, e6, e7]
  · simp [Block.bytes, Block.size, h1, h2, h3, h4, h5, h6, h7]

/-! ## Loading -/

variable {md5 : Bytes → HexDigest} {disk : Bytes → Option Bytes} {id : Bytes}

theorem exists_of_bind_eq_ok {α β : Type} {x : Exec α} {f : α → Exec β} {result : β} (h : x >>= f = .ok result) :
    ∃ a, x = .ok a ∧ f a = .ok result := by
  cases x with
  | error e => cases h
  | ok a => exact ⟨a, rfl, h⟩

/-- What was opened for writing is opened for reading. -/
theorem opened_of_openByWrite {made path : Bytes} (h : openByWrite dir id true = [.create made, .write path]) :
    openByRead dir id ≠ [] ∧ cut bufsiz (pathOf dir id) = path := by
  unfold openByWrite at h
  split at h
  next hlength =>
    dsimp only at h
    split at h
    next hmade =>
      have hshort : cut bufsiz (dir ++ [slash] ++ cString (id.take 2)) = dir ++ [slash] ++ cString (id.take 2) := by
        have := hmade.2
        unfold Takes cut at this
        rw [List.length_take] at this
        unfold cut
        refine List.take_of_length_le ?_
        simp only [bufsiz, pathMax] at this ⊢
        omega
      rw [hshort] at h
      split at h
      next hroom =>
        have hwhole : (cString id).take bufsiz = cString id := by
          refine List.take_of_length_le (Nat.le_of_not_lt fun hlong => ?_)
          rw [List.length_append, List.length_take_of_le hlong.le] at hroom
          omega
        rw [hwhole] at h hroom
        obtain ⟨-, h⟩ := List.cons.inj h
        unfold taken at h
        split at h
        next htakes =>
          cases h
          have hcut : cut bufsiz (pathOf dir id) = pathOf dir id := by
            refine List.take_of_length_le ?_
            exact Nat.le_sub_one_of_lt hroom
          refine ⟨?_, hcut⟩
          unfold openByRead taken
          rw [if_pos hlength, hcut]
          have htakes' : Takes (pathOf dir id) := htakes
          rw [if_pos htakes']
          exact List.cons_ne_nil _ _
        · cases h
      · cases h
    · cases h
  · cases h

/-- Loading a file that an upload has stored reads the fields of its header. -/
theorem loadFromDisk_eq (hopened : openByRead dir id ≠ []) (hdisk : disk (cut bufsiz (pathOf dir id)) = some (b.bytes ++ content))
    (hfilled : Filled t b) : loadFromDisk overflow dir disk id = (do
      let fileSize ← fieldNumber overflow b.fileSize
      if content.length = fileSize.toNat then
        let taskId ← fieldText b.taskId
        let fromUserId ← fieldNumber overflow b.fromUserId
        let toUserId ← fieldNumber overflow b.toUserId
        let fileName ← fieldText b.fileName
        let fileMd5 ← fieldText b.fileMd5
        return some ({ taskId, fromUserId, toUserId, fileName, fileSize, fileMd5 }, .waitingDownload)
      else return none) := by
  obtain ⟨hblock, hlength⟩ := ofBytes_bytes hfilled content
  unfold loadFromDisk
  rw [if_neg hopened, hdisk]
  dsimp only
  rw [if_neg (by rw [List.length_append, hlength]; omega), hblock]
  have hrest : (b.bytes ++ content).length - Block.size = content.length := by
    rw [List.length_append, hlength, Nat.add_sub_cancel_left]
  rw [hrest]

/-- The MD5 of a completed upload is printed as it is. -/
theorem fieldText_fileMd5 (hfilled : Filled t b) (hequal : cString t.fileMd5 = (md5 content).text) :
    fieldText b.fileMd5 = .ok (cString t.fileMd5) := by
  have hdigit : ∀ ch ∈ cString t.fileMd5, (48 ≤ ch ∧ ch ≤ 57) ∨ (97 ≤ ch ∧ ch ≤ 102) := by
    rw [hequal]
    exact (md5 content).digits
  have hplain : (37 : UInt8) ∉ cString t.fileMd5 := fun h => absurd (hdigit 37 h) (by decide)
  have hnul : (0 : UInt8) ∉ cString t.fileMd5 := fun h => absurd (hdigit 0 h) (by decide)
  obtain ⟨text, htext, hfill⟩ := hfilled.fileMd5
  rw [formatSize_plain hplain] at htext
  cases htext
  exact fieldText_printed hnul hfill

/-- An id that leaves room for its terminator is read back. -/
theorem fieldText_taskId (hfilled : Filled t b) (hlength : t.taskId.length < 128) (hnul : 0 ∉ t.taskId) :
    fieldText b.taskId = .ok t.taskId := by
  have hcopy : strncpy t.taskId (min 128 t.taskId.length) = t.taskId := by
    unfold strncpy
    rw [cString_eq_self hnul, Nat.min_eq_right hlength.le, List.take_length, Nat.sub_self, List.replicate_zero, List.append_nil]
  have hfill := hfilled.taskId
  rw [hcopy] at hfill
  unfold fill at hfill
  rw [if_pos hlength.le, show 128 - t.taskId.length = (128 - (t.taskId.length + 1)) + 1 by omega, List.replicate_succ] at hfill
  have hfield := Option.some.inj hfill
  rw [← hfield]
  unfold fieldText
  rw [if_pos (by simp), cString_append_zero hnul]

/-- A number is read back if and only if it fits. -/
theorem fieldNumber_eq_ok_iff {n : UInt32} (h : fill size (printed (decimal n.toNat)) = some field) (m : UInt32) :
    fieldNumber overflow field = .ok m ↔ m = n ∧ (overflow = .undefined → n.toNat < 2147483648) := by
  rw [fieldNumber_printed h]
  cases overflow with
  | undefined =>
    by_cases hsmall : n.toNat < 2147483648
    · simp [hsmall, eq_comm]
    · simp [hsmall]
  | wraps => simp [eq_comm]

/-- A completed upload is loaded back if and only if its texts and its numbers fit. -/
theorem loadFromDisk_iff {createTime : UInt64} (h : Completed dir md5 t createTime disk content) :
    loadFromDisk overflow dir disk t.taskId = .ok (some (t, .waitingDownload)) ↔
      TextsFit t ∧ (overflow = .undefined → NumbersFit t) := by
  obtain ⟨made, path, b, hwrite, hheader, hdisk⟩ := h.stored
  obtain ⟨hopened, rfl⟩ := opened_of_openByWrite hwrite
  have hfilled := filled_of_header hheader
  have hmd5 := fieldText_fileMd5 hfilled h.equal
  have hname : fieldText b.fileName = .ok [] := fieldText_printed List.not_mem_nil hfilled.fileName
  rw [loadFromDisk_eq hopened hdisk hfilled]
  constructor
  · intro hload
    obtain ⟨fileSize, hsize, hload⟩ := exists_of_bind_eq_ok hload
    split at hload
    · obtain ⟨taskId, hid, hload⟩ := exists_of_bind_eq_ok hload
      obtain ⟨fromUserId, hfrom, hload⟩ := exists_of_bind_eq_ok hload
      obtain ⟨toUserId, hto, hload⟩ := exists_of_bind_eq_ok hload
      rw [hname, hmd5] at hload
      have htask := congrArg Prod.fst (Option.some.inj (Except.ok.inj hload))
      have hid' : taskId = t.taskId := congrArg OfflineTask.taskId htask
      have hname' : [] = t.fileName := congrArg OfflineTask.fileName htask
      have hmd5' : cString t.fileMd5 = t.fileMd5 := congrArg OfflineTask.fileMd5 htask
      subst hid'
      obtain ⟨hnul, hlength⟩ := of_fieldText hid
      rw [length_fill hfilled.taskId] at hlength
      have hmd5nul := (of_fieldText hmd5).1
      rw [hmd5'] at hmd5nul
      refine ⟨⟨hname'.symm, hlength, hnul, hmd5nul⟩, fun hstrict => ⟨?_, ?_, ?_⟩⟩
      · exact ((fieldNumber_eq_ok_iff hfilled.fromUserId _).1 hfrom).2 hstrict
      · exact ((fieldNumber_eq_ok_iff hfilled.toUserId _).1 hto).2 hstrict
      · exact ((fieldNumber_eq_ok_iff hfilled.fileSize _).1 hsize).2 hstrict
    · cases hload
  · rintro ⟨htexts, hnumbers⟩
    have hsize : fieldNumber overflow b.fileSize = .ok t.fileSize :=
      (fieldNumber_eq_ok_iff hfilled.fileSize _).2 ⟨rfl, fun hstrict => (hnumbers hstrict).2.2⟩
    have hfrom : fieldNumber overflow b.fromUserId = .ok t.fromUserId :=
      (fieldNumber_eq_ok_iff hfilled.fromUserId _).2 ⟨rfl, fun hstrict => (hnumbers hstrict).1⟩
    have hto : fieldNumber overflow b.toUserId = .ok t.toUserId :=
      (fieldNumber_eq_ok_iff hfilled.toUserId _).2 ⟨rfl, fun hstrict => (hnumbers hstrict).2.1⟩
    rw [hsize]
    change (if content.length = t.fileSize.toNat then _ else _) = _
    rw [if_pos h.size, fieldText_taskId hfilled htexts.length htexts.taskId, hfrom, hto, hname, hmd5, cString_eq_self htexts.fileMd5]
    have hempty := htexts.fileName
    obtain ⟨taskId, fromUserId, toUserId, fileName, fileSize, fileMd5⟩ := t
    cases hempty
    rfl

end HeaderLoadsAux

open HeaderLoadsAux

/-- The header stays in its fields and a completed upload is loaded back if and only if the MD5 fits its field as a format, and, where
the upload was completed, the task has no file name, its id and its MD5 are C strings that fit, and its numbers are read back. -/
theorem loadsBack_iff (overflow : IntOverflow) (dir : Bytes) (md5 : Bytes → HexDigest) (t : OfflineTask) (createTime : UInt64)
    (disk : Bytes → Option Bytes) (content : Bytes) : LoadsBack overflow dir md5 t createTime disk content ↔
      Md5Fits t.fileMd5 ∧
        (Completed dir md5 t createTime disk content → TextsFit t ∧ (overflow = .undefined → NumbersFit t)) := by
  unfold LoadsBack
  rw [isSome_header_iff]
  exact and_congr_right fun _ => forall_congr' fun hcompleted => loadFromDisk_iff hcompleted

/-! ## A file with a name -/

/-- A digest. -/
def zeros : HexDigest :=
  { text := List.replicate 32 48
    length := rfl
    digits := fun ch hch => .inl (by rw [List.eq_of_mem_replicate hch]; decide) }

/-- An upload of one byte, from user 1 to user 2. -/
def named : OfflineTask :=
  { taskId := chars "abc", fromUserId := 1, toUserId := 2, fileName := chars "a.txt", fileSize := 1, fileMd5 := List.replicate 32 48 }

/-- The name is not in the header, so the task is loaded without it. -/
theorem not_loadsBack : ¬∀ (overflow : IntOverflow) (dir : Bytes) (md5 : Bytes → HexDigest) (t : OfflineTask) (createTime : UInt64)
    (disk : Bytes → Option Bytes) (content : Bytes), LoadsBack overflow dir md5 t createTime disk content := by
  intro hall
  obtain ⟨b, hb⟩ := Option.isSome_iff_exists.1 (isSome_header_iff.2 ⟨List.replicate 32 48, by decide, by decide⟩ : (named.header 0).isSome = true)
  have hcompleted : Completed (chars "/offline_file") (fun _ => zeros) named 0 (fun _ => some (b.bytes ++ [7])) [7] :=
    { stored := ⟨chars "/offline_file/ab", chars "/offline_file/ab/abc", b, by decide, hb, rfl⟩
      size := rfl
      equal := by decide }
  have hload := (hall .wraps _ _ _ _ _ _).2 hcompleted
  exact absurd (loadFromDisk_iff hcompleted |>.1 hload).1.fileName (by decide)

end TeamTalk.FileServer.OfflineHeader
