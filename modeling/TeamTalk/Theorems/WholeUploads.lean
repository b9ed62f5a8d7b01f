import TeamTalk.Base.CText
import TeamTalk.FileServer.TransferData

/-!
# An offline upload stores the whole file

The server asks for one segment after the other, the client answers each request with those bytes of its file, and after
`ceil (n / 32768)` segments the file is stored. The product of the index and the segment size is one of two `int`s: from 2 GiB on
it has no defined result, though a compiler may let it wrap.
-/

namespace TeamTalk.FileServer

/-- The product with the segment size has a defined result. -/
def ProductDefined (overflow : IntOverflow) (transferedIdx : Nat) : Prop :=
  overflow = .undefined → transferedIdx * segmentSize < uint32Size / 2

instance (overflow : IntOverflow) (transferedIdx : Nat) : Decidable (ProductDefined overflow transferedIdx) :=
  inferInstanceAs (Decidable (_ → _))

/-- The task of an upload, once the sender has logged in. -/
def uploadTask (md5 : Bytes → String) (taskId : TaskId) (fromUserId toUserId : Nat) (fileName : String) (content : Bytes) : Task :=
  ((Task.new true taskId fromUserId toUserId fileName content.length (md5 content)).changePullState fromUserId .offlineUpload).1

/-- The server asks for a segment, and the client answers with exactly those bytes. -/
def recvSegment (overflow : IntOverflow) (md5 : Bytes → String) (content : Bytes) (t : Task) (st : Storage) : Option Received :=
  if ProductDefined overflow t.pc.transferedIdx then
    t.doRecvData md5 st t.fromUserId t.nextOffset ((content.drop t.nextOffset).take (t.nextSegmentBlockSize false))
  else none

/-- So many segments: what `DoRecvData` returned for each, the storage and the task. -/
def recvSegments (overflow : IntOverflow) (md5 : Bytes → String) (content : Bytes) (t : Task) (st : Storage) :
    Nat → Option (List Rv × Storage × Task)
  | 0 => some ([], st, t)
  | n + 1 =>
    match recvSegments overflow md5 content t st n with
    | none => none
    | some (rvs, st, t) => (recvSegment overflow md5 content t st).map fun r => (rvs ++ [r.rv], r.storage, r.task)

/-- `ceil (n / 32768)`. -/
def segments (content : Bytes) : Nat := (content.length + (segmentSize - 1)) / segmentSize

/-- After exactly that many segments the upload has ended, with 0 for every segment but the last and 1 for that, and the file is
the header and the content. -/
def UploadsExactly (overflow : IntOverflow) (md5 : Bytes → String) (t : Task) (st : Storage) (content : Bytes) : Prop :=
  ∃ rvs st' t', recvSegments overflow md5 content t st (segments content) = some (rvs, st', t') ∧
    (∀ i : Nat, i < segments content → rvs[i]? = some (if i + 1 = segments content then .done else .more)) ∧
    t'.state = .uploadEnd ∧ ∃ f, st'.paths t.taskId = some f ∧ st'.files f = some { header := some t.header, data := content }

namespace WholeUploadsAux

variable {overflow : IntOverflow} {md5 : Bytes → String} {st : Storage} {taskId : TaskId} {fromUserId toUserId : Nat}
  {fileName : String} {content : Bytes} {i : Nat}

/-! ## Segments -/

theorem lt_segments_iff : i < segments content ↔ i * segmentSize < content.length := by
  unfold segments
  rw [Nat.lt_div_iff_mul_lt (by decide)]
  simp only [segmentSize]
  omega

theorem sengmentSize_uploadTask (t : Task) (h : t.fileSize = content.length) : t.sengmentSize = segments content := by
  refine le_antisymm (Nat.le_of_not_lt fun hlt => ?_) (Nat.le_of_not_lt fun hlt => ?_)
  · have := (Task.lt_sengmentSize_iff t _).1 hlt
    rw [h, ← lt_segments_iff] at this
    exact lt_irrefl _ this
  · have := lt_segments_iff.1 hlt
    rw [← h, ← Task.lt_sengmentSize_iff] at this
    exact lt_irrefl _ this

/-- The segment that is asked for is whole, and it is the next part of the content. -/
theorem block_eq (t : Task) (hsize : t.fileSize = content.length) (hidx : t.pc.transferedIdx = i) (hi : i < segments content) :
    ((content.drop (i * segmentSize)).take (t.nextSegmentBlockSize false)).length = t.nextSegmentBlockSize false ∧
      content.take (i * segmentSize) ++ (content.drop (i * segmentSize)).take (t.nextSegmentBlockSize false) =
        content.take ((i + 1) * segmentSize) := by
  have hseg := sengmentSize_uploadTask t hsize
  have hin := lt_segments_iff.1 hi
  have hnext : (i + 1) * segmentSize = i * segmentSize + segmentSize := Nat.succ_mul i segmentSize
  unfold Task.nextSegmentBlockSize
  rw [hidx, hseg, hsize]
  by_cases hlast : i + 1 = segments content
  · -- the last one ends with the file
    have hend : ¬(i + 1) * segmentSize < content.length := fun hlt => by
      have := lt_segments_iff.2 hlt
      omega
    rw [if_pos hlast]
    refine ⟨by rw [List.length_take, List.length_drop, Nat.min_self], ?_⟩
    rw [← List.length_drop, List.take_length, List.take_append_drop, List.take_of_length_le (Nat.le_of_not_lt hend)]
  · have hmore : (i + 1) * segmentSize < content.length := lt_segments_iff.1 (by omega)
    rw [if_neg hlast, if_neg (by simp)]
    refine ⟨by rw [List.length_take, List.length_drop]; omega, ?_⟩
    rw [hnext, List.take_add]

/-! ## One segment -/

/-- A segment is stored in the open file; with the last one, the digests are compared. -/
theorem recvSegment_eq {t : Task} {st1 : Storage} {fp : Handle} {header : Option OfflineFileHeader} (hoff : t.offline = true)
    (hstate : t.state = .waitingUpload ∨ t.state = .uploading) (hsize : t.fileSize = content.length)
    (hmd5 : t.fileMd5 = md5 content) (hidx : t.pc.transferedIdx = i) (hi : i < segments content)
    (hlt : content.length < uint32Size) (hdefined : ProductDefined overflow i)
    (hopen : t.openForUpload st = some (st1, { t with pc := { state := .uploading, fp := some fp, transferedIdx := i } }))
    (hfile : st1.files fp.file = some { header := header, data := content.take (i * segmentSize) }) :
    ∃ r, recvSegment overflow md5 content t st = some r ∧
      r.storage = st1.setFile fp.file { header := header, data := content.take ((i + 1) * segmentSize) } ∧
      (i + 1 < segments content → r.rv = .more ∧
        r.task = { t with pc := { state := .uploading, fp := some fp, transferedIdx := i + 1 } }) ∧
      (i + 1 = segments content → r.rv = .done ∧ r.task.state = .uploadEnd) := by
  obtain ⟨hlength, hdata⟩ := block_eq t hsize hidx hi
  have hoffset : t.nextOffset = i * segmentSize := by
    rw [Task.nextOffset, if_pos hoff, hidx, Task.offsetOf, Nat.mod_eq_of_lt]
    exact (lt_segments_iff.1 hi).trans hlt
  have hoffsetOf : Task.offsetOf t.pc.transferedIdx = i * segmentSize := by
    rw [← hoffset, Task.nextOffset, if_pos hoff]
  have hseg : ∀ pc : Stream, Task.sengmentSize { t with pc := pc } = segments content := fun pc =>
    sengmentSize_uploadTask _ hsize
  have happend : st1.append fp ((content.drop (i * segmentSize)).take (t.nextSegmentBlockSize false)) =
      st1.setFile fp.file { header := header, data := content.take ((i + 1) * segmentSize) } := by
    rw [Storage.append, hfile]
    simp only [hdata]
  rw [recvSegment, if_pos (hidx ▸ hdefined), Task.doRecvData, if_pos hoff, Task.doRecvDataOffline]
  rw [if_neg (by simp), if_neg (by tauto), if_neg (by rw [hoffset, hoffsetOf]; simp), hopen, hoffset]
  simp only [hlength, lt_irrefl, if_false, List.take_take, Nat.min_self, happend, hseg]
  by_cases hlast : i + 1 = segments content
  · rw [if_pos hlast]
    have hall : content.take ((i + 1) * segmentSize) = content := by
      refine List.take_of_length_le (Nat.le_of_not_lt fun hlt' => ?_)
      have := lt_segments_iff.2 hlt'
      omega
    have hcontent : (st1.setFile fp.file { header := header, data := content.take ((i + 1) * segmentSize) }).content fp = content := by
      simp [Storage.content, Storage.setFile, hall]
    refine ⟨_, rfl, ?_⟩
    rw [Task.compareMd5, hcontent, if_pos hmd5.symm]
    exact ⟨rfl, fun hlt' => absurd hlast (by omega), fun _ => ⟨rfl, rfl⟩⟩
  · rw [if_neg hlast]
    exact ⟨_, rfl, rfl, fun _ => ⟨rfl, rfl⟩, fun heq => absurd heq hlast⟩

/-! ## All segments -/

section Run

variable {t t' : Task} {st' : Storage}

/-- The task after some of the segments: it is as it was, or the file is open and holds the first part of the content. -/
def Reached (content : Bytes) (t : Task) (st : Storage) (i : Nat) (t' : Task) (st' : Storage) : Prop :=
  (i = 0 ∧ t' = t ∧ st' = st) ∨
  (0 < i ∧ t' = { t with pc := { state := .uploading, fp := some { file := st.nextFile, pos := 0 }, transferedIdx := i } } ∧
    st'.paths t.taskId = some st.nextFile ∧
    st'.files st.nextFile = some { header := some t.header, data := content.take (i * segmentSize) })

/-- The file is stored under the id. -/
def StoredWhole (content : Bytes) (t : Task) (st' : Storage) : Prop :=
  ∃ f, st'.paths t.taskId = some f ∧ st'.files f = some { header := some t.header, data := content }

/-- What an upload starts from: the sender has logged in, and no file has the id. -/
structure Starts (md5 : Bytes → String) (content : Bytes) (t : Task) (st : Storage) : Prop where
  offline : t.offline = true
  state : t.state = .waitingUpload
  size : t.fileSize = content.length
  md5 : t.fileMd5 = md5 content
  closed : t.pc.fp = none
  index : t.pc.transferedIdx = 0
  length : 2 ≤ t.taskId.length
  path : st.paths t.taskId = none

/-- The file is open before each segment. -/
theorem open_at (h : Starts md5 content t st) (hreached : Reached content t st i t' st') :
    ∃ st1, t'.openForUpload st' = some (st1, { t' with pc :=
        { state := .uploading, fp := some { file := st.nextFile, pos := 0 }, transferedIdx := i } }) ∧
      st1.paths t.taskId = some st.nextFile ∧
      st1.files st.nextFile = some { header := some t.header, data := content.take (i * segmentSize) } := by
  rcases hreached with ⟨rfl, rfl, rfl⟩ | ⟨-, rfl, hpath, hfile⟩
  · refine ⟨((({ st' with nextFile := st'.nextFile + 1 } : Storage).setFile st'.nextFile { header := none, data := [] }).setPath
      t'.taskId (some st'.nextFile)).setFile st'.nextFile { header := some t'.header, data := [] }, ?_, ?_, ?_⟩
    · rw [Task.openForUpload, if_pos h.state, h.closed]
      simp only [Storage.openByWrite, if_pos h.length, h.path, Storage.writeHeader, Storage.setPath, Storage.setFile, if_true,
        Option.map_some, h.index]
    · simp [Storage.setFile, Storage.setPath]
    · simp [Storage.setFile, Storage.setPath]
  · exact ⟨st', by simp [Task.openForUpload, Task.state], hpath, hfile⟩

/-- What one segment does. -/
theorem recvSegment_at (h : Starts md5 content t st) (hlt : content.length < uint32Size)
    (hreached : Reached content t st i t' st') (hi : i < segments content) (hdefined : ProductDefined overflow i) :
    ∃ r, recvSegment overflow md5 content t' st' = some r ∧
      (i + 1 < segments content → r.rv = .more ∧ Reached content t st (i + 1) r.task r.storage) ∧
      (i + 1 = segments content → r.rv = .done ∧ r.task.state = .uploadEnd ∧ StoredWhole content t r.storage) := by
  obtain ⟨st1, hopen, hpath, hfile⟩ := open_at h hreached
  have hsame : t'.offline = t.offline ∧ t'.fileSize = t.fileSize ∧ t'.fileMd5 = t.fileMd5 ∧ t'.pc.transferedIdx = i ∧
      (t'.state = .waitingUpload ∨ t'.state = .uploading) ∧
      ∀ pc : Stream, { t' with pc := pc } = { t with pc := pc } := by
    rcases hreached with ⟨rfl, rfl, -⟩ | ⟨-, rfl, -⟩
    · exact ⟨rfl, rfl, rfl, h.index, .inl h.state, fun _ => rfl⟩
    · exact ⟨rfl, rfl, rfl, rfl, .inr rfl, fun _ => rfl⟩
  obtain ⟨hoffline, hsize, hmd5, hidx, hstate, hpc⟩ := hsame
  obtain ⟨r, hr, hstorage, hmore, hdone⟩ := recvSegment_eq (hoffline.trans h.offline) hstate (hsize.trans h.size)
    (hmd5.trans h.md5) hidx hi hlt hdefined hopen hfile
  refine ⟨r, hr, fun hlt' => ?_, fun heq => ?_⟩
  · obtain ⟨hrv, htask⟩ := hmore hlt'
    refine ⟨hrv, .inr ⟨Nat.succ_pos i, by rw [htask, hpc], ?_, ?_⟩⟩
    · rw [hstorage]
      exact hpath
    · rw [hstorage]
      simp [Storage.setFile]
  · obtain ⟨hrv, hended⟩ := hdone heq
    have hall : content.take ((i + 1) * segmentSize) = content := by
      refine List.take_of_length_le (Nat.le_of_not_lt fun hlt' => ?_)
      have := lt_segments_iff.2 hlt'
      omega
    refine ⟨hrv, hended, st.nextFile, ?_, ?_⟩
    · rw [hstorage]
      exact hpath
    · rw [hstorage]
      simp [Storage.setFile, hall]

/-- So many segments, as long as the products are defined. -/
theorem recvSegments_at (h : Starts md5 content t st) (hlt : content.length < uint32Size) (n : Nat) (hn : n ≤ segments content)
    (hdefined : ∀ i, i < n → ProductDefined overflow i) :
    ∃ rvs st' t', recvSegments overflow md5 content t st n = some (rvs, st', t') ∧ rvs.length = n ∧
      (∀ i, i < n → rvs[i]? = some (if i + 1 = segments content then .done else .more)) ∧
      (n < segments content → Reached content t st n t' st') ∧
      (n = segments content → 0 < n → t'.state = .uploadEnd ∧ StoredWhole content t st') := by
  induction n with
  | zero =>
    refine ⟨[], st, t, rfl, rfl, ?_, fun _ => .inl ⟨rfl, rfl, rfl⟩, ?_⟩
    · intro i hi
      omega
    · intro _ hpos
      omega
  | succ n ih =>
    obtain ⟨rvs, st', t', hrun, hlength, hrvs, hreached, -⟩ := ih (by omega) fun i hi => hdefined i (by omega)
    obtain ⟨r, hr, hmore, hdone⟩ := recvSegment_at h hlt (hreached hn) hn (hdefined n (Nat.lt_succ_self n))
    refine ⟨rvs ++ [r.rv], r.storage, r.task, ?_, ?_, ?_, fun hlt' => (hmore hlt').2, fun heq _ => (hdone heq).2⟩
    · rw [recvSegments, hrun]
      simp only [hr, Option.map_some]
    · rw [List.length_append, hlength, List.length_singleton]
    · intro i hi
      rcases Nat.lt_succ_iff_lt_or_eq.1 hi with hi | rfl
      · rw [List.getElem?_append_left (by omega)]
        exact hrvs i hi
      · rw [List.getElem?_append_right (by omega), hlength, Nat.sub_self, List.getElem?_cons_zero]
        by_cases hlast : i + 1 = segments content
        · rw [if_pos hlast, (hdone hlast).1]
        · rw [if_neg hlast, (hmore (by omega)).1]

/-- A run that gets past an index had its product defined. -/
theorem defined_of_recvSegments {n : Nat} (h : Starts md5 content t st) (hlt : content.length < uint32Size)
    (hn : n ≤ segments content) (hrun : (recvSegments overflow md5 content t st n).isSome = true) :
    ∀ i, i < n → ProductDefined overflow i := by
  induction n with
  | zero =>
    intro i hi
    omega
  | succ n ih =>
    rw [recvSegments] at hrun
    cases hbefore : recvSegments overflow md5 content t st n with
    | none =>
      rw [hbefore] at hrun
      cases hrun
    | some reached =>
      have hdefined := ih (by omega) (by rw [hbefore]; rfl)
      obtain ⟨rvs, st', t', hthen, -, -, hreached, -⟩ := recvSegments_at h hlt n (by omega) hdefined
      have hidx : t'.pc.transferedIdx = n := by
        rcases hreached hn with ⟨rfl, rfl, -⟩ | ⟨-, rfl, -⟩
        · exact h.index
        · rfl
      intro i hi
      rcases Nat.lt_succ_iff_lt_or_eq.1 hi with hi | rfl
      · exact hdefined i hi
      · by_contra hnot
        simp only [hthen, recvSegment, hidx, if_neg hnot] at hrun
        cases hrun

theorem starts_uploadTask (taskId : TaskId) (fromUserId toUserId : Nat) (fileName : String) (hid : 2 ≤ taskId.length)
    (hpath : st.paths taskId = none) : Starts md5 content (uploadTask md5 taskId fromUserId toUserId fileName content) st := by
  have hcheck : (Task.new true taskId fromUserId toUserId fileName content.length (md5 content)).checkByUserIdAndFileRole fromUserId
      .offlineUpload = true := by
    simp [Task.checkByUserIdAndFileRole, Task.new]
  have htask : uploadTask md5 taskId fromUserId toUserId fileName content =
      (Task.new true taskId fromUserId toUserId fileName content.length (md5 content)).setState .waitingUpload := by
    unfold uploadTask Task.changePullState
    rw [if_pos hcheck]
    rfl
  rw [htask]
  exact ⟨rfl, rfl, rfl, rfl, rfl, rfl, hid, hpath⟩

end Run

end WholeUploadsAux

open WholeUploadsAux

/-- The upload of a file of 32-bit size stores it exactly if and only if the file is not empty, and, where the product of two
`int`s must fit, has at most 2 GiB. -/
theorem uploadsExactly_iff (overflow : IntOverflow) (md5 : Bytes → String) (st : Storage) (taskId : TaskId)
    (fromUserId toUserId : Nat) (fileName : String) (content : Bytes) (hid : 2 ≤ taskId.length) (hpath : st.paths taskId = none)
    (hlt : content.length < uint32Size) :
    UploadsExactly overflow md5 (uploadTask md5 taskId fromUserId toUserId fileName content) st content ↔
      content ≠ [] ∧ (overflow = .undefined → content.length ≤ uint32Size / 2) := by
  have hstarts : Starts md5 content (uploadTask md5 taskId fromUserId toUserId fileName content) st :=
    starts_uploadTask taskId fromUserId toUserId fileName hid hpath
  generalize uploadTask md5 taskId fromUserId toUserId fileName content = t at hstarts
  constructor
  · rintro ⟨rvs, st', t', hrun, -, hended, -⟩
    refine ⟨?_, ?_⟩
    · rintro rfl
      cases hrun
      rw [hstarts.state] at hended
      cases hended
    · intro hstrict
      by_contra hlarge
      -- the last segment begins at 2 GiB or later
      have hhalf : uint32Size / 2 = 65536 * segmentSize := by norm_num [segmentSize]
      have hin : 65536 < segments content := lt_segments_iff.2 (hhalf ▸ Nat.lt_of_not_le hlarge)
      have hdefined := defined_of_recvSegments hstarts hlt le_rfl (by rw [hrun]; rfl) 65536 hin hstrict
      rw [hhalf] at hdefined
      exact lt_irrefl _ hdefined
  · rintro ⟨hne, hsize⟩
    have hpos : 0 < segments content := lt_segments_iff.2 (by rw [Nat.zero_mul]; exact List.length_pos_iff.2 hne)
    have hdefined : ∀ i, i < segments content → ProductDefined overflow i := by
      intro i hi hstrict
      exact (lt_segments_iff.1 hi).trans_le (hsize hstrict)
    obtain ⟨rvs, st', t', hrun, -, hrvs, -, hwhole⟩ := recvSegments_at hstarts hlt _ le_rfl hdefined
    obtain ⟨hended, hstored⟩ := hwhole rfl hpos
    exact ⟨rvs, st', t', hrun, hrvs, hended, hstored⟩

/-- A file of two bytes. -/
theorem uploadsExactly_iff_two : UploadsExactly .undefined (fun _ => "") (uploadTask (fun _ => "") "ab" 1 2 "" [1, 2]) Storage.init
    [1, 2] :=
  (uploadsExactly_iff .undefined (fun _ => "") Storage.init "ab" 1 2 "" [1, 2] (by decide) rfl (by decide)).2
    ⟨by decide, fun _ => by decide⟩

/-- An empty file: no segment is the last one, and the server goes on asking. -/
theorem not_uploadsExactly : ¬∀ (overflow : IntOverflow) (md5 : Bytes → String) (st : Storage) (taskId : TaskId)
    (fromUserId toUserId : Nat) (fileName : String) (content : Bytes), 2 ≤ taskId.length → st.paths taskId = none →
      content.length < uint32Size →
      UploadsExactly overflow md5 (uploadTask md5 taskId fromUserId toUserId fileName content) st content := by
  intro hall
  obtain ⟨rvs, st', t', hrun, -, hended, -⟩ := hall .wraps (fun _ => "") Storage.init "ab" 1 2 "" [] (by decide) rfl (by decide)
  cases hrun
  cases hended

end TeamTalk.FileServer
