import TeamTalk.Msfs.HttpTask

/-!
# An upload to msfs can be fetched

`OnUpload` answers with a URL whether or not the file was stored: the code of `uploadFile` and those of `File` are not looked at,
and the limits of the two are not the same. In a run where every file is stored, the URL is good for ever.
-/

namespace TeamTalk.Msfs

open State

/-! ## The property -/

/-- The file of the URL's path holds these bytes. -/
def Stored (s : State) (url file : Bytes) : Prop :=
  ∃ relate, getRelatePathByUrl url = some relate ∧ s.files relate = some file

/-- A download that comes after a success with the URL is answered with exactly the bytes of the file. -/
def Returns (cfg : Config) : Output → Output → Prop
  | .success _ path file _, .download url response =>
    url = path → ∃ relate, getRelatePathByUrl path = some relate ∧ response = downloadHead cfg relate file.length ++ file
  | _, _ => True

/-- Every success carries the whole URL, the file is stored under it, and later downloads return it. -/
structure Retrievable (cfg : Config) (log : List Output) (s : State) : Prop where
  defined : .undefinedBehaviour ∉ log
  stored : ∀ host path file response, .success host path file response ∈ log →
    response = httpResponseHtml (successText host path) ∧ Stored s path file
  returned : log.Pairwise (Returns cfg)

/-! ## The condition -/

/-- The texts of a response fit their buffers. -/
def ResponseFits (host path : Bytes) : Prop :=
  (successText host path).length < 1024 ∧ (httpResponseHtml (successText host path)).length < 1024

/-- The condition on a file that is found in a body: it has no negative size, and the file manager takes it; if it can be created,
all of it is written; and the response fits. -/
def PartMeets (cfg : Config) (s : State) (u : Upload) (part : Part) : Prop :=
  0 ≤ part.fileSize ∧ part.fileSize ≤ maxFileSizePerFile ∧
    (u.outcome.created = true → u.outcome.contents (part.bytes u.content) = part.bytes u.content) ∧
    ResponseFits u.host (fullUrl (uploadPath cfg s.totFiles u.usec u.tid part.type part.extend))

/-- The map keeps a new key: there is room, or the key is not the first one. -/
def Keeps (s : State) (url : Bytes) : Prop :=
  s.map.length < maxFileInMap ∨ ∃ entry rest, s.map = entry :: rest ∧ ¬url < entry.1

/-- The condition on a step. A download needs a file below 2 GiB that is in the map or can be kept there. -/
def Meets (cfg : Config) (s : State) : Event → Prop
  | .upload u =>
    findPart u.content u.contentType ≠ .error .undefinedBehaviour ∧
      ∀ part, findPart u.content u.contentType = .ok part → part.fileSize ≤ httpUploadMax → PartMeets cfg s u part
  | .download url =>
    ∀ file, Stored s url file → file.length < uint32Size / 2 ∧ (s.map.lookup url = none → Keeps s url)
  | .restart _ => True

namespace RetrievalAux

variable {cfg : Config} {s s' : State} {log : List Output} {url path content file : Bytes}

/-! ## The map -/

section Map

variable {β : Type} {map : List (Bytes × β)} {entry : Bytes × β} {e : β}

/-- What is found is in the map. -/
theorem mem_of_lookup (h : map.lookup url = some e) : (url, e) ∈ map := by
  obtain ⟨before, after, heq, -⟩ := List.lookup_eq_some_iff.1 h
  rw [heq]
  simp

/-- A new entry comes to those that are there. -/
theorem mem_insertOrdered : entry ∈ insertOrdered url e map ↔ entry = (url, e) ∨ entry ∈ map := by
  induction map with
  | nil => simp [insertOrdered]
  | cons first rest ih =>
    unfold insertOrdered
    split
    · simp
    · simp only [List.mem_cons, ih]
      tauto

/-- A new entry makes the map longer by one. -/
theorem length_insertOrdered : (insertOrdered url e map).length = map.length + 1 := by
  induction map with
  | nil => rfl
  | cons first rest ih =>
    unfold insertOrdered
    split <;> simp [ih]

/-- Entries are deleted only. -/
theorem mem_updateMapCache (h : entry ∈ updateMapCache map) : entry ∈ map :=
  List.mem_of_mem_drop h

/-- The map has room for so many entries. -/
theorem length_updateMapCache : (updateMapCache map).length ≤ maxFileInMap := by
  rw [updateMapCache, List.length_drop]
  omega

/-- `insertEntry` brings its entry, or none. -/
theorem mem_insertEntry (h : entry ∈ insertEntry map url e) : entry = (url, e) ∨ entry ∈ map := by
  unfold insertEntry at h
  split at h
  · exact .inr h
  · exact mem_insertOrdered.1 (mem_updateMapCache h)

/-- A key that is in the map is found. -/
theorem lookup_isSome (h : (url, e) ∈ map) : (map.lookup url).isSome = true := by
  induction map with
  | nil => simp at h
  | cons first rest ih =>
    obtain ⟨key, value⟩ := first
    rw [List.lookup_cons]
    split
    · rfl
    next hne =>
      rcases List.mem_cons.1 h with heq | h
      · cases heq
        simp at hne
      · exact ih h

end Map

/-- The map keeps the new key. -/
theorem lookup_updateMapCache (h : Keeps s url) (hlen : s.map.length ≤ maxFileInMap) :
    ((updateMapCache (insertOrdered url content s.map)).lookup url).isSome = true := by
  refine lookup_isSome (?_ : (url, content) ∈ _)
  unfold Keeps at h
  rw [updateMapCache, length_insertOrdered]
  generalize maxFileInMap = room at *
  rcases h with hroom | ⟨entry, rest, hmap, hnot⟩
  · rw [Nat.sub_eq_zero_of_le hroom]
    exact mem_insertOrdered.2 (.inl rfl)
  · rw [hmap] at hlen ⊢
    have hcases : (entry :: rest).length + 1 - room = 0 ∨ (entry :: rest).length + 1 - room = 1 := by omega
    unfold insertOrdered
    rw [if_neg hnot]
    rcases hcases with hzero | hone
    · rw [hzero]
      exact List.mem_cons_of_mem entry (mem_insertOrdered.2 (.inl rfl))
    · rw [hone]
      exact mem_insertOrdered.2 (.inl rfl)

/-! ## Paths and sizes -/

theorem getRelatePathByUrl_cons (rest : Bytes) : getRelatePathByUrl (fullUrl (47 :: rest)) = some (47 :: rest) := by
  have hg0 : chars "g0" = [103, 48] := rfl
  unfold getRelatePathByUrl fullUrl
  rw [hg0, if_pos (by simp)]
  rfl

/-- The URL of an upload leads back to its path. -/
theorem getRelatePathByUrl_uploadPathOf {cfg : Config} {firstFiles secondFiles usec tid : Nat} {type ext : Bytes} :
    getRelatePathByUrl (fullUrl (uploadPathOf cfg firstFiles secondFiles usec tid type ext)) =
      some (uploadPathOf cfg firstFiles secondFiles usec tid type ext) := by
  obtain ⟨rest, hrest⟩ : ∃ rest, uploadPathOf cfg firstFiles secondFiles usec tid type ext = chars "/" ++ rest := by
    unfold uploadPathOf relatePathOf
    simp only [List.append_assoc]
    exact ⟨_, Eq.refl _⟩
  rw [hrest]
  exact getRelatePathByUrl_cons rest

/-- The same, when no other file is counted meanwhile. -/
theorem getRelatePathByUrl_fullUrl {cfg : Config} {totFiles usec tid : Nat} {type ext : Bytes} :
    getRelatePathByUrl (fullUrl (uploadPath cfg totFiles usec tid type ext)) = some (uploadPath cfg totFiles usec tid type ext) :=
  getRelatePathByUrl_uploadPathOf

/-- A size below 2 GiB survives the cast. -/
theorem asInt_eq {n : Nat} (h : n < uint32Size / 2) : asInt n = n := by
  unfold asInt
  refine Int.bmod_eq_of_le ?_ ?_
  · norm_num
  · norm_num at h ⊢
    omega

/-- The cast of a size that is taken. -/
theorem toNat_size {size : Int} (h0 : 0 ≤ size) (hmax : size ≤ maxFileSizePerFile) : (size % uint32Size).toNat = size.toNat := by
  rw [Int.emod_eq_of_lt h0]
  refine lt_of_le_of_lt hmax ?_
  decide

theorem uploadResponse_eq {host path : Bytes} (h : ResponseFits host path) :
    uploadResponse host path = httpResponseHtml (successText host path) := by
  unfold uploadResponse cut
  rw [List.take_of_length_le (l := successText host path) (by have := h.1; omega), List.take_of_length_le (by have := h.2; omega)]

/-! ## The invariant -/

/-- What is in the map is on the disk; and the property. -/
structure Inv (cfg : Config) (log : List Output) (s : State) : Prop where
  cached : ∀ entry ∈ s.map, Stored s entry.1 entry.2
  bounded : s.map.length ≤ maxFileInMap
  kept : Retrievable cfg log s

/-- Nothing but the map changes, and what is in it is on the disk. -/
theorem inv_map (h : Inv cfg log s) (hfiles : s'.files = s.files) (hmap : ∀ entry ∈ s'.map, Stored s entry.1 entry.2)
    (hlen : s'.map.length ≤ maxFileInMap) : Inv cfg log s' := by
  have hstored : ∀ url file, Stored s url file → Stored s' url file := by
    rintro url file ⟨relate, hrelate, hfile⟩
    exact ⟨relate, hrelate, by rw [hfiles, hfile]⟩
  refine ⟨fun entry hentry => hstored _ _ (hmap entry hentry), hlen, h.kept.defined, ?_, h.kept.returned⟩
  intro host path file response hmem
  obtain ⟨hresponse, hfile⟩ := h.kept.stored host path file response hmem
  exact ⟨hresponse, hstored _ _ hfile⟩

/-- A refusal is put out. -/
theorem inv_refused (h : Inv cfg log s) (response : Bytes) : Inv cfg (log ++ [.refused response]) s := by
  refine ⟨h.cached, h.bounded, ?_, ?_, ?_⟩
  · simpa using h.kept.defined
  · intro host path file response' hmem
    exact h.kept.stored host path file response' (by simpa using hmem)
  · refine List.pairwise_append.2 ⟨h.kept.returned, List.pairwise_singleton _ _, ?_⟩
    intro out _ last hlast
    rw [List.mem_singleton.1 hlast]
    cases out <;> trivial

/-- A file is stored, and the answer carries its URL. -/
theorem inv_success {usec tid : Nat} {type ext host : Bytes} (h : Inv cfg log s)
    (hnew : s.files (uploadPath cfg s.totFiles usec tid type ext) = none)
    (hfits : ResponseFits host (fullUrl (uploadPath cfg s.totFiles usec tid type ext))) (totFiles : Nat) :
    Inv cfg (log ++ [.success host (fullUrl (uploadPath cfg s.totFiles usec tid type ext)) file
        (uploadResponse host (fullUrl (uploadPath cfg s.totFiles usec tid type ext)))])
      (store { s with
          map := updateMapCache (insertEntry s.map (fullUrl (uploadPath cfg s.totFiles usec tid type ext)) file)
          totFiles := totFiles } (uploadPath cfg s.totFiles usec tid type ext) file) := by
  have hrelate : getRelatePathByUrl (fullUrl (uploadPath cfg s.totFiles usec tid type ext)) =
      some (uploadPath cfg s.totFiles usec tid type ext) := getRelatePathByUrl_fullUrl
  generalize uploadPath cfg s.totFiles usec tid type ext = path at *
  have hself : Stored (store { s with map := updateMapCache (insertEntry s.map (fullUrl path) file), totFiles := totFiles } path file)
      (fullUrl path) file := ⟨path, hrelate, by simp [store]⟩
  -- a file that is there already has another path
  have hother : ∀ url' file', Stored s url' file' → Stored (store { s with
      map := updateMapCache (insertEntry s.map (fullUrl path) file), totFiles := totFiles } path file) url' file' := by
    rintro url' file' ⟨relate, hrelate', hfile'⟩
    refine ⟨relate, hrelate', ?_⟩
    have hne : relate ≠ path := by
      rintro rfl
      rw [hnew] at hfile'
      cases hfile'
    simp [store, hne, hfile']
  refine ⟨?_, ?_, ?_, ?_, ?_⟩
  · intro entry hentry
    simp only [store] at hentry
    rcases mem_insertEntry (mem_updateMapCache hentry) with rfl | hold
    · exact hself
    · exact hother _ _ (h.cached entry hold)
  · simp only [store]
    exact length_updateMapCache
  · simpa using h.kept.defined
  · intro host' path' file' response hmem
    rcases List.mem_append.1 hmem with hmem | hmem
    · obtain ⟨hresponse, hfile⟩ := h.kept.stored host' path' file' response hmem
      exact ⟨hresponse, hother _ _ hfile⟩
    · cases List.mem_singleton.1 hmem
      exact ⟨uploadResponse_eq hfits, hself⟩
  · refine List.pairwise_append.2 ⟨h.kept.returned, List.pairwise_singleton _ _, ?_⟩
    intro out _ last hlast
    rw [List.mem_singleton.1 hlast]
    cases out <;> trivial

theorem inv_upload {u : Upload} (h : Inv cfg log s) (hmeets : Meets cfg s (.upload u)) :
    Inv cfg (log ++ (s.onUpload cfg u).2) (s.onUpload cfg u).1 := by
  obtain ⟨hdefined, hparts⟩ := hmeets
  unfold State.onUpload
  split
  next n _ => exact inv_refused h _
  next herror => exact absurd herror hdefined
  next part hpart =>
    split
    next hlimit =>
      obtain ⟨h0, hmax, hwritten, hfits⟩ := hparts part hpart hlimit
      have hsize := toNat_size h0 hmax
      unfold State.uploadFile
      rw [hsize, if_neg (Nat.not_lt.2 (Int.toNat_le.2 hmax))]
      dsimp only
      split
      next hnone =>
        rw [List.append_nil]
        exact inv_map h rfl h.cached h.bounded
      next s1 path1 hsome =>
        split at hsome
        next hcreated =>
          cases hsome
          have hbytes := hwritten hcreated.1
          unfold Part.bytes at hbytes ⊢
          rw [hbytes]
          exact inv_success h hcreated.2 hfits _
        · cases hsome
    next =>
      rw [List.append_nil]
      exact h

/-! ## Downloads -/

/-- Where a file is stored, a download that meets the condition returns it and leaves the files alone. -/
theorem onDownload_eq {relate : Bytes} (h : Inv cfg log s) (hmeets : Meets cfg s (.download url))
    (hrelate : getRelatePathByUrl url = some relate) (hfile : s.files relate = some file) :
    ∃ s', s.onDownload cfg url = .ok (s', downloadHead cfg relate file.length ++ file) ∧ s'.files = s.files ∧
      (∀ entry ∈ s'.map, Stored s entry.1 entry.2) ∧ s'.map.length ≤ maxFileInMap := by
  obtain ⟨hsize, hkeeps⟩ := hmeets file ⟨relate, hrelate, hfile⟩
  have hint := asInt_eq hsize
  unfold State.onDownload
  simp only [hrelate, hfile, hint]
  rw [if_neg (by omega)]
  unfold State.getOrCreateEntry
  cases hlookup : s.map.lookup url with
  | some entry =>
    obtain ⟨relate', hrelate', hentry⟩ := h.cached (url, entry) (mem_of_lookup hlookup)
    rw [hrelate] at hrelate'
    cases hrelate'
    rw [hfile] at hentry
    cases hentry
    exact ⟨s, by simp, rfl, h.cached, h.bounded⟩
  | none =>
    have hin : ((updateMapCache (insertOrdered url file s.map)).lookup url).isSome = true :=
      lookup_updateMapCache (hkeeps hlookup) h.bounded
    refine ⟨{ s with map := updateMapCache (insertOrdered url file s.map) }, ?_, rfl, ?_, ?_⟩
    · simp [hrelate, hfile, hin]
    · intro entry hentry
      dsimp only at hentry
      rcases mem_insertOrdered.1 (mem_updateMapCache hentry) with rfl | hold
      · exact ⟨relate, hrelate, hfile⟩
      · exact h.cached entry hold
    · dsimp only
      exact length_updateMapCache

/-- A download is answered. -/
theorem inv_answered {response : Bytes} (h : Inv cfg log s)
    (hreturns : ∀ file relate, getRelatePathByUrl url = some relate → s.files relate = some file →
      response = downloadHead cfg relate file.length ++ file) : Inv cfg (log ++ [.download url response]) s := by
  refine ⟨h.cached, h.bounded, ?_, ?_, ?_⟩
  · simpa using h.kept.defined
  · intro host path file response' hmem
    exact h.kept.stored host path file response' (by simpa using hmem)
  · refine List.pairwise_append.2 ⟨h.kept.returned, List.pairwise_singleton _ _, ?_⟩
    intro out hout last hlast
    rw [List.mem_singleton.1 hlast]
    cases out with
    | success host path file response' =>
      rintro rfl
      obtain ⟨-, relate, hrelate, hfile⟩ := h.kept.stored host url file response' hout
      exact ⟨relate, hrelate, hreturns file relate hrelate hfile⟩
    | refused => trivial
    | download => trivial
    | undefinedBehaviour => trivial

theorem inv_download {out : List Output} (h : Inv cfg log s) (hmeets : Meets cfg s (.download url))
    (hstep : s.step cfg (.download url) = some (s', out)) : Inv cfg (log ++ out) s' := by
  simp only [State.step] at hstep
  split at hstep
  · by_cases hstored : ∃ file, Stored s url file
    · obtain ⟨file, relate, hrelate, hfile⟩ := hstored
      obtain ⟨s1, hdownload, hfiles, hmap, hlen⟩ := onDownload_eq h hmeets hrelate hfile
      rw [hdownload] at hstep
      cases hstep
      refine inv_answered (inv_map h hfiles hmap hlen) ?_
      intro file' relate' hrelate' hfile'
      rw [hrelate] at hrelate'
      cases hrelate'
      rw [hfiles, hfile] at hfile'
      cases hfile'
      rfl
    · -- no file: an error page, and nothing changes
      have hnone : ∃ response, s.onDownload cfg url = .ok (s, response) := by
        unfold State.onDownload
        split
        · exact ⟨_, rfl⟩
        next relate hrelate =>
          split
          · exact ⟨_, rfl⟩
          next file hfile => exact absurd ⟨file, relate, hrelate, hfile⟩ hstored
      obtain ⟨response, hdownload⟩ := hnone
      rw [hdownload] at hstep
      cases hstep
      exact inv_answered h fun file relate hrelate hfile => absurd ⟨file, relate, hrelate, hfile⟩ hstored
  · cases hstep

/-- Every step that meets the condition keeps the invariant. -/
theorem inv_step {e : Event} {out : List Output} (h : Inv cfg log s) (hmeets : Meets cfg s e)
    (hstep : s.step cfg e = some (s', out)) : Inv cfg (log ++ out) s' := by
  cases e with
  | upload u =>
    simp only [State.step] at hstep
    split at hstep
    · have heq := Option.some.inj hstep
      rw [show s' = (s.onUpload cfg u).1 by rw [heq], show out = (s.onUpload cfg u).2 by rw [heq]]
      exact inv_upload h hmeets
    · cases hstep
  | download url => exact inv_download h hmeets hstep
  | restart fileCnt =>
    cases hstep
    rw [List.append_nil]
    refine inv_map h rfl (fun entry hentry => by cases hentry) ?_
    rw [State.init, List.length_nil]
    exact Nat.zero_le _

theorem inv_init (files : Bytes → Option Bytes) (fileCnt : Nat) : Inv cfg [] (State.init files fileCnt) := by
  refine ⟨?_, Nat.zero_le _, ?_, ?_, List.Pairwise.nil⟩ <;> simp [State.init]

end RetrievalAux

open RetrievalAux

/-- In every run whose steps all meet the condition, every success carries its URL, the file is stored under it, and every later
download of the URL returns exactly the bytes of the file. -/
theorem upload_retrievable {cfg : Config} {files : Bytes → Option Bytes} {fileCnt : Nat} {log : List Output} {s : State}
    (h : Machine.Run (State.step cfg) (Meets cfg) (State.init files fileCnt) log s) : Retrievable cfg log s :=
  (h.invariant (I := Inv cfg) (inv_init files fileCnt) fun hinv hmeets hstep => inv_step hinv hmeets hstep).kept

/-! ## Two runs -/

/-- The directory and the numbers of the configuration file. -/
def tmpDir : Config := { disk := chars "./tmp", filesPerDir := 30000, filesPerDir_pos := by decide }

/-- A body with an image of one byte. -/
def oneByte : Bytes :=
  line "--BB" ++ line "Content-Disposition: form-data; filename=\"a.jpg\"" ++ line "Content-Type: image/jpeg" ++ [13, 10] ++
    line "X" ++ line "--BB--"

/-- The body is posted, and the file system does this. -/
def post (outcome : Outcome) : Upload :=
  { content := oneByte, contentType := chars "multipart/form-data; boundary=BB", host := chars "msfs", usec := 7, tid := 1
    outcome := outcome }

theorem findPart_oneByte : findPart oneByte (chars "multipart/form-data; boundary=BB") =
    .ok { type := chars "jpg", extend := [], fileStart := 84, fileSize := 1 } := by
  decide

/-- The state after an upload whose byte is written, and a restart. -/
def uploaded : State := State.init ((State.init (fun _ => none) 42).onUpload tmpDir (post ⟨true, true, 1⟩)).1.files 42

/-- The URL of the image. -/
def imageUrl : Bytes := fullUrl (uploadPath tmpDir 42 7 1 (chars "jpg") [])

/-- The image is on the disk, and the download returns it. -/
theorem upload_retrievable_fetched : ∃ response s, Machine.Run (State.step tmpDir) (Meets tmpDir) (State.init (fun _ => none) 42)
      [.success (chars "msfs") imageUrl [88] response, .download imageUrl (downloadHead tmpDir (imageUrl.drop 2) 1 ++ [88])] s ∧
    Retrievable tmpDir
      [.success (chars "msfs") imageUrl [88] response, .download imageUrl (downloadHead tmpDir (imageUrl.drop 2) 1 ++ [88])] s := by
  have hmeets : Meets tmpDir (State.init (fun _ => none) 42) (.upload (post ⟨true, true, 1⟩)) := by
    refine ⟨?_, fun part hpart _ => ?_⟩
    · rw [post, findPart_oneByte]
      intro herror
      cases herror
    · rw [post, findPart_oneByte] at hpart
      cases hpart
      exact ⟨by decide, by decide, fun _ => by decide +kernel, by decide +kernel, by decide +kernel⟩
  have houtput : ((State.init (fun _ => none) 42).onUpload tmpDir (post ⟨true, true, 1⟩)).2 =
      [.success (chars "msfs") imageUrl [88] (uploadResponse (chars "msfs") imageUrl)] := by
    decide +kernel
  have hstored : State.step tmpDir (State.init (fun _ => none) 42) (.upload (post ⟨true, true, 1⟩)) =
      some (((State.init (fun _ => none) 42).onUpload tmpDir (post ⟨true, true, 1⟩)).1,
        ((State.init (fun _ => none) 42).onUpload tmpDir (post ⟨true, true, 1⟩)).2) := by
    rw [State.step, if_pos (by rfl)]
  have hupload := Machine.Run.step .start hmeets hstored
  have hrestart : Machine.Run (State.step tmpDir) (Meets tmpDir) (State.init (fun _ => none) 42) _ uploaded :=
    Machine.Run.step (e := .restart 42) hupload trivial rfl
  rw [houtput] at hrestart
  have hfile : uploaded.files (imageUrl.drop 2) = some [88] := by decide
  have hrelate : getRelatePathByUrl imageUrl = some (imageUrl.drop 2) := by decide
  have hfetch : ((uploaded.step tmpDir (.download imageUrl)).any fun (_, out) =>
      out == [.download imageUrl (downloadHead tmpDir (imageUrl.drop 2) 1 ++ [88])]) = true := by
    decide +kernel
  obtain ⟨⟨s, out⟩, hstep, hout⟩ := (Option.any_eq_true _ _).1 hfetch
  have hdownload : Meets tmpDir uploaded (.download imageUrl) := by
    rintro file ⟨relate, hrelate', hfile'⟩
    rw [hrelate] at hrelate'
    cases hrelate'
    rw [hfile] at hfile'
    cases hfile'
    exact ⟨by decide, fun _ => .inl (by decide)⟩
  have hrun := Machine.Run.step hrestart hdownload hstep
  rw [beq_iff_eq.1 hout] at hrun
  exact ⟨_, s, hrun, upload_retrievable hrun⟩

/-- A success whose file is not what was uploaded. -/
def Output.lost (s : State) : Output → Bool
  | .success _ path file _ => (getRelatePathByUrl path).bind s.files != some file
  | _ => false

/-- The disk is full: the file has its size and not its byte, and the answer is a success. -/
theorem not_upload_retrievable : ¬∀ log s, Machine.Run (State.step tmpDir) (fun _ _ => True) (State.init (fun _ => none) 42) log s →
    Retrievable tmpDir log s := by
  intro hall
  have hlost : ((Machine.steps (State.step tmpDir) (State.init (fun _ => none) 42) [.upload (post ⟨true, true, 0⟩)]).any fun
      (s, log) => log.any (Output.lost s)) = true := by
    decide
  obtain ⟨⟨s, log⟩, hsteps, hany⟩ := (Option.any_eq_true _ _).1 hlost
  obtain ⟨out, hmem, hout⟩ := List.any_eq_true.1 hany
  cases out with
  | success host path file response =>
    obtain ⟨-, relate, hrelate, hfile⟩ := (hall _ s (Machine.Run.of_steps (fun _ _ => trivial) .start hsteps)).stored
      host path file response (by simpa using hmem)
    simp [Output.lost, hrelate, hfile] at hout
  | refused => cases hout
  | download => cases hout
  | undefinedBehaviour => cases hout

end TeamTalk.Msfs
