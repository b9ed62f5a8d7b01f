import TeamTalk.Msfs.CacheThreads
import TeamTalk.Theorems.Workers

/-!
# Entries that are in use

`getOrCreateEntry` lets go of the lock when it returns an entry, so another thread can delete it before it is copied, and when its key
is the least one it deletes the entry itself. The buffer of a download is made for the size of the file, and the entry of an upload is
in the map before its file has a size.
-/

namespace TeamTalk.Msfs.CacheThreads

/-! ## The property -/

/-- The entry that a thread uses. -/
def Phase.uses : Phase → Option Nat
  | .holding id _ => some id
  | .copied id => some id
  | _ => none

/-- Each entry that a thread uses is allocated, and the map is not too large; no entry was used that is deleted, and no more was copied
than there was room for. -/
structure CacheSafe (log : List Output) (s : State) : Prop where
  allocated : ∀ tid id, (s.threads tid).uses = some id → (s.entry id).isSome = true
  bounded : s.map.length ≤ maxFileInMap
  undeleted : ∀ id, .usedDeleted id ∉ log
  fits : ∀ (size : Nat) (room : Int), .copied size room ∈ log → (size : Int) ≤ room

/-! ## The condition -/

/-- The path that a thread stores a file at. -/
def Phase.path : Phase → Option Bytes
  | .named _ path => some path
  | .inserted _ path => some path
  | .created _ path => some path
  | .resized _ path => some path
  | _ => none

/-- No thread uses the entry. -/
def Unused (s : State) (id : Nat) : Prop := ∀ t, (s.threads t).uses ≠ some id

/-- The condition on a step. The path of an upload is a new one. Where the map is full, the first entry is not in use when it has to
go, and what is entered for a download is not the first one. A file gets its size. When a download takes the size of a file, the file
has its size, which is below 2 GiB. -/
def Meets (cfg : Config) (s : State) : Event → Prop
  | .name tid job firstFiles secondFiles usec => s.files (uploadPathOf cfg firstFiles secondFiles usec tid job.type job.ext) = none ∧
    ∀ t, (s.threads t).path ≠ some (uploadPathOf cfg firstFiles secondFiles usec tid job.type job.ext)
  | .insert tid => ∀ job path, s.threads tid = .named job path → s.map.length < maxFileInMap ∨
    ∃ entry rest, s.map = entry :: rest ∧ (fullUrl path < entry.1 ∨ Unused s entry.2.id)
  | .setSize tid sized => ∀ job path, s.threads tid = .created job path → sized = true ∨ job.content = []
  | .stat _ url => (∀ t job path, s.threads t = .created job path → getRelatePathByUrl url = some path → job.content = []) ∧
    ∀ file, (getRelatePathByUrl url).bind s.files = some file → asInt file.length = -1 ∨ file.length < uint32Size / 2
  | .get tid _ => ∀ url room, s.threads tid = .sized url room → s.map.lookup url = none → s.map.length < maxFileInMap ∨
    ∃ entry rest, s.map = entry :: rest ∧ ¬url < entry.1 ∧ Unused s entry.2.id
  | _ => True

namespace CacheThreadsAux

open RetrievalAux (mem_insertOrdered length_insertOrdered length_updateMapCache mem_of_lookup)

variable {cfg : Config} {s s' : State} {log out : List Output} {tid t id n : Nat} {job : Workers.Job} {path relate url : Bytes}
  {content : Bytes} {room : Int} {p : Phase} {entry : Bytes × Entry} {map : List (Bytes × Entry)} {e : Entry}

/-! ## The map -/

/-- A map that is not too large is left alone. -/
theorem updateMapCache_eq (h : map.length ≤ maxFileInMap) : updateMapCache map = map := by
  rw [updateMapCache, Nat.sub_eq_zero_of_le h, List.drop_zero]

/-- With one entry too many the first one goes. -/
theorem updateMapCache_full (hlen : map.length = maxFileInMap) :
    updateMapCache (insertOrdered url e map) = (insertOrdered url e map).drop 1 := by
  rw [updateMapCache, length_insertOrdered, hlen, Nat.add_sub_cancel_left]

/-- What is in the map after an entry is made: what goes is the first one, or the new one where it is the first one. -/
theorem mem_entered (hlen : map.length ≤ maxFileInMap) (h : entry ∈ map)
    (hspared : map.length < maxFileInMap ∨ ∃ first rest, map = first :: rest ∧ (url < first.1 ∨ entry ≠ first)) :
    entry ∈ updateMapCache (insertOrdered url e map) := by
  rcases Nat.lt_or_ge map.length maxFileInMap with hroom | hfull
  · rw [updateMapCache_eq (by rw [length_insertOrdered]; exact hroom)]
    exact mem_insertOrdered.2 (.inr h)
  · rw [updateMapCache_full (Nat.le_antisymm hlen hfull)]
    rcases hspared with hroom | ⟨first, rest, rfl, hfirst⟩
    · exact absurd hroom (Nat.not_lt.2 hfull)
    · unfold insertOrdered
      split
      · exact h
      next hnot =>
        rcases List.mem_cons.1 h with heq | hrest
        · exact absurd heq (hfirst.resolve_left hnot)
        · exact mem_insertOrdered.2 (.inr hrest)

/-- The new entry stays where it is not the first one. -/
theorem mem_entered_new (hlen : map.length ≤ maxFileInMap)
    (hspared : map.length < maxFileInMap ∨ ∃ first rest, map = first :: rest ∧ ¬url < first.1) :
    (url, e) ∈ updateMapCache (insertOrdered url e map) := by
  rcases Nat.lt_or_ge map.length maxFileInMap with hroom | hfull
  · rw [updateMapCache_eq (by rw [length_insertOrdered]; exact hroom)]
    exact mem_insertOrdered.2 (.inl rfl)
  · rw [updateMapCache_full (Nat.le_antisymm hlen hfull)]
    rcases hspared with hroom | ⟨first, rest, rfl, hfirst⟩
    · exact absurd hroom (Nat.not_lt.2 hfull)
    · unfold insertOrdered
      rw [if_neg hfirst]
      exact mem_insertOrdered.2 (.inl rfl)

/-- An entry of the new map is the one entered or was there. -/
theorem mem_of_entered (h : entry ∈ updateMapCache (insertOrdered url e map)) : entry = (url, e) ∨ entry ∈ map :=
  mem_insertOrdered.1 (List.mem_of_mem_drop h)

/-- An entry that is allocated is in the map. -/
theorem entry_cases (s : State) (id : Nat) : s.entry id = none ∧ (∀ entry ∈ s.map, entry.2.id ≠ id) ∨
    ∃ entry ∈ s.map, entry.2.id = id ∧ s.entry id = some entry.2 := by
  unfold State.entry
  cases hfind : (s.map.map Prod.snd).find? fun e => e.id = id with
  | none =>
    refine .inl ⟨rfl, fun entry hentry heq => ?_⟩
    have hnot := List.find?_eq_none.1 hfind entry.2 (List.mem_map_of_mem hentry)
    simp [heq] at hnot
  | some e =>
    obtain ⟨entry, hentry, rfl⟩ := List.mem_map.1 (List.mem_of_find?_eq_some hfind)
    have hid := List.find?_some hfind
    exact .inr ⟨entry, hentry, by simpa using hid, rfl⟩

/-! ## The invariant -/

/-- The file of a path has so many bytes, and will have. -/
def Final (s : State) (relate : Bytes) (n : Nat) : Prop :=
  (∃ file, s.files relate = some file ∧ file.length = n) ∧ ∀ t job, s.threads t = .created job relate → job.content = []

/-- An entry has as many bytes as its file, or the file that will be stored. -/
def Sound (s : State) (entry : Bytes × Entry) : Prop :=
  ∃ relate, getRelatePathByUrl entry.1 = some relate ∧ (Final s relate entry.2.content.length ∨
    ∃ t job, (s.threads t = .inserted job relate ∨ s.threads t = .created job relate) ∧
      entry.2.content.length = job.content.length)

/-- What is known of a thread. -/
def PhaseOk (s : State) : Phase → Prop
  | .idle => True
  | .named _ path => s.files path = none ∧ getRelatePathByUrl (fullUrl path) = some path
  | .inserted _ path => s.files path = none
  | .created _ path => s.files path = some []
  | .resized job path => ∃ file, s.files path = some file ∧ file.length = job.content.length
  | .sized url room => ∃ relate n, getRelatePathByUrl url = some relate ∧ Final s relate n ∧ room = n
  | .holding id room => (∃ entry ∈ s.map, entry.2.id = id) ∧ ∀ entry ∈ s.map, entry.2.id = id → (entry.2.content.length : Int) ≤ room
  | .copied id => ∃ entry ∈ s.map, entry.2.id = id

/-- The invariant of the states. -/
structure Inv (s : State) : Prop where
  phases : ∀ t, PhaseOk s (s.threads t)
  unique : ∀ t t' path, (s.threads t).path = some path → (s.threads t').path = some path → t = t'
  sound : ∀ entry ∈ s.map, Sound s entry
  distinct : ∀ entry ∈ s.map, ∀ entry' ∈ s.map, entry.2.id = entry'.2.id → entry = entry'
  fresh : ∀ entry ∈ s.map, entry.2.id < s.nextId
  bounded : s.map.length ≤ maxFileInMap

/-- The invariant holds when the server starts. -/
theorem inv_init (files : Bytes → Option Bytes) : Inv (State.init files) := by
  refine ⟨fun t => trivial, fun t t' path hpath => ?_, fun entry hentry => ?_, fun entry hentry => ?_, fun entry hentry => ?_,
    Nat.zero_le _⟩
  · cases hpath
  · cases hentry
  · cases hentry
  · cases hentry

/-- A thread that goes on is in the phase it went on to. -/
theorem goOn_self (s : State) (tid : Nat) (p : Phase) : (s.goOn tid p).threads tid = p := if_pos rfl

/-- The other threads stay where they were. -/
theorem goOn_of_ne (h : t ≠ tid) : (s.goOn tid p).threads t = s.threads t := if_neg h

/-- A thread has gone on: the others are where they were. The thread works on the path it had, or on a new one; only its file changes;
files that are final stay so; and entries that others use stay. -/
structure Next (s s' : State) (tid : Nat) (p : Phase) : Prop where
  threads : s'.threads = (s.goOn tid p).threads
  path : ∀ path, p.path = some path → (s.threads tid).path = some path ∨ ∀ t, (s.threads t).path ≠ some path
  files : ∀ path, (s.threads tid).path ≠ some path → s'.files path = s.files path
  final : ∀ relate n, Final s relate n → Final s' relate n
  used : ∀ t, t ≠ tid → ∀ id, (s.threads t).uses = some id → ∀ entry, entry.2.id = id → (entry ∈ s'.map ↔ entry ∈ s.map)

/-- What is known of the other threads is still so. -/
theorem phaseOk_next (h : Inv s) (hnext : Next s s' tid p) (hne : t ≠ tid) : PhaseOk s' (s.threads t) := by
  have hok := h.phases t
  have hused := hnext.used t hne
  have hfile : ∀ path, (s.threads t).path = some path → s'.files path = s.files path :=
    fun path hpath => hnext.files path fun hself => hne (h.unique t tid path hpath hself)
  cases hphase : s.threads t with
  | idle => trivial
  | named job path =>
    rw [hphase] at hok hfile
    exact ⟨(hfile path rfl).trans hok.1, hok.2⟩
  | inserted job path =>
    rw [hphase] at hok hfile
    exact (hfile path rfl).trans hok
  | created job path =>
    rw [hphase] at hok hfile
    exact (hfile path rfl).trans hok
  | resized job path =>
    rw [hphase] at hok hfile
    obtain ⟨file, hstored, hlen⟩ := hok
    exact ⟨file, (hfile path rfl).trans hstored, hlen⟩
  | sized url room =>
    rw [hphase] at hok
    obtain ⟨relate, n, hrelate, hfinal, hroom⟩ := hok
    exact ⟨relate, n, hrelate, hnext.final relate n hfinal, hroom⟩
  | holding id room =>
    rw [hphase] at hok hused
    obtain ⟨⟨entry, hentry, hid⟩, hlen⟩ := hok
    refine ⟨⟨entry, (hused id rfl entry hid).2 hentry, hid⟩, fun entry' hentry' hid' => ?_⟩
    exact hlen entry' ((hused id rfl entry' hid').1 hentry') hid'
  | copied id =>
    rw [hphase] at hok hused
    obtain ⟨entry, hentry, hid⟩ := hok
    exact ⟨entry, (hused id rfl entry hid).2 hentry, hid⟩

/-- What a step has to show for the invariant to hold after it. -/
theorem inv_next (h : Inv s) (hnext : Next s s' tid p) (hphase : PhaseOk s' p) (hsound : ∀ entry ∈ s'.map, Sound s' entry)
    (hdistinct : ∀ entry ∈ s'.map, ∀ entry' ∈ s'.map, entry.2.id = entry'.2.id → entry = entry')
    (hfresh : ∀ entry ∈ s'.map, entry.2.id < s'.nextId) (hbounded : s'.map.length ≤ maxFileInMap) : Inv s' := by
  refine ⟨fun t => ?_, fun t t' path hpath hpath' => ?_, hsound, hdistinct, hfresh, hbounded⟩
  · rw [hnext.threads]
    by_cases heq : t = tid
    · rw [heq, goOn_self]
      exact hphase
    · rw [goOn_of_ne heq]
      exact phaseOk_next h hnext heq
  · rw [hnext.threads] at hpath hpath'
    -- a path of the thread that has gone on is nobody else's
    have hother : ∀ t, t ≠ tid → p.path = some path → (s.threads t).path ≠ some path := by
      intro t hne hself ht
      rcases hnext.path path hself with hold | hnew
      · exact hne (h.unique t tid path ht hold)
      · exact hnew t ht
    by_cases heq : t = tid
    · by_cases heq' : t' = tid
      · rw [heq, heq']
      · rw [heq, goOn_self] at hpath
        rw [goOn_of_ne heq'] at hpath'
        exact absurd hpath' (hother t' heq' hpath)
    · rw [goOn_of_ne heq] at hpath
      by_cases heq' : t' = tid
      · rw [heq', goOn_self] at hpath'
        exact absurd hpath (hother t heq hpath')
      · rw [goOn_of_ne heq'] at hpath'
        exact h.unique t t' path hpath hpath'

/-- An entry stays sound: it is about a file that is final, or about an upload that goes on as it should. -/
theorem sound_next (hnext : Next s s' tid p) (h : Sound s entry)
    (hself : ∀ job relate, s.threads tid = .inserted job relate ∨ s.threads tid = .created job relate →
      Final s' relate job.content.length ∨ p = .inserted job relate ∨ p = .created job relate) : Sound s' entry := by
  obtain ⟨relate, hrelate, hfinal | ⟨t, job, ht, hlen⟩⟩ := h
  · exact ⟨relate, hrelate, .inl (hnext.final relate _ hfinal)⟩
  · refine ⟨relate, hrelate, ?_⟩
    rw [hnext.threads]
    by_cases heq : t = tid
    · subst heq
      rcases hself job relate ht with hfinal | hgoes
      · rw [hlen]
        exact .inl hfinal
      · refine .inr ⟨t, job, ?_, hlen⟩
        rw [goOn_self]
        exact hgoes
    · refine .inr ⟨t, job, ?_, hlen⟩
      rw [goOn_of_ne heq]
      exact ht

/-! ## Steps that leave the files alone -/

/-- A file that is written for good stays so while the files do. -/
theorem final_of_files (hthreads : s'.threads = (s.goOn tid p).threads) (hfiles : s'.files = s.files)
    (hp : ∀ job path, p ≠ .created job path) (h : Final s relate n) : Final s' relate n := by
  refine ⟨?_, fun t job ht => ?_⟩
  · rw [hfiles]
    exact h.1
  · rw [hthreads] at ht
    by_cases heq : t = tid
    · rw [heq, goOn_self] at ht
      exact absurd ht (hp job relate)
    · rw [goOn_of_ne heq] at ht
      exact h.2 t job ht

/-- The files and the map are left alone, and the thread is not in the middle of an upload. -/
theorem inv_goOn (h : Inv s) (hpath : ∀ path, p.path = some path → ∀ t, (s.threads t).path ≠ some path)
    (hp : ∀ job path, p ≠ .created job path) (hphase : PhaseOk (s.goOn tid p) p)
    (hself : ∀ job relate, s.threads tid = .inserted job relate ∨ s.threads tid = .created job relate →
      Final s relate job.content.length) : Inv (s.goOn tid p) := by
  have hfinal : ∀ relate n, Final s relate n → Final (s.goOn tid p) relate n := fun relate n => final_of_files rfl rfl hp
  have hnext : Next s (s.goOn tid p) tid p :=
    ⟨rfl, fun path hnew => .inr (hpath path hnew), fun _ _ => rfl, hfinal, fun _ _ _ _ _ _ => Iff.rfl⟩
  refine inv_next h hnext hphase (fun entry hentry => ?_) h.distinct h.fresh h.bounded
  exact sound_next hnext (h.sound entry hentry) fun job relate hold => .inl (hfinal relate _ (hself job relate hold))

/-- A thread that does not store a file goes on. -/
theorem inv_goOn_free (h : Inv s) (hold : (s.threads tid).path = none) (hpath : ∀ path, p.path = some path → ∀ t, (s.threads t).path ≠ some path)
    (hp : ∀ job path, p ≠ .created job path) (hphase : PhaseOk (s.goOn tid p) p) : Inv (s.goOn tid p) := by
  refine inv_goOn h hpath hp hphase fun job relate hinserted => ?_
  rcases hinserted with hinserted | hinserted <;> (rw [hinserted] at hold; cases hold)

/-- An abort keeps the invariant. -/
theorem inv_abort (h : Inv s) : Inv s.abort := ⟨h.phases, h.unique, h.sound, h.distinct, h.fresh, h.bounded⟩

/-- A small size is the same as an `int`. -/
theorem asInt_eq {n : Nat} (h : n < uint32Size / 2) : asInt n = n := RetrievalAux.asInt_eq h

/-- The invariant is kept by the stat of a download. -/
theorem inv_stat (h : Inv s) (hphase : s.threads tid = .idle) (hmeets : Meets cfg s (.stat tid url)) : Inv (s.stat tid url) := by
  obtain ⟨hcreated, hsize⟩ := hmeets
  unfold State.stat
  split
  · exact h
  next file hfile =>
    split
    · exact h
    next hfound =>
      have hint := asInt_eq ((hsize file hfile).resolve_left hfound)
      rw [hint]
      refine inv_goOn_free h (by rw [hphase]; rfl) (fun path hpath => by cases hpath) (fun _ _ => by simp) ?_
      obtain ⟨relate, hrelate, hstored⟩ := Option.bind_eq_some_iff.1 hfile
      have hfinal : Final s relate file.length :=
        ⟨⟨file, hstored, rfl⟩, fun t job ht => hcreated t job relate ht hrelate⟩
      exact ⟨relate, file.length, hrelate, final_of_files rfl rfl (fun _ _ => by simp) hfinal, rfl⟩

/-- An entry that is in the map is not larger than the buffer. -/
theorem length_le_room (h : Inv s) (hphase : s.threads tid = .sized url room) (hmem : (url, e) ∈ s.map) :
    (e.content.length : Int) ≤ room := by
  have hok := h.phases tid
  rw [hphase] at hok
  obtain ⟨relate, n, hrelate, ⟨⟨file, hfile, hlen⟩, hcreated⟩, hroom⟩ := hok
  obtain ⟨relate', hrelate', hsound⟩ := h.sound (url, e) hmem
  rw [hrelate] at hrelate'
  cases hrelate'
  rcases hsound with ⟨⟨file', hfile', hlen'⟩, -⟩ | ⟨t, job, ht, hlen'⟩
  · rw [hfile] at hfile'
    cases hfile'
    rw [hroom, ← hlen, hlen']
  · -- the upload has no file yet, or an empty one that stays empty
    have hok := h.phases t
    rcases ht with ht | ht
    · rw [ht] at hok
      rw [show s.files relate = none from hok] at hfile
      cases hfile
    · rw [show e.content.length = _ from hlen', hcreated t job ht, hroom]
      exact Int.natCast_nonneg n

/-- An entry that is found. -/
theorem inv_found (h : Inv s) (hphase : s.threads tid = .sized url room) (hlookup : s.map.lookup url = some e) :
    Inv (s.goOn tid (.holding e.id room)) := by
  have hmem := mem_of_lookup hlookup
  refine inv_goOn_free h (by rw [hphase]; rfl) (fun path hpath => by cases hpath) (fun _ _ => by simp) ?_
  refine ⟨⟨(url, e), hmem, rfl⟩, fun entry hentry hid => ?_⟩
  have hsame := h.distinct entry hentry (url, e) hmem hid
  rw [hsame]
  exact length_le_room h hphase hmem

/-! ## Steps that enter something in the map -/

/-- An entry in use is in the map. -/
theorem used_mem (h : Inv s) (huses : (s.threads t).uses = some id) : ∃ entry ∈ s.map, entry.2.id = id := by
  have hok := h.phases t
  cases hphase : s.threads t with
  | holding id' room =>
    rw [hphase] at hok huses
    cases huses
    exact hok.1
  | copied id' =>
    rw [hphase] at hok huses
    cases huses
    exact hok
  | _ =>
    rw [hphase] at huses
    cases huses

/-- Something is entered in the map: an entry of a file, or of an upload. -/
theorem inv_entered (h : Inv s) (hmap : map = updateMapCache (insertOrdered url { id := s.nextId, content := content } s.map))
    (hpath : ∀ path, p.path = some path → (s.threads tid).path = some path) (hp : ∀ job path, p ≠ .created job path)
    (hold : ∀ job path, s.threads tid ≠ .inserted job path ∧ s.threads tid ≠ .created job path)
    (hspared : s.map.length < maxFileInMap ∨ ∃ first rest, s.map = first :: rest ∧ (url < first.1 ∨ Unused s first.2.id))
    (hphase : PhaseOk { s.goOn tid p with map := map, nextId := s.nextId + 1 } p)
    (hsound : Sound { s.goOn tid p with map := map, nextId := s.nextId + 1 } (url, { id := s.nextId, content := content })) :
    Inv { s.goOn tid p with map := map, nextId := s.nextId + 1 } := by
  have hcases : ∀ {entry}, entry ∈ map → entry = (url, { id := s.nextId, content := content }) ∨ entry ∈ s.map := by
    intro entry hentry
    rw [hmap] at hentry
    exact mem_of_entered hentry
  have hfinal : ∀ relate n, Final s relate n → Final { s.goOn tid p with map := map, nextId := s.nextId + 1 } relate n :=
    fun relate n => final_of_files rfl rfl hp
  have hused : ∀ t, t ≠ tid → ∀ id, (s.threads t).uses = some id → ∀ entry, entry.2.id = id → (entry ∈ map ↔ entry ∈ s.map) := by
    intro t hne id huses entry hid
    constructor
    · intro hentry
      rcases hcases hentry with rfl | hentry
      · -- the number of the new entry is in use by nobody
        obtain ⟨entry, hentry, hold⟩ := used_mem h huses
        have hlt := h.fresh entry hentry
        dsimp only at hid
        omega
      · exact hentry
    · intro hentry
      rw [hmap]
      refine mem_entered h.bounded hentry (hspared.imp_right ?_)
      rintro ⟨first, rest, hcons, hfirst⟩
      refine ⟨first, rest, hcons, hfirst.imp_right fun hunused heq => ?_⟩
      rw [← heq, hid] at hunused
      exact hunused t huses
  have hnext : Next s { s.goOn tid p with map := map, nextId := s.nextId + 1 } tid p :=
    ⟨rfl, fun path hnew => .inl (hpath path hnew), fun _ _ => rfl, hfinal, hused⟩
  refine inv_next h hnext hphase (fun entry hentry => ?_) (fun entry hentry entry' hentry' hid => ?_) (fun entry hentry => ?_) ?_
  · rcases hcases hentry with rfl | hentry
    · exact hsound
    · refine sound_next hnext (h.sound entry hentry) fun job relate hinserted => ?_
      rcases hinserted with hinserted | hinserted
      · exact absurd hinserted (hold job relate).1
      · exact absurd hinserted (hold job relate).2
  · rcases hcases hentry with rfl | hentry
    · rcases hcases hentry' with rfl | hentry'
      · rfl
      · have := h.fresh entry' hentry'
        dsimp only at hid
        omega
    · rcases hcases hentry' with rfl | hentry'
      · have := h.fresh entry hentry
        dsimp only at hid
        omega
      · exact h.distinct entry hentry entry' hentry' hid
  · rcases hcases hentry with rfl | hentry
    · exact Nat.lt_succ_self _
    · exact Nat.lt_succ_of_lt (h.fresh entry hentry)
  · dsimp only
    rw [hmap]
    exact length_updateMapCache

/-- The URL of a new path is not in the map. -/
theorem lookup_named (h : Inv s) (hphase : s.threads tid = .named job path) : s.map.lookup (fullUrl path) = none := by
  have hok := h.phases tid
  rw [hphase] at hok
  obtain ⟨hnone, hrelate⟩ := hok
  have hself : (s.threads tid).path = some path := by
    rw [hphase]
    rfl
  cases hlookup : s.map.lookup (fullUrl path) with
  | none => rfl
  | some e =>
    obtain ⟨relate, hrelate', ⟨⟨file, hfile, -⟩, -⟩ | ⟨t, job', ht, -⟩⟩ := h.sound _ (mem_of_lookup hlookup)
    · rw [hrelate] at hrelate'
      cases hrelate'
      rw [hnone] at hfile
      cases hfile
    · rw [hrelate] at hrelate'
      cases hrelate'
      have htid : t = tid := h.unique t tid path (by rcases ht with ht | ht <;> rw [ht] <;> rfl) hself
      rw [htid, hphase] at ht
      rcases ht with ht | ht <;> cases ht

/-- It is kept when an upload enters the cache. -/
theorem inv_insert (h : Inv s) (hphase : s.threads tid = .named job path)
    (hmeets : s.map.length < maxFileInMap ∨ ∃ entry rest, s.map = entry :: rest ∧ (fullUrl path < entry.1 ∨ Unused s entry.2.id)) :
    Inv (s.insert tid job path) := by
  have hok := h.phases tid
  rw [hphase] at hok
  have hmap : updateMapCache (insertEntry s.map (fullUrl path) { id := s.nextId, content := job.content }) =
      updateMapCache (insertOrdered (fullUrl path) { id := s.nextId, content := job.content } s.map) := by
    unfold insertEntry
    rw [lookup_named h hphase, if_neg (by simp)]
    exact updateMapCache_eq length_updateMapCache
  unfold State.insert
  generalize updateMapCache (insertEntry s.map (fullUrl path) { id := s.nextId, content := job.content }) = map at hmap ⊢
  refine inv_entered h hmap (fun path' hpath => ?_) (fun _ _ => by simp) (fun job' path' => ?_) hmeets hok.1 ?_
  · rw [hphase]
    exact hpath
  · rw [hphase]
    exact ⟨by simp, by simp⟩
  · exact ⟨path, hok.2, .inr ⟨tid, job, .inl (goOn_self s tid _), rfl⟩⟩

/-- An entry is read from its file. -/
theorem inv_read (h : Inv s) (hphase : s.threads tid = .sized url room) {file : Bytes}
    (hfile : (getRelatePathByUrl url).bind s.files = some file) (hlen : content.length = file.length)
    (hmeets : s.map.length < maxFileInMap ∨ ∃ entry rest, s.map = entry :: rest ∧ ¬url < entry.1 ∧ Unused s entry.2.id) :
    Inv { s.goOn tid (.holding s.nextId room) with
      map := updateMapCache (insertOrdered url { id := s.nextId, content } s.map), nextId := s.nextId + 1 } := by
  have hok := h.phases tid
  rw [hphase] at hok
  obtain ⟨relate, n, hrelate, hfinal, hroom⟩ := hok
  have hbytes : content.length = n := by
    obtain ⟨⟨file', hfile', hlen'⟩, -⟩ := hfinal
    rw [hrelate, Option.bind_some, hfile'] at hfile
    cases hfile
    rw [hlen, hlen']
  have hspared : s.map.length < maxFileInMap ∨ ∃ first rest, s.map = first :: rest ∧ (url < first.1 ∨ Unused s first.2.id) :=
    hmeets.imp_right fun ⟨first, rest, hcons, _, hunused⟩ => ⟨first, rest, hcons, .inr hunused⟩
  have hnew : s.map.length < maxFileInMap ∨ ∃ first rest, s.map = first :: rest ∧ ¬url < first.1 :=
    hmeets.imp_right fun ⟨first, rest, hcons, hfirst, _⟩ => ⟨first, rest, hcons, hfirst⟩
  have hmem := mem_entered_new (e := { id := s.nextId, content }) h.bounded hnew
  have hcases : ∀ entry ∈ updateMapCache (insertOrdered url { id := s.nextId, content } s.map),
      entry = (url, { id := s.nextId, content }) ∨ entry ∈ s.map := fun entry => mem_of_entered
  generalize hmap : updateMapCache (insertOrdered url { id := s.nextId, content } s.map) = map at hmem hcases ⊢
  refine inv_entered h hmap.symm (fun path hpath => by cases hpath) (fun _ _ => by simp) (fun job path => ?_) hspared
    ⟨⟨_, hmem, rfl⟩, fun entry hentry hid => ?_⟩ ⟨relate, hrelate, .inl ?_⟩
  · rw [hphase]
    exact ⟨by simp, by simp⟩
  · rcases hcases entry hentry with rfl | hentry
    · rw [hbytes, hroom]
    · have hlt := h.fresh entry hentry
      omega
  · rw [hbytes]
    exact final_of_files rfl rfl (fun _ _ => by simp) hfinal

/-- And when a download finds its entry or makes one. -/
theorem inv_get {read : Read} (h : Inv s) (hphase : s.threads tid = .sized url room)
    (hmeets : s.map.lookup url = none → s.map.length < maxFileInMap ∨
      ∃ entry rest, s.map = entry :: rest ∧ ¬url < entry.1 ∧ Unused s entry.2.id)
    (hget : s.getOrCreateEntry tid url room read = some s') : Inv s' := by
  have hidle : Inv (s.goOn tid .idle) :=
    inv_goOn_free h (by rw [hphase]; rfl) (fun path hpath => by cases hpath) (fun _ _ => by simp) trivial
  unfold State.getOrCreateEntry at hget
  split at hget
  next e hlookup =>
    cases hget
    exact inv_found h hphase hlookup
  next hlookup =>
    split at hget
    · cases hget
      exact hidle
    next file hfile =>
      split at hget
      · cases hget
        exact inv_abort h
      · cases hget
        exact hidle
      · split at hget
        next hlen =>
          cases hget
          exact inv_read h hphase hfile hlen (hmeets hlookup)
        · cases hget

/-! ## Steps that change a file -/

/-- A stored file is found. -/
theorem store_self (s : State) (path content : Bytes) : (s.store path content).files path = some content := if_pos rfl

/-- The other files stay. -/
theorem store_of_ne (s : State) {path path' : Bytes} (content : Bytes) (h : path' ≠ path) :
    (s.store path content).files path' = s.files path' := if_neg h

/-- A thread stores what it has to at its path. A file that was final there keeps its size. -/
theorem inv_store (h : Inv s) (hold : (s.threads tid).path = some path) (hpath : ∀ path', p.path = some path' → path' = path)
    (hsize : ∀ n, Final s path n → content.length = n) (hcreated : ∀ job path', p = .created job path' → s.files path' = none ∧ path' = path)
    (hphase : PhaseOk ((s.goOn tid p).store path content) p)
    (hself : ∀ job relate, s.threads tid = .inserted job relate ∨ s.threads tid = .created job relate →
      Final ((s.goOn tid p).store path content) relate job.content.length ∨ p = .inserted job relate ∨ p = .created job relate) :
    Inv ((s.goOn tid p).store path content) := by
  have hfinal : ∀ relate n, Final s relate n → Final ((s.goOn tid p).store path content) relate n := by
    intro relate n hrelate
    refine ⟨?_, fun t job ht => ?_⟩
    · by_cases heq : relate = path
      · rw [heq, store_self]
        exact ⟨content, rfl, hsize n (heq ▸ hrelate)⟩
      · rw [store_of_ne _ _ heq]
        exact hrelate.1
    · by_cases heq : t = tid
      · subst heq
        rw [show ((s.goOn t p).store path content).threads t = p from goOn_self s t p] at ht
        -- there was no file before
        obtain ⟨file, hfile, -⟩ := hrelate.1
        rw [(hcreated job relate ht).1] at hfile
        cases hfile
      · rw [show ((s.goOn tid p).store path content).threads t = _ from goOn_of_ne heq] at ht
        exact hrelate.2 t job ht
  have hnext : Next s ((s.goOn tid p).store path content) tid p := by
    refine ⟨rfl, fun path' hnew => .inl ?_, fun path' hne => ?_, hfinal, fun _ _ _ _ _ _ => Iff.rfl⟩
    · rw [hpath path' hnew]
      exact hold
    · refine store_of_ne _ _ ?_
      rintro rfl
      exact hne hold
  exact inv_next h hnext hphase (fun entry hentry => sound_next hnext (h.sound entry hentry) hself) h.distinct h.fresh h.bounded

/-- It is kept when a file is created. -/
theorem inv_create {created : Bool} (h : Inv s) (hphase : s.threads tid = .inserted job path) : Inv (s.create tid job path created) := by
  unfold State.create
  split
  next hnew =>
    refine inv_store h (by rw [hphase]; rfl) (fun path' hpath => (Option.some.inj hpath).symm) (fun n hfinal => ?_)
      (fun job' path' heq => ?_) (store_self _ _ _) (fun job' relate hold => ?_)
    · obtain ⟨⟨file, hfile, -⟩, -⟩ := hfinal
      rw [hnew.2] at hfile
      cases hfile
    · cases heq
      exact ⟨hnew.2, rfl⟩
    · rw [hphase] at hold
      rcases hold with hold | hold
      · cases hold
        exact .inr (.inr rfl)
      · cases hold
  · exact inv_abort h

/-- When its size is set. -/
theorem inv_setSize {sized : Bool} (h : Inv s) (hphase : s.threads tid = .created job path) (hmeets : sized = true ∨ job.content = []) :
    Inv (s.setSize tid job path sized) := by
  have hok := h.phases tid
  rw [hphase] at hok
  have hself : (s.threads tid).path = some path := by
    rw [hphase]
    rfl
  -- nobody else has the path
  have hother : ∀ t job', t ≠ tid → s.threads t ≠ .created job' path := by
    intro t job' hne ht
    exact hne (h.unique t tid path (by rw [ht]; rfl) hself)
  unfold State.setSize
  split
  · refine inv_store h hself (fun path' hpath => (Option.some.inj hpath).symm) (fun n hfinal => ?_) (fun job' path' heq => by cases heq)
      ⟨_, store_self _ _ _, List.length_replicate⟩ (fun job' relate hold => .inl ?_)
    · obtain ⟨⟨file, hfile, hlen⟩, hempty⟩ := hfinal
      rw [show s.files path = some [] from hok] at hfile
      cases hfile
      rw [hempty tid job hphase, ← hlen]
      rfl
    · rw [hphase] at hold
      rcases hold with hold | hold
      · cases hold
      · cases hold
        refine ⟨⟨_, store_self _ _ _, List.length_replicate⟩, fun t job' ht => ?_⟩
        by_cases heq : t = tid
        · subst heq
          rw [show ((s.goOn t (.resized job path)).store path _).threads t = _ from goOn_self s t _] at ht
          cases ht
        · rw [show ((s.goOn tid (.resized job path)).store path _).threads t = _ from goOn_of_ne heq] at ht
          exact absurd ht (hother t job' heq)
  next hfailed =>
    have hempty := hmeets.resolve_left hfailed
    refine inv_goOn h (fun path' hpath => by cases hpath) (fun _ _ => by simp) trivial (fun job' relate hold => ?_)
    rw [hphase] at hold
    rcases hold with hold | hold
    · cases hold
    · cases hold
      refine ⟨⟨[], hok, by rw [hempty]⟩, fun t job' ht => ?_⟩
      by_cases heq : t = tid
      · subst heq
        rw [hphase] at ht
        cases ht
        exact hempty
      · exact absurd ht (hother t job' heq)

/-- And when its content is written. -/
theorem inv_write {written : Nat} (h : Inv s) (hphase : s.threads tid = .resized job path) : Inv (s.write tid job path written) := by
  have hok := h.phases tid
  rw [hphase] at hok
  obtain ⟨file, hfile, hlen⟩ := hok
  unfold State.write
  refine inv_store h (by rw [hphase]; rfl) (fun path' hpath => by cases hpath) (fun n hfinal => ?_) (fun job' path' heq => by cases heq)
    trivial (fun job' relate hold => ?_)
  · obtain ⟨⟨file', hfile', hlen'⟩, -⟩ := hfinal
    rw [hfile] at hfile'
    cases hfile'
    rw [← hlen', hlen]
    simp [Outcome.contents]
    omega
  · rw [hphase] at hold
    rcases hold with hold | hold <;> cases hold

/-! ## The uses of an entry -/

/-- What a run has put out so far. -/
structure Fine (log : List Output) : Prop where
  undeleted : ∀ id, .usedDeleted id ∉ log
  fits : ∀ (size : Nat) (room : Int), .copied size room ∈ log → (size : Int) ≤ room

/-- An empty log is fine. -/
theorem fine_nil : Fine [] := ⟨fun id hid => (by cases hid), fun size room hcopied => (by cases hcopied)⟩

/-- So is a copy that fits its room. -/
theorem fine_copied {size : Nat} (h : Fine log) (hfits : (size : Int) ≤ room) : Fine (log ++ [.copied size room]) := by
  refine ⟨fun id hid => ?_, fun size' room' hcopied => ?_⟩
  · exact h.undeleted id (by simpa using hid)
  · rcases List.mem_append.1 hcopied with hcopied | hcopied
    · exact h.fits size' room' hcopied
    · cases List.mem_singleton.1 hcopied
      exact hfits

/-- A copy out of an entry keeps the invariant and a fine log. -/
theorem inv_copy (h : Inv s) (hfine : Fine log) (hphase : s.threads tid = .holding id room) :
    Inv (s.copy tid id room).1 ∧ Fine (log ++ (s.copy tid id room).2) := by
  have hok := h.phases tid
  rw [hphase] at hok
  obtain ⟨⟨entry, hentry, hid⟩, hlen⟩ := hok
  unfold State.copy
  rcases entry_cases s id with ⟨-, hnone⟩ | ⟨entry', hentry', hid', hfound⟩
  · exact absurd hid (hnone entry hentry)
  · rw [hfound]
    refine ⟨?_, fine_copied hfine (hlen entry' hentry' hid')⟩
    exact inv_goOn_free h (by rw [hphase]; rfl) (fun path hpath => by cases hpath) (fun _ _ => by simp) ⟨entry, hentry, hid⟩

/-- And so does the entry's new time. -/
theorem inv_touch (h : Inv s) (hfine : Fine log) (hphase : s.threads tid = .copied id) :
    Inv (s.touch tid id).1 ∧ Fine (log ++ (s.touch tid id).2) := by
  have hok := h.phases tid
  rw [hphase] at hok
  obtain ⟨entry, hentry, hid⟩ := hok
  unfold State.touch
  rcases entry_cases s id with ⟨-, hnone⟩ | ⟨entry', -, -, hfound⟩
  · exact absurd hid (hnone entry hentry)
  · rw [hfound]
    dsimp only
    rw [List.append_nil]
    exact ⟨inv_goOn_free h (by rw [hphase]; rfl) (fun path hpath => by cases hpath) (fun _ _ => by simp) trivial, hfine⟩

/-! ## The run -/

/-- Every step that meets the condition keeps the invariant, and puts out what it should. -/
theorem inv_step {ev : Event} (h : Inv s ∧ Fine log) (hmeets : Meets cfg s ev) (hstep : s.step cfg ev = some (s', out)) :
    Inv s' ∧ Fine (log ++ out) := by
  obtain ⟨h, hfine⟩ := h
  unfold State.step at hstep
  split at hstep
  · cases ev with
    | name tid job firstFiles secondFiles usec =>
      dsimp only at hstep
      split at hstep
      next hidle =>
        cases hstep
        rw [List.append_nil]
        refine ⟨inv_goOn_free h (by rw [hidle.1]; rfl) (fun path hpath => ?_) (fun _ _ => by simp) ⟨hmeets.1, ?_⟩, hfine⟩
        · cases hpath
          exact hmeets.2
        · exact RetrievalAux.getRelatePathByUrl_uploadPathOf
      · cases hstep
    | insert tid =>
      dsimp only at hstep
      split at hstep
      next job path hphase =>
        cases hstep
        rw [List.append_nil]
        exact ⟨inv_insert h hphase (hmeets job path hphase), hfine⟩
      · cases hstep
    | create tid created =>
      dsimp only at hstep
      split at hstep
      next job path hphase =>
        cases hstep
        rw [List.append_nil]
        exact ⟨inv_create h hphase, hfine⟩
      · cases hstep
    | setSize tid sized =>
      dsimp only at hstep
      split at hstep
      next job path hphase =>
        cases hstep
        rw [List.append_nil]
        exact ⟨inv_setSize h hphase (hmeets job path hphase), hfine⟩
      · cases hstep
    | write tid written =>
      dsimp only at hstep
      split at hstep
      next job path hphase =>
        cases hstep
        rw [List.append_nil]
        exact ⟨inv_write h hphase, hfine⟩
      · cases hstep
    | stat tid url =>
      dsimp only at hstep
      split at hstep
      next hidle =>
        cases hstep
        rw [List.append_nil]
        exact ⟨inv_stat h hidle hmeets, hfine⟩
      · cases hstep
    | get tid read =>
      dsimp only at hstep
      split at hstep
      next url room hphase =>
        obtain ⟨s1, hget, heq⟩ := Option.map_eq_some_iff.1 hstep
        cases heq
        rw [List.append_nil]
        exact ⟨inv_get h hphase (hmeets url room hphase) hget, hfine⟩
      · cases hstep
    | copy tid =>
      dsimp only at hstep
      split at hstep
      next id room hphase =>
        have heq := Option.some.inj hstep
        rw [show s' = (s.copy tid id room).1 by rw [heq], show out = (s.copy tid id room).2 by rw [heq]]
        exact inv_copy h hfine hphase
      · cases hstep
    | touch tid =>
      dsimp only at hstep
      split at hstep
      next id hphase =>
        have heq := Option.some.inj hstep
        rw [show s' = (s.touch tid id).1 by rw [heq], show out = (s.touch tid id).2 by rw [heq]]
        exact inv_touch h hfine hphase
      · cases hstep
  · cases hstep

end CacheThreadsAux

open CacheThreadsAux

/-- In every run whose steps all meet the condition, each entry that a thread uses is allocated, the map is not too large, and no download
copies more than its buffer holds. -/
theorem cacheSafe_of_run {cfg : Config} {files : Bytes → Option Bytes} {log : List Output} {s : State}
    (h : Machine.Run (State.step cfg) (Meets cfg) (State.init files) log s) : CacheSafe log s := by
  obtain ⟨hinv, hfine⟩ := h.invariant (I := fun log s => Inv s ∧ Fine log) ⟨inv_init files, fine_nil⟩
    fun hinv hmeets hstep => inv_step hinv hmeets hstep
  refine ⟨fun tid id huses => ?_, hinv.bounded, hfine.undeleted, hfine.fits⟩
  obtain ⟨entry, hentry, hid⟩ := used_mem hinv huses
  rcases entry_cases s id with ⟨-, hnone⟩ | ⟨entry', -, -, hfound⟩
  · exact absurd hid (hnone entry hentry)
  · rw [hfound]
    rfl

/-! ## Two runs -/

/-- The path of the image that thread 1 uploads. -/
def imagePath : Bytes := uploadPath tmpDir 42 7 1 (chars "jpg") []

/-- Thread 1 uploads an image. -/
def upload : List Event := [.name 1 (Workers.image 88) 42 42 7, .insert 1, .create 1 true, .setSize 1 true, .write 1 1]

/-- The state after these events. -/
def after (es : List Event) : State :=
  (Machine.steps (State.step tmpDir) (State.init fun _ => none) es).elim (State.init fun _ => none) Prod.fst

/-- Thread 2 downloads the image when it is stored. -/
theorem cacheSafe_of_run_one : ∃ s, Machine.Run (State.step tmpDir) (Meets tmpDir) (State.init fun _ => none) [.copied 1 1] s ∧
    CacheSafe [.copied 1 1] s := by
  have hstart : Machine.Run (State.step tmpDir) (Meets tmpDir) (State.init fun _ => none) [] _ := .start
  have hname := hstart.step (e := Event.name 1 (Workers.image 88) 42 42 7) ⟨rfl, fun t ht => by cases ht⟩ rfl
  have hinsert := hname.step (e := Event.insert 1) (fun _ _ _ => .inl (by decide)) rfl
  have hcreate := hinsert.step (e := Event.create 1 true) trivial rfl
  have hsize := hcreate.step (e := Event.setSize 1 true) (fun _ _ _ => .inl rfl) rfl
  have hwrite : Machine.Run (State.step tmpDir) (Meets tmpDir) (State.init fun _ => none) [] (after upload) :=
    hsize.step (e := Event.write 1 1) trivial rfl
  have hidle : ∀ t, (after upload).threads t = .idle := by
    intro t
    have hnested : (after upload).threads t = if t = 1 then .idle else if t = 1 then .resized (Workers.image 88) imagePath else
        if t = 1 then .created (Workers.image 88) imagePath else if t = 1 then .inserted (Workers.image 88) imagePath else
          if t = 1 then .named (Workers.image 88) imagePath else .idle := rfl
    rw [hnested]
    by_cases ht : t = 1 <;> simp [ht]
  have hfile : (getRelatePathByUrl (fullUrl imagePath)).bind (after upload).files = some [88] := by decide
  have hmeets : Meets tmpDir (after upload) (.stat 2 (fullUrl imagePath)) := by
    refine ⟨fun t job path ht => ?_, fun file hfile' => .inr ?_⟩
    · rw [hidle t] at ht
      cases ht
    · rw [hfile] at hfile'
      cases hfile'
      decide
  have hstat := hwrite.step hmeets rfl
  have hget : Machine.Run (State.step tmpDir) (Meets tmpDir) (State.init fun _ => none) []
      (after (upload ++ [.stat 2 (fullUrl imagePath), .get 2 .failed])) :=
    hstat.step (e := Event.get 2 .failed) (fun _ _ _ _ => .inl (by decide)) rfl
  have hcopied : ((after (upload ++ [.stat 2 (fullUrl imagePath), .get 2 .failed])).step tmpDir (.copy 2)).any
      (fun next => next.2 == [.copied 1 1]) = true := by
    decide
  obtain ⟨⟨s, out⟩, hstep, hout⟩ := (Option.any_eq_true _ _).1 hcopied
  have hcopy := hget.step (e := Event.copy 2) trivial hstep
  rw [show out = _ from beq_iff_eq.1 hout] at hcopy
  exact ⟨s, hcopy, cacheSafe_of_run hcopy⟩

/-- The file is created and has no size yet. The entry is copied to a buffer without room for it. -/
theorem not_cacheSafe_of_run : ¬∀ log s, Machine.Run (State.step tmpDir) (fun _ _ => True) (State.init fun _ => none) log s →
    CacheSafe log s := by
  intro hall
  have hover : ((Machine.steps (State.step tmpDir) (State.init fun _ => none)
      (upload.take 3 ++ [.stat 2 (fullUrl imagePath), .get 2 .failed, .copy 2])).any fun last => last.2 == [.copied 1 0]) = true := by
    decide
  obtain ⟨⟨s, log⟩, hsteps, hlog⟩ := (Option.any_eq_true _ _).1 hover
  have hsafe := hall _ s (Machine.Run.of_steps (fun _ _ => trivial) .start hsteps)
  rw [show log = _ from beq_iff_eq.1 hlog] at hsafe
  exact absurd (hsafe.fits 1 0 List.mem_cons_self) (by decide)

end TeamTalk.Msfs.CacheThreads
