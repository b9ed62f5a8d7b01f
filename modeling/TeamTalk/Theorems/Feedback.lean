import TeamTalk.Base.Streams
import TeamTalk.PushServer.Feedback
import TeamTalk.PushServer.Reading

/-!
# Feedback stays in step

When the feedback handler reports the tuples of what it has received, however it was cut into reads. A tuple carries the length of its
token; the handler takes 32 bytes for each, and copies as many as the length says.
-/

namespace TeamTalk.PushServer.Feedback

open SimpleBuffer ByteStream

/-! ## Tuples -/

/-- The length field of a sequence of at least six bytes. -/
def tokenLength (xs : Bytes) : Nat := (xs[4]?.getD 0).toNat * 2 ^ 8 + (xs[5]?.getD 0).toNat

/-- The length of the tuple at the front, when it is complete. -/
def tupleLength (xs : Bytes) : Option Nat := if 6 + tokenLength xs ≤ xs.length then some (6 + tokenLength xs) else none

/-- More bytes do not change the length field. -/
theorem tokenLength_append {xs : Bytes} (h : 6 ≤ xs.length) (ys : Bytes) : tokenLength (xs ++ ys) = tokenLength xs := by
  rw [tokenLength, tokenLength, List.getElem?_append_left (by omega), List.getElem?_append_left (by omega)]

theorem tupleLength_eq_some {xs : Bytes} {n : Nat} : tupleLength xs = some n ↔ n = 6 + tokenLength xs ∧ n ≤ xs.length := by
  rw [tupleLength]
  split
  · rename_i hle
    rw [Option.some.injEq]
    constructor
    · rintro rfl
      exact ⟨rfl, hle⟩
    · exact fun h => h.1.symm
  · rename_i hnot
    constructor
    · intro h
      cases h
    · rintro ⟨rfl, hle⟩
      exact absurd hle hnot

/-- The tuples of a stream. -/
def tuples : Framing.Format UInt8 where
  next xs := (tupleLength xs).map fun n => (xs.take n, xs.drop n)
  split := by
    intro xs f r h
    obtain ⟨n, -, hn⟩ := Option.map_eq_some_iff.1 h
    rw [Prod.mk.injEq] at hn
    rw [← hn.1, ← hn.2, List.take_append_drop]
  nonempty := by
    intro xs f r h hf
    obtain ⟨n, hlen, hn⟩ := Option.map_eq_some_iff.1 h
    obtain ⟨hn6, hle⟩ := tupleLength_eq_some.1 hlen
    rw [Prod.mk.injEq, hf] at hn
    have hempty := congrArg List.length hn.1
    rw [List.length_take, List.length_nil] at hempty
    omega
  extend := by
    intro xs f r h ys
    obtain ⟨n, hlen, hn⟩ := Option.map_eq_some_iff.1 h
    obtain ⟨hn6, hle⟩ := tupleLength_eq_some.1 hlen
    rw [Prod.mk.injEq] at hn
    have hsix : 6 ≤ xs.length := by omega
    have hsame := tokenLength_append hsix ys
    have hlen' : tupleLength (xs ++ ys) = some n := by
      refine tupleLength_eq_some.2 ⟨by rw [hsame, hn6], ?_⟩
      rw [List.length_append]
      exact Nat.le_trans hle (Nat.le_add_right _ _)
    rw [hlen', Option.map_some, ← hn.1, ← hn.2, List.take_append_of_le_length hle, List.drop_append_of_le_length hle]

/-! ## The property -/

/-- What a tuple says: its time, and the digits of its token. -/
def reportOf (f : Bytes) : Report := ⟨bigEndian (f.take 4), (f.drop 6).flatMap hexByte⟩

/-- After the reads: nothing undefined was done, the tuples of the stream have been reported, and what is not yet a tuple is kept. -/
def InStep (reads : List Bytes) : Prop :=
  ∃ s, Handler.init.recvAll reads = .ok s ∧ s.reports = (tuples.drain reads.flatten).1.map reportOf ∧
    s.databuffer.contents = (tuples.drain reads.flatten).2

/-! ## The condition -/

/-- All tuples of a stream have a token of 32 bytes, also the one that is not complete yet, if more bytes of it than those are there. -/
def Standard (xs : Bytes) : Prop := (∀ f ∈ (tuples.drain xs).1, f.length = dataLength) ∧ (tuples.drain xs).2.length < dataLength

namespace FeedbackAux

variable {s s' : Handler} {xs ys f r : Bytes} {fuel : Nat} {reads : List Bytes}

/-! ## Streams of such tuples -/

theorem next_eq_some (h : tuples.next xs = some (f, r)) :
    f = xs.take (6 + tokenLength xs) ∧ r = xs.drop (6 + tokenLength xs) ∧ f.length = 6 + tokenLength xs ∧ 6 + tokenLength xs ≤ xs.length := by
  obtain ⟨n, hlen, hn⟩ := Option.map_eq_some_iff.1 h
  obtain ⟨rfl, hle⟩ := tupleLength_eq_some.1 hlen
  rw [Prod.mk.injEq] at hn
  refine ⟨hn.1.symm, hn.2.symm, ?_, hle⟩
  rw [← hn.1, List.length_take, Nat.min_eq_left hle]

theorem next_eq (xs : Bytes) : tuples.next xs = (tupleLength xs).map fun n => (xs.take n, xs.drop n) := rfl

theorem incomplete_nil : tuples.Incomplete [] := by
  have hnone : tupleLength [] = none := if_neg (by simp)
  rw [Framing.Format.Incomplete, next_eq, hnone]
  rfl

/-- A tuple is as long as it says. -/
theorem frame_of_tupleLength (h : tupleLength f = some f.length) : tuples.Frame f := by
  rw [Framing.Format.Frame, next_eq, h, Option.map_some, List.take_length, List.drop_length]

/-- A sequence that begins with the bytes of a longer token. -/
theorem tokenLength_of_incomplete (h : tuples.Incomplete xs) (hlen : dataLength ≤ xs.length) : 32 < tokenLength xs := by
  by_contra hle
  have hsome : tupleLength xs = some (6 + tokenLength xs) := by
    simp only [dataLength] at hlen
    exact tupleLength_eq_some.2 ⟨rfl, by omega⟩
  rw [Framing.Format.Incomplete, next_eq, hsome] at h
  cases h

/-- What was there before the last bytes came. -/
theorem standard_left (h : Standard (xs ++ ys)) : Standard xs := by
  rw [Standard, tuples.drain_append] at h
  obtain ⟨hall, hrest⟩ := h
  refine ⟨fun f hf => hall f (List.mem_append_left _ hf), ?_⟩
  by_contra hlong
  have hlong : dataLength ≤ (tuples.drain xs).2.length := Nat.le_of_not_lt hlong
  have hbig := tokenLength_of_incomplete (tuples.drain_rest_incomplete xs) hlong
  have hsame := tokenLength_append (Nat.le_trans (by decide) hlong) ys
  cases hnext : tuples.next ((tuples.drain xs).2 ++ ys) with
  | none =>
    rw [tuples.drain_incomplete hnext, List.length_append] at hrest
    omega
  | some p =>
    obtain ⟨f, r⟩ := p
    rw [tuples.drain_next hnext] at hall
    have hf := hall f (List.mem_append_right _ List.mem_cons_self)
    rw [(next_eq_some hnext).2.2.1, hsame] at hf
    simp only [dataLength] at hf
    omega

/-! ## One turn -/

/-- The handler has this data in its buffer. -/
structure Has (s : Handler) (xs : Bytes) : Prop where
  valid : IntValid s.databuffer
  contents : s.databuffer.contents = xs

theorem Has.offset_eq (h : Has s xs) : s.databuffer.writeOffset = xs.length := by
  rw [← h.contents, length_contents h.valid.valid]

theorem length_flatMap_hexByte (bytes : Bytes) : (bytes.flatMap hexByte).length = 2 * bytes.length := by
  induction bytes with
  | nil => rfl
  | cons byte bytes ih =>
    rw [List.flatMap_cons, List.length_append, ih, List.length_cons]
    simp only [hexByte, List.length_cons, List.length_nil]
    omega

theorem length_copyAt {block data result : Bytes} {offset : Nat} (h : copyAt block offset data = .ok result) :
    result.length = block.length := by
  rw [copyAt] at h
  split at h
  · cases h
    simp only [List.length_append, List.length_take, List.length_drop]
    omega
  · cases h

/-- A token has 64 digits, whatever the tuple says. -/
theorem length_token {databuffer : SimpleBuffer} {buf : Bytes} {len : Nat} {report : Report}
    (h : parseFromArray databuffer buf len = .ok (some report)) : report.token.length = 64 := by
  simp only [parseFromArray, bind, Except.bind, pure, Except.pure] at h
  repeat' split at h
  all_goals cases h
  rename_i binaryToken hcopy
  rw [length_flatMap_hexByte, length_copyAt hcopy, List.length_replicate]

/-- The first six bytes. -/
theorem exists_fields (h : 6 ≤ f.length) : ∃ b0 b1 b2 b3 b4 b5 token, f = b0 :: b1 :: b2 :: b3 :: b4 :: b5 :: token := by
  rcases f with _ | ⟨b0, _ | ⟨b1, _ | ⟨b2, _ | ⟨b3, _ | ⟨b4, _ | ⟨b5, token⟩⟩⟩⟩⟩⟩
  all_goals first | exact ⟨_, _, _, _, _, _, _, rfl⟩ | simp at h

/-- A tuple with a token of 32 bytes is parsed. -/
theorem parse_ok {buf : Bytes} (hbuf : buf = f ++ r) (hlen : f.length = dataLength) (htoken : tokenLength f = 32) :
    parseFromArray SimpleBuffer.init buf dataLength = .ok (some (reportOf f)) := by
  have hread : readAt buf 0 dataLength = .ok f := by
    rw [readAt, hbuf, if_pos (by rw [List.length_append, hlen, Nat.zero_add]; exact Nat.le_add_right _ _), List.drop_zero,
      ← hlen, List.take_left' rfl]
  have hfits : WriteFits SimpleBuffer.init.buffer.length SimpleBuffer.init.writeOffset f.length := .inr (by rw [hlen]; decide)
  obtain ⟨b, hwrite, hvalid, hcontents, -⟩ := write_ok intValid_init hfits
  have hoffset : b.writeOffset = dataLength := by
    rw [← length_contents hvalid.valid, hcontents, List.length_append, hlen]
    rfl
  obtain ⟨b0, b1, b2, b3, b4, b5, token, rfl⟩ := exists_fields (f := f) (by rw [hlen]; decide)
  have hlen32 : token.length = 32 := by
    simp only [List.length_cons, dataLength] at hlen
    omega
  have htime : readUint32 buf 0 = .ok (bigEndian [b0, b1, b2, b3]) := by
    rw [hbuf]
    simp only [List.cons_append, readUint32_cons]
    simp [bigEndian]
    omega
  have hfield : readUint16 buf 4 = .ok 32 := by
    have hat : readAt buf 4 2 = .ok [b4, b5] := by
      rw [hbuf]
      exact if_pos (by simp only [List.cons_append, List.length_cons]; omega)
    rw [readUint16, hat]
    exact congrArg Except.ok htoken
  have hsource : readAt buf 6 32 = .ok token := by
    rw [readAt, if_pos (by rw [hbuf]; simp only [List.cons_append, List.length_cons, List.length_append]; omega), hbuf]
    exact congrArg Except.ok (List.take_left' hlen32)
  have hcopy : copyAt (List.replicate 32 0) 0 token = .ok token := by
    rw [copyAt, if_pos (by rw [hlen32, List.length_replicate]), hlen32]
    simp
  have hnew : ¬SimpleBuffer.init.writeOffset ≠ 0 := fun hne => hne rfl
  simp only [parseFromArray, if_neg hnew, hread, hwrite, hoffset, htime, hfield, hsource, hcopy, bind, Except.bind, pure, Except.pure,
    ge_iff_le, Nat.le_refl, if_true]
  rfl

/-- Every token that was reported has 64 digits, and the loop leaves fewer bytes than a tuple has. -/
theorem recvLoop_inv (h : s.recvLoop fuel = .ok s') (hs : ∀ report ∈ s.reports, report.token.length = 64) :
    s'.databuffer.writeOffset < dataLength ∧ ∀ report ∈ s'.reports, report.token.length = 64 := by
  induction fuel generalizing s with
  | zero => cases h
  | succ fuel ih =>
    rw [Handler.recvLoop] at h
    by_cases hmore : s.databuffer.writeOffset ≥ dataLength
    · rw [if_pos hmore] at h
      cases hparse : parseFromArray SimpleBuffer.init s.databuffer.buffer dataLength with
      | error fault =>
        rw [hparse] at h
        cases h
      | ok report =>
        cases hremove : remove s.databuffer dataLength with
        | error fault =>
          rw [hparse, hremove] at h
          cases h
        | ok databuffer =>
          rw [hparse, hremove] at h
          refine ih h fun r hr => ?_
          rcases List.mem_append.1 hr with hold | hnew
          · exact hs r hold
          · rw [Option.mem_toList] at hnew
            exact length_token (hparse.trans (congrArg Except.ok hnew))
    · rw [if_neg hmore] at h
      cases h
      exact ⟨Nat.lt_of_not_le hmore, hs⟩

/-- The tuples in the buffer are reported. -/
theorem recvLoop_ok (xs : Bytes) {s : Handler} (h : Has s xs) (hstd : Standard xs) {fuel : Nat} (hfuel : xs.length < fuel) :
    ∃ s', s.recvLoop fuel = .ok s' ∧ Has s' (tuples.drain xs).2 ∧ s'.reports = s.reports ++ (tuples.drain xs).1.map reportOf := by
  induction xs using tuples.drain_induction generalizing s fuel with
  | incomplete xs hinc =>
    obtain ⟨fuel, rfl⟩ : ∃ k, fuel = k + 1 := ⟨fuel - 1, by omega⟩
    rw [Standard, tuples.drain_incomplete hinc] at hstd
    have hless : ¬s.databuffer.writeOffset ≥ dataLength := by
      rw [h.offset_eq]
      exact Nat.not_le.2 hstd.2
    rw [Handler.recvLoop, if_neg hless, tuples.drain_incomplete hinc]
    exact ⟨s, rfl, h, (List.append_nil _).symm⟩
  | next xs f r hnext ih =>
    obtain ⟨fuel, rfl⟩ : ∃ k, fuel = k + 1 := ⟨fuel - 1, by omega⟩
    have hr := tuples.length_rest_lt hnext
    have hsplit := tuples.split hnext
    rw [Standard, tuples.drain_next hnext] at hstd
    obtain ⟨hall, hrest⟩ := hstd
    have hlen := hall f List.mem_cons_self
    obtain ⟨-, -, hlength, -⟩ := next_eq_some hnext
    have htoken : tokenLength f = 32 := by
      have hsix : 6 ≤ f.length := by rw [hlen]; decide
      rw [← tokenLength_append hsix r, ← hsplit]
      simp only [dataLength] at hlen
      omega
    have hmore : s.databuffer.writeOffset ≥ dataLength := by
      rw [h.offset_eq, hsplit, List.length_append, hlen]
      exact Nat.le_add_right _ _
    have hbuffer : s.databuffer.buffer = f ++ (r ++ s.databuffer.buffer.drop s.databuffer.writeOffset) := by
      rw [← List.append_assoc, ← hsplit, ← h.contents, contents, List.take_append_drop]
    obtain ⟨databuffer, hremove, hvalid, hcontents, -⟩ := remove_ok h.valid hmore
    have hhas : Has ⟨databuffer, s.reports ++ [reportOf f], s.stopped || false⟩ r := by
      refine ⟨hvalid, ?_⟩
      rw [hcontents, h.contents, hsplit, ← hlen, List.drop_left' rfl]
    have hleft : r.length < fuel := by omega
    obtain ⟨s', hok, hhas', hreports⟩ := ih hhas ⟨fun g hg => hall g (List.mem_cons_of_mem f hg), hrest⟩ hleft
    refine ⟨s', ?_, ?_, ?_⟩
    · rw [Handler.recvLoop, if_pos hmore, parse_ok hbuffer hlen htoken, hremove]
      exact hok
    · rw [tuples.drain_next hnext]
      exact hhas'
    · rw [tuples.drain_next hnext, hreports, List.map_cons, List.append_assoc]
      rfl

/-! ## All reads -/

/-- A read. -/
theorem onRecvData_ok {c : Bytes} (h : Has s xs) (hshort : xs.length < dataLength) (hc : c.length ≤ tcpRecvSize) (hstd : Standard (xs ++ c)) :
    ∃ s', s.onRecvData c = .ok s' ∧ Has s' (tuples.drain (xs ++ c)).2 ∧
      s'.reports = s.reports ++ (tuples.drain (xs ++ c)).1.map reportOf := by
  have hfits : WriteFits s.databuffer.buffer.length s.databuffer.writeOffset c.length := by
    refine .inr ?_
    rw [h.offset_eq]
    simp only [dataLength, tcpRecvSize, intSize] at *
    omega
  obtain ⟨b, hwrite, hvalid, hcontents, -⟩ := write_ok h.valid hfits
  have hhas : Has { s with databuffer := b } (xs ++ c) := ⟨hvalid, by rw [hcontents, h.contents]⟩
  have hfuel : (xs ++ c).length < b.writeOffset + 1 := by
    rw [← hhas.offset_eq]
    exact Nat.lt_succ_self _
  obtain ⟨s', hok, hhas', hreports⟩ := recvLoop_ok (xs ++ c) hhas hstd hfuel
  refine ⟨s', ?_, hhas', hreports⟩
  rw [Handler.onRecvData, hwrite]
  exact hok

/-- All reads, from what is left over. -/
theorem recvAll_ok (h : Has s xs) (hinc : tuples.Incomplete xs) (hreads : ∀ c ∈ reads, c.length ≤ tcpRecvSize)
    (hstd : Standard (xs ++ reads.flatten)) :
    ∃ s', s.recvAll reads = .ok s' ∧ s'.reports = s.reports ++ (tuples.drain (xs ++ reads.flatten)).1.map reportOf ∧
      s'.databuffer.contents = (tuples.drain (xs ++ reads.flatten)).2 := by
  induction reads generalizing s xs with
  | nil =>
    rw [List.flatten_nil, List.append_nil, tuples.drain_incomplete hinc]
    exact ⟨s, rfl, (List.append_nil _).symm, h.contents⟩
  | cons c cs ih =>
    rw [List.flatten_cons, ← List.append_assoc] at hstd ⊢
    have hshort : xs.length < dataLength := by
      have hwhole : Standard (xs ++ (c ++ cs.flatten)) := by rwa [← List.append_assoc]
      have hbefore := (standard_left hwhole).2
      rwa [tuples.drain_incomplete hinc] at hbefore
    obtain ⟨s1, hone, hhas1, hreports1⟩ := onRecvData_ok h hshort (hreads c List.mem_cons_self) (standard_left hstd)
    have happend := tuples.drain_append (xs ++ c) cs.flatten
    have hstd1 : Standard ((tuples.drain (xs ++ c)).2 ++ cs.flatten) := by
      rw [Standard, happend] at hstd
      exact ⟨fun f hf => hstd.1 f (List.mem_append_right _ hf), hstd.2⟩
    obtain ⟨s', hall, hreports, hcontents⟩ :=
      ih hhas1 (tuples.drain_rest_incomplete _) (fun d hd => hreads d (List.mem_cons_of_mem c hd)) hstd1
    refine ⟨s', ?_, ?_, ?_⟩
    · rw [Handler.recvAll, List.foldlM_cons, hone]
      exact hall
    · rw [hreports, hreports1, happend, List.map_append, List.append_assoc]
    · rw [hcontents, happend]

/-- Whatever was received: fewer bytes than a tuple has are kept, and each token that was reported has 64 digits. -/
theorem recvAll_inv (h : s.recvAll reads = .ok s') (hs : ∀ report ∈ s.reports, report.token.length = 64)
    (hshort : s.databuffer.writeOffset < dataLength) :
    s'.databuffer.writeOffset < dataLength ∧ ∀ report ∈ s'.reports, report.token.length = 64 := by
  induction reads generalizing s with
  | nil =>
    cases h
    exact ⟨hshort, hs⟩
  | cons c cs ih =>
    rw [Handler.recvAll, List.foldlM_cons] at h
    cases hone : s.onRecvData c with
    | error fault =>
      rw [hone] at h
      cases h
    | ok s1 =>
      rw [hone] at h
      rw [Handler.onRecvData] at hone
      cases hwrite : write s.databuffer c with
      | error fault =>
        rw [hwrite] at hone
        cases hone
      | ok b =>
        rw [hwrite] at hone
        obtain ⟨hshort1, hs1⟩ := recvLoop_inv (s := { s with databuffer := b }) hone hs
        exact ih h hs1 hshort1

theorem standard_of_inStep (h : InStep reads) : Standard reads.flatten := by
  obtain ⟨s, hok, hreports, hcontents⟩ := h
  obtain ⟨hshort, htokens⟩ := recvAll_inv hok (fun report hmem => by cases hmem) (by decide)
  constructor
  · intro f hf
    have hmem : reportOf f ∈ s.reports := by
      rw [hreports]
      exact List.mem_map_of_mem hf
    have hlen := htokens _ hmem
    rw [reportOf, length_flatMap_hexByte, List.length_drop] at hlen
    simp only [dataLength]
    omega
  · rw [← hcontents, contents, List.length_take]
    exact Nat.lt_of_le_of_lt (Nat.min_le_left _ _) hshort

/-- A tuple whose token has one byte. -/
theorem not_standard_short : ¬Standard [0, 0, 0, 1, 0, 1, 171] := by
  intro h
  have hdrain : tuples.drain ([[0, 0, 0, 1, 0, 1, 171]].flatten ++ []) = ([[0, 0, 0, 1, 0, 1, 171]], []) := tuples.drain_frames
    (fun f hf => List.mem_singleton.1 hf ▸ frame_of_tupleLength (by decide)) incomplete_nil
  rw [List.flatten_singleton, List.append_nil] at hdrain
  have hmem : [0, 0, 0, 1, 0, 1, 171] ∈ (tuples.drain [0, 0, 0, 1, 0, 1, 171]).1 := by simp [hdrain]
  exact absurd (h.1 _ hmem) (by decide)

/-- A tuple whose token has 32 bytes. -/
def standardTuple : Bytes := [0, 0, 0, 1, 0, 32] ++ List.replicate 32 171

theorem standard_tuple : Standard standardTuple := by
  have hdrain : tuples.drain ([standardTuple].flatten ++ []) = ([standardTuple], []) := tuples.drain_frames
    (fun f hf => List.mem_singleton.1 hf ▸ frame_of_tupleLength (by decide)) incomplete_nil
  rw [List.flatten_singleton, List.append_nil] at hdrain
  rw [Standard, hdrain]
  refine ⟨fun f hf => ?_, by decide⟩
  rw [List.mem_singleton.1 hf]
  rfl

end FeedbackAux

open FeedbackAux

/-- The handler stays in step exactly with the streams whose tokens have 32 bytes. -/
theorem inStep_iff {reads : List Bytes} (h : ∀ c ∈ reads, c.length ≤ tcpRecvSize) : InStep reads ↔ Standard reads.flatten := by
  refine ⟨standard_of_inStep, fun hstd => ?_⟩
  have hempty : Has Handler.init [] := ⟨intValid_init, rfl⟩
  exact recvAll_ok hempty incomplete_nil h hstd

/-- A tuple with a token of 32 bytes, in two reads. -/
theorem inStep_two : InStep [standardTuple.take 5, standardTuple.drop 5] :=
  (inStep_iff (by decide)).2 standard_tuple

/-- A tuple whose token has one byte is not reported. -/
theorem not_inStep_short : ¬∀ reads : List Bytes, (∀ c ∈ reads, c.length ≤ tcpRecvSize) → InStep reads :=
  fun h => not_standard_short (standard_of_inStep (h [[0, 0, 0, 1, 0, 1, 171]] (by decide)))

end TeamTalk.PushServer.Feedback
