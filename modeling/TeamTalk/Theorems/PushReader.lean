import Mathlib
import TeamTalk.PushServer.Reading

/-!
# What push_server reads

Whatever arrives, and however it is cut into reads: when `OnRecvData` always ends, and when it handles every PDU as soon as
its last byte has arrived. `CheckMsgAvailable` waits for more than a header, so a PDU without a body is handled only when
something follows it; and it accepts a length field of zero.
-/

namespace TeamTalk.PushServer

open ImPdu (WellFormed)

/-! ## The condition -/

/-- The condition for the reads to end: every size that the buffer is extended to is an `int`, and no read leaves a header
whose length field is zero at the front, with something behind it. -/
def ReadsEnd : Nat → Bytes → List Bytes → Prop
  | _, _, [] => True
  | alloc, carry, c :: cs => WriteFits alloc carry.length c.length ∧ ¬ZeroLength (format.drain (carry ++ c)).2 ∧
      ReadsEnd (allocAfter alloc carry.length c.length) (format.drain (carry ++ c)).2 cs

/-- When PDUs are received, no read ends with the last byte of a PDU without a body. -/
def NoneEndsShort (cs : List Bytes) : Prop :=
  ∀ pdus : List Bytes, (∀ p ∈ pdus, WellFormed p) → cs.flatten = pdus.flatten →
    ∀ pre post, cs = pre ++ post → ∀ qs p rs, pdus = qs ++ p :: rs → pre.flatten = qs.flatten ++ p → p.length ≠ headLength

/-! ## The properties -/

/-- Every loop ends. -/
def Ends (cs : List Bytes) : Prop := ∀ closes, ∃ fuel s, recvAll closes fuel cs Session.init = .ok s

/-- The PDUs whose last byte is among the first `n` bytes. -/
def arrived : List Bytes → Nat → List Bytes
  | [], _ => []
  | p :: ps, n => if p.length ≤ n then p :: arrived ps (n - p.length) else []

/-- When PDUs are received: after every read, the PDUs whose last byte has arrived have been handled, each of them once and in
order, unless a handler has closed the session. -/
def Prompt (cs : List Bytes) : Prop :=
  ∀ pdus : List Bytes, (∀ p ∈ pdus, WellFormed p) → cs.flatten = pdus.flatten →
    ∀ closes pre post, cs = pre ++ post → ∃ fuel s, recvAll closes fuel pre Session.init = .ok s ∧
      s.handled = (dispatched closes [] ((arrived pdus pre.flatten.length).map handledOf)).1

namespace PushReaderAux

/-! ## All reads -/

theorem readsEnd_append {alloc : Nat} {carry : Bytes} {pre post : List Bytes} (h : ReadsEnd alloc carry (pre ++ post)) :
    ReadsEnd alloc carry pre := by
  induction pre generalizing alloc carry with
  | nil => trivial
  | cons c cs ih => exact ⟨h.1, h.2.1, ih h.2.2⟩

/-- A session that is closed receives nothing. -/
theorem recvAll_closed {closes : Closes} {s : Session} (h : s.closed = true) (fuel : Nat) (cs : List Bytes) :
    recvAll closes fuel cs s = .ok s := by
  induction cs with
  | nil => rfl
  | cons c cs ih =>
    have hone : onRecvData closes fuel s c = .ok s := by
      rw [onRecvData, if_pos h]
      rfl
    simp only [recvAll, List.foldlM_cons, hone, bind, Except.bind]
    exact ih

/-- More turns than are needed change nothing. -/
theorem recvAll_fuel {closes : Closes} {fuel fuel' : Nat} (hle : fuel ≤ fuel') {cs : List Bytes} {s s' : Session}
    (hok : recvAll closes fuel cs s = .ok s') : recvAll closes fuel' cs s = .ok s' := by
  induction cs generalizing s with
  | nil => exact hok
  | cons c cs ih =>
    simp only [recvAll, List.foldlM_cons, bind, Except.bind] at hok ⊢
    cases hone : onRecvData closes fuel s c with
    | error e =>
      rw [hone] at hok
      cases hok
    | ok s1 =>
      have hone' : onRecvData closes fuel' s c = .ok s1 := by
        cases hclosed : s.closed with
        | true =>
          rw [onRecvData, if_pos hclosed] at hone ⊢
          exact hone
        | false =>
          simp only [onRecvData, hclosed, Bool.false_eq_true, if_false, bind, Except.bind] at hone ⊢
          cases hwrite : write s.msg.databuffer c with
          | error e =>
            rw [hwrite] at hone
            cases hone
          | ok b =>
            rw [hwrite] at hone
            exact loop_fuel hle hone
      rw [hone] at hok
      rw [hone']
      exact ih hok

/-- One read: what is received is appended, and the loop runs. -/
theorem onRecvData_eq (closes : Closes) {s : Session} {carry c : Bytes} (h : s.Has carry)
    (hfits : WriteFits s.msg.databuffer.buffer.length carry.length c.length) :
    ∃ s1 : Session, s1.Has (carry ++ c) ∧ s1.handled = s.handled ∧
      s1.msg.databuffer.buffer.length = allocAfter s.msg.databuffer.buffer.length carry.length c.length ∧
      ∀ fuel, onRecvData closes fuel s c = recvDataLoop closes fuel s1 := by
  have hlen : carry.length = s.msg.databuffer.writeOffset := by
    rw [← h.contents, SimpleBuffer.length_contents h.valid.valid]
  rw [hlen] at hfits ⊢
  obtain ⟨b', hb', hvalid, hcontents, halloc⟩ := write_ok h.valid hfits
  refine ⟨{ s with msg := { s.msg with databuffer := b' } }, ⟨hvalid, hcontents.trans (by rw [h.contents]), h.opened⟩, rfl,
    halloc, ?_⟩
  intro fuel
  simp only [onRecvData, h.opened, Bool.false_eq_true, if_false, hb', bind, Except.bind]

/-- Under the condition every loop ends, and the PDUs that the reader sees have been handled. -/
theorem recvAll_ok (closes : Closes) (cs : List Bytes) {s : Session} {carry : Bytes} (h : s.Has carry)
    (hends : ReadsEnd s.msg.databuffer.buffer.length carry cs) {fuel : Nat} (hfuel : (carry ++ cs.flatten).length < fuel) :
    ∃ s', recvAll closes fuel cs s = .ok s' ∧ (format.Incomplete carry →
      (∀ f ∈ (format.drain (carry ++ cs.flatten)).1, headLength ≤ f.length) →
      (s'.handled, s'.closed) =
        dispatched closes s.handled ((format.drain (carry ++ cs.flatten)).1.map handledOf)) := by
  induction cs generalizing s carry with
  | nil =>
    refine ⟨s, rfl, ?_⟩
    intro hinc _
    rw [List.flatten_nil, List.append_nil, format.drain_incomplete hinc, List.map_nil, dispatched, h.opened]
  | cons c cs ih =>
    obtain ⟨hfits, hz, hrest⟩ := hends
    rw [List.flatten_cons, ← List.append_assoc] at hfuel ⊢
    have happend := format.drain_append (carry ++ c) cs.flatten
    obtain ⟨s1, h1, hhandled1, halloc1, hturn⟩ := onRecvData_eq closes h hfits
    have hshort : (carry ++ c).length < fuel := by
      rw [List.length_append] at hfuel
      omega
    obtain ⟨s2, hok2, hends2⟩ := loop_ok closes (carry ++ c) h1 hz hshort
    rw [← hhandled1, happend]
    cases hclosed : s2.closed with
    | true =>
      refine ⟨s2, ?_, ?_⟩
      · simp only [recvAll, List.foldlM_cons, hturn, hok2, bind, Except.bind]
        exact recvAll_closed hclosed fuel cs
      · intro _ hframes
        have hdisp := hends2.handled fun f hf => hframes f (List.mem_append_left _ hf)
        rw [List.map_append, dispatched_append, ← hdisp, hclosed, if_pos rfl]
    | false =>
      obtain ⟨h2, halloc2⟩ := hends2.rest hclosed
      rw [← halloc1, ← halloc2] at hrest
      have hle : ((format.drain (carry ++ c)).2 ++ cs.flatten).length < fuel := by
        have := format.length_drain_rest_le (carry ++ c)
        rw [List.length_append] at hfuel ⊢
        omega
      obtain ⟨s', hok, hhandled⟩ := ih h2 hrest hle
      refine ⟨s', ?_, ?_⟩
      · simp only [recvAll, List.foldlM_cons, hturn, hok2, bind, Except.bind]
        exact hok
      · intro _ hframes
        have hdisp := hends2.handled fun f hf => hframes f (List.mem_append_left _ hf)
        rw [List.map_append, dispatched_append, ← hdisp, hclosed, if_neg Bool.false_ne_true]
        exact hhandled (format.drain_rest_incomplete _) fun f hf => hframes f (List.mem_append_right _ hf)

/-- Without the condition a read does not end, when no handler closes the session. -/
theorem recvAll_not_ok (cs : List Bytes) {s : Session} {carry : Bytes} (h : s.Has carry)
    (hends : ¬ReadsEnd s.msg.databuffer.buffer.length carry cs) (fuel : Nat) (s' : Session) :
    recvAll neverCloses fuel cs s ≠ .ok s' := by
  induction cs generalizing s carry with
  | nil => exact absurd trivial hends
  | cons c cs ih =>
    by_cases hfits : WriteFits s.msg.databuffer.buffer.length carry.length c.length
    · obtain ⟨s1, h1, -, halloc1, hturn⟩ := onRecvData_eq neverCloses h hfits
      by_cases hz : ZeroLength (format.drain (carry ++ c)).2
      · intro hok
        cases hone : recvDataLoop neverCloses fuel s1 with
        | error e =>
          simp only [recvAll, List.foldlM_cons, hturn, hone, bind, Except.bind] at hok
          cases hok
        | ok s2 => exact loop_diverges (carry ++ c) h1 hz fuel s2 hone
      · intro hok
        cases hone : recvDataLoop neverCloses fuel s1 with
        | error e =>
          simp only [recvAll, List.foldlM_cons, hturn, hone, bind, Except.bind] at hok
          cases hok
        | ok s2 =>
          simp only [recvAll, List.foldlM_cons, hturn, hone, bind, Except.bind] at hok
          obtain ⟨h2, halloc2⟩ := loop_open (carry ++ c) h1 hone
          rw [halloc1] at halloc2
          refine ih h2 (fun hrest => hends ⟨hfits, hz, ?_⟩) hok
          rw [← halloc2]
          exact hrest
    · have hlen : carry.length = s.msg.databuffer.writeOffset := by
        rw [← h.contents, SimpleBuffer.length_contents h.valid.valid]
      intro hok
      simp only [recvAll, List.foldlM_cons, onRecvData, h.opened, Bool.false_eq_true, if_false,
        write_error (hlen ▸ hfits), bind, Except.bind] at hok
      cases hok

/-! ## Streams of PDUs -/

/-- What has arrived of a stream of PDUs: some of them, and the beginning of the next one. -/
theorem arrived_split {pdus : List Bytes} (hwf : ∀ p ∈ pdus, WellFormed p) {xs : Bytes} (hxs : xs <+: pdus.flatten) :
    ∃ rs t, pdus = arrived pdus xs.length ++ rs ∧ xs = (arrived pdus xs.length).flatten ++ t ∧
      (t = [] ∨ ∃ q, WellFormed q ∧ t <+: q ∧ t ≠ q) := by
  induction pdus generalizing xs with
  | nil =>
    refine ⟨[], [], rfl, ?_, .inl rfl⟩
    rw [List.flatten_nil, List.prefix_nil] at hxs
    rw [hxs, arrived, List.flatten_nil, List.append_nil]
  | cons p ps ih =>
    by_cases hp : p.length ≤ xs.length
    · have hpre : p <+: xs := List.prefix_of_prefix_length_le (List.prefix_append p ps.flatten) hxs hp
      obtain ⟨ys, rfl⟩ := hpre
      rw [List.flatten_cons, List.prefix_append_right_inj] at hxs
      obtain ⟨rs, t, hpdus, hys, ht⟩ := ih (fun q hq => hwf q (List.mem_cons_of_mem p hq)) hxs
      have hsub : (p ++ ys).length - p.length = ys.length := by
        rw [List.length_append]
        omega
      refine ⟨rs, t, ?_, ?_, ht⟩
      · rw [arrived, if_pos hp, hsub, List.cons_append, ← hpdus]
      · rw [arrived, if_pos hp, hsub, List.flatten_cons, List.append_assoc, ← hys]
    · refine ⟨p :: ps, xs, by rw [arrived, if_neg hp, List.nil_append], by rw [arrived, if_neg hp]; rfl, .inr ⟨p, ?_, ?_, ?_⟩⟩
      · exact hwf p List.mem_cons_self
      · exact List.prefix_of_prefix_length_le hxs (List.prefix_append p ps.flatten) (Nat.le_of_not_le hp)
      · rintro rfl
        exact hp (Nat.le_refl _)

/-- The reader sees no PDU, and no length of zero, where there is none. -/
theorem incomplete_of_base {t : Bytes} (hinc : ImPdu.format.Incomplete t) : format.Incomplete t := by
  rw [ImPdu.incomplete_iff, ImPdu.frontLength] at hinc
  rw [incomplete_iff, frontLength, if_neg]
  rintro ⟨h16, h0, hle⟩
  rw [if_pos ⟨Nat.le_of_lt h16, h0, hle⟩] at hinc
  cases hinc

/-- The beginning of a PDU is none that the reader sees. -/
theorem beginning_incomplete {t : Bytes} (ht : t = [] ∨ ∃ q, WellFormed q ∧ t <+: q ∧ t ≠ q) : format.Incomplete t := by
  rcases ht with rfl | ⟨q, hq, hpre, hne⟩
  · rw [incomplete_iff]
    rfl
  · exact incomplete_of_base (hq.prefix_incomplete hpre hne).1

/-- PDUs are cut off one after the other, unless the last one has no body and nothing follows it. -/
theorem drain_pdus {ps : List Bytes} (hwf : ∀ p ∈ ps, WellFormed p) {t : Bytes} (ht : format.Incomplete t)
    (hshort : t = [] → ∀ qs p, ps = qs ++ [p] → p.length ≠ headLength) : format.drain (ps.flatten ++ t) = (ps, t) := by
  induction ps with
  | nil => exact format.drain_incomplete ht
  | cons p ps ih =>
    have hp := hwf p List.mem_cons_self
    have h16 : headLength ≤ p.length := hp.1
    have hmore : headLength < (p ++ (ps.flatten ++ t)).length := by
      rw [List.length_append, List.length_append]
      rcases Nat.lt_or_ge headLength p.length with hlt | hge
      · omega
      · -- without a body, something follows
        cases ps with
        | cons q ps =>
          have hq : headLength ≤ q.length := (hwf q (List.mem_cons_of_mem p List.mem_cons_self)).1
          rw [List.flatten_cons, List.length_append]
          have h0 : 0 < headLength := by decide
          omega
        | nil =>
          cases t with
          | nil => exact absurd (Nat.le_antisymm hge h16) (hshort rfl [] p rfl)
          | cons b t =>
            rw [List.length_cons]
            omega
    have hfield : ImPdu.lengthField (p ++ (ps.flatten ++ t)) = p.length := by
      rw [ImPdu.lengthField_append (Nat.le_trans (by decide) h16), hp.2]
    have hfl : frontLength (p ++ (ps.flatten ++ t)) = some p.length := by
      refine frontLength_eq_some.2 ⟨hmore, Nat.lt_of_lt_of_le (by decide) h16, ?_, hfield.symm⟩
      rw [List.length_append]
      omega
    have hnext : format.next (p ++ (ps.flatten ++ t)) = some (p, ps.flatten ++ t) := by
      simp only [format, hfl, Option.map_some, List.take_left, List.drop_left]
    rw [List.flatten_cons, List.append_assoc, format.drain_next hnext, ih (fun q hq => hwf q (List.mem_cons_of_mem p hq))]
    intro hnil qs q hqs
    exact hshort hnil (p :: qs) q (by rw [hqs, List.cons_append])

/-- What the reader has seen of a stream of PDUs. -/
theorem drain_arrived {pdus : List Bytes} (hwf : ∀ p ∈ pdus, WellFormed p) {xs : Bytes} (hxs : xs <+: pdus.flatten)
    (hshort : ∀ qs p rs, pdus = qs ++ p :: rs → xs = qs.flatten ++ p → p.length ≠ headLength) :
    (format.drain xs).1 = arrived pdus xs.length := by
  obtain ⟨rs, t, hpdus, hsplit, ht⟩ := arrived_split hwf hxs
  have hdrain : format.drain ((arrived pdus xs.length).flatten ++ t) = (arrived pdus xs.length, t) := by
    refine drain_pdus (fun p hp => hwf p (by rw [hpdus]; exact List.mem_append_left _ hp)) (beginning_incomplete ht) ?_
    rintro rfl qs p hqs
    rw [hqs] at hpdus hsplit
    refine hshort qs p rs (by rw [hpdus, List.append_assoc, List.singleton_append]) ?_
    rw [hsplit]
    simp only [List.flatten_append, List.flatten_cons, List.flatten_nil, List.append_nil]
  rw [← hsplit] at hdrain
  rw [hdrain]

/-- A new session. -/
theorem has_init : Session.init.Has [] := ⟨intValid_init, rfl, rfl⟩

/-- A PDU without a body that nothing follows is not handled. -/
theorem last_not_handled {qs : List Bytes} {p : Bytes} (hqs : ∀ q ∈ qs, WellFormed q) (hlen : p.length = headLength)
    {cs : List Bytes} (hends : ReadsEnd 0 [] cs) (hcs : cs.flatten = qs.flatten ++ p) {fuel : Nat} {s : Session}
    (hok : recvAll neverCloses fuel cs Session.init = .ok s) : s.handled = qs.map handledOf := by
  have hp : format.Incomplete p := by
    rw [incomplete_iff, frontLength, if_neg]
    rintro ⟨h16, -⟩
    exact Nat.lt_irrefl _ (hlen ▸ h16)
  have hdrain : format.drain (qs.flatten ++ p) = (qs, p) := by
    refine drain_pdus hqs hp ?_
    rintro rfl
    cases hlen
  obtain ⟨s', hok', hhandled⟩ := recvAll_ok neverCloses cs has_init hends
    (Nat.lt_of_lt_of_le (Nat.lt_succ_self _) (Nat.le_max_right fuel _))
  have heq := (recvAll_fuel (Nat.le_max_left _ _) hok).symm.trans hok'
  cases heq
  rw [List.nil_append, hcs, hdrain] at hhandled
  have hboth := hhandled (beginning_incomplete (.inl rfl)) fun f hf => (hqs f hf).1
  rw [dispatched_neverCloses] at hboth
  exact congrArg Prod.fst hboth

/-- The PDUs before a PDU that has just arrived, and this one. -/
theorem arrived_append (qs : List Bytes) (p : Bytes) (rs : List Bytes) (h : ∀ r ∈ rs, 0 < r.length) :
    arrived (qs ++ p :: rs) (qs.flatten ++ p).length = qs ++ [p] := by
  induction qs with
  | nil =>
    rw [List.nil_append, List.flatten_nil, List.nil_append, arrived, if_pos (Nat.le_refl _), Nat.sub_self]
    cases rs with
    | nil => rfl
    | cons r rs =>
      have hr := h r List.mem_cons_self
      rw [arrived, if_neg (by omega)]
      rfl
  | cons q qs ih =>
    have hle : q.length ≤ ((q :: qs).flatten ++ p).length := by
      simp only [List.flatten_cons, List.length_append]
      omega
    have hsub : ((q :: qs).flatten ++ p).length - q.length = (qs.flatten ++ p).length := by
      simp only [List.flatten_cons, List.length_append]
      omega
    rw [List.cons_append, arrived, if_pos hle, hsub, ih, List.cons_append]

/-- A PDU without a body is at the end of its read: the heartbeat of a session that has just been opened. -/
def heartBeat : Bytes := [0, 0, 0, 16, 0, 1, 0, 0, 0, 7, 7, 1, 0, 0, 0, 0]

end PushReaderAux

open PushReaderAux

/-- Every loop of `OnRecvData` ends and every PDU is handled as soon as its last byte has arrived, exactly when the reads meet
the condition. -/
theorem push_reader_iff (cs : List Bytes) : (Ends cs ∧ Prompt cs) ↔ (ReadsEnd 0 [] cs ∧ NoneEndsShort cs) := by
  constructor
  · rintro ⟨hends, hprompt⟩
    have hreads : ReadsEnd 0 [] cs := by
      by_contra hreads
      obtain ⟨fuel, s, hok⟩ := hends neverCloses
      exact recvAll_not_ok cs has_init hreads fuel s hok
    refine ⟨hreads, ?_⟩
    intro pdus hwf hcs pre post hsplit qs p rs hpdus hpre hlen
    obtain ⟨fuel, s, hok, hhandled⟩ := hprompt pdus hwf hcs neverCloses pre post hsplit
    rw [hsplit] at hreads
    rw [last_not_handled (fun q hq => hwf q (by rw [hpdus]; exact List.mem_append_left _ hq)) hlen (readsEnd_append hreads)
      hpre hok, hpre, hpdus, arrived_append] at hhandled
    · have hcount := congrArg List.length hhandled
      simp at hcount
    · intro r hr
      have h16 := (hwf r (by rw [hpdus]; exact List.mem_append_right _ (List.mem_cons_of_mem p hr))).1
      exact Nat.lt_of_lt_of_le (by decide) h16
  · rintro ⟨hreads, hshort⟩
    refine ⟨fun closes => ?_, ?_⟩
    · obtain ⟨s, hok, -⟩ := recvAll_ok closes cs has_init hreads (Nat.lt_succ_self _)
      exact ⟨_, s, hok⟩
    · intro pdus hwf hcs closes pre post hsplit
      have hprefix : pre.flatten <+: pdus.flatten := by
        rw [← hcs, hsplit, List.flatten_append]
        exact List.prefix_append _ _
      have hdrain := drain_arrived hwf hprefix fun qs p rs => hshort pdus hwf hcs pre post hsplit qs p rs
      rw [hsplit] at hreads
      obtain ⟨s, hok, hhandled⟩ := recvAll_ok closes pre has_init (readsEnd_append hreads) (Nat.lt_succ_self _)
      refine ⟨_, s, hok, ?_⟩
      rw [List.nil_append, hdrain] at hhandled
      have hframes : ∀ f ∈ arrived pdus pre.flatten.length, headLength ≤ f.length := by
        intro f hf
        obtain ⟨rs, t, hpdus, -⟩ := arrived_split hwf hprefix
        exact (hwf f (by rw [hpdus]; exact List.mem_append_left _ hf)).1
      exact congrArg Prod.fst (hhandled (beginning_incomplete (.inl rfl)) hframes)

/-- A heartbeat that comes alone is not handled. -/
theorem push_reader_not : ¬∀ cs, Ends cs ∧ Prompt cs := by
  intro hall
  have hwf : ∀ p ∈ [heartBeat], WellFormed p := by
    intro p hp
    rw [List.mem_singleton.1 hp]
    decide
  obtain ⟨fuel, s, hok, hhandled⟩ := (hall [heartBeat]).2 [heartBeat] hwf rfl neverCloses [heartBeat] [] rfl
  have hempty : format.drain ([] ++ heartBeat) = ([], heartBeat) := by
    refine format.drain_incomplete (incomplete_iff.2 ?_)
    decide
  have hreads : ReadsEnd 0 [] [heartBeat] := by
    refine ⟨.inr (by decide), ?_, trivial⟩
    rw [hempty]
    rintro ⟨h16, -⟩
    exact absurd h16 (by decide)
  have hnone := last_not_handled (fun q (hq : q ∈ []) => absurd hq List.not_mem_nil) (by decide : heartBeat.length = headLength)
    hreads rfl hok
  rw [hnone, dispatched_neverCloses] at hhandled
  exact absurd (congrArg List.length hhandled) (by decide)

end TeamTalk.PushServer
