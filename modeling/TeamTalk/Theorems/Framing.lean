import TeamTalk.DbProxy.ProxyConn

/-!
# Framing over TCP is exact

Whatever the reads cut the byte stream into, both `OnRead` loops see exactly the PDUs that were sent, as long as no buffer
size wraps around in `uint32_t`.
-/

namespace TeamTalk

open SimpleBuffer ImPdu

/-- A handler that notes what `HandlePdu` is given. -/
def notePdu (pdu : ImPdu) (handed : List ImPdu) : Exec (List ImPdu × Option PduException) := .ok (handed ++ [pdu], none)

/-- A byte stream, cut into reads: well-formed PDUs, a proper prefix of a further one, and what each `netlib_recv` in each
`OnRead` returned. -/
structure Reads where
  pdus : List Bytes
  further : Bytes
  rest : Bytes
  reads : List (List Bytes)
  pdus_wf : ∀ p ∈ pdus, WellFormed p
  further_wf : WellFormed further
  rest_prefix : rest <+: further
  rest_ne : rest ≠ further
  received : ∀ chunks ∈ reads, Received chunks
  flatten_eq : reads.flatten.flatten = pdus.flatten ++ rest

/-- `CImConn::OnRead` hands `HandlePdu` the PDUs, byte for byte, and leaves the rest in `m_in_buf`. -/
def Reads.ImConnExact (r : Reads) : Prop :=
  ∃ handed : List ImPdu, handed.map bytes = r.pdus ∧
    Exact (onReadsWith (imConnTurn notePdu) id r.reads init []) r.rest handed

/-- `CProxyConn::OnRead` passes the same PDUs to `HandlePduBuf`, leaves the rest in `m_in_buf`, and adds one task for each
PDU that is not a heartbeat and has a handler. -/
def Reads.ProxyExact (r : Reads) (uuid : Nat) : Prop :=
  ∃ tasks : List ProxyTask, tasks = r.pdus.filterMap (fun p => taskOf uuid (ofBytes p)) ∧
    Exact (onReadsWith (proxyTurn uuid) id r.reads init ⟨[], []⟩) r.rest ⟨r.pdus, tasks⟩

/-- No buffer size wraps around in any of the reads. -/
def Reads.Fits (r : Reads) : Prop := BufferFits 0 [] r.reads

namespace FramingAux

/-- Noting the PDUs one after the other. -/
theorem foldl_note (ps : List Bytes) (handed : List ImPdu) :
    ps.foldl (fun s f => s ++ [ofBytes f]) handed = handed ++ ps.map ofBytes := by
  induction ps generalizing handed with
  | nil => simp
  | cons p ps ih => rw [List.foldl_cons, ih, List.map_cons, List.append_assoc]; rfl

/-- Adding the tasks one after the other. -/
theorem foldl_add (uuid : Nat) (ps : List Bytes) (s : ProxyReads) :
    ps.foldl (ProxyReads.add uuid) s =
      ⟨s.passed ++ ps, s.tasks ++ ps.filterMap (fun p => taskOf uuid (ofBytes p))⟩ := by
  induction ps generalizing s with
  | nil => simp
  | cons p ps ih =>
    rw [List.foldl_cons, ih]
    cases h : taskOf uuid (ofBytes p) <;> simp [ProxyReads.add, h]

/-- The stream's PDUs and its rest are what the format cuts it into. -/
theorem drain_reads (r : Reads) : format.drain ([] ++ r.reads.flatten.flatten) = (r.pdus, r.rest) := by
  rw [List.nil_append, r.flatten_eq]
  exact format.drain_frames (fun p hp => (r.pdus_wf p hp).frame) (r.further_wf.prefix_incomplete r.rest_prefix r.rest_ne).1

theorem clean_reads (r : Reads) : Clean ([] ++ r.reads.flatten.flatten) := by
  rw [List.nil_append, r.flatten_eq]
  exact clean_of_wellFormed r.pdus_wf r.further_wf r.rest_prefix r.rest_ne

theorem incomplete_nil : format.Incomplete [] := incomplete_iff.2 rfl

/-- Both loops do the same with a stream that fits: what holds of one turn decides it. -/
theorem exact_of_fits (r : Reads) {σ : Type} {turn : Bytes → Nat → σ → Exec (Turn σ)} {h : σ → Bytes → σ}
    (ht : TurnMeets turn h) (hfits : r.Fits) (s : σ) :
    Exact (onReadsWith turn id r.reads init s) r.rest (r.pdus.foldl h s) := by
  have hexact := onReadsWith_fits ht id r.received valid_init incomplete_nil (clean_reads r) hfits s
  rw [show init.contents = [] from rfl, drain_reads] at hexact
  exact hexact

/-- A loop that is exact, whatever it handled, was given a stream that fits. -/
theorem fits_of_exact (r : Reads) {σ : Type} {turn : Bytes → Nat → σ → Exec (Turn σ)} {h : σ → Bytes → σ}
    (ht : TurnMeets turn h) {s s' : σ} (hexact : Exact (onReadsWith turn id r.reads init s) r.rest s') : r.Fits := by
  by_contra hfits
  exact not_exact_of_torn (onReadsWith_not_fits ht id r.received valid_init (clean_reads r) hfits s) hexact

theorem notePdu_meets : TurnMeets (imConnTurn notePdu) (fun s f => s ++ [ofBytes f]) := imConnTurn_meets fun _ _ => rfl

end FramingAux

open FramingAux

/-- `CImConn::OnRead` is exact exactly when no size wraps around. -/
theorem imConnExact_iff (r : Reads) : r.ImConnExact ↔ r.Fits := by
  constructor
  · rintro ⟨handed, _, hexact⟩
    exact fits_of_exact r notePdu_meets hexact
  · intro hfits
    have hexact := exact_of_fits r notePdu_meets hfits []
    rw [foldl_note, List.nil_append] at hexact
    refine ⟨r.pdus.map ofBytes, ?_, hexact⟩
    rw [List.map_map, show bytes ∘ ofBytes = id from funext bytes_ofBytes, List.map_id]

/-- `CProxyConn::OnRead` is exact exactly when no size wraps around. -/
theorem proxyExact_iff (r : Reads) (uuid : Nat) : r.ProxyExact uuid ↔ r.Fits := by
  constructor
  · rintro ⟨tasks, _, hexact⟩
    exact fits_of_exact r (proxyTurn_meets uuid) hexact
  · intro hfits
    have hexact := exact_of_fits r (proxyTurn_meets uuid) hfits ⟨[], []⟩
    rw [foldl_add, List.nil_append, List.nil_append] at hexact
    exact ⟨_, rfl, hexact⟩

/-- Framing is exact, for both servers and whatever the reads cut the stream into, exactly when no size that `Extend`
computes wraps around in `uint32_t`. -/
theorem framing_exact_iff (r : Reads) (uuid : Nat) : (r.ImConnExact ∧ r.ProxyExact uuid) ↔ r.Fits := by
  rw [imConnExact_iff, proxyExact_iff, and_self]

/-- A stream whose bytes, with a quarter more and the room for a read, stay below `2 ^ 32` fits, whatever the reads cut it
into. -/
theorem Reads.fits_of_small (r : Reads) (h : ExtendFits (r.pdus.flatten ++ r.rest).length readBufSize) : r.Fits := by
  rw [← r.flatten_eq] at h
  exact bufferFits_of_small (Nat.two_pow_pos 32) h

namespace FramingAux

/-- A heartbeat of the protocol: the header alone. -/
def heartbeat : Bytes := [0, 0, 0, 16, 0, 1, 0, 0, 0, 7, 7, 1, 0, 0, 0, 0]

/-- Two heartbeats and the front of a third, received in two calls of `OnRead`: one cut is within a header. -/
def heartbeatReads : Reads where
  pdus := [heartbeat, heartbeat]
  further := heartbeat
  rest := heartbeat.take 5
  reads := [[heartbeat ++ heartbeat.take 3], [heartbeat.drop 3, heartbeat.take 5]]
  pdus_wf := by decide
  further_wf := by decide
  rest_prefix := List.take_prefix 5 heartbeat
  rest_ne := by decide
  received := by decide
  flatten_eq := by decide

end FramingAux

/-- The heartbeats arrive whole, for both servers. -/
theorem framing_exact_heartbeats : heartbeatReads.ImConnExact ∧ heartbeatReads.ProxyExact 1 :=
  (framing_exact_iff heartbeatReads 1).2 (heartbeatReads.fits_of_small (by decide))

/-! ## A PDU that does not fit -/

namespace FramingAux

/-- A PDU of the largest length that the length field can hold. -/
def largePdu : Bytes := ByteStream.writeUint32 (uint32Size - 1) ++ List.replicate (uint32Size - 5) 0

theorem length_largePdu : largePdu.length = uint32Size - 1 := by
  have hw : (ByteStream.writeUint32 (uint32Size - 1)).length = 4 := rfl
  rw [largePdu, List.length_append, List.length_replicate, hw]
  decide

theorem largePdu_wf : WellFormed largePdu := by
  refine ⟨?_, ?_⟩
  · rw [length_largePdu]
    decide
  · rw [length_largePdu, largePdu, lengthField_append (by decide)]
    decide

/-- The bytes one by one. -/
theorem flatten_singletons (xs : Bytes) : (xs.map fun x => [x]).flatten = xs := by
  induction xs with
  | nil => rfl
  | cons x xs ih => rw [List.map_cons, List.flatten_cons, ih]; rfl

/-- The largest PDU, received byte by byte in one `OnRead`. -/
def largeReads : Reads where
  pdus := [largePdu]
  further := largePdu
  rest := []
  reads := [largePdu.map fun x => [x]]
  pdus_wf := fun p hp => by rw [List.mem_singleton.1 hp]; exact largePdu_wf
  further_wf := largePdu_wf
  rest_prefix := List.nil_prefix
  rest_ne := fun h => by
    have hlen := congrArg List.length h
    rw [length_largePdu, List.length_nil] at hlen
    exact absurd hlen (by decide)
  received := fun chunks hchunks c hc => by
    rw [List.mem_singleton.1 hchunks] at hc
    obtain ⟨x, _, rfl⟩ := List.mem_map.1 hc
    exact ⟨List.cons_ne_nil x [], show 1 ≤ readBufSize by decide⟩
  flatten_eq := by
    simp only [List.flatten_cons, List.flatten_nil, List.append_nil, flatten_singletons]

end FramingAux

/-- A PDU whose size and a quarter exceed `2 ^ 32` is not handled: its copy does not fit the block allocated for it. -/
theorem framing_not_exact : ¬∀ (r : Reads) (uuid : Nat), r.ImConnExact ∧ r.ProxyExact uuid := by
  intro hall
  obtain ⟨_, hfit, _⟩ := (framing_exact_iff largeReads 1).1 (hall largeReads 1)
  rw [show ([] : Bytes) ++ (largePdu.map fun x => [x]).flatten = [largePdu].flatten ++ [] by
    rw [flatten_singletons, List.nil_append, List.append_nil, List.flatten_cons, List.flatten_nil, List.append_nil],
    format.drain_frames (fun p hp => by rw [List.mem_singleton.1 hp]; exact largePdu_wf.frame) incomplete_nil] at hfit
  have hlarge := hfit largePdu List.mem_cons_self
  rw [ExtendFits, length_largePdu] at hlarge
  exact absurd hlarge (by decide)

end TeamTalk
