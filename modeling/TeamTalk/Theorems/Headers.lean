import Mathlib
import TeamTalk.Base.BuildPdu

/-!
# Header fields survive sending

What a PDU is built with is what its receiver reads, as long as nothing is set before the message, and no error is set:
`SetError` writes where `SetSeqNum` does.
-/

namespace TeamTalk

namespace ImPdu

/-- The fields of `PduHeader_t`. -/
inductive HeaderField where
  | length | version | flag | serviceId | commandId | seqNum | reversed
  deriving DecidableEq, Repr

end ImPdu

/-- A field of a header. -/
def PduHeader.get (h : PduHeader) : ImPdu.HeaderField → Nat
  | .length => h.length
  | .version => h.version
  | .flag => h.flag
  | .serviceId => h.serviceId
  | .commandId => h.commandId
  | .seqNum => h.seqNum
  | .reversed => h.reversed

namespace ImPdu

namespace Call

/-- The header field that a setter is for; the header has none for an error. -/
def own : Call → Option HeaderField
  | .setVersion _ => some .version
  | .setFlag _ => some .flag
  | .setServiceId _ => some .serviceId
  | .setCommandId _ => some .commandId
  | .setSeqNum _ => some .seqNum
  | .setReversed _ => some .reversed
  | .setError _ => none
  | .setPBMsg _ => none

def msg? : Call → Option MessageLite
  | .setPBMsg msg => some msg
  | _ => none

def serviceId? : Call → Option UInt16
  | .setServiceId serviceId => some serviceId
  | _ => none

def commandId? : Call → Option UInt16
  | .setCommandId commandId => some commandId
  | _ => none

def seqNum? : Call → Option UInt16
  | .setSeqNum seqNum => some seqNum
  | _ => none

end Call

/-- The service id that was set last, or that of a new `CImPdu`. -/
def lastServiceId (calls : List Call) : UInt16 := (calls.filterMap Call.serviceId?).getLastD 7

/-- The command id that was set last. -/
def lastCommandId (calls : List Call) : UInt16 := (calls.filterMap Call.commandId?).getLastD 0

/-- The sequence number that was set last. -/
def lastSeqNum (calls : List Call) : UInt16 := (calls.filterMap Call.seqNum?).getLastD 0

/-- The calls since the last `SetPBMsg`. -/
def sinceMsg (calls : List Call) : List Call := (calls.reverse.takeWhile fun c => c.msg?.isNone).reverse

/-- What was built is read back as it was meant, and each setter has changed at most its own field. -/
structure Survives (calls : List Call) : Prop where
  read_back : ∃ pdu back msg, build calls = .ok pdu ∧ readPdu pdu.bytes pdu.bytes.length = .ok (some back) ∧
    back.pduHeader.serviceId = (lastServiceId calls).toNat ∧ back.pduHeader.commandId = (lastCommandId calls).toNat ∧
    back.pduHeader.seqNum = (lastSeqNum calls).toNat ∧ back.pduHeader.length = pdu.bytes.length ∧
    (calls.filterMap Call.msg?).getLast? = some msg ∧ back.readBody = .ok msg.data
  own_only : ∀ pre c post pdu pdu', calls = pre ++ c :: post → c.msg? = none → build pre = .ok pdu → pdu.call c = .ok pdu' →
    ∀ field, c.own ≠ some field → (header pdu'.bytes).get field = (header pdu.bytes).get field

/-- The condition on the calls. The first one is `SetPBMsg`; the service id, the command id and the sequence number that are
set last are set after the last `SetPBMsg`, or are those of a new PDU; and an error that is set is the sequence number. -/
structure HeadersMeet (calls : List Call) : Prop where
  msg_first : ∃ msg rest, calls = .setPBMsg msg :: rest
  serviceId : lastServiceId (sinceMsg calls) = lastServiceId calls
  commandId : lastCommandId (sinceMsg calls) = lastCommandId calls
  seqNum : lastSeqNum (sinceMsg calls) = lastSeqNum calls
  errors : ∀ pre error post, calls = pre ++ .setError error :: post → error = lastSeqNum (sinceMsg pre)

namespace HeadersAux

open BuildPduAux

/-! ## One call more -/

/-- `SetPBMsg` begins anew, and a setter is one more. -/
theorem sinceMsg_concat (calls : List Call) (c : Call) :
    sinceMsg (calls ++ [c]) = if c.msg?.isSome then [] else sinceMsg calls ++ [c] := by
  cases h : c.msg? with
  | some msg => simp [sinceMsg, h]
  | none => simp [sinceMsg, h]

theorem fields_concat (calls : List Call) (c : Call) :
    (calls ++ [c]).foldl Written.call Written.new = (calls.foldl Written.call Written.new).call c := by
  rw [List.foldl_append]
  rfl

/-- The service id in the buffer. -/
theorem serviceId_fields (calls : List Call) :
    (calls.foldl Written.call Written.new).serviceId = lastServiceId (sinceMsg calls) := by
  induction calls using List.reverseRecOn with
  | nil => rfl
  | append_singleton calls c ih =>
    rw [fields_concat, sinceMsg_concat]
    cases c with
    | setPBMsg msg => rfl
    | setServiceId serviceId => simp [Written.call, Call.msg?, lastServiceId, Call.serviceId?]
    | _ => simpa [Written.call, Call.msg?, lastServiceId, Call.serviceId?] using ih

/-- The command id in the buffer. -/
theorem commandId_fields (calls : List Call) :
    (calls.foldl Written.call Written.new).commandId = lastCommandId (sinceMsg calls) := by
  induction calls using List.reverseRecOn with
  | nil => rfl
  | append_singleton calls c ih =>
    rw [fields_concat, sinceMsg_concat]
    cases c with
    | setPBMsg msg => rfl
    | setCommandId commandId => simp [Written.call, Call.msg?, lastCommandId, Call.commandId?]
    | _ => simpa [Written.call, Call.msg?, lastCommandId, Call.commandId?] using ih

/-- The sequence number in the buffer, if no error has changed it. -/
theorem seqNum_fields (calls : List Call)
    (herrors : ∀ pre error post, calls = pre ++ .setError error :: post → error = lastSeqNum (sinceMsg pre)) :
    (calls.foldl Written.call Written.new).seqNum = lastSeqNum (sinceMsg calls) := by
  induction calls using List.reverseRecOn with
  | nil => rfl
  | append_singleton calls c ih =>
    have ih := ih fun pre error post h => herrors pre error (post ++ [c]) (by rw [h]; simp)
    rw [fields_concat, sinceMsg_concat]
    cases c with
    | setPBMsg msg => rfl
    | setSeqNum seqNum => simp [Written.call, Call.msg?, lastSeqNum, Call.seqNum?]
    | setError error => simpa [Written.call, Call.msg?, lastSeqNum, Call.seqNum?] using herrors calls error [] rfl
    | _ => simpa [Written.call, Call.msg?, lastSeqNum, Call.seqNum?] using ih

/-- The message in the buffer. -/
theorem msg_fields (msg : MessageLite) (calls : List Call) :
    ((Call.setPBMsg msg :: calls).filterMap Call.msg?).getLast? = some (calls.foldl msgAfter msg) := by
  induction calls using List.reverseRecOn with
  | nil => rfl
  | append_singleton calls c ih =>
    rw [List.foldl_append, ← List.cons_append, List.filterMap_append]
    cases c with
    | setPBMsg msg' => exact List.getLast?_concat
    | _ => exact (congrArg List.getLast? (List.append_nil _)).trans ih

/-- A setter changes at most its own field, and an error the sequence number. -/
theorem get_call (w : Written) {c : Call} (hc : c.msg? = none) (length : Nat) {field : HeaderField}
    (hown : c.own ≠ some field) (herror : ∀ error, c = .setError error → field = .seqNum → error = w.seqNum) :
    ((w.call c).header length).get field = (w.header length).get field := by
  cases c with
  | setPBMsg msg => cases hc
  | setError error =>
    cases field with
    | seqNum => exact congrArg UInt16.toNat (herror error rfl rfl)
    | _ => rfl
  | _ => cases field <;> first | rfl | exact absurd rfl hown

/-! ## What is built -/

/-- Calls that do not begin with a message build nothing that can be read. -/
theorem msg_first_of_read {calls : List Call} {pdu back : ImPdu} (hbuild : build calls = .ok pdu)
    (hread : readPdu pdu.bytes pdu.bytes.length = .ok (some back)) : ∃ msg rest, calls = .setPBMsg msg :: rest := by
  cases calls with
  | nil =>
    obtain rfl := Except.ok.inj hbuild
    cases hread
  | cons c rest =>
    cases hc : c.msg? with
    | none =>
      have hnew : new.call c = .error .undefinedBehaviour := call_new fun msg h => by
        rw [h] at hc
        cases hc
      simp only [build, List.foldlM_cons, hnew, bind, Except.bind] at hbuild
      cases hbuild
    | some msg =>
      cases c with
      | setPBMsg msg => exact ⟨msg, rest, rfl⟩
      | _ => cases hc

/-- What is read of a PDU that begins with a message. -/
theorem read_of_build (calls : List Call) {msg : MessageLite} {rest : List Call} (hcalls : calls = .setPBMsg msg :: rest) :
    ∃ pdu, build calls = .ok pdu ∧ pdu.Holds (calls.foldl Written.call Written.new) (rest.foldl msgAfter msg) ∧
      readPdu pdu.bytes pdu.bytes.length = .ok (some (ofBytes pdu.bytes)) ∧
      (ofBytes pdu.bytes).pduHeader = (calls.foldl Written.call Written.new).header pdu.bytes.length ∧
      (ofBytes pdu.bytes).readBody = .ok (rest.foldl msgAfter msg).data := by
  subst hcalls
  obtain ⟨pdu, hbuild, hholds⟩ := build_holds msg rest
  obtain ⟨hread, hheader, hbody⟩ := readPdu_of_holds hholds
  exact ⟨pdu, hbuild, hholds, hread, hheader, hbody⟩

/-- A setter that follows a message, in terms of the fields. -/
theorem get_after {pre post calls : List Call} {c : Call} {msg : MessageLite} {rest : List Call}
    (hcalls : calls = .setPBMsg msg :: rest) (hsplit : calls = pre ++ c :: post) (hc : c.msg? = none) :
    ∃ pdu pdu', build pre = .ok pdu ∧ pdu.call c = .ok pdu' ∧ ∀ field,
      (header pdu.bytes).get field = ((pre.foldl Written.call Written.new).header pdu.bytes.length).get field ∧
      (header pdu'.bytes).get field =
        (((pre.foldl Written.call Written.new).call c).header pdu.bytes.length).get field := by
  cases pre with
  | nil =>
    rw [hcalls, List.nil_append, List.cons.injEq] at hsplit
    rw [← hsplit.1] at hc
    cases hc
  | cons c0 pre =>
    rw [hcalls, List.cons_append, List.cons.injEq] at hsplit
    obtain ⟨rfl, -⟩ := hsplit
    obtain ⟨pdu, hbuild, hholds, -, hheader, -⟩ := read_of_build (.setPBMsg msg :: pre) rfl
    obtain ⟨pdu', hcall, hholds'⟩ := call_holds hholds c
    have hheader' := (readPdu_of_holds hholds').2.1
    have hmsg : msgAfter (pre.foldl msgAfter msg) c = pre.foldl msgAfter msg := by
      cases c with
      | setPBMsg msg => cases hc
      | _ => rfl
    have hlen : pdu'.bytes.length = pdu.bytes.length := by
      rw [show pdu'.bytes = _ from hholds'.contents, show pdu.bytes = _ from hholds.contents, hmsg]
      rfl
    refine ⟨pdu, pdu', hbuild, hcall, fun field => ⟨congrArg (·.get field) hheader, ?_⟩⟩
    rw [← hlen]
    exact congrArg (·.get field) hheader'

end HeadersAux

open HeadersAux BuildPduAux

/-- A PDU is read back as it was meant, and no setter changes a field that is not its own, exactly when the calls meet the
condition. -/
theorem headers_survive_iff (calls : List Call) : Survives calls ↔ HeadersMeet calls := by
  constructor
  · rintro ⟨⟨pdu, back, lastMsg, hbuild, hread, hservice, hcommand, hseq, -, -, -⟩, hown⟩
    obtain ⟨msg, rest, hcalls⟩ := msg_first_of_read hbuild hread
    obtain ⟨pdu', hbuild', -, hread', hheader, -⟩ := read_of_build calls hcalls
    obtain rfl := Except.ok.inj (hbuild.symm.trans hbuild')
    obtain rfl := Option.some.inj (Except.ok.inj (hread.symm.trans hread'))
    rw [hheader] at hservice hcommand hseq
    -- an error overwrites the sequence number; by induction on what stands before it
    have herrors : ∀ n, ∀ pre error post, pre.length = n → calls = pre ++ .setError error :: post →
        error = lastSeqNum (sinceMsg pre) := by
      intro n
      induction n using Nat.strongRecOn with
      | ind n ih =>
        intro pre error post hn hsplit
        obtain ⟨p, p', hp, hp', hget⟩ := get_after hcalls hsplit rfl
        have hsame := hown pre (.setError error) post p p' hsplit rfl hp hp' .seqNum (by simp [Call.own])
        rw [(hget .seqNum).1, (hget .seqNum).2] at hsame
        rw [← seqNum_fields pre]
        · exact UInt16.toNat_inj.1 hsame
        · intro pre' error' post' hpre'
          refine ih pre'.length ?_ pre' error' (post' ++ .setError error :: post) rfl ?_
          · rw [← hn, hpre', List.length_append, List.length_cons]
            omega
          · rw [hsplit, hpre', List.append_assoc, List.cons_append]
    have herrors := fun pre error post => herrors pre.length pre error post rfl
    refine ⟨⟨msg, rest, hcalls⟩, ?_, ?_, ?_, herrors⟩
    · rw [← serviceId_fields]
      exact UInt16.toNat_inj.1 hservice
    · rw [← commandId_fields]
      exact UInt16.toNat_inj.1 hcommand
    · rw [← seqNum_fields calls herrors]
      exact UInt16.toNat_inj.1 hseq
  · rintro ⟨⟨msg, rest, hcalls⟩, hservice, hcommand, hseq, herrors⟩
    obtain ⟨pdu, hbuild, -, hread, hheader, hbody⟩ := read_of_build calls hcalls
    refine ⟨⟨pdu, _, rest.foldl msgAfter msg, hbuild, hread, ?_, ?_, ?_, ?_, ?_, hbody⟩, ?_⟩
    · rw [hheader, ← hservice, ← serviceId_fields]
      rfl
    · rw [hheader, ← hcommand, ← commandId_fields]
      rfl
    · rw [hheader, ← hseq, ← seqNum_fields calls herrors]
      rfl
    · rw [hheader]
      rfl
    · rw [hcalls]
      exact msg_fields msg rest
    · intro pre c post p p' hsplit hc hp hp' field hown
      obtain ⟨q, q', hq, hq', hget⟩ := get_after hcalls hsplit hc
      obtain rfl := Except.ok.inj (hp.symm.trans hq)
      obtain rfl := Except.ok.inj (hp'.symm.trans hq')
      rw [(hget field).1, (hget field).2]
      refine get_call _ hc _ hown fun error hce _ => ?_
      subst hce
      rw [seqNum_fields _ fun pre' error' post' h => herrors pre' error' (post' ++ .setError error :: post) (by
        rw [hsplit, h, List.append_assoc, List.cons_append])]
      exact herrors pre error post hsplit

/-- `SendMessageLite` with sequence number 5 and error 3: the sequence number is lost. -/
theorem headers_not_survive : ¬Survives [.setPBMsg ⟨[], by decide⟩, .setServiceId 1, .setCommandId 2, .setSeqNum 5,
    .setError 3] := by
  rintro ⟨⟨pdu, back, msg, hbuild, hread, -, -, hseq, -⟩, -⟩
  obtain ⟨pdu', hbuild', -, hread', hheader, -⟩ := read_of_build [.setPBMsg ⟨[], by decide⟩, .setServiceId 1,
    .setCommandId 2, .setSeqNum 5, .setError 3] rfl
  obtain rfl := Except.ok.inj (hbuild.symm.trans hbuild')
  obtain rfl := Option.some.inj (Except.ok.inj (hread.symm.trans hread'))
  rw [hheader] at hseq
  have hseq' : 3 = 5 := hseq
  omega

end ImPdu

end TeamTalk
