import TeamTalk.HttpMsgServer.HttpQuery

/-!
# One HTTP connection, one command

Every read event parses the whole buffer and dispatches what it finds, also while the answer of the DB proxy is awaited. A connection
causes one command at most, that of its first request, as long as nothing is read after a complete request, and nothing comes behind it
in its own read.
-/

namespace TeamTalk.HttpMsgServer

namespace QueryConn

section

variable {V : Type} (api : JsonApi V) (execute : Bytes → List HttpCallback) (handle : Nat)

/-! ## The property -/

/-- The parser takes some bytes as a complete request. -/
def complete (bytes : Bytes) : Bool := (HttpParsed.parseHttpContent execute bytes).readAll

/-- The command that a parsed request stands for. -/
def commandOf (parsed : HttpParsed) : Option Command :=
  match onParsed api true parsed handle with
  | some (.forwards command) => some command
  | _ => none

/-- The first complete request in the bytes: the shortest beginning that the parser takes as complete. -/
def firstRequest (bytes : Bytes) : Option HttpParsed :=
  ((List.range (bytes.length + 1)).find? fun n => complete execute (bytes.take n)).map fun n =>
    HttpParsed.parseHttpContent execute (bytes.take n)

/-- At most one request has been sent to the DB proxy, and it is that of the first complete HTTP request. -/
def OneCommand (c : QueryConn) : Prop :=
  c.sent.length ≤ 1 ∧ ∀ command ∈ c.sent, (firstRequest execute c.inBuf).bind (commandOf api handle) = some command

/-! ## The condition -/

/-- The condition on what is read: no complete request has come before, and nothing comes behind the first one. -/
def QueryMeets (c : QueryConn) : QueryEvent → Prop
  | .read _ chunk _ _ => (∀ n ≤ c.inBuf.length, complete execute (c.inBuf.take n) = false) ∧
      ∀ n < (c.inBuf ++ chunk).length, complete execute ((c.inBuf ++ chunk).take n) = false
  | .other _ => True

end

namespace OneCommandAux

variable {V : Type} {api : JsonApi V} {execute : Bytes → List HttpCallback} {handle : Nat} {c c' : QueryConn} {e : QueryEvent} {out : List Unit}
  {bytes : Bytes} {command : Command}

/-! ## The first request -/

/-- More bytes do not change the first request. -/
theorem firstRequest_append {parsed : HttpParsed} (h : firstRequest execute bytes = some parsed) (chunk : Bytes) :
    firstRequest execute (bytes ++ chunk) = some parsed := by
  unfold firstRequest at h ⊢
  obtain ⟨n, hfind, rfl⟩ := Option.map_eq_some_iff.1 h
  obtain ⟨hcomplete, before, after, hrange, hbefore⟩ := List.find?_eq_some_iff_append.1 hfind
  have hn : n ≤ bytes.length := by
    have := List.mem_range.1 (hrange ▸ List.mem_append_right before List.mem_cons_self)
    omega
  have htake : ∀ m, m ≤ bytes.length → (bytes ++ chunk).take m = bytes.take m := fun m hm => List.take_append_of_le_length hm
  -- the range of the longer text begins with that of the shorter one
  have hlonger : List.range ((bytes ++ chunk).length + 1) =
      before ++ n :: (after ++ (List.range chunk.length).map (bytes.length + 1 + ·)) := by
    rw [List.length_append, Nat.add_right_comm, List.range_add, hrange, List.append_assoc, List.cons_append]
  have hfind' : (List.range ((bytes ++ chunk).length + 1)).find? (fun m => complete execute ((bytes ++ chunk).take m)) = some n := by
    refine List.find?_eq_some_iff_append.2 ⟨?_, before, _, hlonger, ?_⟩
    · rw [htake n hn]
      exact hcomplete
    · intro m hm
      have hm' : m ≤ bytes.length := by
        have := List.mem_range.1 (hrange ▸ List.mem_append_left (n :: after) hm)
        omega
      rw [htake m hm']
      exact hbefore m hm
  rw [hfind', Option.map_some, htake n hn]

/-- Nor do they change its command. -/
theorem firstCommand_append (h : (firstRequest execute bytes).bind (commandOf api handle) = some command) (chunk : Bytes) :
    (firstRequest execute (bytes ++ chunk)).bind (commandOf api handle) = some command := by
  obtain ⟨parsed, hfirst, hcommand⟩ := Option.bind_eq_some_iff.1 h
  rw [firstRequest_append hfirst, Option.bind_some, hcommand]

/-! ## Steps -/

/-- Bytes with a first request have a beginning that is complete. -/
theorem complete_of_firstRequest {parsed : HttpParsed} (h : firstRequest execute bytes = some parsed) :
    ∃ n ≤ bytes.length, complete execute (bytes.take n) = true := by
  obtain ⟨n, hfind, -⟩ := Option.map_eq_some_iff.1 h
  have hn := List.mem_range.1 (List.mem_of_find?_eq_some hfind)
  exact ⟨n, by omega, by simpa using List.find?_some hfind⟩

/-- A request that nothing comes behind is the first one. -/
theorem firstRequest_whole (hcomplete : complete execute bytes = true)
    (hbefore : ∀ n < bytes.length, complete execute (bytes.take n) = false) :
    firstRequest execute bytes = some (HttpParsed.parseHttpContent execute bytes) := by
  have hnone : (List.range bytes.length).find? (fun n => complete execute (bytes.take n)) = none := by
    refine List.find?_eq_none.2 fun n hn => ?_
    rw [hbefore n (List.mem_range.1 hn)]
    exact Bool.false_ne_true
  rw [firstRequest, List.range_succ, List.find?_append, hnone, Option.none_or, List.find?_singleton, List.take_length, hcomplete,
    if_pos rfl, Option.map_some, List.take_length]

/-! ## Commands -/

/-- What is forwarded comes from a complete request, and there is a connection to the DB proxy. -/
theorem commandOf_of_forwards {hasConn : Bool} {parsed : HttpParsed}
    (h : onParsed api hasConn parsed handle = some (.forwards command)) :
    parsed.readAll = true ∧ commandOf api handle parsed = some command := by
  cases hasConn with
  | true =>
    refine ⟨?_, by rw [commandOf, h]⟩
    by_contra hread
    rw [onParsed, if_neg hread] at h
    cases h
  | false =>
    -- without one, an error is answered
    exfalso
    unfold onParsed at h
    split at h
    · split at h
      · unfold dispatchQuery at h
        split at h
        · cases h
        · split at h
          · cases h
          · split at h
            · cases h
            · split at h <;> cases h
      · cases h
    · cases h

/-- What a read event leads to: a command is sent if and only if one is found. -/
theorem outcome_commands {taken : Nat} {dispatched : Option Dispatched} {result : Outcome} {commands : List Command}
    (h : outcome taken dispatched = some (result, commands)) :
    (∃ command, dispatched = some (.forwards command) ∧ commands = [command]) ∨
      (commands = [] ∧ ∀ command, dispatched ≠ some (.forwards command)) := by
  cases dispatched with
  | none =>
    cases h
    exact .inr ⟨rfl, fun command heq => by cases heq⟩
  | some d =>
    cases d with
    | forwards command =>
      cases h
      exact .inl ⟨command, rfl, rfl⟩
    | aborts => cases h
    | _ =>
      cases h
      exact .inr ⟨rfl, fun command heq => by cases heq⟩

/-- A connection that has caused one command at most still has, when no command is sent. -/
theorem oneCommand_idle (h : OneCommand api execute handle c) (chunk : Bytes) (conn : HttpConn) :
    OneCommand api execute handle { conn := conn, inBuf := c.inBuf ++ chunk, sent := c.sent } :=
  ⟨h.1, fun command hmem => firstCommand_append (h.2 command hmem) chunk⟩

/-- As long as no complete request has come, no command has been sent. -/
theorem sent_eq_nil (h : OneCommand api execute handle c) (hnone : ∀ n ≤ c.inBuf.length, complete execute (c.inBuf.take n) = false) :
    c.sent = [] := by
  refine List.eq_nil_iff_forall_not_mem.2 fun command hmem => ?_
  obtain ⟨parsed, hfirst, -⟩ := Option.bind_eq_some_iff.1 (h.2 command hmem)
  obtain ⟨n, hn, hcomplete⟩ := complete_of_firstRequest hfirst
  rw [hnone n hn] at hcomplete
  cases hcomplete

/-- The first request, and nothing else, is read: its command is the only one. -/
theorem oneCommand_read {tick taken : Nat} {chunk : Bytes} {hasConn : Bool} (h : OneCommand api execute handle c)
    (hmeets : QueryMeets execute c (.read tick chunk hasConn taken))
    (hstep : c.step api execute handle (.read tick chunk hasConn taken) = some (c', out)) : OneCommand api execute handle c' := by
  simp only [step] at hstep
  split at hstep
  · cases hstep
  next result commands houtcome =>
    obtain ⟨⟨conn, out'⟩, -, heq⟩ := Option.map_eq_some_iff.1 hstep
    cases heq
    rcases outcome_commands houtcome with ⟨command, hfound, rfl⟩ | ⟨rfl, -⟩
    · obtain ⟨hcomplete, hcommand⟩ := commandOf_of_forwards hfound
      rw [sent_eq_nil h hmeets.1]
      refine ⟨le_rfl, fun command' hmem => ?_⟩
      rw [List.mem_singleton.1 hmem, firstRequest_whole hcomplete hmeets.2, Option.bind_some, hcommand]
    · rw [List.append_nil]
      exact oneCommand_idle h chunk conn

/-- Nothing else that happens to a connection sends a command, or changes what has been read. -/
theorem step_other {e : Event} (hstep : c.step api execute handle (.other e) = some (c', out)) :
    c'.inBuf = c.inBuf ∧ c'.sent = c.sent := by
  cases e with
  | read tick result => cases hstep
  | _ =>
    obtain ⟨⟨conn, out'⟩, -, heq⟩ := Option.map_eq_some_iff.1 hstep
    cases heq
    exact ⟨rfl, rfl⟩

/-- A step that meets the condition keeps the property. -/
theorem oneCommand_step (h : OneCommand api execute handle c) (hmeets : QueryMeets execute c e)
    (hstep : c.step api execute handle e = some (c', out)) : OneCommand api execute handle c' := by
  cases e with
  | read tick chunk hasConn taken => exact oneCommand_read h hmeets hstep
  | other e =>
    obtain ⟨hbuf, hsent⟩ := step_other hstep
    rw [OneCommand, hbuf, hsent]
    exact h

/-- A new connection has caused none. -/
theorem oneCommand_init (tick : Nat) : OneCommand api execute handle (init tick) :=
  ⟨Nat.zero_le 1, fun command hmem => by cases hmem⟩

end OneCommandAux

open OneCommandAux

/-- In every run in which nothing is read after a complete request, nor behind it in its own read, a connection has caused one command at
most, that of its first complete request. -/
theorem oneCommand_of_run {V : Type} (api : JsonApi V) (execute : Bytes → List HttpCallback) (handle tick : Nat) (log : List Unit)
    (c : QueryConn) (hrun : Machine.Run (step api execute handle) (QueryMeets execute) (init tick) log c) :
    OneCommand api execute handle c :=
  hrun.invariant (I := fun _ c => OneCommand api execute handle c) (oneCommand_init tick)
    fun h hmeets hstep => oneCommand_step h hmeets hstep

/-! ## A request that is read twice -/

/-- JSON values, as far as a request has them. -/
inductive Json where
  | null
  | num (n : Nat)
  | str (text : Bytes)
  | list (items : List Nat)
  | obj (fields : List (String × Json))

/-- The body of a request for a group. -/
def groupBody : Bytes :=
  chars "\x7b\"app_key\":\"k\",\"req_user_id\":1,\"group_name\":\"g\",\"group_type\":1,\"group_avatar\":\"a\",\"user_id_list\":[1]\x7d"

/-- The JSON library on that body. -/
def groupJson : JsonApi Json :=
  { parse := fun body => if body = groupBody then
      some (.obj [("app_key", .str (chars "k")), ("req_user_id", .num 1), ("group_name", .str (chars "g")), ("group_type", .num 1),
        ("group_avatar", .str (chars "a")), ("user_id_list", .list [1])])
      else none
    get := fun value key => match value with
      | .obj fields => some ((fields.lookup key).getD .null)
      | .null => some .null
      | _ => none
    isNull := fun value => match value with
      | .null => true
      | _ => false
    asUInt := fun value => match value with
      | .num n => some n
      | .null => some 0
      | _ => none
    asString := fun value => match value with
      | .str text => some text
      | .null => some []
      | _ => none
    size := fun value => match value with
      | .list items => items.length
      | _ => 0
    item := fun value i => match value with
      | .list items => (items[i]?).map .num
      | _ => none
    styled := fun _ _ => [] }

/-- The headers of a request for a group. -/
def groupHeader : HttpHeader where
  name := chars "Content-Length"
  after := chars ": " ++ decimal groupBody.length ++ [13, 10, 13, 10] ++ groupBody
  value := decimal groupBody.length
  colon := by decide

/-- What stands before the body. -/
def groupHead : Bytes :=
  chars "POST /query/CreateGroup HTTP/1.1" ++ [13, 10] ++ groupHeader.name ++ chars ": " ++ groupHeader.value ++ [13, 10, 13, 10]

/-- A request for a group. -/
def groupRequest : Bytes := groupHead ++ groupBody

/-- The HTTP parser on that request: it is complete once the body is there, whatever empty lines stand behind it. -/
def groupExecute (bytes : Bytes) : List HttpCallback :=
  if groupHead <+: bytes then
    [.onUrl (chars "/query/CreateGroup"), .onHeader groupHeader, .onHeadersComplete groupHead.length groupBody.length,
      .onBody ((bytes.drop groupHead.length).take groupBody.length)] ++
      if groupRequest <+: bytes then [.onMessageComplete] else []
  else []

/-- What is computed of the request: in two reads it is one command; no beginning of it is complete; and an empty line behind it brings
a second command. -/
theorem groupRequest_evaluated :
    ((step groupJson groupExecute 1 (init 0) (.read 0 groupHead true 0)).any (fun (c1, _) =>
      c1.inBuf == groupHead && (step groupJson groupExecute 1 c1 (.read 1 groupBody true 0)).any fun (c2, _) =>
        c2.inBuf == groupRequest && c2.sent.length == 1)) = true ∧
    groupHead.length < groupRequest.length ∧
    (∀ n < groupRequest.length, complete groupExecute (groupRequest.take n) = false) ∧
    ((Machine.steps (step groupJson groupExecute 1) (init 0) [.read 0 groupRequest true 0, .read 1 [13, 10] true 0]).any
      fun (c, _) => c.sent.length == 2) = true := by
  decide +kernel

/-- No beginning of its headers is complete. -/
theorem complete_groupHead {n : Nat} (hn : n ≤ groupHead.length) : complete groupExecute (groupHead.take n) = false := by
  obtain ⟨-, hlength, hnone, -⟩ := groupRequest_evaluated
  have h := hnone n (Nat.lt_of_le_of_lt hn hlength)
  rwa [groupRequest, List.take_append_of_le_length hn] at h

/-- The request comes in two reads, and the answer of the DB proxy is awaited: one command has been sent. -/
theorem oneCommand_of_run_two : ∃ c, c.inBuf = groupRequest ∧ c.sent.length = 1 ∧ OneCommand groupJson groupExecute 1 c := by
  obtain ⟨hread, -, hnone, -⟩ := groupRequest_evaluated
  obtain ⟨⟨c1, out1⟩, hstep1, h1⟩ := (Option.any_eq_true _ _).1 hread
  rw [Bool.and_eq_true, beq_iff_eq] at h1
  obtain ⟨hbuf1, hrest⟩ := h1
  obtain ⟨⟨c2, out2⟩, hstep2, h2⟩ := (Option.any_eq_true _ _).1 hrest
  rw [Bool.and_eq_true, beq_iff_eq, beq_iff_eq] at h2
  have hmeets1 : QueryMeets groupExecute (init 0) (.read 0 groupHead true 0) := by
    refine ⟨fun n hn => ?_, fun n hn => complete_groupHead (Nat.le_of_lt hn)⟩
    rw [Nat.le_zero.1 hn]
    exact complete_groupHead (Nat.zero_le _)
  have hmeets2 : QueryMeets groupExecute c1 (.read 1 groupBody true 0) := by
    rw [QueryMeets, hbuf1]
    exact ⟨fun n hn => complete_groupHead hn, hnone⟩
  exact ⟨c2, h2.1, h2.2, oneCommand_of_run groupJson groupExecute 1 0 _ c2 (.step (.step .start hmeets1 hstep1) hmeets2 hstep2)⟩

/-- An empty line comes while the answer of the DB proxy is awaited: the command is sent again. -/
theorem not_oneCommand_of_run : ¬∀ (V : Type) (api : JsonApi V) (execute : Bytes → List HttpCallback) (handle tick : Nat)
    (log : List Unit) (c : QueryConn), Machine.Run (step api execute handle) (fun _ _ => True) (init tick) log c →
      OneCommand api execute handle c := by
  intro hall
  obtain ⟨⟨c, log⟩, hsteps, hlength⟩ := (Option.any_eq_true _ _).1 groupRequest_evaluated.2.2.2
  have hone := hall Json groupJson groupExecute 1 0 _ c (Machine.Run.start.of_steps (fun _ _ => trivial) hsteps)
  have := hone.1
  rw [beq_iff_eq.1 hlength] at this
  omega

end QueryConn

end TeamTalk.HttpMsgServer
