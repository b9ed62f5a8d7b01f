import TeamTalk.DbProxy.CachePool

/-!
# Commands go to live contexts

Every command of a `CacheConn` goes to a context that is connected, selected, and not freed, and after a failure the next operation
connects again; so it is as long as no `SELECT` fails and no reply to `EXISTS` is lost. `Init` keeps a context that it could not
select, and `isExists` keeps one that it has freed.
-/

namespace TeamTalk.DbProxy

/-- What a sequence of operations did with contexts. -/
def effectsOf (log : List CacheCall) : List CacheEffect := log.flatMap CacheCall.effects

/-- Each command is sent on a context whose connection was made, whose `SELECT` succeeded, and which has not been freed. -/
def CommandsLive (dbNum : Nat) (effects : List CacheEffect) : Prop :=
  ∀ pre post ctx cmd lost, effects = pre ++ .command ctx cmd lost :: post →
    .connect (some ctx) false ∈ pre ∧ .select ctx dbNum true ∈ pre ∧ .free ctx ∉ pre

/-- The reply was lost, or `SELECT` failed. -/
def CacheCall.Fails (call : CacheCall) : Prop :=
  ∃ ctx, (∃ dbNum, .select ctx dbNum false ∈ call.effects) ∨ ∃ cmd, .command ctx cmd true ∈ call.effects

/-- The first thing done is an attempt to connect. -/
def CacheCall.connects (call : CacheCall) : Bool :=
  match call.effects with
  | .connect _ _ :: _ => true
  | _ => false

/-- When the last attempt to connect was made. -/
def lastTry (log : List CacheCall) : Nat := log.foldl (fun t call => if call.connects then call.now else t) 0

/-- After a failure the next operation connects again; in the 4 seconds after an attempt it does nothing instead. -/
def Reconnects (log : List CacheCall) : Prop :=
  ∀ pre call next post, log = pre ++ call :: next :: post → call.Fails →
    if next.now < lastTry (pre ++ [call]) + 4 then next.effects = [] else next.connects = true

/-- What is claimed of every sequence of operations that meets a condition. -/
def CacheConnsSoundIn (ok : CacheConn → CacheOp × Answers → Prop) : Prop :=
  ∀ (dbNum : Nat) (log : List CacheCall) (c : CacheConn), Machine.Run CacheConn.step ok (CacheConn.new dbNum) log c →
    CommandsLive dbNum (effectsOf log) ∧ Reconnects log

/-- The operation makes a connection. -/
def CacheConn.Connects (c : CacheConn) (a : Answers) : Prop :=
  c.context = none ∧ ¬a.now < c.lastConnectTime + 4 ∧ a.connect = some false

/-- The condition on an operation: a new connection is selected, and `EXISTS` has a reply. -/
def RepliesMeet (c : CacheConn) (e : CacheOp × Answers) : Prop :=
  (c.Connects e.2 → e.2.select.any Reply.isOk = true) ∧
    ∀ key, e.1 = .isExists key → c.context ≠ none ∨ c.Connects e.2 → e.2.reply ≠ none

namespace CacheConnsAux

/-! ## What an operation can do -/

/-- What `Init` can do when a new connection is selected. -/
theorem init_cases {c : CacheConn} {a : Answers} (hmeets : c.Connects a → a.select.any Reply.isOk = true) :
    (∃ ctx, c.context = some ctx ∧ c.init a = { conn := c, effects := [], value := .ok ctx }) ∨
    (c.context = none ∧ a.now < c.lastConnectTime + 4 ∧ c.init a = { conn := c, effects := [], value := .error 1 }) ∨
    (c.context = none ∧ ¬a.now < c.lastConnectTime + 4 ∧
      ((c.init a = { conn := { c with lastConnectTime := a.now }, effects := [.connect none false], value := .error 1 }) ∨
      (c.init a = { conn := { c with lastConnectTime := a.now, nextContext := c.nextContext + 1 }
                    effects := [.connect (some c.nextContext) true, .free c.nextContext], value := .error 1 }) ∨
      (c.init a = { conn := { c with lastConnectTime := a.now, context := some c.nextContext, nextContext := c.nextContext + 1 }
                    effects := [.connect (some c.nextContext) false, .select c.nextContext c.dbNum true]
                    value := .ok c.nextContext }))) := by
  unfold CacheConn.init
  cases hctx : c.context with
  | some ctx => exact .inl ⟨ctx, rfl, rfl⟩
  | none =>
    refine .inr ?_
    dsimp only
    split
    · exact .inl ⟨rfl, ‹_›, rfl⟩
    · rename_i htime
      refine .inr ⟨rfl, htime, ?_⟩
      cases hconnect : a.connect with
      | none => exact .inl (by rw [← hctx])
      | some err =>
        cases err with
        | true => exact .inr (.inl (by rw [← hctx]))
        | false =>
          refine .inr (.inr ?_)
          dsimp only
          rw [hmeets ⟨hctx, htime, hconnect⟩]
          rfl

/-- An operation sends no command; or one whose reply comes; or one whose reply is lost, and gives up the context. -/
def Performs (c : CacheConn) (a : Answers) (d : CacheConn × List CacheEffect) : Prop :=
  d = ((c.init a).conn, (c.init a).effects) ∨
  ∃ ctx cmd, (c.init a).value = .ok ctx ∧
    (d = ((c.init a).conn, (c.init a).effects ++ [.command ctx cmd false]) ∨
    d = ({ (c.init a).conn with context := none }, (c.init a).effects ++ [.command ctx cmd true, .free ctx]))

theorem performs_request {α : Type} (c : CacheConn) (a : Answers) (cmd : RedisCommand) (failed : α) (read : Reply → α) :
    Performs c a (c.request a cmd failed read).forget := by
  unfold CacheConn.request
  dsimp only
  split
  · exact .inl rfl
  · rename_i ctx hvalue
    split
    · exact .inr ⟨ctx, cmd, hvalue, .inr rfl⟩
    · exact .inr ⟨ctx, cmd, hvalue, .inl rfl⟩

theorem performs_mget (c : CacheConn) (a : Answers) (keys : List String) : Performs c a (c.mget a keys).forget := by
  unfold CacheConn.mget
  split
  · exact .inl rfl
  · exact performs_request ..

/-- `isExists` is as the others when its reply comes. -/
theorem performs_isExists {c : CacheConn} {a : Answers} {key : String}
    (hreply : ∀ ctx, (c.init a).value = .ok ctx → a.reply ≠ none) : Performs c a (c.isExists a key).forget := by
  unfold CacheConn.isExists
  dsimp only
  split
  · exact .inl rfl
  · rename_i ctx hvalue
    split
    · rename_i hnone
      exact absurd hnone (hreply ctx hvalue)
    · exact .inr ⟨ctx, _, hvalue, .inl rfl⟩

theorem performs_perform {c : CacheConn} {op : CacheOp} {a : Answers} (hmeets : RepliesMeet c (op, a)) :
    Performs c a (c.perform a op) := by
  cases op with
  | init => exact .inl rfl
  | mget keys => exact performs_mget c a keys
  | isExists key =>
    refine performs_isExists fun ctx hvalue => hmeets.2 key rfl ?_
    rcases init_cases hmeets.1 with ⟨ctx', hctx, -⟩ | ⟨-, -, hinit⟩ | ⟨hnone, htime, hinit | hinit | hinit⟩
    · exact .inl (by rw [hctx]; exact nofun)
    · rw [hinit] at hvalue
      cases hvalue
    · rw [hinit] at hvalue
      cases hvalue
    · rw [hinit] at hvalue
      cases hvalue
    · refine .inr ⟨hnone, htime, ?_⟩
      unfold CacheConn.init at hinit
      rw [hnone] at hinit
      dsimp only at hinit
      rw [if_neg htime] at hinit
      cases hconnect : a.connect with
      | none =>
        rw [hconnect] at hinit
        cases congrArg Done.value hinit
      | some err =>
        cases err with
        | false => rfl
        | true =>
          rw [hconnect] at hinit
          cases congrArg Done.value hinit
  | _ => exact performs_request ..

/-! ## Live contexts -/

/-- The context of a connection is live, and the numbers of the others are used up. -/
structure Live (dbNum : Nat) (effects : List CacheEffect) (c : CacheConn) : Prop where
  same : c.dbNum = dbNum
  live : ∀ ctx, c.context = some ctx →
    .connect (some ctx) false ∈ effects ∧ .select ctx dbNum true ∈ effects ∧ .free ctx ∉ effects
  used : ∀ ctx, .free ctx ∈ effects ∨ c.context = some ctx → ctx < c.nextContext
  commands : CommandsLive dbNum effects

/-- What sends no command sends none to a context that is not live. -/
theorem commandsLive_append {dbNum : Nat} {effects out : List CacheEffect} (h : CommandsLive dbNum effects)
    (hout : ∀ ctx cmd lost, .command ctx cmd lost ∉ out) : CommandsLive dbNum (effects ++ out) := by
  intro pre post ctx cmd lost heq
  rcases List.append_eq_append_iff.1 heq with ⟨as, -, hpost⟩ | ⟨bs, heffects, hbs⟩
  · refine absurd ?_ (hout ctx cmd lost)
    rw [hpost]
    exact List.mem_append_right _ List.mem_cons_self
  · cases bs with
    | nil =>
      refine absurd ?_ (hout ctx cmd lost)
      rw [List.nil_append] at hbs
      rw [← hbs]
      exact List.mem_cons_self
    | cons b bs =>
      obtain ⟨rfl, -⟩ := List.cons.inj hbs
      exact h pre bs ctx cmd lost heffects

variable {dbNum : Nat} {effects : List CacheEffect} {c : CacheConn}

theorem live_init {a : Answers} (h : Live dbNum effects c) (hmeets : c.Connects a → a.select.any Reply.isOk = true) :
    Live dbNum (effects ++ (c.init a).effects) (c.init a).conn := by
  have hfresh : .free c.nextContext ∉ effects := fun hin => Nat.lt_irrefl _ (h.used _ (.inl hin))
  rcases init_cases hmeets with ⟨ctx, -, hinit⟩ | ⟨-, -, hinit⟩ | ⟨hnone, -, hinit | hinit | hinit⟩
  · rw [hinit, List.append_nil]
    exact h
  · rw [hinit, List.append_nil]
    exact h
  · rw [hinit]
    refine ⟨h.same, fun ctx hctx => ?_, fun ctx hctx => h.used ctx ?_, commandsLive_append h.commands (by simp)⟩
    · cases hnone.symm.trans hctx
    · simpa using hctx
  · rw [hinit]
    refine ⟨h.same, fun ctx hctx => ?_, fun ctx hctx => ?_, commandsLive_append h.commands (by simp)⟩
    · cases hnone.symm.trans hctx
    · rcases hctx with hfree | hctx
      · rcases List.mem_append.1 hfree with hfree | hfree
        · exact Nat.lt_succ_of_lt (h.used ctx (.inl hfree))
        · simp only [List.mem_cons, CacheEffect.free.injEq, reduceCtorEq, List.not_mem_nil, or_false, false_or] at hfree
          exact hfree ▸ Nat.lt_succ_self _
      · cases hnone.symm.trans hctx
  · rw [hinit]
    refine ⟨h.same, fun ctx hctx => ?_, fun ctx hctx => ?_, commandsLive_append h.commands (by simp)⟩
    · obtain rfl := Option.some.inj hctx
      refine ⟨List.mem_append_right _ (by simp), List.mem_append_right _ (by simp [h.same]), fun hin => ?_⟩
      rcases List.mem_append.1 hin with hin | hin
      · exact hfresh hin
      · simp at hin
    · rcases hctx with hfree | hctx
      · rcases List.mem_append.1 hfree with hfree | hfree
        · exact Nat.lt_succ_of_lt (h.used ctx (.inl hfree))
        · simp at hfree
      · exact Option.some.inj hctx ▸ Nat.lt_succ_self _

/-- A command goes to the context, which is live. -/
theorem live_command {ctx : Context} (h : Live dbNum effects c) (hctx : c.context = some ctx) (cmd : RedisCommand) (lost : Bool) :
    Live dbNum (effects ++ [.command ctx cmd lost]) c := by
  refine ⟨h.same, fun ctx' hctx' => ?_, fun ctx' hctx' => h.used ctx' ?_, ?_⟩
  · obtain ⟨hconnect, hselect, hfree⟩ := h.live ctx' hctx'
    refine ⟨List.mem_append_left _ hconnect, List.mem_append_left _ hselect, fun hin => ?_⟩
    rcases List.mem_append.1 hin with hin | hin
    · exact hfree hin
    · simp at hin
  · simpa using hctx'
  · intro pre post ctx' cmd' lost' heq
    rcases List.append_eq_append_iff.1 heq with ⟨as, hpre, hpost⟩ | ⟨bs, heffects, hbs⟩
    · cases as with
      | nil =>
        simp only [List.nil_append, List.cons.injEq, CacheEffect.command.injEq] at hpost
        obtain ⟨⟨rfl, -, -⟩, -⟩ := hpost
        rw [hpre, List.append_nil]
        exact h.live ctx hctx
      | cons b as => simp at hpost
    · cases bs with
      | nil =>
        simp only [List.nil_append, List.cons.injEq, CacheEffect.command.injEq] at hbs
        obtain ⟨⟨rfl, -, -⟩, -⟩ := hbs
        rw [List.append_nil] at heffects
        exact heffects ▸ h.live _ hctx
      | cons b bs =>
        obtain ⟨rfl, -⟩ := List.cons.inj hbs
        exact h.commands pre bs ctx' cmd' lost' heffects

/-- The context is freed, and given up. -/
theorem live_free {ctx : Context} (h : Live dbNum effects c) (hctx : c.context = some ctx) :
    Live dbNum (effects ++ [.free ctx]) { c with context := none } := by
  refine ⟨h.same, nofun, fun ctx' hctx' => ?_, commandsLive_append h.commands (by simp)⟩
  rcases hctx' with hin | hin
  · rcases List.mem_append.1 hin with hin | hin
    · exact h.used ctx' (.inl hin)
    · simp only [List.mem_cons, CacheEffect.free.injEq, List.not_mem_nil, or_false] at hin
      exact hin ▸ h.used ctx (.inr hctx)
  · cases hin

/-! ## Sequences of operations -/

/-- The invariant. -/
structure CacheConnSound (dbNum : Nat) (log : List CacheCall) (c : CacheConn) : Prop where
  live : Live dbNum (effectsOf log) c
  tried : c.lastConnectTime = lastTry log
  failed : ∀ pre call, log = pre ++ [call] → call.Fails → c.context = none
  reconnects : Reconnects log

/-- What one more operation does is what it tells. -/
theorem effectsOf_append (log : List CacheCall) (now : Nat) (effects : List CacheEffect) :
    effectsOf (log ++ [{ now := now, effects := effects }]) = effectsOf log ++ effects := by
  simp only [effectsOf, List.flatMap_append, List.flatMap_cons, List.flatMap_nil, List.append_nil]

theorem lastTry_append (log : List CacheCall) (call : CacheCall) :
    lastTry (log ++ [call]) = if call.connects then call.now else lastTry log := by
  simp only [lastTry, List.foldl_append, List.foldl_cons, List.foldl_nil]

/-- The context is live after an operation. -/
theorem live_performs {a : Answers} {d : CacheConn × List CacheEffect} (h : Live dbNum effects c)
    (hmeets : c.Connects a → a.select.any Reply.isOk = true) (hd : Performs c a d) : Live dbNum (effects ++ d.2) d.1 := by
  have hinit := live_init h hmeets
  rcases hd with rfl | ⟨ctx, cmd, hvalue, rfl | rfl⟩
  · exact hinit
  all_goals
    have hctx : (c.init a).conn.context = some ctx := by
      rcases init_cases hmeets with ⟨ctx', hctx', heq⟩ | ⟨-, -, heq⟩ | ⟨-, -, heq | heq | heq⟩
      all_goals
        rw [heq] at hvalue ⊢
        cases hvalue
      · exact hctx'
      · rfl
    dsimp only
    rw [← List.append_assoc]
  · exact live_command hinit hctx cmd _
  · have hlost := live_free (live_command hinit hctx cmd true) hctx
    rw [List.append_assoc] at hlost
    exact hlost

/-- An operation that fails gives up the context. -/
theorem context_of_fails {a : Answers} {d : CacheConn × List CacheEffect} {now : Nat}
    (hmeets : c.Connects a → a.select.any Reply.isOk = true) (hd : Performs c a d)
    (hfails : CacheCall.Fails { now, effects := d.2 }) : d.1.context = none := by
  have hnot : ∀ ctx, (∀ dbNum, .select ctx dbNum false ∉ (c.init a).effects) ∧
      ∀ cmd lost, .command ctx cmd lost ∉ (c.init a).effects := by
    intro ctx
    rcases init_cases hmeets with ⟨_, -, heq⟩ | ⟨-, -, heq⟩ | ⟨-, -, heq | heq | heq⟩ <;> rw [heq] <;> simp
  obtain ⟨ctx', hfails⟩ := hfails
  rcases hd with rfl | ⟨ctx, cmd, -, rfl | rfl⟩
  · rcases hfails with ⟨n, hin⟩ | ⟨cmd, hin⟩
    · exact absurd hin ((hnot ctx').1 n)
    · exact absurd hin ((hnot ctx').2 cmd true)
  · rcases hfails with ⟨n, hin⟩ | ⟨cmd', hin⟩
    · rcases List.mem_append.1 hin with hin | hin
      · exact absurd hin ((hnot ctx').1 n)
      · simp at hin
    · rcases List.mem_append.1 hin with hin | hin
      · exact absurd hin ((hnot ctx').2 cmd' true)
      · simp at hin
  · rfl

/-- The time of an attempt is kept. -/
theorem lastConnectTime_performs {a : Answers} {d : CacheConn × List CacheEffect}
    (hmeets : c.Connects a → a.select.any Reply.isOk = true) (hd : Performs c a d) :
    d.1.lastConnectTime = if CacheCall.connects { now := a.now, effects := d.2 } then a.now else c.lastConnectTime := by
  have hconn : d.1.lastConnectTime = (c.init a).conn.lastConnectTime := by
    rcases hd with rfl | ⟨ctx, cmd, -, rfl | rfl⟩ <;> rfl
  have heffects : ∃ rest, d.2 = (c.init a).effects ++ rest ∧ (∀ ctx err rest', rest ≠ .connect ctx err :: rest') := by
    rcases hd with rfl | ⟨ctx, cmd, -, rfl | rfl⟩
    · exact ⟨[], (List.append_nil _).symm, nofun⟩
    · exact ⟨_, rfl, nofun⟩
    · exact ⟨_, rfl, nofun⟩
  obtain ⟨rest, heq, hrest⟩ := heffects
  have hnot : CacheCall.connects { now := a.now, effects := rest } = false := by
    unfold CacheCall.connects
    split
    · rename_i ctx err rest' hcons
      exact absurd hcons (hrest ctx err rest')
    · rfl
  rw [hconn, heq]
  rcases init_cases hmeets with ⟨_, -, hinit⟩ | ⟨-, -, hinit⟩ | ⟨-, -, hinit | hinit | hinit⟩ <;> rw [hinit]
  · rw [List.nil_append, hnot]
    rfl
  · rw [List.nil_append, hnot]
    rfl
  all_goals rfl

/-- Without a context an operation connects, or does nothing. -/
theorem connects_performs {a : Answers} {d : CacheConn × List CacheEffect} (hnone : c.context = none)
    (hmeets : c.Connects a → a.select.any Reply.isOk = true) (hd : Performs c a d) :
    if a.now < c.lastConnectTime + 4 then d.2 = [] else CacheCall.connects { now := a.now, effects := d.2 } = true := by
  rcases init_cases hmeets with ⟨ctx, hctx, -⟩ | ⟨-, htime, hinit⟩ | ⟨-, htime, hinit⟩
  · rw [hnone] at hctx
    cases hctx
  · rw [if_pos htime]
    rcases hd with rfl | ⟨ctx, cmd, hvalue, -⟩
    · rw [hinit]
    · rw [hinit] at hvalue
      cases hvalue
  · rw [if_neg htime]
    rcases hd with rfl | ⟨ctx, cmd, -, rfl | rfl⟩ <;> rcases hinit with hinit | hinit | hinit <;> rw [hinit] <;> rfl

theorem cacheConnSound_step {log out : List CacheCall} {c' : CacheConn} {e : CacheOp × Answers} (h : CacheConnSound dbNum log c)
    (hmeets : RepliesMeet c e) (hstep : c.step e = some (c', out)) : CacheConnSound dbNum (log ++ out) c' := by
  obtain ⟨op, a⟩ := e
  obtain ⟨rfl, rfl⟩ := Prod.mk.inj (Option.some.inj hstep)
  have hd := performs_perform hmeets
  generalize c.perform a op = d at hd
  refine ⟨?_, ?_, ?_, ?_⟩
  · rw [effectsOf_append]
    exact live_performs h.live hmeets.1 hd
  · rw [lastTry_append, ← h.tried]
    exact lastConnectTime_performs hmeets.1 hd
  · intro pre call heq hfails
    obtain ⟨-, hcall⟩ := List.append_inj' heq rfl
    obtain rfl := (List.cons.inj hcall).1
    exact context_of_fails hmeets.1 hd hfails
  · intro pre call next post heq hfails
    rcases List.eq_nil_or_concat post with rfl | ⟨post', last, rfl⟩
    · have hsplit : log ++ [{ now := a.now, effects := d.2 }] = (pre ++ [call]) ++ [next] := by simpa using heq
      obtain ⟨hlog, hnext⟩ := List.append_inj' hsplit rfl
      obtain rfl := (List.cons.inj hnext).1
      rw [← hlog, ← h.tried]
      exact connects_performs (h.failed pre call hlog hfails) hmeets.1 hd
    · have hsplit : log ++ [{ now := a.now, effects := d.2 }] = (pre ++ call :: next :: post') ++ [last] := by simpa using heq
      exact h.reconnects pre call next post' (List.append_inj' hsplit rfl).1 hfails

theorem cacheConnSound_new (dbNum : Nat) : CacheConnSound dbNum [] (CacheConn.new dbNum) := by
  refine ⟨⟨rfl, nofun, ?_, ?_⟩, rfl, ?_, ?_⟩
  · rintro ctx (hin | hin) <;> cases hin
  · intro pre post ctx cmd lost heq
    exact absurd heq.symm (List.append_ne_nil_of_right_ne_nil pre (List.cons_ne_nil _ post))
  · intro pre call heq
    exact absurd heq.symm (List.append_ne_nil_of_right_ne_nil pre (List.cons_ne_nil _ _))
  · intro pre call next post heq
    exact absurd heq.symm (List.append_ne_nil_of_right_ne_nil pre (List.cons_ne_nil _ _))

/-- The connection is made, and `SELECT` answers an error; then a key is asked for. -/
def unselected : List (CacheOp × Answers) :=
  [(.init, { now := 4, connect := some false, select := some (.error "ERR invalid DB index"), reply := none }),
    (.get "k", { now := 5, connect := none, select := none, reply := some (.string "v") })]

end CacheConnsAux

open CacheConnsAux

/-- In every sequence of operations in which no `SELECT` fails, and no reply to `EXISTS` is lost, all commands go to live contexts,
and after a failure the next operation connects again. -/
theorem commands_live (dbNum : Nat) (log : List CacheCall) (c : CacheConn)
    (hrun : Machine.Run CacheConn.step RepliesMeet (CacheConn.new dbNum) log c) :
    CommandsLive dbNum (effectsOf log) ∧ Reconnects log := by
  have h : CacheConnSound dbNum log c := hrun.invariant (I := CacheConnSound dbNum) (cacheConnSound_new dbNum)
    fun h hmeets hstep => cacheConnSound_step h hmeets hstep
  exact ⟨h.live.commands, h.reconnects⟩

/-- The reply to a command is lost, and the next operation connects again. -/
theorem commands_live_again : ∃ log c, Machine.Run CacheConn.step RepliesMeet (CacheConn.new 1) log c ∧
    effectsOf log = [.connect (some 0) false, .select 0 1 true, .command 0 (.argv ["GET", "k"]) true, .free 0,
      .connect (some 1) false, .select 1 1 true, .command 1 (.argv ["GET", "k"]) false] ∧
    CommandsLive 1 (effectsOf log) ∧ Reconnects log := by
  have hrun : ∃ log c, Machine.Run CacheConn.step RepliesMeet (CacheConn.new 1) log c ∧
      effectsOf log = [.connect (some 0) false, .select 0 1 true, .command 0 (.argv ["GET", "k"]) true, .free 0,
        .connect (some 1) false, .select 1 1 true, .command 1 (.argv ["GET", "k"]) false] := by
    refine ⟨_, _, .step (.step .start
      (e := (.get "k", { now := 4, connect := some false, select := some (.status "OK"), reply := none })) ?_ rfl)
      (e := (.get "k", { now := 8, connect := some false, select := some (.status "OK"), reply := some .nil })) ?_ rfl, rfl⟩
    · exact ⟨fun _ => by decide, nofun⟩
    · exact ⟨fun _ => by decide, nofun⟩
  obtain ⟨log, c, hrun, heffects⟩ := hrun
  exact ⟨log, c, hrun, heffects, commands_live 1 log c hrun⟩

/-- A command is sent on a context that is not selected. -/
theorem commands_not_live : ¬CacheConnsSoundIn fun _ _ => True := by
  intro hall
  have hsteps : Machine.steps CacheConn.step (CacheConn.new 1) unselected = some (_, _) := rfl
  have hlive := (hall 1 _ _ (Machine.Run.of_steps (fun _ _ => trivial) .start hsteps)).1
  have hselect := (hlive [.connect (some 0) false, .select 0 1 false] [] 0 (.argv ["GET", "k"]) false rfl).2.1
  simp at hselect

end TeamTalk.DbProxy
