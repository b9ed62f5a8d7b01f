import TeamTalk.PushServer.Sending

/-!
# push_server sends whole messages

What has been written to a socket is a prefix of the messages that were accepted, in one order, and the rest of them is still held,
as long as no thread sends past what another one has yet to queue. The two locks of `SendMsgAsync` leave room for that.
-/

namespace TeamTalk.PushServer.Sending

open State

/-! ## The property -/

/-- The thread has sent a part of its message, and has yet to queue the rest. -/
def Partial (s : State) (t : Nat) : Prop := ∃ rest, s.callers t = .left rest false

/-- What the thread has yet to queue. -/
def Caller.rest : Caller → Bytes
  | .left rest false => rest
  | _ => []

/-- What is in the queue and has not been sent. -/
def unsent (s : State) : Bytes :=
  match s.io with
  | .sent n => s.sendQueue.flatten.drop n
  | _ => s.sendQueue.flatten

/-- What is held of the messages that have been accepted: by threads, and in the queue. -/
def Held (s : State) (rest : Bytes) : Prop :=
  ∃ threads : List Nat, threads.Nodup ∧ (∀ t, t ∈ threads ↔ Partial s t) ∧
    rest = (threads.flatMap fun t => (s.callers t).rest) ++ unsent s

/-- An order of the accepted messages that respects each thread's own. -/
def Ordered (s : State) (order : List (Nat × Bytes)) : Prop :=
  ∀ t, (order.filter fun sent => sent.1 = t).map Prod.snd = s.accepted t

/-- The accepted messages, in one order, are what has been written and what is held. -/
def SendsWhole (s : State) : Prop :=
  s.undefined = false ∧ ∃ order rest, Ordered s order ∧ Held s rest ∧ order.flatMap Prod.snd = s.socket ++ rest

/-! ## The condition -/

/-- A call puts its message into the queue. -/
def Queues (s : State) : Prop :=
  s.sendQueue ≠ [] ∧ s.waitForClose = false ∧ s.sendQueue.length < maxSendQueueSize

/-- The condition on a step: a message that is queued is not empty and fits; when the socket takes bytes from a call, the queue
is still empty and no other call has yet to queue a rest; and so when a call queues a message of which nothing was taken. -/
def Meets (s : State) : Event → Prop
  | .call _ msg => Queues s → msg ≠ [] ∧ Fits msg
  | .send _ (some n) => n ≠ 0 → s.sendQueue = [] ∧ ∀ t, ¬Partial s t
  | .push t => ∀ rest whole, s.callers t = .left rest whole → Fits rest ∧ (whole = true → ∀ t', ¬Partial s t')
  | _ => True

namespace SendingAux

variable {s s' : State} {t t' : Nat} {msg rest data : Bytes} {caller : Caller} {order : List (Nat × Bytes)}

/-! ## Threads and orders -/

theorem partial_setCaller :
    Partial (s.setCaller t caller) t' ↔ if t' = t then ∃ rest, caller = .left rest false else Partial s t' := by
  simp only [Partial, State.setCaller]
  split <;> rfl

theorem ordered_accept (h : Ordered s order) (t : Nat) (msg : Bytes) : Ordered (s.accept t msg) (order ++ [(t, msg)]) := by
  intro t'
  rw [List.filter_append, List.map_append, h t']
  simp only [State.accept]
  by_cases heq : t' = t
  · simp [heq]
  · simp [heq, Ne.symm heq]

/-- A message in the order has been accepted. -/
theorem mem_accepted (h : Ordered s order) {sent : Nat × Bytes} (hmem : sent ∈ order) : sent.2 ∈ s.accepted sent.1 := by
  rw [← h sent.1]
  exact List.mem_map.2 ⟨sent, List.mem_filter.2 ⟨hmem, by simp⟩, rfl⟩

/-! ## The invariant -/

/-- The buffers are not empty, and the one that is being sent is the first; at most one thread has yet to queue a rest, and then
the queue is empty; and nothing is missing between what has been written and what is held. -/
structure Inv (s : State) : Prop where
  defined : s.undefined = false
  filled : ∀ data ∈ s.sendQueue, data ≠ []
  lefts : ∀ t rest whole, s.callers t = .left rest whole → rest ≠ []
  front : s.io = .front → s.sendQueue ≠ []
  sent : ∀ n, s.io = .sent n → ∃ data rest, s.sendQueue = data :: rest ∧ n ≤ data.length
  alone : ∀ t t', Partial s t → Partial s t' → t = t'
  empty : ∀ t, Partial s t → s.sendQueue = []
  stream : ∃ order, Ordered s order ∧ (∀ t rest, s.callers t = .left rest false → order.flatMap Prod.snd = s.socket ++ rest) ∧
    ((∀ t, ¬Partial s t) → order.flatMap Prod.snd = s.socket ++ unsent s)

theorem inv_init : Inv State.init := by
  refine ⟨rfl, ?_, ?_, ?_, ?_, ?_, ?_, [], ?_, ?_, ?_⟩ <;> simp [State.init, Partial, Ordered, unsent]

theorem unsent_nil (hqueue : s.sendQueue = []) : unsent s = [] := by
  unfold unsent
  split <;> simp [hqueue]

/-- While the queue is empty, the I/O thread is outside. -/
theorem io_outside (h : Inv s) (hqueue : s.sendQueue = []) : s.io = .outside := by
  cases hio : s.io with
  | outside => rfl
  | front => exact absurd hqueue (h.front hio)
  | sent n =>
    obtain ⟨data, rest, hcons, -⟩ := h.sent n hio
    rw [hqueue] at hcons
    cases hcons

theorem unsent_enqueue (h : Inv s) (data : Bytes) : unsent (s.enqueue data) = unsent s ++ data := by
  unfold unsent State.enqueue
  cases hio : s.io with
  | outside => simp
  | front => simp
  | sent n =>
    obtain ⟨first, rest, hcons, hle⟩ := h.sent n hio
    simp only [List.flatten_append, List.flatten_singleton]
    refine List.drop_append_of_le_length ?_
    rw [hcons, List.flatten_cons, List.length_append]
    omega

/-- A thread moves, and neither before nor after has it a rest to queue. -/
theorem inv_setCaller (h : Inv s) (hold : ¬Partial s t) (hnew : ∀ rest, caller ≠ .left rest false)
    (hleft : ∀ rest, caller = .left rest true → rest ≠ []) : Inv (s.setCaller t caller) := by
  have hwhole : ∀ t', Partial (s.setCaller t caller) t' ↔ Partial s t' := by
    intro t'
    rw [partial_setCaller]
    split
    next heq =>
      subst heq
      exact iff_of_false (fun ⟨rest, hrest⟩ => hnew rest hrest) hold
    next => rfl
  obtain ⟨order, horder, hrests, hnone⟩ := h.stream
  refine ⟨h.defined, h.filled, fun t' rest whole hcaller => ?_, h.front, h.sent, ?_, ?_, order, horder, ?_, ?_⟩
  · simp only [State.setCaller] at hcaller
    split at hcaller
    · cases whole with
      | true => exact hleft rest hcaller
      | false => exact absurd hcaller (hnew rest)
    · exact h.lefts t' rest whole hcaller
  · simp only [hwhole]
    exact h.alone
  · simp only [hwhole]
    exact h.empty
  · intro t' rest hcaller
    simp only [State.setCaller] at hcaller
    split at hcaller
    · exact absurd hcaller (hnew rest)
    · exact hrests t' rest hcaller
  · simp only [hwhole]
    exact hnone

/-- A message is queued behind everything that is held. -/
theorem inv_queue (h : Inv s) (hwhole : ∀ t', ¬Partial s t') (hne : msg ≠ []) (hfits : Fits msg) (t : Nat) :
    Inv ((s.enqueue msg).accept t msg) := by
  obtain ⟨order, horder, -, hnone⟩ := h.stream
  refine ⟨?_, ?_, h.lefts, ?_, ?_, h.alone, fun t' ht' => absurd ht' (hwhole t'), order ++ [(t, msg)], ?_, ?_, ?_⟩
  · simp [State.accept, State.enqueue, h.defined, hfits]
  · intro data hdata
    rcases List.mem_append.1 hdata with hdata | hdata
    · exact h.filled data hdata
    · rw [List.mem_singleton.1 hdata]
      exact hne
  · simp [State.accept, State.enqueue]
  · intro n hn
    obtain ⟨data, rest, hcons, hle⟩ := h.sent n hn
    exact ⟨data, rest ++ [msg], by simp [State.accept, State.enqueue, hcons], hle⟩
  · exact ordered_accept (s := s.enqueue msg) horder t msg
  · exact fun t' rest hcaller => absurd ⟨rest, hcaller⟩ (hwhole t')
  · intro _
    rw [List.flatMap_append, hnone hwhole, List.append_assoc]
    change _ = s.socket ++ unsent (s.enqueue msg)
    rw [unsent_enqueue h]
    simp

theorem inv_call (h : Inv s) (ht : s.callers t = .outside) (hmeets : Meets s (.call t msg)) : Inv (s.call t msg) := by
  have hout : ¬Partial s t := by
    rintro ⟨rest, hrest⟩
    rw [ht] at hrest
    cases hrest
  unfold State.call
  split
  next hqueue =>
    have hne : s.sendQueue ≠ [] := fun hnil => hqueue (by rw [hnil, List.length_nil])
    split
    · exact h
    next hwait =>
      split
      · exact h
      next hroom =>
        obtain ⟨hmsg, hfits⟩ := hmeets ⟨hne, Bool.eq_false_iff.2 hwait, Nat.lt_of_not_le hroom⟩
        exact inv_queue h (fun t' ht' => hne (h.empty t' ht')) hmsg hfits t
  next => exact inv_setCaller h hout (fun rest hrest => by cases hrest) fun rest hrest => by cases hrest

theorem inv_send {answer : Option Nat} (h : Inv s) (ht : s.callers t = .direct msg) (hmeets : Meets s (.send t answer))
    (hstep : s.send t msg answer = some s') : Inv s' := by
  have hout : ¬Partial s t := by
    rintro ⟨rest, hrest⟩
    rw [ht] at hrest
    cases hrest
  cases answer with
  | none =>
    simp only [State.send] at hstep
    split at hstep
    · cases hstep
    next hne =>
      cases hstep
      refine inv_setCaller h hout (fun rest hrest => by cases hrest) fun rest hrest => ?_
      cases hrest
      exact hne
  | some n =>
    simp only [State.send] at hstep
    split at hstep
    next htakes =>
      split at hstep
      · cases hstep
        exact inv_setCaller h hout (fun rest hrest => by cases hrest) fun rest hrest => by cases hrest
      next hpos =>
        obtain ⟨hqueue, hwhole⟩ := hmeets hpos
        obtain ⟨order, horder, -, hnone⟩ := h.stream
        have horder' := ordered_accept horder t msg
        have hwritten : order.flatMap Prod.snd = s.socket := by rw [hnone hwhole, unsent_nil hqueue, List.append_nil]
        have hio := io_outside h hqueue
        split at hstep
        next hpart =>
          -- a part is taken, and the rest has yet to be queued
          cases hstep
          have hafter : ∀ t', Partial ((State.accept { s with socket := s.socket ++ msg.take n } t msg).setCaller t
              (.left (msg.drop n) false)) t' ↔ t' = t := by
            intro t'
            rw [partial_setCaller]
            split
            next heq => exact iff_of_true ⟨_, rfl⟩ heq
            next hne => exact iff_of_false (hwhole t') hne
          have hrest : msg.drop n ≠ [] := by
            intro hnil
            have := congrArg List.length hnil
            rw [List.length_drop, List.length_nil] at this
            have := htakes.1
            omega
          refine ⟨h.defined, h.filled, ?_, h.front, h.sent, ?_, fun t' _ => hqueue, order ++ [(t, msg)], horder', ?_, ?_⟩
          · intro t' rest whole hcaller
            simp only [State.setCaller] at hcaller
            split at hcaller
            · cases hcaller
              exact hrest
            · exact h.lefts t' rest whole hcaller
          · intro t1 t2 h1 h2
            rw [hafter] at h1 h2
            rw [h1, h2]
          · intro t' rest hcaller
            simp only [State.setCaller] at hcaller
            split at hcaller
            · cases hcaller
              change _ = (s.socket ++ msg.take n) ++ msg.drop n
              rw [List.append_assoc, List.take_append_drop, List.flatMap_append, hwritten]
              simp
            · exact absurd ⟨rest, hcaller⟩ (hwhole t')
          · exact fun hno => absurd ((hafter t).2 rfl) (hno t)
        next hall =>
          -- the message is taken whole
          cases hstep
          have hn : n = msg.length := not_not.1 hall
          have hsent : Inv (State.accept { s with socket := s.socket ++ msg.take n } t msg) := by
            refine ⟨h.defined, h.filled, h.lefts, h.front, h.sent, h.alone, h.empty, order ++ [(t, msg)], horder', ?_, ?_⟩
            · exact fun t' rest hcaller => absurd ⟨rest, hcaller⟩ (hwhole t')
            · intro _
              have hnil : unsent (State.accept { s with socket := s.socket ++ msg.take n } t msg) = [] := by
                change unsent s = []
                exact unsent_nil hqueue
              rw [hnil, List.append_nil, List.flatMap_append, hwritten]
              change _ = s.socket ++ msg.take n
              rw [hn, List.take_length]
              simp
          exact inv_setCaller hsent hout (fun rest hrest => by cases hrest) fun rest hrest => by cases hrest
    · cases hstep

/-- What is left of a message goes into the queue: behind nothing. -/
theorem inv_push_rest (h : Inv s) (ht : s.callers t = .left rest false) (hfits : Fits rest) :
    Inv ((s.enqueue rest).setCaller t .outside) := by
  have hqueue := h.empty t ⟨rest, ht⟩
  have hio := io_outside h hqueue
  obtain ⟨order, horder, hrests, -⟩ := h.stream
  have hafter : ∀ t', ¬Partial ((s.enqueue rest).setCaller t .outside) t' := by
    intro t' ht'
    rw [partial_setCaller] at ht'
    split at ht'
    · obtain ⟨rest', hrest'⟩ := ht'
      cases hrest'
    next hne => exact hne (h.alone t' t ht' ⟨rest, ht⟩)
  refine ⟨?_, ?_, ?_, ?_, ?_, fun t1 t2 h1 _ => absurd h1 (hafter t1), fun t' ht' => absurd ht' (hafter t'), order, horder, ?_, ?_⟩
  · simp [State.setCaller, State.enqueue, h.defined, hfits]
  · intro data hdata
    simp only [State.setCaller, State.enqueue, hqueue, List.nil_append, List.mem_singleton] at hdata
    rw [hdata]
    exact h.lefts t rest false ht
  · intro t' rest' whole hcaller
    simp only [State.setCaller] at hcaller
    split at hcaller
    · cases hcaller
    · exact h.lefts t' rest' whole hcaller
  · simp [State.setCaller, State.enqueue]
  · intro n hn
    change s.io = .sent n at hn
    rw [hio] at hn
    cases hn
  · exact fun t' rest' hcaller => absurd ⟨rest', hcaller⟩ (hafter t')
  · intro _
    rw [hrests t rest ht]
    change _ = s.socket ++ unsent (s.enqueue rest)
    rw [unsent_enqueue h, unsent_nil hqueue, List.nil_append]

/-- What the I/O thread does to the queue and the socket leaves what is written and unsent together. -/
theorem inv_io {io : Io} {queue : List Bytes} {socket : Bytes} (h : Inv s) (hne : s.sendQueue ≠ [])
    (hfilled : ∀ data ∈ queue, data ≠ []) (hfront : io = .front → queue ≠ [])
    (hsent : ∀ n, io = .sent n → ∃ data rest, queue = data :: rest ∧ n ≤ data.length)
    (hstream : socket ++ unsent { s with io := io, sendQueue := queue, socket := socket } = s.socket ++ unsent s) :
    Inv { s with io := io, sendQueue := queue, socket := socket } := by
  have hwhole : ∀ t, ¬Partial s t := fun t ht => hne (h.empty t ht)
  obtain ⟨order, horder, -, hnone⟩ := h.stream
  refine ⟨h.defined, hfilled, h.lefts, hfront, hsent, h.alone, fun t ht => absurd ht (hwhole t), order, horder, ?_, ?_⟩
  · exact fun t rest hcaller => absurd ⟨rest, hcaller⟩ (hwhole t)
  · intro _
    rw [hnone hwhole]
    exact hstream.symm

theorem inv_ioSend {answer : Option Nat} (h : Inv s) (hio : s.io = .front) (hstep : s.ioSend answer = some s') : Inv s' := by
  have hne := h.front hio
  cases answer with
  | none =>
    cases hstep
    refine inv_io h hne h.filled (fun hf => by cases hf) (fun n hn => by cases hn) ?_
    simp [unsent, hio]
  | some n =>
    simp only [State.ioSend] at hstep
    split at hstep
    next hnil => exact absurd hnil hne
    next data rest hcons =>
      split at hstep
      next htakes =>
        split at hstep
        next hzero => exact absurd (htakes.2 hzero) (h.filled data (by rw [hcons]; exact List.mem_cons_self))
        next hpos =>
          cases hstep
          refine inv_io h hne h.filled (fun hf => by cases hf) (fun m hm => ?_) ?_
          · cases hm
            exact ⟨data, rest, hcons, htakes.1⟩
          · simp only [unsent, hio, hcons, List.flatten_cons]
            rw [List.drop_append_of_le_length htakes.1, List.append_assoc, ← List.append_assoc (data.take n),
              List.take_append_drop]
      · cases hstep

theorem inv_ioEnd {n : Nat} (h : Inv s) (hio : s.io = .sent n) (hstep : s.ioEnd n = some s') : Inv s' := by
  obtain ⟨data, rest, hcons, hle⟩ := h.sent n hio
  have hne : s.sendQueue ≠ [] := by
    rw [hcons]
    exact List.cons_ne_nil data rest
  have hrest : ∀ other ∈ rest, other ≠ [] := fun other hother => h.filled other (by rw [hcons]; exact List.mem_cons_of_mem data hother)
  simp only [State.ioEnd, hcons] at hstep
  cases hstep
  refine inv_io h hne ?_ (fun hf => by cases hf) (fun m hm => by cases hm) ?_
  · split
    next hpart =>
      intro other hother
      rcases List.mem_cons.1 hother with rfl | hother
      · intro hnil
        have := congrArg List.length hnil
        rw [List.length_drop, List.length_nil] at this
        omega
      · exact hrest other hother
    next => exact hrest
  · simp only [unsent, hio, hcons, List.flatten_cons]
    rw [List.drop_append_of_le_length hle]
    split
    next => rw [List.flatten_cons]
    next hall => rw [not_not.1 hall, List.drop_length, List.nil_append]

/-- Every step that meets the condition keeps the invariant. -/
theorem inv_step {e : Event} {out : List Unit} (h : Inv s) (hmeets : Meets s e) (hstep : s.step e = some (s', out)) : Inv s' := by
  cases e with
  | call t msg =>
    simp only [State.step] at hstep
    split at hstep
    next ht =>
      split at hstep
      · cases hstep
        exact inv_call h ht hmeets
      · cases hstep
    · cases hstep
  | send t answer =>
    simp only [State.step] at hstep
    split at hstep
    next msg ht =>
      obtain ⟨s1, hs1, heq⟩ := Option.map_eq_some_iff.1 hstep
      cases heq
      exact inv_send h ht hmeets hs1
    · cases hstep
  | push t =>
    simp only [State.step] at hstep
    split at hstep
    next rest whole ht =>
      cases hstep
      obtain ⟨hfits, hnone⟩ := hmeets rest whole ht
      cases whole with
      | false => exact inv_push_rest h ht hfits
      | true =>
        have hqueued := inv_queue h (hnone rfl) (h.lefts t rest true ht) hfits t
        exact inv_setCaller hqueued (hnone rfl t) (fun rest hrest => by cases hrest) fun rest hrest => by cases hrest
    · cases hstep
  | ioBegin =>
    simp only [State.step] at hstep
    split at hstep
    next hio =>
      split at hstep
      · split at hstep
        · cases hstep
        · cases hstep
          exact h
      next hqueue =>
        cases hstep
        have hne : s.sendQueue ≠ [] := fun hnil => hqueue (by rw [hnil, List.length_nil])
        refine inv_io h hne h.filled (fun _ => hne) (fun n hn => by cases hn) ?_
        simp [unsent, hio]
    · cases hstep
  | ioSend answer =>
    simp only [State.step] at hstep
    split at hstep
    next hio =>
      obtain ⟨s1, hs1, heq⟩ := Option.map_eq_some_iff.1 hstep
      cases heq
      exact inv_ioSend h hio hs1
    · cases hstep
  | ioEnd =>
    simp only [State.step] at hstep
    split at hstep
    next n hio =>
      obtain ⟨s1, hs1, heq⟩ := Option.map_eq_some_iff.1 hstep
      cases heq
      exact inv_ioEnd h hio hs1
    · cases hstep
  | setWaitForClose =>
    cases hstep
    exact ⟨h.defined, h.filled, h.lefts, h.front, h.sent, h.alone, h.empty, h.stream⟩

theorem sendsWhole_of_inv (h : Inv s) : SendsWhole s := by
  obtain ⟨order, horder, hrests, hnone⟩ := h.stream
  refine ⟨h.defined, order, ?_⟩
  by_cases hwhole : ∃ t, Partial s t
  · obtain ⟨t, rest, hcaller⟩ := hwhole
    refine ⟨rest, horder, ⟨[t], List.nodup_singleton t, fun t' => ?_, ?_⟩, hrests t rest hcaller⟩
    · rw [List.mem_singleton]
      constructor
      · rintro rfl
        exact ⟨rest, hcaller⟩
      · exact fun ht' => h.alone t' t ht' ⟨rest, hcaller⟩
    · rw [unsent_nil (h.empty t ⟨rest, hcaller⟩)]
      simp [hcaller, Caller.rest]
  · have hnobody : ∀ t, ¬Partial s t := not_exists.1 hwhole
    refine ⟨unsent s, horder, ⟨[], List.nodup_nil, fun t' => ?_, ?_⟩, hnone hnobody⟩
    · exact iff_of_false List.not_mem_nil (hnobody t')
    · rw [List.flatMap_nil, List.nil_append]

/-- Thread 1 may queue the byte that is left of its message. -/
theorem meets_push {s : State} (hleft : s.callers 1 = .left [2] false) : Meets s (.push 1) := by
  intro rest whole hrest
  rw [hleft] at hrest
  obtain ⟨rfl, rfl⟩ := Caller.left.inj hrest
  exact ⟨by decide, fun hwhole => absurd hwhole Bool.false_ne_true⟩

end SendingAux

open SendingAux

/-- In every run whose steps all meet the condition, what has been written is a prefix of the accepted messages in one order
that respects each thread's own, and the rest of them is held. -/
theorem sends_whole {log : List Unit} {s : State} (h : Machine.Run State.step Meets State.init log s) : SendsWhole s :=
  sendsWhole_of_inv (h.invariant (I := fun _ s => Inv s) inv_init fun hinv hmeets hstep => inv_step hinv hmeets hstep)

/-- The socket takes one of two bytes, and the other one is queued; the message of another thread is queued behind it, and the I/O thread
sends the first and begins with the second. -/
theorem sends_whole_three : ∃ log s, Machine.Run State.step Meets State.init log s ∧ s.socket = [1, 2, 3] ∧ s.accepted 1 = [[1, 2]] ∧
    s.accepted 2 = [[3, 4]] ∧ SendsWhole s := by
  have hcall : Machine.Run State.step Meets State.init [] (State.init.call 1 [1, 2]) :=
    .step (e := .call 1 [1, 2]) .start (fun h => absurd rfl h.1) rfl
  have hnobody : ∀ t, ¬Partial (State.init.call 1 [1, 2]) t := by
    rintro t ⟨rest, hrest⟩
    change (if t = 1 then _ else _) = _ at hrest
    split at hrest <;> cases hrest
  have hsend := Machine.Run.step (e := Event.send 1 (some 1)) hcall (fun _ => ⟨rfl, hnobody⟩) rfl
  have hpush := Machine.Run.step (e := Event.push 1) hsend (meets_push rfl) rfl
  have hqueue := Machine.Run.step (e := Event.call 2 [3, 4]) hpush (fun _ => ⟨by decide, by decide⟩) rfl
  have hfront := Machine.Run.step (e := Event.ioBegin) hqueue trivial rfl
  have hsent := Machine.Run.step (e := Event.ioSend (some 1)) hfront trivial rfl
  have hend := Machine.Run.step (e := Event.ioEnd) hsent trivial rfl
  have hsecond := Machine.Run.step (e := Event.ioBegin) hend trivial rfl
  have hpart := Machine.Run.step (e := Event.ioSend (some 1)) hsecond trivial rfl
  exact ⟨_, _, hpart, rfl, rfl, rfl, sends_whole hpart⟩

/-- Two threads find the queue empty; the socket takes one byte of the first message and then the second one whole. -/
def torn : List Event := [.call 1 [1, 2], .call 2 [3, 4], .send 1 (some 1), .send 2 (some 2)]

/-- The second message stands within the first one. -/
theorem not_sends_whole : ¬∀ log s, Machine.Run State.step (fun _ _ => True) State.init log s → SendsWhole s := by
  intro hall
  obtain ⟨s, hsteps, hsocket, haccepted⟩ : ∃ s, Machine.steps State.step State.init torn = some (s, []) ∧
      s.socket = [1, 3, 4] ∧ ∀ t, s.accepted t = if t = 1 then [[1, 2]] else if t = 2 then [[3, 4]] else [] := by
    refine ⟨_, rfl, rfl, fun t => ?_⟩
    by_cases h2 : t = 2
    · subst h2
      rfl
    · by_cases h1 : t = 1
      · subst h1
        rfl
      · simp [State.accept, State.call, State.setCaller, State.init, h1, h2]
  obtain ⟨-, order, rest, horder, -, hstream⟩ := hall _ s (Machine.Run.of_steps (fun _ _ => trivial) .start hsteps)
  rw [hsocket] at hstream
  cases order with
  | nil => cases hstream
  | cons sent order =>
    -- the message that is first starts with one of the two
    have hmem := mem_accepted horder List.mem_cons_self
    rw [haccepted] at hmem
    rw [List.flatMap_cons] at hstream
    split at hmem
    · rw [List.mem_singleton.1 hmem] at hstream
      cases hstream
    · split at hmem
      · rw [List.mem_singleton.1 hmem] at hstream
        cases hstream
      · cases hmem

end TeamTalk.PushServer.Sending
