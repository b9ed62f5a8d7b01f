import TeamTalk.HttpMsgServer.HttpConn

/-!
# HTTP responses are sent whole

`Send` closes the connection itself when the socket has taken everything, at once or later. A caller that closes it too, or a write to
it after that, uses a connection that has been freed, or drops what is still to be sent.
-/

namespace TeamTalk.HttpMsgServer

namespace HttpConn

/-! ## The property -/

/-- No member is used after the connection has been freed, and what was handed to `Send` has been written when the server closes. -/
def SentWhole (c : HttpConn) : Prop := c.usedAfterFree = false ∧ (c.closedBy = some .server → c.socket = c.handed)

/-! ## The condition -/

/-- The condition on a step: no caller closes the connection after a `Send`, or while something is still to be sent; and in
login_server, no write event takes all that is left. -/
def Meets (server : Server) (c : HttpConn) : Event → Prop
  | .read _ .closes => c.outBuf = []
  | .read _ (.sendsAndCloses _ _) => False
  | .reply _ _ => False
  | .write taken => server = .login → c.busy = true → taken < c.outBuf.length
  | _ => True

namespace HttpSendsAux

variable {server : Server} {c c' : HttpConn} {e : Event} {out : List Unit} {taken : Nat}

/-! ## The invariant -/

/-- While the connection is open, what was handed to `Send` has been written or is in the buffer, which is empty unless the connection
is busy. -/
structure Inv (c : HttpConn) : Prop where
  fresh : c.usedAfterFree = false
  stream : c.closedBy = none → c.socket ++ c.outBuf = c.handed
  busy : c.closedBy = none → (c.busy = true ↔ c.outBuf ≠ [])

theorem inv_init (tick : Nat) : Inv (init tick) := by
  refine ⟨rfl, fun _ => rfl, fun _ => ?_⟩
  simp [init]

theorem inv_close {closer : Closer} (h : Inv c) (hopen : c.closedBy = none) : Inv (c.close closer) := by
  unfold close
  rw [hopen]
  refine ⟨h.fresh, fun hnone => ?_, fun hnone => ?_⟩ <;> cases hnone

theorem sentWhole_close_iff {closer : Closer} (h : Inv c) (hopen : c.closedBy = none) :
    SentWhole (c.close closer) ↔ (closer = .server → c.outBuf = []) := by
  have hstream := h.stream hopen
  unfold close SentWhole
  rw [hopen]
  simp only [h.fresh, true_and, Option.some.injEq]
  refine imp_congr_right fun _ => ?_
  rw [← hstream]
  exact ⟨fun heq => List.self_eq_append_right.1 heq, fun hnil => by rw [hnil, List.append_nil]⟩

/-- While it is open, a connection has not closed before everything was written. -/
theorem sentWhole_open (h : Inv c) (hopen : c.closedBy = none) : SentWhole c := by
  refine ⟨h.fresh, fun hclosed => ?_⟩
  rw [hopen] at hclosed
  cases hclosed

theorem close_again (hclosed : c.closedBy ≠ none) (closer : Closer) : (c.close closer).usedAfterFree = true := by
  unfold close
  split
  next hnone => exact absurd hnone hclosed
  next => rfl

/-! ## `Send` -/

/-- `Send` keeps the invariant; it leaves something in the buffer, or it has closed the connection with everything written. -/
theorem send_cases (h : Inv c) (hopen : c.closedBy = none) (data : Bytes) (taken : Nat) : Inv (c.send data taken) ∧
    (((c.send data taken).closedBy = none ∧ (c.send data taken).outBuf ≠ []) ∨
      ((c.send data taken).closedBy = some .server ∧ SentWhole (c.send data taken))) := by
  have hstream := h.stream hopen
  unfold send
  split
  next hbusy =>
    have hne := (h.busy hopen).1 hbusy
    refine ⟨⟨h.fresh, fun _ => ?_, fun _ => ?_⟩, .inl ⟨hopen, ?_⟩⟩
    · simp [← hstream]
    · simp [hbusy, hne]
    · simp [hne]
  next hidle =>
    have hnil : c.outBuf = [] := by
      by_contra hne
      exact hidle ((h.busy hopen).2 hne)
    rw [hnil, List.append_nil] at hstream
    split
    next hpart =>
      have hne : c.outBuf ++ data.drop taken ≠ [] := by
        intro heq
        have := congrArg List.length heq
        rw [hnil, List.nil_append, List.length_drop, List.length_nil] at this
        omega
      refine ⟨⟨h.fresh, fun _ => ?_, fun _ => ?_⟩, .inl ⟨hopen, hne⟩⟩
      · simp [hnil, ← hstream]
      · simp only [true_iff]
        exact hne
    next =>
      have hinv : Inv { c with handed := c.handed ++ data, socket := c.socket ++ data } := by
        refine ⟨h.fresh, fun _ => ?_, h.busy⟩
        simp [hnil, ← hstream]
      refine ⟨inv_close hinv hopen, .inr ⟨?_, (sentWhole_close_iff hinv hopen).2 fun _ => hnil⟩⟩
      simp only [close, hopen]

/-- A caller that closes the connection after `Send` drops what is in the buffer, or uses a connection that has been freed. -/
theorem not_sentWhole_send_close (h : Inv c) (hopen : c.closedBy = none) (data : Bytes) (taken : Nat) :
    ¬SentWhole ((c.send data taken).close .server) := by
  obtain ⟨hinv, ⟨hstill, hne⟩ | ⟨hclosed, -⟩⟩ := send_cases h hopen data taken
  · rw [sentWhole_close_iff hinv hstill]
    exact fun hnil => hne (hnil rfl)
  · intro hwhole
    have hagain := close_again (c := c.send data taken) (by rw [hclosed]; exact Option.some_ne_none _) .server
    rw [hwhole.1] at hagain
    cases hagain

/-! ## `OnWrite` -/

theorem onWrite_cases (h : Inv c) (hopen : c.closedBy = none) :
    (SentWhole (c.onWrite server taken) ↔ (server = .login → c.busy = true → taken < c.outBuf.length)) ∧
      (SentWhole (c.onWrite server taken) → Inv (c.onWrite server taken)) := by
  have hstream := h.stream hopen
  unfold onWrite
  split
  next hbusy =>
    dsimp only
    split
    next hpart =>
      have hinv : Inv { c with socket := c.socket ++ c.outBuf.take taken, outBuf := c.outBuf.drop taken } := by
        have hne : c.outBuf.drop taken ≠ [] := by
          intro heq
          have := congrArg List.length heq
          rw [List.length_drop, List.length_nil] at this
          omega
        refine ⟨h.fresh, fun _ => ?_, fun _ => ?_⟩
        · rw [List.append_assoc, List.take_append_drop]
          exact hstream
        · simp only [hbusy, true_iff]
          exact hne
      exact ⟨iff_of_true (sentWhole_open hinv hopen) fun _ _ => hpart, fun _ => hinv⟩
    next hall =>
      have hwritten : c.outBuf.take taken = c.outBuf := List.take_of_length_le (Nat.le_of_not_lt hall)
      have hnil : c.outBuf.drop taken = [] := List.drop_eq_nil_of_le (Nat.le_of_not_lt hall)
      cases server with
      | httpMsg =>
        have hinv : Inv { c with socket := c.socket ++ c.outBuf.take taken, outBuf := c.outBuf.drop taken, busy := false } := by
          refine ⟨h.fresh, fun _ => ?_, fun _ => ?_⟩
          · rw [hwritten, hnil, List.append_nil]
            exact hstream
          · simp [hnil]
        refine ⟨iff_of_true ?_ fun hlogin => ?_, fun _ => inv_close hinv hopen⟩
        · exact (sentWhole_close_iff hinv hopen).2 fun _ => hnil
        · cases hlogin
      | login =>
        have hnot : ∀ c'' : HttpConn, ¬SentWhole { c'' with busy := false, usedAfterFree := true } := fun c'' hwhole => by
          cases hwhole.1
        exact ⟨iff_of_false (hnot _) fun hmeets => hall (hmeets rfl hbusy), fun hwhole => absurd hwhole (hnot _)⟩
  next hidle =>
    exact ⟨iff_of_true (sentWhole_open h hopen) fun _ hbusy => absurd hbusy hidle, fun _ => h⟩

/-! ## Steps -/

/-- A step does what it should if and only if it meets the condition, and then it keeps the invariant. -/
theorem step_iff (h : Inv c) (hstep : c.step server e = some (c', out)) :
    (SentWhole c' ↔ Meets server c e) ∧ (SentWhole c' → Inv c') := by
  unfold step at hstep
  split at hstep
  next hopen =>
    cases e with
    | read tick outcome =>
      dsimp only at hstep
      split at hstep
      · cases hstep
        have hinv : Inv { c with lastRecvTick := tick } := ⟨h.fresh, h.stream, h.busy⟩
        cases outcome with
        | waits => exact ⟨iff_of_true (sentWhole_open hinv hopen) trivial, fun _ => hinv⟩
        | closes =>
          refine ⟨?_, fun _ => inv_close hinv hopen⟩
          change SentWhole (close _ .server) ↔ _
          rw [sentWhole_close_iff hinv hopen]
          exact ⟨fun hnil => hnil rfl, fun hnil _ => hnil⟩
        | sends data taken =>
          obtain ⟨hkept, hcases⟩ := send_cases hinv hopen data taken
          refine ⟨iff_of_true ?_ trivial, fun _ => hkept⟩
          rcases hcases with ⟨hstill, -⟩ | ⟨-, hwhole⟩
          · exact sentWhole_open hkept hstill
          · exact hwhole
        | sendsAndCloses data taken =>
          have hnot := not_sentWhole_send_close hinv hopen data taken
          exact ⟨iff_of_false hnot id, fun hwhole => absurd hwhole hnot⟩
      · cases hstep
    | reply data taken =>
      dsimp only at hstep
      split at hstep
      · cases hstep
        have hnot := not_sentWhole_send_close h hopen data taken
        exact ⟨iff_of_false hnot id, fun hwhole => absurd hwhole hnot⟩
      · cases hstep
    | write taken =>
      dsimp only at hstep
      split at hstep
      · cases hstep
        exact onWrite_cases h hopen
      · cases hstep
    | peerClose =>
      cases hstep
      refine ⟨iff_of_true ((sentWhole_close_iff h hopen).2 fun hserver => ?_) trivial, fun _ => inv_close h hopen⟩
      cases hserver
    | timer tick =>
      dsimp only at hstep
      cases hstep
      split
      · refine ⟨iff_of_true ((sentWhole_close_iff h hopen).2 fun hserver => ?_) trivial, fun _ => inv_close h hopen⟩
        cases hserver
      · exact ⟨iff_of_true (sentWhole_open h hopen) trivial, fun _ => h⟩
  · cases hstep

end HttpSendsAux

open HttpSendsAux

/-- Along every list of events, what is handed to `Send` is written before the server closes and nothing is used after it has been
freed, in every state, if and only if every step meets the condition. -/
theorem sentWhole_along_iff (server : Server) (tick : Nat) (es : List Event) :
    Machine.Along (step server) (fun _ _ c => SentWhole c) (init tick) es ↔
      Machine.Along (step server) (fun c e _ => Meets server c e) (init tick) es := by
  refine Machine.along_iff (I := Inv) ?_ ?_ (inv_init tick)
  · exact fun hinv hstep => (step_iff hinv hstep).1
  · exact fun hinv hstep hmeets => (step_iff hinv hstep).2 ((step_iff hinv hstep).1.2 hmeets)

/-- The DB proxy answers, the socket takes the response at once, and the handler closes the connection again. -/
theorem not_sentWhole_along : ¬∀ (server : Server) (tick : Nat) (es : List Event),
    Machine.Along (step server) (fun _ _ c => SentWhole c) (init tick) es := by
  intro hall
  have hlast := (hall .httpMsg 0 [.read 0 .waits, .reply [1] 1]).2.1
  cases hlast.1

end HttpConn

end TeamTalk.HttpMsgServer
