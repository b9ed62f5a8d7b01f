import Mathlib
import TeamTalk.LoginServer.LoginConn
import TeamTalk.Base.UtilPdu
import TeamTalk.Lib.Machine
import TeamTalk.Lib.Totals

/-!
# The loads of the msg_servers

login_server adds up how many users the msg_servers have. The total is the sum of the entries as long as nobody who has an
entry reports again how many users he has, and nobody takes back more than his entry holds.
-/

namespace TeamTalk.LoginServer

open Std (TreeMap)

/-- The users of a msg_server, as a number. -/
def MsgServInfo.load (info : MsgServInfo) : Nat := info.curConnCnt.toNat

/-- The total is the sum over the entries. -/
def State.TotalIsSum (s : State) : Prop := s.totalOnlineUserCnt.toNat = Totals.total MsgServInfo.load s.msgServInfo

instance (s : State) : Decidable s.TotalIsSum := inferInstanceAs (Decidable (_ = _))

/-- Closing takes more from the total than there is. -/
def State.CloseWraps (s : State) (h : Handle) : Prop :=
  ∃ info, s.msgServInfo[h]? = some info ∧ s.totalOnlineUserCnt.toNat < info.load

/-- The event takes more from the total, or from an entry, than there is. -/
def Wraps (l : Loop) : Event → Prop
  | .close h => l.server.CloseWraps h
  | .handlePdu .reqMsgServer => ∃ h, l.reading = some h ∧ l.server.CloseWraps h
  | .handlePdu (.userCntUpdate action) => ∃ h info, l.reading = some h ∧ l.server.msgServInfo[h]? = some info ∧
      action.toNat ≠ userCntInc ∧ (info.curConnCnt = 0 ∨ l.server.totalOnlineUserCnt = 0)
  | _ => False

/-- The condition on an event. Who has an entry reports no users; what is reported anew fits in the total, and so does one user
more (or the total and the entry pass the end of `uint32_t` together); a user is taken only from an entry that has one. -/
def LoadsMeet (l : Loop) : Event → Prop
  | .handlePdu (.msgServInfo msg) => ∀ h, l.reading = some h →
      if h ∈ l.server.msgServInfo then msg.curConnCnt = 0
      else l.server.totalOnlineUserCnt.toNat + msg.curConnCnt.toNat < uint32Size
  | .handlePdu (.userCntUpdate action) => ∀ h info, l.reading = some h → l.server.msgServInfo[h]? = some info →
      if action.toNat = userCntInc then
        l.server.totalOnlineUserCnt.toNat + 1 < uint32Size ∨ info.curConnCnt.toNat + 1 = uint32Size
      else 0 < info.curConnCnt.toNat
  | _ => True

/-- After every event the total is the sum of the entries, and nothing has wrapped below zero. -/
def LoadsKept (es : List Event) : Prop :=
  Machine.Along step (fun l e l' => l'.server.TotalIsSum ∧ ¬Wraps l e) init es

namespace LoadsAux

variable {s : State} {h : Handle}

theorem part_some {info : MsgServInfo} (hi : s.msgServInfo[h]? = some info) :
    Totals.part MsgServInfo.load s.msgServInfo h = info.load := by
  simp [Totals.part, hi]

theorem load_le {info : MsgServInfo} (hsum : s.TotalIsSum) (hi : s.msgServInfo[h]? = some info) :
    info.load ≤ s.totalOnlineUserCnt.toNat := by
  rw [hsum, ← part_some hi]
  exact Totals.part_le _ _ _

/-- Nothing is taken that is not there. -/
theorem not_closeWraps (hsum : s.TotalIsSum) : ¬s.CloseWraps h := by
  rintro ⟨info, hi, hlt⟩
  have hle := load_le hsum hi
  omega

/-- A closed connection takes its users along. -/
theorem totalIsSum_close (hsum : s.TotalIsSum) : (s.close h).TotalIsSum := by
  rw [State.close]
  cases hi : s.msgServInfo[h]? with
  | none =>
    exact hsum
  | some info =>
    have hle := load_le hsum hi
    have heq := Totals.total_eq MsgServInfo.load s.msgServInfo h
    rw [part_some hi, ← hsum] at heq
    have hlt := s.totalOnlineUserCnt.toNat_lt
    simp only [State.TotalIsSum, UInt32.toNat_sub]
    simp only [MsgServInfo.load] at hle heq ⊢
    omega

/-- What a report does to the total and to the sum. -/
theorem totalIsSum_msgServInfo (hsum : s.TotalIsSum) (msg : IMMsgServInfo) : (s.handleMsgServInfo h msg).TotalIsSum ↔
    if h ∈ s.msgServInfo then msg.curConnCnt = 0 else s.totalOnlineUserCnt.toNat + msg.curConnCnt.toNat < uint32Size := by
  have hlt := s.totalOnlineUserCnt.toNat_lt
  have hcnt := msg.curConnCnt.toNat_lt
  simp only [State.TotalIsSum, State.handleMsgServInfo, UInt32.toNat_add]
  rw [State.TotalIsSum] at hsum
  set info : MsgServInfo := ⟨msg.ip1, msg.ip2, msg.port.toUInt16, msg.maxConnCnt, msg.curConnCnt, msg.hostName⟩ with hinfo
  have hchange := Totals.total_change MsgServInfo.load s.msgServInfo (s.msgServInfo.insertIfNew h info) h
    fun k hk => by
      rw [TreeMap.getElem?_insertIfNew, if_neg]
      simp [Ne.symm hk]
  by_cases hmem : h ∈ s.msgServInfo
  · -- the entry stays
    have hpart : Totals.part MsgServInfo.load (s.msgServInfo.insertIfNew h info) h =
        Totals.part MsgServInfo.load s.msgServInfo h := by
      rw [Totals.part, Totals.part, TreeMap.getElem?_insertIfNew, if_neg fun hn => hn.2 hmem]
    rw [if_pos hmem, ← UInt32.toNat_inj]
    simp only [UInt32.toNat_zero]
    omega
  · have hnone : s.msgServInfo[h]? = none := TreeMap.getElem?_eq_none hmem
    have hpart : Totals.part MsgServInfo.load (s.msgServInfo.insertIfNew h info) h = msg.curConnCnt.toNat := by
      rw [Totals.part, TreeMap.getElem?_insertIfNew, if_pos ⟨Std.ReflOrd.compare_self, hmem⟩]
      rfl
    have hzero : Totals.part MsgServInfo.load s.msgServInfo h = 0 := by simp [Totals.part, hnone]
    rw [if_neg hmem]
    simp only [uint32Size]
    omega

/-- What a changed entry does to the sum. -/
theorem total_set {info : MsgServInfo} (hi : s.msgServInfo[h]? = some info) (cnt : UInt32) :
    Totals.total MsgServInfo.load (s.msgServInfo.insert h { info with curConnCnt := cnt }) + info.curConnCnt.toNat =
      Totals.total MsgServInfo.load s.msgServInfo + cnt.toNat := by
  have hins := Totals.total_insert MsgServInfo.load s.msgServInfo h { info with curConnCnt := cnt }
  rwa [part_some hi] at hins

/-- One user more. -/
theorem totalIsSum_inc {info : MsgServInfo} (hsum : s.TotalIsSum) (hi : s.msgServInfo[h]? = some info) {action : UInt32}
    (hinc : action.toNat = userCntInc) : (s.handleUserCntUpdate h action).TotalIsSum ↔
      s.totalOnlineUserCnt.toNat + 1 < uint32Size ∨ info.curConnCnt.toNat + 1 = uint32Size := by
  have hle := load_le hsum hi
  have hset := total_set hi (info.curConnCnt + 1)
  have hlt := s.totalOnlineUserCnt.toNat_lt
  rw [State.TotalIsSum] at hsum
  simp only [State.handleUserCntUpdate, hi, if_pos hinc, State.TotalIsSum]
  simp only [UInt32.toNat_add, UInt32.toNat_one, MsgServInfo.load, uint32Size] at *
  omega

/-- One user less. -/
theorem totalIsSum_dec {info : MsgServInfo} (hsum : s.TotalIsSum) (hi : s.msgServInfo[h]? = some info) {action : UInt32}
    (hdec : action.toNat ≠ userCntInc) (hpos : 0 < info.curConnCnt.toNat) :
    (s.handleUserCntUpdate h action).TotalIsSum := by
  have hle := load_le hsum hi
  have hset := total_set hi (info.curConnCnt - 1)
  have hlt := s.totalOnlineUserCnt.toNat_lt
  rw [State.TotalIsSum] at hsum
  simp only [State.handleUserCntUpdate, hi, if_neg hdec, State.TotalIsSum]
  simp only [UInt32.toNat_sub, UInt32.toNat_one, MsgServInfo.load] at *
  omega

theorem wraps_userCnt {l : Loop} {info : MsgServInfo} (hread : l.reading = some h)
    (hi : l.server.msgServInfo[h]? = some info) (action : UInt32) : Wraps l (.handlePdu (.userCntUpdate action)) ↔
      action.toNat ≠ userCntInc ∧ (info.curConnCnt = 0 ∨ l.server.totalOnlineUserCnt = 0) := by
  constructor
  · rintro ⟨h', info', hread', hi', hwraps⟩
    obtain rfl := Option.some.inj (hread.symm.trans hread')
    obtain rfl := Option.some.inj (hi.symm.trans hi')
    exact hwraps
  · intro hwraps
    exact ⟨h, info, hread, hi, hwraps⟩

theorem loadsMeet_userCnt {l : Loop} {info : MsgServInfo} (hread : l.reading = some h)
    (hi : l.server.msgServInfo[h]? = some info) (action : UInt32) : LoadsMeet l (.handlePdu (.userCntUpdate action)) ↔
      if action.toNat = userCntInc then
        l.server.totalOnlineUserCnt.toNat + 1 < uint32Size ∨ info.curConnCnt.toNat + 1 = uint32Size
      else 0 < info.curConnCnt.toNat := by
  constructor
  · intro hmeets
    exact hmeets h info hread hi
  · intro hmeets h' info' hread' hi'
    obtain rfl := Option.some.inj (hread.symm.trans hread')
    obtain rfl := Option.some.inj (hi.symm.trans hi')
    exact hmeets

/-- After an event the total is the sum, and nothing has wrapped, exactly when the event meets the condition. -/
theorem loads_step {l l' : Loop} {e : Event} {out : List IMMsgServRsp} (hsum : l.server.TotalIsSum)
    (hstep : step l e = some (l', out)) : (l'.server.TotalIsSum ∧ ¬Wraps l e) ↔ LoadsMeet l e := by
  cases e with
  | connect h =>
    simp only [step] at hstep
    split at hstep
    · obtain ⟨rfl, -⟩ := Prod.mk.inj (Option.some.inj hstep)
      exact ⟨fun _ => trivial, fun _ => ⟨hsum, id⟩⟩
    · cases hstep
  | read h =>
    simp only [step] at hstep
    split at hstep
    · obtain ⟨rfl, -⟩ := Prod.mk.inj (Option.some.inj hstep)
      exact ⟨fun _ => trivial, fun _ => ⟨hsum, id⟩⟩
    · cases hstep
  | readEnd =>
    simp only [step] at hstep
    split at hstep
    · cases hstep
    · obtain ⟨rfl, -⟩ := Prod.mk.inj (Option.some.inj hstep)
      exact ⟨fun _ => trivial, fun _ => ⟨hsum, id⟩⟩
  | close h =>
    simp only [step] at hstep
    split at hstep
    · obtain ⟨rfl, -⟩ := Prod.mk.inj (Option.some.inj hstep)
      exact ⟨fun _ => trivial, fun _ => ⟨totalIsSum_close hsum, not_closeWraps hsum⟩⟩
    · cases hstep
  | handlePdu pdu =>
    simp only [step] at hstep
    cases hread : l.reading with
    | none =>
      rw [hread] at hstep
      cases hstep
    | some h =>
      rw [hread] at hstep
      obtain ⟨rfl, -⟩ := Prod.mk.inj (Option.some.inj hstep)
      cases pdu with
      | heartbeat => exact ⟨fun _ => trivial, fun _ => ⟨hsum, id⟩⟩
      | other => exact ⟨fun _ => trivial, fun _ => ⟨hsum, id⟩⟩
      | reqMsgServer =>
        refine ⟨fun _ => trivial, fun _ => ⟨totalIsSum_close hsum, ?_⟩⟩
        rintro ⟨h', -, hwraps⟩
        exact not_closeWraps hsum hwraps
      | msgServInfo msg =>
        simp only [Wraps, not_false_eq_true, and_true, LoadsMeet, hread, Option.some.injEq, forall_eq']
        exact totalIsSum_msgServInfo hsum msg
      | userCntUpdate action =>
        cases hi : l.server.msgServInfo[h]? with
        | none =>
          have hkeep : (l.server.handlePdu h (.userCntUpdate action)).1 = l.server := by
            simp only [State.handlePdu, State.handleUserCntUpdate, hi]
          rw [hkeep]
          refine ⟨fun _ h' info hread' hi' => ?_, fun _ => ⟨hsum, ?_⟩⟩
          · obtain rfl := Option.some.inj (hread.symm.trans hread')
            rw [hi] at hi'
            cases hi'
          · rintro ⟨h', info, hread', hi', -⟩
            obtain rfl := Option.some.inj (hread.symm.trans hread')
            rw [hi] at hi'
            cases hi'
        | some info =>
          rw [loadsMeet_userCnt hread hi, wraps_userCnt hread hi]
          by_cases hinc : action.toNat = userCntInc
          · rw [if_pos hinc, ← totalIsSum_inc hsum hi hinc]
            exact ⟨And.left, fun hsum' => ⟨hsum', fun hwraps => hwraps.1 hinc⟩⟩
          · rw [if_neg hinc]
            have hle := load_le hsum hi
            rw [MsgServInfo.load] at hle
            rw [← UInt32.toNat_inj, ← UInt32.toNat_inj, UInt32.toNat_zero]
            constructor
            · rintro ⟨-, hwraps⟩
              by_contra hpos
              exact hwraps ⟨hinc, .inl (by omega)⟩
            · intro hpos
              exact ⟨totalIsSum_dec hsum hi hinc hpos, by omega⟩

theorem totalIsSum_init : init.server.TotalIsSum := (Totals.total_empty MsgServInfo.load).symm

end LoadsAux

open LoadsAux

/-- The total is the sum of the entries along a list of events, and nothing wraps below zero, exactly when all events meet the
condition. -/
theorem loads_kept_iff (es : List Event) : LoadsKept es ↔ Machine.Along step (fun l e _ => LoadsMeet l e) init es := by
  refine Machine.along_iff (I := fun l => l.server.TotalIsSum) ?_ ?_ totalIsSum_init
  · intro l e l' out hsum hstep
    exact loads_step hsum hstep
  · intro l e l' out hsum hstep hmeets
    exact ((loads_step hsum hstep).2 hmeets).1

/-- A msg_server that reports its 5 users twice is counted twice. -/
theorem loads_not_kept : ¬∀ es, LoadsKept es := by
  intro hall
  let msg : IMMsgServInfo := ⟨"10.0.0.1", "10.0.0.1", 8000, 100, 5, "a"⟩
  obtain ⟨-, -, -, ⟨hsum, -⟩, -⟩ := hall [.connect 1, .read 1, .handlePdu (.msgServInfo msg), .handlePdu (.msgServInfo msg)]
  revert hsum
  decide

end TeamTalk.LoginServer
