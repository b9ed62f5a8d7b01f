import TeamTalk.Lib.FirstMin
import TeamTalk.LoginServer.HttpConn

/-!
# Both entries choose one server

The loops of `CLoginConn` and `CHttpConn` are the same search: the first entry with the fewest users among those that are not full.
The bound that the search begins with excludes no entry, as an entry with that many users is full.
-/

namespace TeamTalk.LoginServer

open Std (TreeMap)

/-! ## The property -/

/-- The msg_server is registered, and not full. -/
def State.Available (s : State) (h : Handle) (info : MsgServInfo) : Prop :=
  s.msgServInfo[h]? = some info ∧ info.curConnCnt < info.maxConnCnt

/-- The msg_server is available, and none that is has fewer users. -/
def State.Best (s : State) (h : Handle) (info : MsgServInfo) : Prop :=
  s.Available h info ∧ ∀ h' info', s.Available h' info' → info.curConnCnt ≤ info'.curConnCnt

namespace BestServerAux

open State FirstMin

variable {s : State}

/-! ## The loops -/

/-- The entry is not full. -/
def NotFull (it : Handle × MsgServInfo) : Prop := it.2.curConnCnt < it.2.maxConnCnt

instance : DecidablePred NotFull := fun it => inferInstanceAs (Decidable (it.2.curConnCnt < it.2.maxConnCnt))

/-- The users of an entry. -/
def users (it : Handle × MsgServInfo) : UInt32 := it.2.curConnCnt

/-- The loop of `CHttpConn` is the search. -/
theorem itMinConn_eq (table : List (Handle × MsgServInfo)) :
    (itMinConn table).1 = firstMin NotFull users (0 - 1) table := rfl

/-- The loop of `CLoginConn` goes over the values, with the same result. -/
theorem minConn_eq (table : List (Handle × MsgServInfo)) :
    minConn (table.map Prod.snd) = (firstMin NotFull users (0 - 1) table).map Prod.snd := by
  have hfold : ∀ best : Option (Handle × MsgServInfo) × UInt32,
      (table.map Prod.snd).foldl (fun (best : Option MsgServInfo × UInt32) info =>
        if info.curConnCnt < info.maxConnCnt ∧ info.curConnCnt < best.2 then (some info, info.curConnCnt) else best)
          (best.1.map Prod.snd, best.2) =
        ((table.foldl (turn NotFull users) best).1.map Prod.snd, (table.foldl (turn NotFull users) best).2) := by
    induction table with
    | nil =>
      intro best
      rfl
    | cons it rest ih =>
      intro best
      rw [List.map_cons, List.foldl_cons, List.foldl_cons, ← ih]
      by_cases hbetter : NotFull it ∧ users it < best.2
      · rw [turn, if_pos hbetter, if_pos (show it.2.curConnCnt < it.2.maxConnCnt ∧ it.2.curConnCnt < best.2 from hbetter)]
        rfl
      · rw [turn, if_neg hbetter, if_neg (show ¬(it.2.curConnCnt < it.2.maxConnCnt ∧ it.2.curConnCnt < best.2) from hbetter)]
  exact congrArg Prod.fst (hfold (none, 0 - 1))

/-! ## The table -/

theorem values_eq (table : TreeMap Handle MsgServInfo) : table.values = table.toList.map Prod.snd := by
  unfold TreeMap.values TreeMap.toList Std.DTreeMap.values Std.DTreeMap.Const.toList
  rw [Std.DTreeMap.Internal.Impl.values_eq_map_snd, Std.DTreeMap.Internal.Impl.Const.toList_eq_toListModel_map]
  simp [Function.comp_def]

theorem mem_toList {it : Handle × MsgServInfo} : it ∈ s.msgServInfo.toList ↔ s.msgServInfo[it.1]? = some it.2 :=
  TreeMap.mem_toList_iff_getElem?_eq_some

theorem available_iff (it : Handle × MsgServInfo) : s.Available it.1 it.2 ↔ it ∈ s.msgServInfo.toList ∧ NotFull it :=
  and_congr_left' mem_toList.symm

/-- Nobody is registered in an empty table. -/
theorem not_available (h : s.msgServInfo.size = 0) (hd : Handle) (info : MsgServInfo) : ¬s.Available hd info := by
  intro havailable
  have hmem := ((available_iff (hd, info)).1 havailable).1
  rw [List.eq_nil_of_length_eq_zero (TreeMap.length_toList.trans h)] at hmem
  cases hmem

/-- Whoever is not full has fewer users than the bound. -/
theorem users_lt_bound {it : Handle × MsgServInfo} (h : NotFull it) : (users it).toNat < (0 - 1 : UInt32).toNat := by
  have hlt := UInt32.lt_iff_toNat_lt.1 h
  have hmax := it.2.maxConnCnt.toNat_lt
  have hbound : (0 - 1 : UInt32).toNat = 4294967295 := by decide
  rw [hbound, users]
  omega

/-- The search finds nothing when nobody is available, and else the best. -/
theorem search_cases (s : State) :
    (firstMin NotFull users (0 - 1) s.msgServInfo.toList = none ∧ ¬∃ h info, s.Available h info) ∨
      ∃ it, firstMin NotFull users (0 - 1) s.msgServInfo.toList = some it ∧ s.Best it.1 it.2 := by
  rcases firstMin_cases (fun _ _ => UInt32.lt_iff_toNat_lt) NotFull users (0 - 1) s.msgServInfo.toList with
    ⟨hnone, hall⟩ | ⟨it, hsome, hfirst⟩
  · refine .inl ⟨hnone, ?_⟩
    rintro ⟨h, info, havailable⟩
    obtain ⟨hmem, hnotFull⟩ := (available_iff (h, info)).1 havailable
    exact absurd (hall _ hmem hnotFull) (not_le_of_gt (users_lt_bound hnotFull))
  · refine .inr ⟨it, hsome, (available_iff it).2 ⟨hfirst.mem, hfirst.qualifies⟩, ?_⟩
    intro h' info' havailable
    obtain ⟨hmem, hnotFull⟩ := (available_iff (h', info')).1 havailable
    exact UInt32.le_iff_toNat_le.2 (hfirst.le _ hmem hnotFull)

theorem msgServRsp_eq (hsize : s.msgServInfo.size ≠ 0) : s.msgServRsp =
    (firstMin NotFull users (0 - 1) s.msgServInfo.toList).elim ⟨refuseReasonMsgServerFull, none, none, none⟩ fun it =>
      ⟨refuseReasonNone, some it.2.ipAddr1, some it.2.ipAddr2, some it.2.port⟩ := by
  rw [msgServRsp, if_neg hsize, values_eq, minConn_eq]
  cases firstMin NotFull users (0 - 1) s.msgServInfo.toList <;> rfl

theorem httpMsgServRsp_eq (cfg : HttpConfig) (peerIp : String) (hsize : s.msgServInfo.size ≠ 0) : s.httpMsgServRsp cfg peerIp =
    (firstMin NotFull users (0 - 1) s.msgServInfo.toList).elim ⟨2, "负载过高", none⟩ fun it =>
      ⟨0, "", some (httpServer cfg peerIp it.2)⟩ := by
  rw [httpMsgServRsp, if_neg hsize, itMinConn_eq]
  cases firstMin NotFull users (0 - 1) s.msgServInfo.toList <;> rfl

end BestServerAux

open BestServerAux

end TeamTalk.LoginServer
