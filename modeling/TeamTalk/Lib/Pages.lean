import Mathlib

/-!
# Pages

A list is read in pages of `k`. Each page holds the first `k` by some order of the elements that are left; those are left whose
key is below all keys read so far. Nothing is passed over exactly when the order agrees with the keys between pages.
-/

namespace Pages

variable {α : Type} (key : α → Nat) (r : α → α → Bool)

/-- The first `k`. -/
def page (k : Nat) (L : List α) : List α := (L.mergeSort r).take k

/-- What is left below a key; zero stands for no bound. -/
def left (L : List α) (begin : Nat) : List α := L.filter fun a => begin = 0 ∨ key a ≤ begin

/-- Read on until a page is empty or the key 1 is reached; `none` when the fuel does not suffice. -/
def walk (k : Nat) (L : List α) : Nat → List α → Nat → Option (List α)
  | 0, _, _ => none
  | fuel + 1, received, begin =>
    let p := page r k (left key L begin)
    if p = [] then some received
    else
      match ((received ++ p).map key).min? with
      | none => some (received ++ p)
      | some m => if m ≤ 1 then some (received ++ p) else walk k L fuel (received ++ p) (m - 1)

/-- How many have a higher key. -/
def higher (L : List α) (a : α) : Nat := L.countP fun b => key a < key b

/-- Between pages of `k`, cut by falling keys, the order agrees with the keys. -/
def InOrder (k : Nat) (L : List α) : Prop := ∀ a ∈ L, ∀ b ∈ L, higher key L a / k < higher key L b / k → r a b = true

/-! ## One page -/

/-- What comes behind the page. -/
def behind (k : Nat) (L : List α) : List α := (L.mergeSort r).drop k

section Page

variable {key r} {k : Nat} {L : List α}

theorem page_append_perm (k : Nat) (L : List α) : (page r k L ++ behind r k L).Perm L := by
  rw [page, behind, List.take_append_drop]
  exact List.mergeSort_perm L r

theorem mem_page_or_behind {a : α} : a ∈ page r k L ∨ a ∈ behind r k L ↔ a ∈ L := by
  rw [← List.mem_append, (page_append_perm k L).mem_iff]

theorem mem_of_mem_page {a : α} (h : a ∈ page r k L) : a ∈ L := mem_page_or_behind.1 (.inl h)

/-- The keys of a page and behind it are different ones. -/
theorem nodup_append (h : (L.map key).Nodup) : ((page r k L).map key ++ (behind r k L).map key).Nodup := by
  rw [← List.map_append]
  exact ((page_append_perm k L).map key).nodup_iff.2 h

theorem page_eq_nil (hk : 0 < k) (h : page r k L = []) : L = [] := by
  rcases List.take_eq_nil_iff.1 h with hzero | hsort
  · omega
  · exact List.Perm.eq_nil (hsort ▸ (List.mergeSort_perm L r).symm)

/-- A page is full, or holds everything. -/
theorem length_page_eq (h : behind r k L ≠ []) : (page r k L).length = k := by
  rw [page, List.length_take]
  refine Nat.min_eq_left (Nat.le_of_not_lt fun hlt => h ?_)
  exact List.drop_eq_nil_of_le hlt.le

theorem length_page_le (k : Nat) (L : List α) : (page r k L).length ≤ k := List.length_take_le k _

theorem countP_eq (p : α → Bool) : L.countP p = (page r k L).countP p + (behind r k L).countP p := by
  rw [← List.countP_append]
  exact ((page_append_perm k L).countP_eq p).symm

/-- What is behind a page comes behind it in the order. -/
theorem le_behind (htrans : ∀ a b c, r a b = true → r b c = true → r a c = true)
    (htotal : ∀ a b, (r a b || r b a) = true) {a b : α} (ha : a ∈ page r k L) (hb : b ∈ behind r k L) : r a b = true := by
  have hsorted : (L.mergeSort r).Pairwise fun a b => r a b = true := List.pairwise_mergeSort htrans htotal L
  rw [← List.take_append_drop k (L.mergeSort r)] at hsorted
  exact (List.pairwise_append.1 hsorted).2.2 a ha b hb

/-- One of a list with different keys has the lowest: all others are higher. -/
theorem countP_lowest {l : List α} (h : (l.map key).Nodup) {q : α} (hq : q ∈ l) (hlow : ∀ a ∈ l, key q ≤ key a) :
    l.countP (fun b => key q < key b) + 1 = l.length := by
  induction l with
  | nil => cases hq
  | cons a l ih =>
    obtain ⟨hnot, hnodup⟩ := List.nodup_cons.1 h
    have hlow' : ∀ b ∈ l, key q ≤ key b := fun b hb => hlow b (List.mem_cons_of_mem a hb)
    rcases List.mem_cons.1 hq with rfl | hmem
    · have hall : l.countP (fun b => decide (key q < key b)) = l.length := by
        refine List.countP_eq_length.2 fun b hb => decide_eq_true ?_
        exact lt_of_le_of_ne (hlow' b hb) fun heq => hnot (heq ▸ List.mem_map_of_mem hb)
      rw [List.countP_cons_of_neg (by simp), hall, List.length_cons]
    · have hlt : key q < key a :=
        lt_of_le_of_ne (hlow a List.mem_cons_self) fun heq => hnot (heq ▸ List.mem_map_of_mem hmem)
      rw [List.countP_cons, if_pos (decide_eq_true hlt), List.length_cons, ih hnodup hmem hlow']

/-- One of a list is not higher than itself. -/
theorem countP_lt_length {l : List α} {a : α} (h : a ∈ l) : l.countP (fun b => key a < key b) < l.length := by
  refine lt_of_le_of_ne List.countP_le_length fun heq => ?_
  exact absurd (of_decide_eq_true (List.countP_eq_length.1 heq a h)) (lt_irrefl _)

/-- Where a page holds all from its lowest key on, what is left below that key is what is behind it. -/
theorem below_perm {m : Nat} (hlow : ∀ a ∈ page r k L, m ≤ key a) (hall : ∀ a ∈ L, m ≤ key a → a ∈ page r k L)
    (hnodup : (L.map key).Nodup) : (L.filter fun a => key a < m).Perm (behind r k L) := by
  have hdisjoint := List.disjoint_of_nodup_append (nodup_append (r := r) (k := k) hnodup)
  have hpage : (page r k L).filter (fun a => decide (key a < m)) = [] := by
    refine List.filter_eq_nil_iff.2 fun a ha => ?_
    simpa using hlow a ha
  have hbehind : (behind r k L).filter (fun a => decide (key a < m)) = behind r k L := by
    refine List.filter_eq_self.2 fun a ha => decide_eq_true (Nat.lt_of_not_le fun hle => ?_)
    have hmem := hall a (mem_page_or_behind.1 (.inr ha)) hle
    exact hdisjoint (List.mem_map_of_mem hmem) (List.mem_map_of_mem ha)
  have hperm := (page_append_perm (r := r) k L).filter fun a => decide (key a < m)
  rw [List.filter_append, hpage, hbehind, List.nil_append] at hperm
  exact hperm.symm

/-- Where the order agrees with the keys, a page holds all from its lowest key on: else the highest one behind it would belong
on the page, and the lowest on the page behind it. -/
theorem mem_page_of_inOrder (htrans : ∀ a b c, r a b = true → r b c = true → r a c = true)
    (htotal : ∀ a b, (r a b || r b a) = true)
    (hantisymm : ∀ a ∈ L, ∀ b ∈ L, r a b = true → r b a = true → a = b) (hnodup : (L.map key).Nodup) (hk : 0 < k)
    (h : InOrder key r k L) {q : α} (hq : q ∈ page r k L) (hlow : ∀ a ∈ page r k L, key q ≤ key a) {a : α} (ha : a ∈ L)
    (hle : key q ≤ key a) : a ∈ page r k L := by
  by_contra hnot
  have hdisjoint := List.disjoint_of_nodup_append (nodup_append (r := r) (k := k) hnodup)
  have hbehind : a ∈ behind r k L := (mem_page_or_behind.2 ha).resolve_left hnot
  have hfull : (page r k L).length = k := length_page_eq (List.ne_nil_of_mem hbehind)
  have hne : ∀ b ∈ behind r k L, key b ≠ key q := fun b hb heq =>
    hdisjoint (List.mem_map_of_mem hq) (heq ▸ List.mem_map_of_mem hb)
  -- the highest one behind the page
  have hsome : (behind r k L).argmax key ≠ none := fun hnone => List.ne_nil_of_mem hbehind (List.argmax_eq_none.1 hnone)
  obtain ⟨x, hx⟩ := Option.ne_none_iff_exists'.1 hsome
  have hxmem : x ∈ behind r k L := List.argmax_mem hx
  have hxmax : ∀ b ∈ behind r k L, key b ≤ key x := fun b hb => List.le_of_mem_argmax hb hx
  have hqx : key q < key x := lt_of_le_of_ne (hle.trans (hxmax a hbehind)) (Ne.symm (hne x hxmem))
  have hxL : x ∈ L := mem_page_or_behind.1 (.inr hxmem)
  have hqL : q ∈ L := mem_page_or_behind.1 (.inl hq)
  have hlowest := countP_lowest ((List.nodup_append.1 (nodup_append (r := r) (k := k) hnodup)).1) hq hlow
  have hx0 : higher key L x < k := by
    have hnone : (behind r k L).countP (fun b => key x < key b) = 0 := by
      refine List.countP_eq_zero.2 fun b hb => ?_
      simpa using hxmax b hb
    have hlt : (page r k L).countP (fun b => key x < key b) ≤ (page r k L).countP fun b => key q < key b := by
      refine List.countP_mono_left fun b _ hb => decide_eq_true ?_
      exact hqx.trans (of_decide_eq_true hb)
    rw [higher, countP_eq (r := r) (k := k), hnone]
    omega
  have hq1 : k ≤ higher key L q := by
    have hpos : 0 < (behind r k L).countP fun b => key q < key b :=
      List.countP_pos_iff.2 ⟨x, hxmem, decide_eq_true hqx⟩
    rw [higher, countP_eq (r := r) (k := k)]
    omega
  have hblocks : higher key L x / k < higher key L q / k := by
    rw [Nat.div_eq_of_lt hx0]
    exact Nat.div_pos hq1 hk
  have heq := hantisymm x hxL q hqL (h x hxL q hqL hblocks) (le_behind htrans htotal hq hxmem)
  exact absurd (congrArg key heq) hqx.ne'

/-- The page is one of the pages by falling keys exactly when it holds all from its lowest key on. -/
theorem inOrder_iff (htrans : ∀ a b c, r a b = true → r b c = true → r a c = true)
    (htotal : ∀ a b, (r a b || r b a) = true) (hantisymm : ∀ a ∈ L, ∀ b ∈ L, r a b = true → r b a = true → a = b)
    (hnodup : (L.map key).Nodup) (hk : 0 < k) {q : α} (hq : q ∈ page r k L) (hlow : ∀ a ∈ page r k L, key q ≤ key a) :
    InOrder key r k L ↔
      (∀ a ∈ L, key q ≤ key a → a ∈ page r k L) ∧ InOrder key r k (L.filter fun a => key a < key q) := by
  have hshift : (∀ a ∈ L, key q ≤ key a → a ∈ page r k L) → ∀ y ∈ behind r k L, key y < key q ∧
      higher key L y / k = higher key (L.filter fun a => key a < key q) y / k + 1 := by
    intro hall y hy
    have hperm := below_perm hlow hall hnodup
    have hlt : key y < key q := of_decide_eq_true (List.mem_filter.1 (hperm.mem_iff.2 hy)).2
    have hpage : (page r k L).countP (fun b => key y < key b) = k :=
      (List.countP_eq_length.2 fun b hb => decide_eq_true (hlt.trans_le (hlow b hb))).trans
        (length_page_eq (List.ne_nil_of_mem hy))
    refine ⟨hlt, ?_⟩
    rw [higher, countP_eq (r := r) (k := k), hpage, higher, hperm.countP_eq, Nat.add_comm, Nat.add_div_right _ hk]
  constructor
  · intro h
    have hall : ∀ a ∈ L, key q ≤ key a → a ∈ page r k L :=
      fun a ha => mem_page_of_inOrder htrans htotal hantisymm hnodup hk h hq hlow ha
    refine ⟨hall, fun a ha b hb hlt => ?_⟩
    have hperm := below_perm hlow hall hnodup
    refine h a (List.mem_filter.1 ha).1 b (List.mem_filter.1 hb).1 ?_
    rw [(hshift hall a (hperm.mem_iff.1 ha)).2, (hshift hall b (hperm.mem_iff.1 hb)).2]
    exact Nat.add_lt_add_right hlt 1
  · rintro ⟨hall, h⟩ a ha b hb hlt
    rcases mem_page_or_behind.2 hb with hbpage | hbbehind
    · -- the page is the first block
      have hnone : (behind r k L).countP (fun c => key b < key c) = 0 := by
        refine List.countP_eq_zero.2 fun c hc => ?_
        simpa using ((hshift hall c hc).1.trans_le (hlow b hbpage)).le
      have hsmall : higher key L b < k := by
        rw [higher, countP_eq (r := r) (k := k), hnone]
        exact (countP_lt_length hbpage).trans_le (length_page_le k L)
      rw [Nat.div_eq_of_lt hsmall] at hlt
      exact absurd hlt (Nat.not_lt_zero _)
    · rcases mem_page_or_behind.2 ha with hapage | habehind
      · exact le_behind htrans htotal hapage hbbehind
      · have hperm := below_perm hlow hall hnodup
        rw [(hshift hall a habehind).2, (hshift hall b hbbehind).2] at hlt
        exact h a (hperm.mem_iff.2 habehind) b (hperm.mem_iff.2 hbbehind) (Nat.lt_of_add_lt_add_right hlt)

/-- A page and what is read after it are everything exactly when the page holds all from its lowest key on, and the rest all
below. -/
theorem append_perm_iff (hnodup : (L.map key).Nodup) {q : α} (hlow : ∀ a ∈ page r k L, key q ≤ key a) {rest : List α}
    (hrest : ∀ a ∈ rest, key a < key q) :
    (page r k L ++ rest).Perm L ↔
      (∀ a ∈ L, key q ≤ key a → a ∈ page r k L) ∧ rest.Perm (L.filter fun a => key a < key q) := by
  constructor
  · intro h
    refine ⟨fun a ha hle => ?_, ?_⟩
    · rcases List.mem_append.1 (h.mem_iff.2 ha) with hpage | hmem
      · exact hpage
      · exact absurd hle (Nat.not_le_of_lt (hrest a hmem))
    · have hpage : (page r k L).filter (fun a => decide (key a < key q)) = [] := by
        refine List.filter_eq_nil_iff.2 fun a ha => ?_
        simpa using hlow a ha
      have hself : rest.filter (fun a => decide (key a < key q)) = rest :=
        List.filter_eq_self.2 fun a ha => decide_eq_true (hrest a ha)
      have hperm := h.filter fun a => decide (key a < key q)
      rwa [List.filter_append, hpage, hself, List.nil_append] at hperm
  · rintro ⟨hall, hperm⟩
    have hbehind := hperm.trans (below_perm hlow hall hnodup)
    exact (hbehind.append_left _).trans (page_append_perm k L)

end Page

/-! ## All pages -/

section Walk

variable {key r} {k : Nat} {L : List α}

theorem inOrder_nil (key : α → Nat) (r : α → α → Bool) (k : Nat) : InOrder key r k [] := fun _ ha => absurd ha List.not_mem_nil

/-- What is left below the lowest key read is what is left of what was. -/
theorem left_pred {begin m : Nat} (hm : 1 < m) (hle : begin = 0 ∨ m ≤ begin) :
    left key L (m - 1) = (left key L begin).filter fun a => key a < m := by
  rw [left, left, List.filter_filter]
  refine List.filter_congr fun a _ => ?_
  rw [Bool.eq_iff_iff]
  simp only [decide_eq_true_eq, Bool.and_eq_true]
  omega

/-- Reading on gives some of what is left, and all of it exactly when the order agrees with the keys. -/
theorem walk_spec (htrans : ∀ a b c, r a b = true → r b c = true → r a c = true)
    (htotal : ∀ a b, (r a b || r b a) = true) (hantisymm : ∀ a ∈ L, ∀ b ∈ L, r a b = true → r b a = true → a = b)
    (hnodup : (L.map key).Nodup) (hpos : ∀ a ∈ L, 0 < key a) (hk : 0 < k) {fuel begin : Nat} {received : List α}
    (hfuel : (left key L begin).length < fuel) (hreceived : ∀ a ∈ received, begin ≠ 0 ∧ begin < key a) :
    ∃ rest, walk key r k L fuel received begin = some (received ++ rest) ∧ (∀ a ∈ rest, a ∈ left key L begin) ∧
      (rest.Perm (left key L begin) ↔ InOrder key r k (left key L begin)) := by
  induction fuel generalizing begin received with
  | zero => exact absurd hfuel (Nat.not_lt_zero _)
  | succ fuel ih =>
    rw [walk]
    generalize hleft : left key L begin = R at *
    have hsub : ∀ a ∈ R, a ∈ L := fun a ha => by
      rw [← hleft] at ha
      exact (List.mem_filter.1 ha).1
    have hnodupR : (R.map key).Nodup := by
      rw [← hleft]
      exact hnodup.sublist (List.filter_sublist.map key)
    by_cases hnil : page r k R = []
    · have hR : R = [] := page_eq_nil hk hnil
      rw [if_pos hnil, hR]
      exact ⟨[], by rw [List.append_nil], fun a ha => ha, iff_of_true (List.Perm.refl _) (inOrder_nil key r k)⟩
    · rw [if_neg hnil]
      cases hmin : ((received ++ page r k R).map key).min? with
      | none =>
        rw [List.min?_eq_none_iff, List.map_eq_nil_iff, List.append_eq_nil_iff] at hmin
        exact absurd hmin.2 hnil
      | some m =>
        obtain ⟨hmem, hle⟩ := List.min?_eq_some_iff.1 hmin
        have hlow : ∀ a ∈ page r k R, m ≤ key a := fun a ha =>
          hle _ (List.mem_map_of_mem (List.mem_append_right received ha))
        -- what was received before is above the bound, so the lowest key is one of the page
        have hbound : ∀ a ∈ page r k R, begin = 0 ∨ key a ≤ begin := fun a ha => by
          have hmemR := mem_of_mem_page ha
          rw [← hleft] at hmemR
          exact of_decide_eq_true (List.mem_filter.1 hmemR).2
        obtain ⟨q, hq, rfl⟩ : ∃ q ∈ page r k R, key q = m := by
          obtain ⟨a, ha, rfl⟩ := List.mem_map.1 hmem
          rcases List.mem_append.1 ha with hold | hpage
          · obtain ⟨x, hx⟩ := List.exists_mem_of_ne_nil _ hnil
            obtain ⟨hne, hlt⟩ := hreceived a hold
            have hxbound := (hbound x hx).resolve_left hne
            exact absurd (hlow x hx) (by omega)
          · exact ⟨a, hpage, rfl⟩
        have hantisymmR : ∀ a ∈ R, ∀ b ∈ R, r a b = true → r b a = true → a = b :=
          fun a ha b hb => hantisymm a (hsub a ha) b (hsub b hb)
        have hinOrder := inOrder_iff htrans htotal hantisymmR hnodupR hk hq hlow
        have hposq : 0 < key q := hpos q (hsub q (mem_of_mem_page hq))
        dsimp only
        by_cases hone : key q ≤ 1
        · have hrest : R.filter (fun a => decide (key a < key q)) = [] := by
            refine List.filter_eq_nil_iff.2 fun a ha => ?_
            have hposa := hpos a (hsub a ha)
            simp only [decide_eq_true_eq]
            omega
          have hperm := append_perm_iff hnodupR hlow (fun _ ha => absurd ha List.not_mem_nil)
          rw [List.append_nil, hrest] at hperm
          rw [hrest] at hinOrder
          rw [if_pos hone]
          refine ⟨page r k R, rfl, fun a ha => mem_of_mem_page ha, hperm.trans (Iff.trans ?_ hinOrder.symm)⟩
          exact and_congr_right fun _ => iff_of_true (List.Perm.refl _) (inOrder_nil key r k)
        · rw [if_neg hone]
          have hpred : left key L (key q - 1) = R.filter fun a => key a < key q := by
            rw [← hleft]
            exact left_pred (Nat.lt_of_not_le hone) (hbound q hq)
          have hless : (left key L (key q - 1)).length < fuel := by
            have hmemq := mem_of_mem_page hq
            have hlt : (R.filter fun a => decide (key a < key q)).length < R.length :=
              List.length_filter_lt_length_iff_exists.2 ⟨q, hmemq, by simp⟩
            rw [hpred]
            omega
          have hgone : ∀ a ∈ received ++ page r k R, key q - 1 ≠ 0 ∧ key q - 1 < key a := fun a ha => by
            rcases List.mem_append.1 ha with hold | hpage
            · obtain ⟨hne, hlt⟩ := hreceived a hold
              have hqbound := (hbound q hq).resolve_left hne
              omega
            · have := hlow a hpage
              omega
          obtain ⟨rest, hwalk, hrest, hiff⟩ := ih hless hgone
          rw [hpred] at hrest hiff
          refine ⟨page r k R ++ rest, by rw [hwalk, List.append_assoc], fun a ha => ?_, ?_⟩
          · rcases List.mem_append.1 ha with hpage | hmem
            · exact mem_of_mem_page hpage
            · exact (List.mem_filter.1 (hrest a hmem)).1
          · have hbelow : ∀ a ∈ rest, key a < key q := fun a ha => of_decide_eq_true (List.mem_filter.1 (hrest a ha)).2
            rw [append_perm_iff hnodupR hlow hbelow, hinOrder, hiff]

/-- Nothing is passed over exactly when the order agrees with the keys between pages. -/
theorem walk_perm_iff (htrans : ∀ a b c, r a b = true → r b c = true → r a c = true)
    (htotal : ∀ a b, (r a b || r b a) = true) (hantisymm : ∀ a ∈ L, ∀ b ∈ L, r a b = true → r b a = true → a = b)
    (hnodup : (L.map key).Nodup) (hpos : ∀ a ∈ L, 0 < key a) (hk : 0 < k) :
    ∃ out, walk key r k L (L.length + 1) [] 0 = some out ∧ (∀ a ∈ out, a ∈ L) ∧ (out.Perm L ↔ InOrder key r k L) := by
  have hleft : left key L 0 = L := List.filter_eq_self.2 fun a _ => by simp
  have hfuel : (left key L 0).length < L.length + 1 := by
    rw [hleft]
    exact Nat.lt_succ_self _
  obtain ⟨out, hwalk, hmem, hiff⟩ :=
    walk_spec htrans htotal hantisymm hnodup hpos hk hfuel (fun _ ha => absurd ha List.not_mem_nil)
  rw [hleft] at hmem hiff
  exact ⟨out, hwalk, hmem, hiff⟩

end Walk

end Pages
