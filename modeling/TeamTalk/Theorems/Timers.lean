import TeamTalk.Base.EventDispatch

/-!
# Callbacks may change the timers

When one run of `_CheckTimer` calls each timer that is due once, whatever its callbacks do to the list. The loop has moved its
iterator on before it calls, so a callback may remove its own timer, but not the next one.
-/

namespace TeamTalk.Timers

/-! ## The property -/

/-- The timer that something happens to. -/
def Act.timer : Act → ItemId
  | .called id | .passed id | .removed id | .renewed id | .added id => id

/-- The first that happens to a timer is that it is removed, or registered again. -/
def Disturbed (log : List Act) (id : ItemId) : Prop :=
  ∃ act, log.find? (fun a => a.timer = id) = some act ∧ (act = .removed id ∨ act = .renewed id)

/-- After a number of turns: no item that was erased is used, no two timers have one pair, no timer is called twice, and at the end of
the list, or when there were as many turns as timers, each timer that was due has been called once if it was not disturbed before. -/
structure ChecksRight (t : TimerList) (currTick n : Nat) (p : Pass) : Prop where
  defined : p.undefined = false
  keys : (p.timers.items.map TimerItem.key).Nodup
  once : ∀ id, p.log.count (.called id) ≤ 1
  called : p.it = none ∨ t.items.length ≤ n → ∀ x ∈ t.items, x.nextTick ≤ currTick →
    Disturbed p.log x.id ∨ p.log.count (.called x.id) = 1

/-! ## The condition -/

/-- A callback that is called does not remove the timer behind its own. -/
def SparesNext (currTick : Nat) (p : Pass) (calls : List Call) : Prop :=
  ∀ id item next, p.it = some id → p.timers.items.find? (fun x => x.id = id) = some item → item.nextTick ≤ currTick →
    p.timers.after id = some next → Call.remove next.callback next.userData ∉ calls

namespace TimersAux

variable {t : TimerList} {currTick n : Nat} {p : Pass} {done todo : List TimerItem} {log acts : List Act} {id : ItemId} {x y : TimerItem}
  {key : Nat × Nat} {c : Call} {cs : List Call}

/-! ## Items of a list -/

/-- Two timers with one number are the same. -/
theorem eq_of_id (hx : x ∈ t.items) (hy : y ∈ t.items) (h : x.id = y.id) : x = y := List.inj_on_of_nodup_map t.ids hx hy h

/-- And two with one callback and data. -/
theorem eq_of_key (hx : x ∈ t.items) (hy : y ∈ t.items) (h : x.key = y.key) : x = y := List.inj_on_of_nodup_map t.keys hx hy h

/-- What is found is in the list under its key. -/
theorem find_some (h : t.find key = some x) : x ∈ t.items ∧ x.key = key :=
  ⟨List.mem_of_find?_eq_some h, by simpa using List.find?_some h⟩

/-- And nothing has a key that was not found. -/
theorem find_none (h : t.find key = none) (hx : x ∈ t.items) : x.key ≠ key := by
  simpa using List.find?_eq_none.1 h x hx

/-- The ids before an item are other ones. -/
theorem id_ne_of_split (h : t.items = done ++ x :: todo) (hy : y ∈ done) : y.id ≠ x.id := by
  have hids := t.ids
  rw [h, List.map_append, List.nodup_append] at hids
  exact hids.2.2 y.id (List.mem_map_of_mem hy) x.id (by simp)

/-- An item is found by its id. -/
theorem find_id (h : t.items = done ++ x :: todo) : t.items.find? (fun y => y.id = x.id) = some x := by
  have hdone : done.find? (fun y => y.id = x.id) = none := by
    rw [List.find?_eq_none]
    intro y hy
    simpa using id_ne_of_split h hy
  rw [h, List.find?_append, hdone]
  simp

/-- The item behind another one. -/
theorem after_eq (h : t.items = done ++ x :: todo) : t.after x.id = todo.head? := by
  have hdone : (done ++ x :: todo).dropWhile (fun y => decide (y.id ≠ x.id)) = x :: todo := by
    rw [List.dropWhile_append_of_pos fun y hy => by simpa using id_ne_of_split h hy]
    simp
  rw [TimerList.after, h, hdone]
  rfl

/-! ## The log -/

/-- What was disturbed stays so. -/
theorem disturbed_append (h : Disturbed log id) (acts : List Act) : Disturbed (log ++ acts) id := by
  obtain ⟨act, hfind, hact⟩ := h
  exact ⟨act, by rw [List.find?_append, hfind, Option.some_or], hact⟩

/-- What happens first to a timer that nothing has happened to. -/
theorem disturbed_of_none (hlog : ∀ a ∈ log, a.timer ≠ id) (h : Disturbed acts id) : Disturbed (log ++ acts) id := by
  obtain ⟨act, hfind, hact⟩ := h
  have hnone : log.find? (fun a => a.timer = id) = none := by
    rw [List.find?_eq_none]
    intro a ha
    simpa using hlog a ha
  exact ⟨act, by rw [List.find?_append, hnone, Option.none_or, hfind], hact⟩

/-- A removed timer is disturbed. -/
theorem disturbed_removed (id : ItemId) : Disturbed [.removed id] id := ⟨_, by simp [Act.timer], .inl rfl⟩

/-- And so is one registered again. -/
theorem disturbed_renewed (id : ItemId) : Disturbed [.renewed id] id := ⟨_, by simp [Act.timer], .inr rfl⟩

/-! ## The invariant -/

/-- The list falls into the timers before the iterator and those from it on, none of which has been called; each timer that was due has
been disturbed, or called once, or stands from the iterator on as it was; and each turn passes one of the timers that were there. -/
structure Inv (t : TimerList) (currTick n : Nat) (p : Pass) (done todo : List TimerItem) : Prop where
  defined : p.undefined = false
  items : p.timers.items = done ++ todo
  it : p.it = todo.head?.map TimerItem.id
  known : ∀ a ∈ p.log, a.timer < p.timers.nextId
  once : ∀ id, p.log.count (.called id) ≤ 1
  ahead : ∀ x ∈ todo, Act.called x.id ∉ p.log
  due : ∀ x ∈ t.items, x.nextTick ≤ currTick →
    Disturbed p.log x.id ∨ p.log.count (.called x.id) = 1 ∨ x ∈ todo ∧ ∀ a ∈ p.log, a.timer ≠ x.id
  begun : t.nextId ≤ p.timers.nextId
  left : ∃ olds news, todo = olds ++ news ∧ (∀ x ∈ news, t.nextId ≤ x.id) ∧ (olds.length + n ≤ t.items.length ∨ olds = [])

/-- The invariant holds when the pass begins. -/
theorem inv_start (t : TimerList) (currTick : Nat) : Inv t currTick 0 (Pass.start t) [] t.items where
  defined := rfl
  items := rfl
  it := rfl
  known := by simp [Pass.start]
  once := by simp [Pass.start]
  ahead := by simp [Pass.start]
  due := fun x hx _ => .inr (.inr ⟨hx, by simp [Pass.start]⟩)
  begun := Nat.le_refl _
  left := ⟨t.items, [], by simp, by simp, .inl (Nat.le_refl _)⟩

/-- What the invariant says is right. -/
theorem Inv.right (h : Inv t currTick n p done todo) : ChecksRight t currTick n p where
  defined := h.defined
  keys := p.timers.keys
  once := h.once
  called := by
    intro hend x hx hdue
    rcases h.due x hx hdue with hdist | hcount | ⟨htodo, -⟩
    · exact .inl hdist
    · exact .inr hcount
    · exfalso
      rcases hend with hit | hn
      · have hhead := h.it
        rw [hit] at hhead
        cases todo with
        | nil => cases htodo
        | cons y rest => cases hhead
      · obtain ⟨olds, news, rfl, hnews, hleft⟩ := h.left
        have hnil : olds = [] := by
          rcases hleft with hle | hnil
          · exact List.length_eq_zero_iff.1 (by omega)
          · exact hnil
        rw [hnil, List.nil_append] at htodo
        exact absurd (t.fresh x hx) (Nat.not_lt.2 (hnews x htodo))

/-! ## Calls -/

/-- A change of the list during a callback, and what happens by it. -/
theorem Inv.change (h : Inv t currTick n p done todo) {timers : TimerList} {done' todo' : List TimerItem}
    (hitems : timers.items = done' ++ todo') (hhead : todo'.head?.map TimerItem.id = todo.head?.map TimerItem.id)
    (hnext : p.timers.nextId ≤ timers.nextId) (hacts : ∀ a ∈ acts, a.timer < timers.nextId ∧ ∀ id, a ≠ .called id)
    (hnew : ∀ y ∈ todo', (∃ x ∈ todo, x.id = y.id) ∨ p.timers.nextId ≤ y.id)
    (hkeep : ∀ x ∈ todo, x ∈ todo' ∧ (∀ a ∈ acts, a.timer ≠ x.id) ∨ Disturbed acts x.id)
    (hleft : ∀ olds news, todo = olds ++ news → ∃ olds' news', todo' = olds' ++ news' ∧ olds'.length ≤ olds.length ∧
      ∀ y ∈ news', (∃ x ∈ news, x.id = y.id) ∨ p.timers.nextId ≤ y.id) :
    Inv t currTick n { p with timers, log := p.log ++ acts } done' todo' where
  defined := h.defined
  items := hitems
  it := h.it.trans hhead.symm
  known := by
    intro a ha
    rcases List.mem_append.1 ha with ha | ha
    · exact Nat.lt_of_lt_of_le (h.known a ha) hnext
    · exact (hacts a ha).1
  once := by
    intro id
    have hzero : acts.count (.called id) = 0 := List.count_eq_zero.2 fun hmem => (hacts _ hmem).2 id rfl
    simpa [List.count_append, hzero] using h.once id
  ahead := by
    intro y hy hmem
    rcases List.mem_append.1 hmem with hmem | hmem
    · rcases hnew y hy with ⟨x, hx, hid⟩ | hge
      · exact h.ahead x hx (hid ▸ hmem)
      · exact absurd (h.known _ hmem) (Nat.not_lt.2 hge)
    · exact (hacts _ hmem).2 _ rfl
  due := by
    intro x hx hdue
    have hzero : acts.count (.called x.id) = 0 := List.count_eq_zero.2 fun hmem => (hacts _ hmem).2 x.id rfl
    rcases h.due x hx hdue with hdist | hcount | ⟨htodo, hno⟩
    · exact .inl (disturbed_append hdist acts)
    · exact .inr (.inl (by rw [List.count_append, hzero, hcount]))
    · rcases hkeep x htodo with ⟨hstay, hnone⟩ | hdist
      · refine .inr (.inr ⟨hstay, fun a ha => ?_⟩)
        rcases List.mem_append.1 ha with ha | ha
        · exact hno a ha
        · exact hnone a ha
      · exact .inl (disturbed_of_none hno hdist)
  begun := Nat.le_trans h.begun hnext
  left := by
    obtain ⟨olds, news, hsplit, hnews, hle⟩ := h.left
    obtain ⟨olds', news', hsplit', hlen, hnews'⟩ := hleft olds news hsplit
    refine ⟨olds', news', hsplit', fun y hy => ?_, ?_⟩
    · rcases hnews' y hy with ⟨x, hx, hid⟩ | hge
      · exact hid ▸ hnews x hx
      · exact Nat.le_trans h.begun hge
    · rcases hle with hle | hnil
      · exact .inl (by omega)
      · rw [hnil] at hlen
        exact .inr (List.length_eq_zero_iff.1 (by simpa using hlen))

/-- A new time keeps every timer on its side of the pass. -/
theorem items_setTimes (h : t.items = done ++ todo) (q : TimerItem → Bool) (f g : TimerItem → Nat) :
    (t.setTimes q f g).items = done.map (TimerItem.setTimes q f g) ++ todo.map (TimerItem.setTimes q f g) :=
  (congrArg (List.map (TimerItem.setTimes q f g)) h).trans List.map_append

/-- A new timer is behind the pass. -/
theorem items_push {callback userData interval nextTick : Nat} (h : t.items = done ++ todo) (hfind : t.find (callback, userData) = none) :
    (t.push callback userData interval nextTick hfind).items =
      done ++ (todo ++ [{ id := t.nextId, callback, userData, interval, nextTick }]) :=
  (congrArg (· ++ [_]) h).trans (List.append_assoc ..)

/-- And one removed is gone from its side. -/
theorem items_erase (h : t.items = done ++ todo) (key : Nat × Nat) :
    (t.erase key).items = done.filter (fun y => y.key ≠ key) ++ todo.filter fun y => y.key ≠ key :=
  (congrArg (List.filter fun y : TimerItem => decide (y.key ≠ key)) h).trans (List.filter_append ..)

/-- A call keeps the invariant, if it does not remove the timer that the iterator names. -/
theorem Inv.call (h : Inv t currTick n p done todo) (hspare : ∀ k ∈ todo.head?.map TimerItem.key, c ≠ .remove k.1 k.2) :
    ∃ done' todo', Inv t currTick n { p with timers := (c.run p.timers).1, log := p.log ++ (c.run p.timers).2 } done' todo' ∧
      todo'.head?.map TimerItem.key = todo.head?.map TimerItem.key := by
  have hmem : ∀ {x}, x ∈ todo → x ∈ p.timers.items := fun hx => h.items ▸ List.mem_append_right done hx
  cases c with
  | add callback userData interval now =>
    simp only [Call.run, addTimer]
    split
    · rename_i x hfind
      obtain ⟨hx, hkey⟩ := find_some hfind
      refine ⟨_, _, h.change (items_setTimes h.items _ _ _) ?_ (Nat.le_refl _) ?_ ?_ ?_ ?_, ?_⟩
      · cases todo with
        | nil => rfl
        | cons y rest => simp
      · intro a ha
        rw [List.mem_singleton.1 ha]
        exact ⟨p.timers.fresh x hx, fun id => by simp⟩
      · intro y hy
        obtain ⟨z, hz, rfl⟩ := List.mem_map.1 hy
        exact .inl ⟨z, hz, (TimerItem.id_setTimes _ _ _ z).symm⟩
      · intro y hy
        by_cases hid : y.id = x.id
        · exact .inr (hid ▸ disturbed_renewed x.id)
        · have hne : y.key ≠ (callback, userData) := fun heq => hid (congrArg TimerItem.id (eq_of_key (hmem hy) hx (heq.trans hkey.symm)))
          refine .inl ⟨List.mem_map.2 ⟨y, hy, by simp [TimerItem.setTimes, hne]⟩, ?_⟩
          intro a ha
          rw [List.mem_singleton.1 ha]
          exact fun heq => hid heq.symm
      · rintro olds news rfl
        refine ⟨_, _, List.map_append, by simp, ?_⟩
        intro y hy
        obtain ⟨z, hz, rfl⟩ := List.mem_map.1 hy
        exact .inl ⟨z, hz, (TimerItem.id_setTimes _ _ _ z).symm⟩
      · cases todo with
        | nil => rfl
        | cons y rest => simp
    · rename_i hfind
      have hacts : ∀ a ∈ [Act.added p.timers.nextId], a.timer < p.timers.nextId + 1 ∧ ∀ id, a ≠ .called id := by
        intro a ha
        rw [List.mem_singleton.1 ha]
        exact ⟨Nat.lt_succ_self _, fun id => by simp⟩
      have hkeep : ∀ x ∈ todo, ∀ a ∈ [Act.added p.timers.nextId], a.timer ≠ x.id := by
        intro x hx a ha
        rw [List.mem_singleton.1 ha]
        exact Nat.ne_of_gt (p.timers.fresh x (hmem hx))
      cases todo with
      | nil =>
        refine ⟨_, [], h.change (List.append_nil _).symm rfl (Nat.le_succ _) hacts (by simp) (by simp) ?_, rfl⟩
        intro olds news hsplit
        exact ⟨[], [], rfl, Nat.zero_le _, by simp⟩
      | cons y rest =>
        refine ⟨_, _, h.change (items_push h.items hfind) rfl (Nat.le_succ _) hacts ?_ ?_ ?_, rfl⟩
        · intro z hz
          rcases List.mem_append.1 hz with hz | hz
          · exact .inl ⟨z, hz, rfl⟩
          · rw [List.mem_singleton.1 hz]
            exact .inr (Nat.le_refl _)
        · exact fun x hx => .inl ⟨List.mem_append_left _ hx, hkeep x hx⟩
        · intro olds news hsplit
          refine ⟨olds, news ++ [_], by rw [hsplit, List.append_assoc], Nat.le_refl _, ?_⟩
          intro z hz
          rcases List.mem_append.1 hz with hz | hz
          · exact .inl ⟨z, hz, rfl⟩
          · rw [List.mem_singleton.1 hz]
            exact .inr (Nat.le_refl _)
  | remove callback userData =>
    simp only [Call.run, removeTimer]
    split
    · rename_i x hfind
      obtain ⟨hx, hkey⟩ := find_some hfind
      have hhead : (todo.filter fun y => decide (y.key ≠ (callback, userData))).head? = todo.head? := by
        cases todo with
        | nil => rfl
        | cons y rest =>
          have hne : y.key ≠ (callback, userData) := by
            intro heq
            exact hspare y.key (by simp) (by rw [heq])
          rw [List.filter_cons_of_pos (by simpa using hne)]
          rfl
      refine ⟨_, _, h.change (items_erase h.items _) (by rw [hhead]) (Nat.le_refl _) ?_ ?_ ?_ ?_, by rw [hhead]⟩
      · intro a ha
        rw [List.mem_singleton.1 ha]
        exact ⟨p.timers.fresh x hx, fun id => by simp⟩
      · intro y hy
        exact .inl ⟨y, (List.mem_filter.1 hy).1, rfl⟩
      · intro y hy
        by_cases hid : y.id = x.id
        · exact .inr (hid ▸ disturbed_removed x.id)
        · have hne : y.key ≠ (callback, userData) := fun heq => hid (congrArg TimerItem.id (eq_of_key (hmem hy) hx (heq.trans hkey.symm)))
          refine .inl ⟨List.mem_filter.2 ⟨hy, by simpa using hne⟩, ?_⟩
          intro a ha
          rw [List.mem_singleton.1 ha]
          exact fun heq => hid heq.symm
      · rintro olds news rfl
        refine ⟨_, _, List.filter_append .., List.length_filter_le .., ?_⟩
        intro y hy
        exact .inl ⟨y, (List.mem_filter.1 hy).1, rfl⟩
    · refine ⟨done, todo, ?_, rfl⟩
      rw [List.append_nil]
      exact h

/-- All calls of a callback. -/
theorem Inv.calls (h : Inv t currTick n p done todo)
    (hspare : ∀ k ∈ todo.head?.map TimerItem.key, Call.remove k.1 k.2 ∉ cs) :
    ∃ done' todo', Inv t currTick n (p.calls cs) done' todo' := by
  induction cs generalizing p done todo with
  | nil => exact ⟨done, todo, h⟩
  | cons c cs ih =>
    obtain ⟨done1, todo1, h1, hhead⟩ := h.call (c := c) fun k hk heq => hspare k hk (heq ▸ List.mem_cons_self)
    exact ih h1 fun k hk hmem => hspare k (hhead ▸ hk) (List.mem_cons_of_mem c hmem)

/-! ## Turns -/

/-- The timer at the iterator is called, or passed over when it is not due. -/
theorem Inv.advance (h : Inv t currTick n p done (x :: todo)) {timers : TimerList} {done' : List TimerItem} {a : Act}
    (hitems : timers.items = done' ++ todo) (hnext : timers.nextId = p.timers.nextId)
    (ha : a = .called x.id ∨ a = .passed x.id ∧ ¬x.nextTick ≤ currTick) :
    Inv t currTick (n + 1) { p with timers, it := todo.head?.map TimerItem.id, log := p.log ++ [a] } done' todo := by
  have htimer : a.timer = x.id := by rcases ha with rfl | ⟨rfl, -⟩ <;> rfl
  have hx : x ∈ p.timers.items := by
    rw [h.items]
    simp
  have hne : ∀ y ∈ todo, y.id ≠ x.id := by
    intro y hy hid
    have hids := p.timers.ids
    rw [h.items, List.map_append, List.nodup_append, List.map_cons, List.nodup_cons] at hids
    exact hids.2.1.1 (hid ▸ List.mem_map_of_mem hy)
  have hcount : ∀ id, id ≠ x.id → [a].count (.called id) = 0 := by
    intro id hid
    rcases ha with rfl | ⟨rfl, -⟩
    · simp [Ne.symm hid]
    · simp
  have hzero : p.log.count (.called x.id) = 0 := List.count_eq_zero.2 (h.ahead x List.mem_cons_self)
  refine ⟨h.defined, hitems, rfl, ?_, ?_, ?_, ?_, hnext ▸ h.begun, ?_⟩
  · intro b hb
    rcases List.mem_append.1 hb with hb | hb
    · exact hnext ▸ h.known b hb
    · rw [List.mem_singleton.1 hb, htimer]
      exact hnext ▸ p.timers.fresh x hx
  · intro id
    rw [List.count_append]
    by_cases hid : id = x.id
    · subst hid
      rw [hzero, Nat.zero_add]
      exact List.count_le_length
    · rw [hcount id hid]
      exact h.once id
  · intro y hy hmem
    rcases List.mem_append.1 hmem with hmem | hmem
    · exact h.ahead y (List.mem_cons_of_mem x hy) hmem
    · have heq := congrArg Act.timer (List.mem_singleton.1 hmem)
      exact hne y hy (heq.trans htimer)
  · intro y hy hdue
    rcases h.due y hy hdue with hdist | hone | ⟨hmem, hno⟩
    · exact .inl (disturbed_append hdist [a])
    · have hid : y.id ≠ x.id := by
        intro heq
        rw [heq, hzero] at hone
        cases hone
      exact .inr (.inl (by rw [List.count_append, hone, hcount y.id hid]))
    · rcases List.mem_cons.1 hmem with rfl | hmem
      · rcases ha with rfl | ⟨-, hnot⟩
        · exact .inr (.inl (by simp [List.count_append, hzero]))
        · exact absurd hdue hnot
      · refine .inr (.inr ⟨hmem, fun b hb => ?_⟩)
        rcases List.mem_append.1 hb with hb | hb
        · exact hno b hb
        · rw [List.mem_singleton.1 hb, htimer]
          exact (hne y hmem).symm
  · obtain ⟨olds, news, hsplit, hnews, hle⟩ := h.left
    cases olds with
    | nil => exact ⟨[], todo, rfl, fun y hy => hnews y (by rw [← List.nil_append news, ← hsplit]; exact List.mem_cons_of_mem x hy), .inr rfl⟩
    | cons z olds =>
      obtain ⟨-, rfl⟩ := List.cons.inj hsplit
      refine ⟨olds, news, rfl, hnews, .inl ?_⟩
      rcases hle with hle | hnil
      · rw [List.length_cons] at hle
        omega
      · cases hnil

/-- A turn at a timer. -/
theorem turn_eq (h : Inv t currTick n p done (x :: todo)) (cs : List Call) :
    p.turn currTick cs =
      if x.nextTick ≤ currTick then
        Pass.calls { p with timers := p.timers.setTimes (fun y => y.id = x.id) (fun y => y.interval)
                              (fun y => (y.nextTick + y.interval) % uint64Size)
                            it := todo.head?.map TimerItem.id, log := p.log ++ [.called x.id] } cs
      else { p with it := todo.head?.map TimerItem.id, log := p.log ++ [.passed x.id] } := by
  have hit : p.it = some x.id := h.it
  rw [Pass.turn, hit]
  dsimp only
  rw [find_id h.items, after_eq h.items]

/-- The timers behind the iterator keep their times when the one at the iterator is called. -/
theorem items_called (h : p.timers.items = done ++ x :: todo) (f g : TimerItem → Nat) :
    (p.timers.setTimes (fun y => y.id = x.id) f g).items =
      (done.map (TimerItem.setTimes (fun y => y.id = x.id) f g) ++ [x.setTimes (fun y => y.id = x.id) f g]) ++ todo := by
  have hids := p.timers.ids
  rw [h, List.map_append, List.nodup_append, List.map_cons, List.nodup_cons] at hids
  have hsame : ∀ y ∈ todo, TimerItem.setTimes (fun y => y.id = x.id) f g y = y := by
    intro y hy
    have hne : y.id ≠ x.id := fun hid => hids.2.1.1 (hid ▸ List.mem_map_of_mem hy)
    simp [TimerItem.setTimes, hne]
  have htodo : todo.map (TimerItem.setTimes (fun y => y.id = x.id) f g) = todo := (List.map_congr_left hsame).trans (List.map_id _)
  rw [items_setTimes h, List.map_cons, htodo]
  simp

/-- A turn whose callback spares the next timer keeps the invariant. -/
theorem Inv.turn (h : Inv t currTick n p done todo) (hspare : SparesNext currTick p cs) :
    ∃ done' todo', Inv t currTick (n + 1) (p.turn currTick cs) done' todo' := by
  cases todo with
  | nil =>
    have hit : p.it = none := h.it
    refine ⟨done, [], ?_⟩
    rw [Pass.turn, hit]
    exact { h with left := ⟨[], [], rfl, by simp, .inr rfl⟩ }
  | cons x rest =>
    rw [turn_eq h cs]
    split
    · rename_i hdue
      refine (h.advance (items_called h.items _ _) rfl (.inl rfl)).calls ?_
      intro k hk
      obtain ⟨next, hnext, rfl⟩ := Option.map_eq_some_iff.1 hk
      exact hspare x.id x next h.it (find_id h.items) hdue ((after_eq h.items).trans hnext)
    · rename_i hnot
      exact ⟨_, _, h.advance (h.items.trans (List.append_cons ..)) rfl (.inr ⟨rfl, hnot⟩)⟩

/-! ## A callback that removes the next timer -/

/-- A callback's calls do not move the pass. -/
theorem it_calls (p : Pass) (cs : List Call) : (p.calls cs).it = p.it := by
  induction cs generalizing p with
  | nil => rfl
  | cons c cs ih => exact ih _

/-- The id of a timer that is gone does not come back. -/
theorem gone_run (hlt : id < t.nextId) (hgone : ∀ y ∈ t.items, y.id ≠ id) (c : Call) :
    id < (c.run t).1.nextId ∧ ∀ y ∈ (c.run t).1.items, y.id ≠ id := by
  cases c with
  | add callback userData interval now =>
    simp only [Call.run, addTimer]
    split
    · refine ⟨hlt, fun y hy => ?_⟩
      obtain ⟨z, hz, rfl⟩ := List.mem_map.1 hy
      simpa using hgone z hz
    · refine ⟨Nat.lt_succ_of_lt hlt, fun y hy => ?_⟩
      rcases List.mem_append.1 hy with hy | hy
      · exact hgone y hy
      · rw [List.mem_singleton.1 hy]
        exact Nat.ne_of_gt hlt
  | remove callback userData =>
    simp only [Call.run, removeTimer]
    split
    · exact ⟨hlt, fun y hy => hgone y (List.mem_filter.1 hy).1⟩
    · exact ⟨hlt, hgone⟩

/-- A timer that is gone stays gone through the calls. -/
theorem gone_calls (hlt : id < p.timers.nextId) (hgone : ∀ y ∈ p.timers.items, y.id ≠ id) (cs : List Call) :
    ∀ y ∈ (p.calls cs).timers.items, y.id ≠ id := by
  induction cs generalizing p with
  | nil => exact hgone
  | cons c cs ih =>
    obtain ⟨hlt', hgone'⟩ := gone_run hlt hgone c
    exact ih (p := { p with timers := (c.run p.timers).1, log := p.log ++ (c.run p.timers).2 }) hlt' hgone'

/-- A timer stays until it is removed. -/
theorem stays_run (hx : x ∈ t.items) (hc : c ≠ .remove x.callback x.userData) :
    ∃ y ∈ (c.run t).1.items, y.id = x.id ∧ y.callback = x.callback ∧ y.userData = x.userData := by
  cases c with
  | add callback userData interval now =>
    simp only [Call.run, addTimer]
    split
    · have hkey := TimerItem.key_setTimes (fun y => y.key = (callback, userData)) (fun _ => interval)
        (fun _ => (now + interval) % uint64Size) x
      exact ⟨_, List.mem_map_of_mem hx, TimerItem.id_setTimes .., congrArg Prod.fst hkey, congrArg Prod.snd hkey⟩
    · exact ⟨x, List.mem_append_left _ hx, rfl, rfl, rfl⟩
  | remove callback userData =>
    simp only [Call.run, removeTimer]
    split
    · refine ⟨x, List.mem_filter.2 ⟨hx, ?_⟩, rfl, rfl, rfl⟩
      have hne : x.key ≠ (callback, userData) := by
        intro heq
        obtain ⟨rfl, rfl⟩ := Prod.mk.inj heq
        exact hc rfl
      simpa using hne
    · exact ⟨x, hx, rfl, rfl, rfl⟩

/-- A timer that is removed is gone. -/
theorem gone_remove (hx : x ∈ t.items) : ∀ y ∈ ((Call.remove x.callback x.userData).run t).1.items, y.id ≠ x.id := by
  intro y hy hid
  simp only [Call.run, removeTimer] at hy
  split at hy
  · obtain ⟨hmem, hne⟩ := List.mem_filter.1 hy
    rw [eq_of_id hmem hx hid] at hne
    simp [TimerItem.key] at hne
  · rename_i hfind
    exact find_none hfind hx rfl

/-- And one the calls remove is gone after them. -/
theorem gone_calls_remove (hx : x ∈ p.timers.items) (hmem : Call.remove x.callback x.userData ∈ cs) :
    ∀ y ∈ (p.calls cs).timers.items, y.id ≠ x.id := by
  induction cs generalizing p x with
  | nil => cases hmem
  | cons c cs ih =>
    by_cases hc : c = .remove x.callback x.userData
    · subst hc
      have hlt : x.id < ((Call.remove x.callback x.userData).run p.timers).1.nextId := by
        simp only [Call.run, removeTimer]
        split <;> exact p.timers.fresh x hx
      exact gone_calls (p := { p with timers := _, log := _ }) hlt (gone_remove hx) cs
    · obtain ⟨z, hz, hid, hcallback, huserData⟩ := stays_run hx hc
      have hrest : Call.remove z.callback z.userData ∈ cs := by
        rw [hcallback, huserData]
        exact (List.mem_cons.1 hmem).resolve_left (Ne.symm hc)
      rw [← hid]
      exact ih (p := { p with timers := (c.run p.timers).1, log := p.log ++ (c.run p.timers).2 }) hz hrest

/-- After a callback that removes the next timer, the next turn uses the item that was erased. -/
theorem undefined_turn (h : Inv t currTick n p done todo) (hnot : ¬SparesNext currTick p cs) (cs' : List Call) :
    ((p.turn currTick cs).turn currTick cs').undefined = true := by
  simp only [SparesNext, not_forall, not_not] at hnot
  obtain ⟨id, item, next, hit, hfind, hdue, hafter, hmem⟩ := hnot
  cases todo with
  | nil =>
    have hnone : p.it = none := h.it
    rw [hnone] at hit
    cases hit
  | cons x rest =>
    have hid : some x.id = some id := h.it.symm.trans hit
    obtain rfl := Option.some.inj hid
    obtain rfl := Option.some.inj ((find_id h.items).symm.trans hfind)
    have hhead : rest.head? = some next := (after_eq h.items).symm.trans hafter
    have hnext : next ∈ (p.timers.setTimes (fun y => y.id = x.id) (fun y => y.interval)
        (fun y => (y.nextTick + y.interval) % uint64Size)).items := by
      rw [items_called h.items]
      exact List.mem_append_right _ (List.mem_of_head? hhead)
    rw [turn_eq h cs, if_pos hdue]
    have hgone := gone_calls_remove (p := { p with timers := _, it := rest.head?.map TimerItem.id, log := p.log ++ [.called x.id] })
      hnext hmem
    rw [hhead] at hgone
    rw [Pass.turn, it_calls, hhead]
    dsimp only [Option.map_some]
    rw [List.find?_eq_none.2 fun y hy => by simpa using hgone y hy]

end TimersAux

open TimersAux

/-- One run of `_CheckTimer` is right, after any number of turns, exactly when no callback removes the timer behind its own. -/
theorem checksRight_iff (t : TimerList) (currTick : Nat) (script : Nat → List Call) :
    (∀ n, ChecksRight t currTick n (Pass.turns currTick script t n)) ↔
      ∀ n, SparesNext currTick (Pass.turns currTick script t n) (script n) := by
  constructor
  · intro h
    have hspare : ∀ {n done todo}, Inv t currTick n (Pass.turns currTick script t n) done todo →
        SparesNext currTick (Pass.turns currTick script t n) (script n) := by
      intro n done todo hinv
      by_contra hnot
      have hundefined := undefined_turn hinv hnot (script (n + 1))
      rw [show (((Pass.turns currTick script t n).turn currTick (script n)).turn currTick (script (n + 1))).undefined = false from
        (h (n + 2)).defined] at hundefined
      cases hundefined
    have hinv : ∀ n, ∃ done todo, Inv t currTick n (Pass.turns currTick script t n) done todo := by
      intro n
      induction n with
      | zero => exact ⟨_, _, inv_start t currTick⟩
      | succ n ih =>
        obtain ⟨done, todo, hinv⟩ := ih
        exact hinv.turn (hspare hinv)
    intro n
    obtain ⟨done, todo, hn⟩ := hinv n
    exact hspare hn
  · intro h n
    have hinv : ∃ done todo, Inv t currTick n (Pass.turns currTick script t n) done todo := by
      induction n with
      | zero => exact ⟨_, _, inv_start t currTick⟩
      | succ n ih =>
        obtain ⟨done, todo, hinv⟩ := ih
        exact hinv.turn (h n)
    obtain ⟨done, todo, hn⟩ := hinv
    exact hn.right

/-- Two timers that are due; the callback of the first removes the second. -/
def twoTimers : TimerList :=
  (addTimer (addTimer TimerList.init 1 10 100 0).1 2 20 100 0).1

/-- The loop then goes on with the item that was erased. -/
theorem not_checksRight : ¬∀ t currTick script n, ChecksRight t currTick n (Pass.turns currTick script t n) := by
  intro h
  have hdefined := (h twoTimers 100 (fun _ => [.remove 2 20]) 2).defined
  exact absurd hdefined (by decide)

end TeamTalk.Timers
