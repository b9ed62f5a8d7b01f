import Mathlib

/-!
# Timers of `CEventDispatch`

`AddTimer`, `RemoveTimer` and `_CheckTimer`. The loop of `_CheckTimer` keeps an iterator to the next item while a callback runs, and a
callback may add and remove timers. What the callbacks do is a parameter: for each turn of the loop the calls that are made in it.
-/

namespace TeamTalk.Timers

/-- The modulus of `uint64_t`. -/
abbrev uint64Size : Nat := 2 ^ 64

/-- A `TimerItem*`, which also stands for its node in the list; no number is given to two items. -/
abbrev ItemId := Nat

/-- `TimerItem`. Callbacks and their data are pointers. -/
structure TimerItem where
  id : ItemId
  callback : Nat
  userData : Nat
  interval : Nat
  nextTick : Nat
  deriving DecidableEq, Repr

/-- What a timer is known by. -/
def TimerItem.key (x : TimerItem) : Nat × Nat := (x.callback, x.userData)

/-- Other times, for an item that has a property. -/
def TimerItem.setTimes (p : TimerItem → Bool) (interval nextTick : TimerItem → Nat) (x : TimerItem) : TimerItem :=
  if p x then { x with interval := interval x, nextTick := nextTick x } else x

@[simp] theorem TimerItem.id_setTimes (p : TimerItem → Bool) (interval nextTick : TimerItem → Nat) (x : TimerItem) :
    (x.setTimes p interval nextTick).id = x.id := by
  unfold TimerItem.setTimes
  split <;> rfl

@[simp] theorem TimerItem.key_setTimes (p : TimerItem → Bool) (interval nextTick : TimerItem → Nat) (x : TimerItem) :
    (x.setTimes p interval nextTick).key = x.key := by
  unfold TimerItem.setTimes
  split <;> rfl

/-- `m_timer_list`: no two items are known by the same pair. -/
structure TimerList where
  items : List TimerItem
  nextId : ItemId
  ids : (items.map TimerItem.id).Nodup
  keys : (items.map TimerItem.key).Nodup
  fresh : ∀ x ∈ items, x.id < nextId

namespace TimerList

/-- No timers. -/
def init : TimerList := ⟨[], 0, List.nodup_nil, List.nodup_nil, by simp⟩

/-- The item that is known by a pair. -/
def find (t : TimerList) (key : Nat × Nat) : Option TimerItem := t.items.find? fun x => x.key = key

/-- Change the times of the items that have a property. -/
def setTimes (t : TimerList) (p : TimerItem → Bool) (interval nextTick : TimerItem → Nat) : TimerList where
  items := t.items.map (TimerItem.setTimes p interval nextTick)
  nextId := t.nextId
  ids := by simpa [List.map_map, Function.comp_def] using t.ids
  keys := by simpa [List.map_map, Function.comp_def] using t.keys
  fresh := by
    intro x hx
    obtain ⟨y, hy, rfl⟩ := List.mem_map.1 hx
    simpa using t.fresh y hy

/-- `push_back` of a new item. -/
def push (t : TimerList) (callback userData interval nextTick : Nat) (h : t.find (callback, userData) = none) : TimerList where
  items := t.items ++ [{ id := t.nextId, callback, userData, interval, nextTick }]
  nextId := t.nextId + 1
  ids := by
    rw [List.map_append, List.nodup_append]
    refine ⟨t.ids, by simp, ?_⟩
    intro a ha b hb heq
    obtain ⟨x, hx, rfl⟩ := List.mem_map.1 ha
    simp only [List.map_cons, List.map_nil, List.mem_singleton] at hb
    exact Nat.ne_of_lt (t.fresh x hx) (heq.trans hb)
  keys := by
    rw [List.map_append, List.nodup_append]
    refine ⟨t.keys, by simp, ?_⟩
    intro a ha b hb heq
    obtain ⟨x, hx, rfl⟩ := List.mem_map.1 ha
    simp only [List.map_cons, List.map_nil, List.mem_singleton] at hb
    have hno := List.find?_eq_none.1 h x hx
    simp only [decide_eq_true_eq] at hno
    exact hno (heq.trans hb)
  fresh := by
    intro x hx
    rcases List.mem_append.1 hx with hx | hx
    · exact Nat.lt_succ_of_lt (t.fresh x hx)
    · rw [List.mem_singleton.1 hx]
      exact Nat.lt_succ_self _

/-- `erase` of the item that is known by a pair; there is one at most. -/
def erase (t : TimerList) (key : Nat × Nat) : TimerList where
  items := t.items.filter fun x => x.key ≠ key
  nextId := t.nextId
  ids := t.ids.sublist (List.filter_sublist.map _)
  keys := t.keys.sublist (List.filter_sublist.map _)
  fresh := fun x hx => t.fresh x (List.mem_filter.1 hx).1

/-- The item behind another one. -/
def after (t : TimerList) (id : ItemId) : Option TimerItem := (t.items.dropWhile fun x => x.id ≠ id).tail.head?

end TimerList

/-! ## The calls of a callback -/

/-- A call of `AddTimer`, with the tick that it reads, or of `RemoveTimer`. -/
inductive Call where
  | add (callback userData interval now : Nat)
  | remove (callback userData : Nat)
  deriving DecidableEq, Repr

/-- What happens to a timer: its callback is called, or it is passed over because it is not due; it is removed, registered again, or
added. -/
inductive Act where
  | called (id : ItemId)
  | passed (id : ItemId)
  | removed (id : ItemId)
  | renewed (id : ItemId)
  | added (id : ItemId)
  deriving DecidableEq, Repr

/-- `AddTimer`. -/
def addTimer (t : TimerList) (callback userData interval now : Nat) : TimerList × List Act :=
  match h : t.find (callback, userData) with
  | some x => (t.setTimes (fun y => y.key = (callback, userData)) (fun _ => interval) (fun _ => (now + interval) % uint64Size),
      [.renewed x.id])
  | none => (t.push callback userData interval ((now + interval) % uint64Size) h, [.added t.nextId])

/-- `RemoveTimer`. -/
def removeTimer (t : TimerList) (callback userData : Nat) : TimerList × List Act :=
  match t.find (callback, userData) with
  | some x => (t.erase (callback, userData), [.removed x.id])
  | none => (t, [])

/-- A call. -/
def Call.run (t : TimerList) : Call → TimerList × List Act
  | .add callback userData interval now => addTimer t callback userData interval now
  | .remove callback userData => removeTimer t callback userData

/-! ## `_CheckTimer` -/

/-- The loop between two turns: the list, the iterator (there is none at the end), what has happened, and whether something was done
that has no defined result. -/
structure Pass where
  timers : TimerList
  it : Option ItemId
  log : List Act
  undefined : Bool

/-- The calls of a callback, one after the other. -/
def Pass.calls (p : Pass) : List Call → Pass
  | [] => p
  | c :: cs => calls { p with timers := (c.run p.timers).1, log := p.log ++ (c.run p.timers).2 } cs

/-- The start of the loop. -/
def Pass.start (t : TimerList) : Pass := { timers := t, it := t.items.head?.map TimerItem.id, log := [], undefined := false }

/-- A turn of the loop, where a callback makes some calls if it is called. The iterator of an item that was erased cannot be used. -/
def Pass.turn (currTick : Nat) (p : Pass) (calls : List Call) : Pass :=
  match p.it with
  | none => p
  | some id =>
    match p.timers.items.find? fun x => x.id = id with
    | none => { p with undefined := true }
    | some item =>
      let p := { p with it := (p.timers.after id).map TimerItem.id }
      if item.nextTick ≤ currTick then
        let timers := p.timers.setTimes (fun x => x.id = id) (fun x => x.interval) (fun x => (x.nextTick + x.interval) % uint64Size)
        Pass.calls { p with timers, log := p.log ++ [.called id] } calls
      else { p with log := p.log ++ [.passed id] }

/-- `_CheckTimer`, after a number of turns; the callback of the turn `n` makes the calls `script n`. Beyond the end nothing happens. -/
def Pass.turns (currTick : Nat) (script : Nat → List Call) (t : TimerList) : Nat → Pass
  | 0 => Pass.start t
  | n + 1 => (turns currTick script t n).turn currTick (script n)

end TeamTalk.Timers
