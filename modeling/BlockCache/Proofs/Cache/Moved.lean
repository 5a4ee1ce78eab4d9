import BlockCache.Cache.Transfer
import BlockCache.Proofs.Cache.Lookup
import BlockCache.Proofs.Layout.Moves

/-!
# Operations as moves

`Cache.Moved` relates a cache to what one move makes of it. Each operation on a slot whose table is sound is a move,
or fails and leaves the cache as it was.
-/

namespace BlockCache.Cache
open Update

/-- The cache `c'` is what a move makes of the cache `c`. -/
structure Moved (c : Cache) (move : Move) (c' : Cache) : Prop where
  allowed : c.table.layout.Allows move
  shows : c'.table.Shows (c.table.layout.after move)
  blockSize : c'.blockSize = c.blockSize
  exhaustion : c'.exhaustion = c.exhaustion
  freed : c'.freed = c.freed + if c.exhaustion = .wait ∧ c.table.layout.frees move then 1 else 0
  usage : c'.usage = move.count c.usage

section
variable {c c' : Cache} {move : Move} {i : Nat} {s : Slot} {t : Thread}

theorem eq_of_fields (table : c.table = c'.table) (blockSize : c.blockSize = c'.blockSize)
    (exhaustion : c.exhaustion = c'.exhaustion) (freed : c.freed = c'.freed) (usage : c.usage = c'.usage) : c = c' := by
  cases c
  cases c'
  simp_all only

theorem Moved.sound (moved : c.Moved move c') (sound : c.table.Sound) : c'.table.Sound :=
  .of_shows moved.shows (sound.consistent.after moved.allowed)

theorem Moved.slots_eq (moved : c.Moved move c') :
    c'.table.slots = c.table.slots.modify move.slot move.change := by
  obtain ⟨s, here, -⟩ := moved.allowed
  exact moved.shows.slots.trans (Layout.after_slots here)

theorem Moved.same (moved : c.Moved move c') (here : c.table.slots[move.slot]? = some s) :
    c'.table.slots[move.slot]? = some (move.change s) := by
  rw [moved.slots_eq]
  exact Layout.change_same (L := c.table.layout) here _

theorem Moved.other (moved : c.Moved move c') {j : Nat} (other : j ≠ move.slot) :
    c'.table.slots[j]? = c.table.slots[j]? := by
  rw [moved.slots_eq]
  exact Layout.change_other (L := c.table.layout) other _

theorem Moved.table_eq (moved : c.Moved move c') {table : Table} (shows : table.Shows (c.table.layout.after move)) :
    c'.table = table :=
  moved.shows.unique shows

theorem Moved.eq_change (moved : c.Moved move c') (sound : c.table.Sound)
    (still : c.table.layout.after move = c.table.layout.change move.slot move.change)
    (keeps : c.table.layout.frees move = false) :
    c' = { c with
      table.slots := c.table.slots.modify move.slot move.change
      usage := move.count c.usage } := by
  obtain ⟨s, here, -⟩ := moved.allowed
  have shows : Table.Shows { c.table with slots := c.table.slots.modify move.slot move.change }
      (c.table.layout.after move) := by
    have set := sound.shows.set here move.change
    rw [still]
    exact ⟨rfl, set.chains, set.rings⟩
  have freed : c'.freed = c.freed := by simpa [keeps] using moved.freed
  exact eq_of_fields (moved.table_eq shows) moved.blockSize moved.exhaustion freed moved.usage

theorem Moved.of_change {table : Table} (allowed : c.table.layout.Allows move)
    (shows : table.Shows (c.table.layout.after move)) (keeps : c.table.layout.frees move = false)
    (uncounted : move.count c.usage = c.usage) : c.Moved move { c with table } where
  allowed := allowed
  shows := shows
  blockSize := rfl
  exhaustion := rfl
  freed := by simp [keeps]
  usage := uncounted.symm

theorem lock_moved (sound : c.table.Sound) (here : c.table.slots[i]? = some s) (referenced : s.refcount ≠ 0)
    (unlocked : s.data.holder = none) (t : Thread) :
    ∃ c', onTable (Table.lock i t) c = .ok () c' ∧ c.Moved (.grant i t) c' := by
  obtain ⟨table, locked, shows⟩ := Table.lock_shows sound.shows here t
  exact ⟨_, onTable_ok locked, .of_change ⟨s, here, referenced, unlocked⟩ shows rfl rfl⟩

theorem setBytes_moved (sound : c.table.Sound) (here : c.table.slots[i]? = some s)
    (locked : s.data.isLocked = true) (bytes : Bytes) :
    ∃ c', onTable (Table.setBytes i bytes) c = .ok () c' ∧ c.Moved (.edit i bytes) c' := by
  obtain ⟨table, changed, shows⟩ := Table.setBytes_shows sound.shows here bytes
  exact ⟨_, onTable_ok changed, .of_change ⟨s, here, locked⟩ shows rfl rfl⟩

theorem letGo_shows {L : Layout} (shows : c.table.Shows L) (consistent : L.Consistent) (here : L.slots[i]? = some s)
    (referenced : s.refcount ≠ 0) :
    ∃ table, letGo i c = .ok () { c with
        table
        freed := c.freed + if c.exhaustion = .wait ∧ s.refcount = 1 then 1 else 0 } ∧
      table.Shows (L.letGo i) := by
  obtain ⟨t₁, given, shows₁⟩ := Table.give_shows shows here referenced
  have assigned := consistent.assigned_of_referenced here referenced
  rw [letGo, bind_ok (onTable_ok (Table.slot_ok shows here)), bind_ok (onTable_ok given)]
  by_cases single : s.refcount = 1
  · have away : ∀ b, i ∉ L.ring b := fun b member => referenced ((consistent.ringed here b).mp member).1
    have slot : i < (L.change i Slot.give).slots.size := by
      simpa [Layout.change] using (Array.getElem?_eq_some_iff.mp here).1
    have home := home_eq (c := { c with table := t₁ }) shows₁ s.key
    obtain ⟨t₂, added, shows₂⟩ := Table.addNewest_shows shows₁ (consistent.home_lt s.key) slot away
    refine ⟨t₂, ?_, by simpa [Layout.letGo, here, single] using shows₂⟩
    rw [if_pos (by omega), get_bind, home]
    refine (bind_ok (onTable_ok (c := { c with table := t₁ }) added) _).trans ?_
    by_cases waits : c.exhaustion = .wait <;> simp [waits, single]
  · refine ⟨t₁, ?_, by simpa [Layout.letGo, here, single] using shows₁⟩
    rw [if_neg (by omega)]
    simp [single]

theorem letGo_moved (sound : c.table.Sound) (here : c.table.slots[i]? = some s) (referenced : s.refcount ≠ 0)
    (last : s.refcount = 1 → s.data.holder = none) :
    ∃ c', letGo i c = .ok () c' ∧ c.Moved (.giveUp i) c' := by
  obtain ⟨table, done, shows⟩ := letGo_shows sound.shows sound.consistent here referenced
  refine ⟨_, done, ⟨s, here, referenced, last⟩, shows, rfl, rfl, ?_, rfl⟩
  have same : c.table.layout.slots[i]? = some s := here
  simp [Layout.frees, same]

theorem unlock_moved (sound : c.table.Sound) (here : c.table.slots[i]? = some s) (locked : s.data.isLocked = true) :
    ∃ c', onTable (Table.unlock i) c = .ok () c' ∧ c.Moved (.unlock i) c' := by
  obtain ⟨table, unlocked, shows⟩ := Table.unlock_shows sound.shows here locked
  exact ⟨_, onTable_ok unlocked, .of_change ⟨s, here, locked⟩ shows rfl rfl⟩

theorem Moved.finish {c₁ : Cache} (unlocked : c.Moved (.unlock i) c₁) (given : c₁.Moved (.giveUp i) c') :
    c.Moved (.finish i) c' where
  allowed := unlocked.allowed
  shows := by
    have shows := given.shows
    rw [unlocked.shows.layout_eq] at shows
    exact shows
  blockSize := given.blockSize.trans unlocked.blockSize
  exhaustion := given.exhaustion.trans unlocked.exhaustion
  freed := by
    obtain ⟨s, here, -⟩ := unlocked.allowed
    have same : c.table.layout.slots[i]? = some s := here
    have after : c₁.table.layout.slots[i]? = some ((Move.unlock i).change s) := unlocked.same here
    have kept : c₁.freed = c.freed := by simpa [Layout.frees] using unlocked.freed
    rw [given.freed, unlocked.exhaustion, kept]
    simp [Layout.frees, same, after, Move.change]
  usage := given.usage.trans unlocked.usage

theorem unlock_letGo (sound : c.table.Sound) (here : c.table.slots[i]? = some s) (locked : s.data.isLocked = true) :
    ∃ c₁ c', onTable (Table.unlock i) c = .ok () c₁ ∧ letGo i c₁ = .ok () c' ∧ c.Moved (.unlock i) c₁ ∧
      c₁.Moved (.giveUp i) c' := by
  obtain ⟨c₁, unlocked, first⟩ := unlock_moved sound here locked
  have busy := sound.consistent.referenced_of_locked here locked
  obtain ⟨c', given, second⟩ := letGo_moved (first.sound sound) (first.same here) busy fun _ => rfl
  exact ⟨c₁, c', unlocked, given, first, second⟩

theorem endLease_moved (sound : c.table.Sound) (here : c.table.slots[i]? = some s)
    (locked : s.data.isLocked = true) : ∃ c', endLease i c = .ok () c' ∧ c.Moved (.finish i) c' := by
  obtain ⟨c₁, c', unlocked, given, first, second⟩ := unlock_letGo sound here locked
  exact ⟨c', (bind_ok unlocked _).trans given, first.finish second⟩

theorem locked_of_holder (sound : c.table.Sound) (here : c.table.slots[i]? = some s)
    (holder : s.data.holder = some t) : s.data.isLocked = true :=
  (sound.consistent.proper here).agrees.locked_of_holder holder

theorem authorize_eq (sound : c.table.Sound) (here : c.table.slots[i]? = some s) (op : LeaseOp) (t : Thread) :
    authorize op t i c = if s.data.holder = some t then .ok () c else .error (.stop (.notHeld op)) c := by
  rw [authorize, bind_ok (onTable_ok (Table.slot_ok sound.shows here))]
  have held := (sound.consistent.proper here).agrees.heldBy_iff (t := t)
  by_cases holder : s.data.holder = some t
  · rw [if_pos holder, held.mpr holder]
    rfl
  · rw [if_neg holder, Bool.eq_false_iff.mpr fun mine => holder (held.mp mine)]
    rfl

/-- Why an operation on a leased slot stops. -/
inductive Denied (s : Slot) (own : Bool) (t : Thread) : LeaseOp → Stop → Prop
  | foreign (op : LeaseOp) (other : own = false) : Denied s own t op (.foreignLease op)
  | notHeld (op : LeaseOp) (mine : own = true) (holder : s.data.holder ≠ some t) : Denied s own t op (.notHeld op)
  | notPinned (mine : own = true) (holder : s.data.holder = some t) (none : s.pins = 0) :
      Denied s own t .unpin (.notPinned s.key)

theorem Denied.stranger {op : LeaseOp} {stop : Stop} (denied : Denied s true t op stop) (other : op ≠ .unpin) :
    s.data.holder ≠ some t := by
  cases denied with
  | foreign op away => cases away
  | notHeld op mine stranger => exact stranger
  | notPinned => exact absurd rfl other

theorem authorize_cases (sound : c.table.Sound) (here : c.table.slots[i]? = some s) (op : LeaseOp) (t : Thread) :
    (s.data.holder = some t ∧ authorize op t i c = .ok () c) ∨
      Denied s true t op (.notHeld op) ∧ authorize op t i c = .error (.stop (.notHeld op)) c := by
  rw [authorize_eq sound here]
  by_cases holder : s.data.holder = some t
  · exact .inl ⟨holder, if_pos holder⟩
  · exact .inr ⟨.notHeld op rfl holder, if_neg holder⟩

theorem pin_moved (sound : c.table.Sound) (here : c.table.slots[i]? = some s) (t : Thread) :
    (∃ c', s.data.holder = some t ∧ pin t i c = .ok () c' ∧ c.Moved (.pin i) c') ∨
      ∃ stop, Denied s true t .pin stop ∧ pin t i c = .error (.stop stop) c := by
  rcases authorize_cases sound here .pin t with ⟨holder, authorized⟩ | ⟨denied, refused⟩
  · obtain ⟨t₁, pinned, shows₁⟩ := Table.pin_shows sound.shows here
    obtain ⟨t₂, taken, shows₂⟩ := Table.take_shows shows₁ (Layout.change_same here _)
    have locked := locked_of_holder sound here holder
    refine .inl ⟨{ c with table := t₂ }, holder, ?_, .of_change ⟨s, here, locked⟩ ?_ rfl rfl⟩
    · rw [pin, bind_ok authorized, bind_ok (onTable_ok pinned)]
      exact bind_ok (onTable_ok (c := { c with table := t₁ }) taken) _
    · rw [Layout.change_change] at shows₂
      exact shows₂
  · exact .inr ⟨_, denied, bind_error refused _⟩

theorem unpin_moved (sound : c.table.Sound) (here : c.table.slots[i]? = some s)
    (pinned : s.data.isLocked = true → s.pins ≠ 0 → 2 ≤ s.refcount) (t : Thread) :
    (∃ c', s.data.holder = some t ∧ s.pins ≠ 0 ∧ unpin t i c = .ok () c' ∧ c.Moved (.unpin i) c') ∨
      ∃ stop, Denied s true t .unpin stop ∧ unpin t i c = .error (.stop stop) c := by
  have read : onTable (Table.slot i) c = .ok s c := onTable_ok (Table.slot_ok sound.shows here)
  rcases authorize_cases sound here .unpin t with ⟨holder, authorized⟩ | ⟨denied, refused⟩
  · by_cases none : s.pins = 0
    · refine .inr ⟨.notPinned s.key, .notPinned rfl holder none, ?_⟩
      rw [unpin, bind_ok authorized, bind_ok read, if_pos none]
      rfl
    · have locked := locked_of_holder sound here holder
      have enough := pinned locked none
      obtain ⟨t₁, unpinned, shows₁⟩ := Table.unpin_shows sound.shows here
      obtain ⟨t₂, given, shows₂⟩ :=
        Table.give_shows shows₁ (Layout.change_same here _) (show s.refcount ≠ 0 by omega)
      refine .inl ⟨{ c with table := t₂ }, holder, none, ?_, .of_change ⟨s, here, locked, none, enough⟩ ?_ rfl rfl⟩
      · rw [unpin, bind_ok authorized, bind_ok read, if_neg none]
        refine (bind_ok (onTable_ok unpinned) _).trans ?_
        exact bind_ok (onTable_ok (c := { c with table := t₁ }) given) _
      · rw [Layout.change_change] at shows₂
        exact shows₂
  · exact .inr ⟨_, denied, bind_error refused _⟩

end
end BlockCache.Cache
