import BlockCache.Proofs.Cache.Probed
import BlockCache.Proofs.Cache.Resident

/-!
# Slots that are in use

A lookup of a block whose slot is in use takes a reference and counts a hit, and to give the reference back takes no
more than the reference: `Moved.joined`, `Moved.left`. Whether a lookup finds such a slot, a free one or none depends on
the cache alone.
-/

namespace BlockCache

namespace Cache

def joined (i : Nat) (c : Cache) : Cache :=
  { c with
    table.slots := c.table.slots.modify i Slot.take
    usage := { c.usage with hits := c.usage.hits + 1 } }

def left (i : Nat) (c : Cache) : Cache := { c with table.slots := c.table.slots.modify i Slot.give }

def hitCounted (c : Cache) : Cache := { c with usage := { c.usage with hits := c.usage.hits + 1 } }

def Busy (c : Cache) (key : Key) : Prop :=
  ∃ (i : Nat) (s : Slot), c.table.slots[i]? = some s ∧ s.assigned = true ∧ s.key = key ∧ s.data.isLocked = true

def Full (c : Cache) (key : Key) : Prop :=
  ∀ (i : Nat) (s : Slot), c.table.slots[i]? = some s → ¬ (s.assigned = true ∧ s.key = key) ∧ s.refcount ≠ 0

variable {c c' : Cache} {i : Nat} {s : Slot} {key : Key} {found : Found}

theorem left_joined (i : Nat) (c : Cache) : left i (joined i c) = hitCounted c := by
  have slots : (c.table.slots.modify i Slot.take).modify i Slot.give = c.table.slots := by
    refine Array.ext_getElem? fun j => ?_
    simp only [Array.getElem?_modify]
    split <;> simp [Option.map_map, Function.comp_def, Slot.take, Slot.give]
  simp only [left, joined, slots, hitCounted]

theorem Moved.joined (moved : c.Moved (.hit i) c') (sound : c.table.Sound) (here : c.table.slots[i]? = some s)
    (referenced : s.refcount ≠ 0) : c' = c.joined i :=
  moved.eq_change sound (Layout.hit_of_referenced sound.consistent here referenced).symm rfl

theorem Moved.left (moved : c.Moved (.giveUp i) c') (sound : c.table.Sound) (here : c.table.slots[i]? = some s)
    (shared : s.refcount ≠ 1) : c' = c.left i := by
  have there : c.table.layout.slots[i]? = some s := here
  exact moved.eq_change sound (by simp [Layout.after, Layout.letGo, there, shared, Move.slot, Move.change])
    (by simp [Layout.frees, there, shared])

theorem Gains.referenced (gains : c.Gains key found c') (here : c'.table.slots[found.slot]? = some s) :
    s.refcount ≠ 0 := by
  obtain ⟨s', before, -⟩ := gains.moved.allowed
  have after := gains.moved.same before
  rw [found.slot_move key] at after
  obtain rfl := Option.some.inj (after.symm.trans here)
  cases found with
  | hit i => exact Nat.succ_ne_zero _
  | evicted i old | stolen i j => exact Nat.one_ne_zero

theorem Gains.of_referenced (gains : c.Gains key found c') (sound : c.table.Sound)
    (here : c.table.slots[found.slot]? = some s) (busy : s.refcount ≠ 0) :
    ∃ i, found = .hit i ∧ c.table.layout.Has i key ∧ c' = c.joined i := by
  obtain ⟨s', here', ready⟩ := gains.moved.allowed
  rw [found.slot_move key] at here'
  obtain rfl : s' = s := Option.some.inj (here'.symm.trans here)
  cases found with
  | hit i => exact ⟨i, rfl, gains.suits, gains.moved.joined sound here busy⟩
  | evicted i old | stolen i j => exact absurd (Layout.refcount_of_assign sound.consistent here ready) busy

theorem Gains.of_locked (gains : c.Gains key found c') (sound : c.table.Sound)
    (locked : c'.table.slots[found.slot]?.any (·.data.isLocked) = true) :
    ∃ i s, found = .hit i ∧ c.table.slots[i]? = some s ∧ s.assigned = true ∧ s.key = key ∧
      s.data.isLocked = true ∧ s.refcount ≠ 0 ∧ c' = c.joined i := by
  obtain ⟨s, here, -⟩ := gains.moved.allowed
  have after := gains.moved.same here
  rw [found.slot_move key] at here after
  have data : ((found.move key).change s).data = s.data := by cases found <;> rfl
  rw [after, Option.any_some, data] at locked
  have busy := sound.consistent.referenced_of_locked here locked
  obtain ⟨i, rfl, ⟨s', here', assigned, mine⟩, joined⟩ := gains.of_referenced sound here busy
  obtain rfl : s' = s := Option.some.inj (here'.symm.trans here)
  exact ⟨i, s', rfl, here, assigned, mine, locked, busy, joined⟩

theorem Gains.locked_of_busy (gains : c.Gains key found c') (sound : c.table.Sound) (busy : c.Busy key) :
    c'.table.slots[found.slot]?.any (·.data.isLocked) = true := by
  obtain ⟨i, s, here, assigned, mine, locked⟩ := busy
  have has : c.table.layout.Has i key := ⟨s, here, assigned, mine⟩
  obtain ⟨s', -, ready⟩ := gains.moved.allowed
  cases found with
  | hit j =>
      obtain rfl := sound.consistent.unique has gains.suits
      have after : c'.table.slots[i]? = some s.take := gains.moved.same here
      rw [Found.slot, after]
      exact locked
  | evicted j old | stolen j b => exact absurd has (ready.1 i)

theorem Gains.not_full (gains : c.Gains key found c') (sound : c.table.Sound) : ¬ c.Full key := by
  intro full
  obtain ⟨s, here, ready⟩ := gains.moved.allowed
  cases found with
  | hit i =>
      obtain ⟨s', here', assigned, mine⟩ := gains.suits
      exact (full i s' here').1 ⟨assigned, mine⟩
  | evicted i old | stolen i b =>
      exact (full i s here).2 (Layout.refcount_of_assign sound.consistent here ready)

theorem Busy.not_full (busy : c.Busy key) : ¬ c.Full key := by
  obtain ⟨i, s, here, assigned, mine, -⟩ := busy
  exact fun full => (full i s here).1 ⟨assigned, mine⟩

theorem full_iff (sound : c.table.Sound) :
    c.Full key ↔ c.table.layout.Absent key ∧ ∀ b, c.table.layout.ring b = [] := by
  rw [sound.unfree_iff]
  constructor
  · intro full
    refine ⟨fun i has => ?_, fun i s here => (full i s here).2⟩
    obtain ⟨s, here, assigned, same⟩ := has
    exact (full i s here).1 ⟨assigned, same⟩
  · rintro ⟨absent, unfree⟩ i s here
    exact ⟨fun mine => absent i ⟨s, here, mine.1, mine.2⟩, unfree i s here⟩

end Cache
end BlockCache
