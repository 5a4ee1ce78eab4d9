import BlockCache.Cache.Basic
import BlockCache.Proofs.Layout.Consistent

/-!
# Moves

The steps in which a cache changes a slot. Each move changes one slot, and may take it out of the lists or put it
into them. `Consistent.after` says that a move that is allowed keeps a layout consistent.
-/

namespace BlockCache

inductive Move
  | hit (slot : Nat)
  /-- A lookup gives the slot to a block, maybe from the ring of another bucket. -/
  | assign (slot : Nat) (key : Key) (stolenFrom : Option Nat)
  | grant (slot : Nat) (thread : Thread)
  | unlock (slot : Nat)
  | giveUp (slot : Nat)
  | finish (slot : Nat)
  | pin (slot : Nat)
  | unpin (slot : Nat)
  | edit (slot : Nat) (bytes : Bytes)
  | load (slot : Nat) (bytes : Bytes)
  | keep (slot : Nat)

namespace Move

def slot : Move → Nat
  | hit i | assign i _ _ | grant i _ | unlock i | giveUp i | finish i | pin i | unpin i | edit i _ | load i _
  | keep i => i

def change : Move → Slot → Slot
  | hit _ => Slot.take
  | assign _ key _ => (·.occupy key)
  | grant _ t => fun s => { s with data := s.data.grant t }
  | unlock _ => fun s => { s with data := s.data.unlock }
  | giveUp _ => Slot.give
  | finish _ => fun s => { s with data := s.data.unlock }.give
  | pin _ => fun s => { s with pins := s.pins + 1 }.take
  | unpin _ => fun s => { s with pins := s.pins - 1 }.give
  | edit _ bytes => (·.withBytes bytes)
  | load _ bytes => fun s => (s.withBytes bytes).validate
  | keep _ => Slot.validate

def count : Move → Usage → Usage
  | hit _ => fun n => { n with hits := n.hits + 1 }
  | assign _ _ none => fun n => { n with misses := n.misses + 1, evictions := n.evictions + 1 }
  | assign _ _ (some _) => fun n => { n with misses := n.misses + 1, steals := n.steals + 1 }
  | load _ _ => fun n => { n with reads := n.reads + 1 }
  | keep _ => fun n => { n with writes := n.writes + 1 }
  | _ => id

end Move

namespace Layout

def after (L : Layout) : Move → Layout
  | .hit i => L.hit i
  | .assign i key _ => L.assign i key
  | .giveUp i => L.letGo i
  | .finish i => (L.change i fun s => { s with data := s.data.unlock }).letGo i
  | move => L.change move.slot move.change

def isFree (L : Layout) (i : Nat) : Bool := L.slots[i]?.any fun s => s.refcount = 0

def frees (L : Layout) : Move → Bool
  | .giveUp i | .finish i => L.slots[i]?.any (·.refcount = 1)
  | _ => false

def Ready (L : Layout) (s : Slot) : Move → Prop
  | .hit _ => s.assigned = true
  | .assign i key origin =>
      L.Absent key ∧ ∃ rest, L.ring (origin.getD (L.home key)) = i :: rest
  | .grant _ _ => s.refcount ≠ 0 ∧ s.data.holder = none
  | .giveUp _ => s.refcount ≠ 0 ∧ (s.refcount = 1 → s.data.holder = none)
  | .unpin _ => s.data.isLocked = true ∧ s.pins ≠ 0 ∧ 2 ≤ s.refcount
  | _ => s.data.isLocked = true

def Allows (L : Layout) (move : Move) : Prop :=
  ∃ s, L.slots[move.slot]? = some s ∧ L.Ready s move

variable {L : Layout} {i : Nat} {s : Slot} {move : Move}

theorem Consistent.referenced_of_locked (consistent : L.Consistent) (here : L.slots[i]? = some s)
    (locked : s.data.isLocked = true) : s.refcount ≠ 0 := by
  intro free
  rw [(consistent.proper here).agrees.isLocked_eq, (consistent.proper here).free free] at locked
  cases locked

theorem Consistent.assigned_of_referenced (consistent : L.Consistent) (here : L.slots[i]? = some s)
    (referenced : s.refcount ≠ 0) : s.assigned = true :=
  (consistent.proper here).referenced (Nat.pos_of_ne_zero referenced)

theorem letGo_slots (here : L.slots[i]? = some s) : (L.letGo i).slots = L.slots.modify i Slot.give := by
  simp only [letGo, here]
  split <;> rfl

theorem after_slots (here : L.slots[move.slot]? = some s) :
    (L.after move).slots = L.slots.modify move.slot move.change := by
  cases move with
  | finish i =>
      rw [after, letGo_slots (change_same here _)]
      exact congrArg Layout.slots (change_change L i _ Slot.give)
  | giveUp i => exact letGo_slots here
  | _ => rfl

theorem refcount_of_assign {key : Key} {origin : Option Nat} (consistent : L.Consistent) (here : L.slots[i]? = some s)
    (ready : L.Ready s (.assign i key origin)) : s.refcount = 0 := by
  obtain ⟨-, rest, oldest⟩ := ready
  exact ((consistent.ringed here _).mp (oldest ▸ List.mem_cons_self)).1

theorem change_of_referenced (consistent : L.Consistent) (here : L.slots[move.slot]? = some s)
    (ready : L.Ready s move) (referenced : s.refcount ≠ 0) :
    (move.change s).key = s.key ∧ (s.valid = true → (move.change s).valid = true) := by
  cases move with
  | assign i key origin => exact absurd (refcount_of_assign consistent here ready) referenced
  | load i bytes => exact ⟨rfl, fun _ => rfl⟩
  | keep i => exact ⟨rfl, fun _ => rfl⟩
  | _ => exact ⟨rfl, id⟩

theorem Consistent.after (consistent : L.Consistent) (allowed : L.Allows move) : (L.after move).Consistent := by
  obtain ⟨s, here, ready⟩ := allowed
  have keeps {f : Slot → Slot} (locked : s.data.isLocked = true) (key : (f s).key = s.key)
      (assigned : (f s).assigned = s.assigned) (referenced : (f s).refcount ≠ 0) (agrees : (f s).data.Agrees) :
      (L.change move.slot f).Consistent := by
    have busy := consistent.referenced_of_locked here locked
    have standing := consistent.assigned_of_referenced here busy
    refine consistent.change here key assigned (by omega)
      ⟨fun _ => ?_, fun _ => ?_, fun free => absurd free referenced, agrees⟩
    · rw [assigned, standing]
    · rw [assigned, standing]
  have agrees := (consistent.proper here).agrees
  cases move with
  | hit i => exact consistent.hit here ready
  | assign i key origin => exact consistent.assign here ready.1
  | grant i t =>
      have standing := consistent.assigned_of_referenced here ready.1
      exact consistent.change here rfl rfl Iff.rfl
        ⟨fun _ => standing, fun _ => standing, fun free => absurd free ready.1, s.data.grant_agrees t⟩
  | unlock i =>
      exact keeps ready rfl rfl (consistent.referenced_of_locked (s := s) here ready) s.data.unlock_agrees
  | giveUp i => exact consistent.letGo here ready.1 ready.2
  | finish i =>
      have busy := consistent.referenced_of_locked here ready
      have unlocked : (L.change i fun s => { s with data := s.data.unlock }).Consistent :=
        keeps ready rfl rfl busy s.data.unlock_agrees
      exact unlocked.letGo (change_same here _) busy fun _ => rfl
  | pin i => exact keeps ready rfl rfl (by simp [Move.change, Slot.take]) agrees
  | unpin i => exact keeps ready.1 rfl rfl (by have := ready.2.2; simp only [Move.change, Slot.give]; omega) agrees
  | edit i bytes =>
      exact keeps ready rfl rfl (consistent.referenced_of_locked (s := s) here ready) (agrees.set bytes)
  | load i bytes =>
      exact keeps ready rfl rfl (consistent.referenced_of_locked (s := s) here ready) (agrees.set bytes)
  | keep i => exact keeps ready rfl rfl (consistent.referenced_of_locked (s := s) here ready) agrees

end Layout

theorem Table.Sound.rings_eq_nil_iff {table : Table} (sound : table.Sound) :
    (∀ b, table.layout.ring b = []) ↔ ∀ i, table.layout.isFree i = false := by
  constructor
  · intro empty i
    cases here : table.layout.slots[i]? with
    | none => simp [Layout.isFree, here]
    | some s =>
        have away : i ∉ table.layout.ring (table.layout.bucketOf i s) := by simp [empty]
        simpa [Layout.isFree, here, sound.consistent.ringed here] using away
  · intro none b
    refine List.eq_nil_iff_forall_not_mem.mpr fun i member => ?_
    have here := Array.getElem?_eq_getElem (sound.shows.rings.lt_nodes member)
    have free := ((sound.consistent.ringed here b).mp member).1
    simpa [Layout.isFree, here, free] using none i

theorem Table.Sound.unfree_iff {table : Table} (sound : table.Sound) :
    (∀ b, table.layout.ring b = []) ↔ ∀ (i : Nat) (s : Slot), table.slots[i]? = some s → s.refcount ≠ 0 := by
  rw [sound.rings_eq_nil_iff]
  apply forall_congr'
  intro i
  show table.slots[i]?.any _ = false ↔ _
  cases table.slots[i]? <;> simp

end BlockCache
