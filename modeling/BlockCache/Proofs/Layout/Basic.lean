import BlockCache.Proofs.Links.Chains
import BlockCache.Proofs.Links.Rings
import BlockCache.Proofs.Lock.Agreement
import BlockCache.Table

/-!
# Layouts

A layout is a slot table without its links: for each bucket it lists the slots of the chain and those of the ring.
`Table.Shows` says that the links of a table are those of a layout. Under it each operation on the table is one on
the layout.
-/

namespace BlockCache

def Slot.take (s : Slot) : Slot := { s with refcount := s.refcount + 1 }

def Slot.give (s : Slot) : Slot := { s with refcount := s.refcount - 1 }

structure Layout where
  slots : Array Slot
  buckets : Nat
  chain : Nat → List Nat
  ring : Nat → List Nat

namespace Layout

def home (L : Layout) (key : Key) : Nat := key.block.toNat % L.buckets

/-- The bucket in whose ring a slot is while nobody refers to it. -/
def bucketOf (L : Layout) (i : Nat) (s : Slot) : Nat :=
  if s.assigned then L.home s.key else i % L.buckets

def change (L : Layout) (i : Nat) (f : Slot → Slot) : Layout :=
  { L with slots := L.slots.modify i f }

def unchain (L : Layout) (i : Nat) : Layout :=
  { L with chain := fun b => (L.chain b).erase i }

def enchain (L : Layout) (b i : Nat) : Layout :=
  { L with chain := fun b' => if b' = b then i :: L.chain b' else L.chain b' }

def withdraw (L : Layout) (i : Nat) : Layout :=
  { L with ring := fun b => (L.ring b).erase i }

def addNewest (L : Layout) (b i : Nat) : Layout :=
  { L with ring := fun b' => if b' = b then L.ring b' ++ [i] else L.ring b' }

def empty (slots buckets blockSize : Nat) : Layout where
  slots := Array.replicate slots (Slot.fresh blockSize)
  buckets
  chain _ := []
  ring _ := []

theorem change_change (L : Layout) (i : Nat) (f g : Slot → Slot) :
    (L.change i f).change i g = L.change i fun s => g (f s) := by
  have slots : (L.slots.modify i f).modify i g = L.slots.modify i fun s => g (f s) := by
    refine Array.ext_getElem? fun j => ?_
    simp only [Array.getElem?_modify]
    split <;> simp [Function.comp_def]
  simp only [change, slots]

end Layout

namespace Table
open Update

def layout (t : Table) : Layout where
  slots := t.slots
  buckets := t.chains.heads.size
  chain := t.chains.toList
  ring := t.rings.forward

structure Shows (t : Table) (L : Layout) : Prop where
  slots : t.slots = L.slots
  chains : t.chains.Holds L.slots.size L.buckets L.chain
  rings : t.rings.Holds L.slots.size L.buckets L.ring

theorem Shows.layout_eq {t : Table} {L : Layout} (shows : t.Shows L) : t.layout = L := by
  have chain : t.chains.toList = L.chain := funext shows.chains.toList_eq
  have ring : t.rings.forward = L.ring := funext shows.rings.forward_eq
  simp [layout, shows.slots, shows.chains.size_heads, chain, ring]

theorem Shows.of_layout {t : Table} {L : Layout} (shows : t.Shows L) : t.Shows t.layout :=
  shows.layout_eq.symm ▸ shows

theorem Shows.unique {t t' : Table} {L : Layout} (shows : t.Shows L) (shows' : t'.Shows L) : t = t' := by
  obtain ⟨slots, chains, rings⟩ := t
  obtain ⟨slots', chains', rings'⟩ := t'
  obtain rfl : slots = slots' := shows.slots.trans shows'.slots.symm
  obtain rfl : chains = chains' := shows.chains.unique shows'.chains
  obtain rfl : rings = rings' := shows.rings.unique shows'.rings
  rfl

theorem empty_shows (slots buckets blockSize : Nat) :
    (empty slots buckets blockSize).Shows (Layout.empty slots buckets blockSize) where
  slots := rfl
  chains := by simpa [Layout.empty, empty] using Chains.empty_holds slots buckets
  rings := by simpa [Layout.empty, empty] using Rings.empty_holds slots buckets

section
variable {t : Table} {L : Layout} {i b : Nat}

theorem onChains_ok {α : Type} {update : Update Chains α} {a : α} {chains : Chains}
    (done : update t.chains = .ok a chains) : onChains update t = .ok a { t with chains } := by
  simp [onChains, done]

theorem onRings_ok {α : Type} {update : Update Rings α} {a : α} {rings : Rings}
    (done : update t.rings = .ok a rings) : onRings update t = .ok a { t with rings } := by
  simp [onRings, done]

theorem slot_ok (shows : t.Shows L) {s : Slot} (here : L.slots[i]? = some s) : slot i t = .ok s t := by
  rw [slot, get_bind]
  exact elementAt_ok (shows.slots ▸ here)

theorem Shows.set (shows : t.Shows L) {s : Slot} (here : L.slots[i]? = some s) (f : Slot → Slot) :
    Shows { t with slots := t.slots.setIfInBounds i (f s) } (L.change i f) where
  slots := by
    refine Array.ext_getElem? fun j => ?_
    by_cases same : i = j
    · subst same
      have size := (Array.getElem?_eq_some_iff.mp here).1
      rw [shows.slots, Array.getElem?_setIfInBounds_self_of_lt size]
      simp only [Layout.change, Array.getElem?_modify, if_true, here, Option.map_some]
    · simp [Layout.change, shows.slots, same, Array.getElem?_modify]
  chains := by simpa [Layout.change] using shows.chains
  rings := by simpa [Layout.change] using shows.rings

theorem setSlot_shows (shows : t.Shows L) {s : Slot} (here : L.slots[i]? = some s) (f : Slot → Slot) :
    ∃ t', setSlot i (f s) t = .ok () t' ∧ t'.Shows (L.change i f) :=
  ⟨_, rfl, shows.set here f⟩

theorem update_shows (shows : t.Shows L) {s : Slot} (here : L.slots[i]? = some s) (f : Slot → Slot) :
    ∃ t', update i f t = .ok s t' ∧ t'.Shows (L.change i f) := by
  obtain ⟨t', set, shows'⟩ := setSlot_shows shows here f
  refine ⟨t', ?_, shows'⟩
  rw [update, bind_ok (slot_ok shows here), bind_ok set, pure_apply]

theorem occupy_shows (shows : t.Shows L) {s : Slot} (here : L.slots[i]? = some s) (key : Key) :
    ∃ t', occupy i key t = .ok () t' ∧ t'.Shows (L.change i (·.occupy key)) := by
  obtain ⟨t', updated, shows'⟩ := update_shows shows here (·.occupy key)
  exact ⟨t', bind_ok updated _, shows'⟩

theorem validate_shows (shows : t.Shows L) {s : Slot} (here : L.slots[i]? = some s) :
    ∃ t', validate i t = .ok () t' ∧ t'.Shows (L.change i Slot.validate) := by
  obtain ⟨t', updated, shows'⟩ := update_shows shows here Slot.validate
  exact ⟨t', bind_ok updated _, shows'⟩

theorem take_shows (shows : t.Shows L) {s : Slot} (here : L.slots[i]? = some s) :
    ∃ t', take i t = .ok s.refcount t' ∧ t'.Shows (L.change i Slot.take) := by
  obtain ⟨t', updated, shows'⟩ := update_shows shows here Slot.take
  exact ⟨t', bind_ok updated _, shows'⟩

theorem give_shows (shows : t.Shows L) {s : Slot} (here : L.slots[i]? = some s) (referenced : s.refcount ≠ 0) :
    ∃ t', give i t = .ok (s.refcount - 1) t' ∧ t'.Shows (L.change i Slot.give) := by
  obtain ⟨t', set, shows'⟩ := setSlot_shows shows here Slot.give
  refine ⟨t', ?_, shows'⟩
  rw [give, bind_ok (slot_ok shows here), if_neg referenced]
  exact bind_ok set _

theorem pin_shows (shows : t.Shows L) {s : Slot} (here : L.slots[i]? = some s) :
    ∃ t', pin i t = .ok () t' ∧ t'.Shows (L.change i fun s => { s with pins := s.pins + 1 }) := by
  obtain ⟨t', updated, shows'⟩ := update_shows shows here fun s => { s with pins := s.pins + 1 }
  exact ⟨t', bind_ok updated _, shows'⟩

theorem unpin_shows (shows : t.Shows L) {s : Slot} (here : L.slots[i]? = some s) :
    ∃ t', unpin i t = .ok () t' ∧ t'.Shows (L.change i fun s => { s with pins := s.pins - 1 }) := by
  obtain ⟨t', updated, shows'⟩ := update_shows shows here fun s => { s with pins := s.pins - 1 }
  exact ⟨t', bind_ok updated _, shows'⟩

theorem lock_shows (shows : t.Shows L) {s : Slot} (here : L.slots[i]? = some s) (thread : Thread) :
    ∃ t', lock i thread t = .ok () t' ∧
      t'.Shows (L.change i fun s => { s with data := s.data.grant thread }) := by
  obtain ⟨t', updated, shows'⟩ := update_shows shows here fun s => { s with data := s.data.grant thread }
  exact ⟨t', bind_ok updated _, shows'⟩

theorem unlock_shows (shows : t.Shows L) {s : Slot} (here : L.slots[i]? = some s) (locked : s.data.isLocked) :
    ∃ t', unlock i t = .ok () t' ∧ t'.Shows (L.change i fun s => { s with data := s.data.unlock }) := by
  obtain ⟨t', set, shows'⟩ := setSlot_shows shows here fun s => { s with data := s.data.unlock }
  refine ⟨t', ?_, shows'⟩
  rw [unlock, bind_ok (slot_ok shows here), if_pos locked]
  exact set

theorem setBytes_shows (shows : t.Shows L) {s : Slot} (here : L.slots[i]? = some s) (bytes : Bytes) :
    ∃ t', setBytes i bytes t = .ok () t' ∧ t'.Shows (L.change i (·.withBytes bytes)) := by
  obtain ⟨t', updated, shows'⟩ := update_shows shows here (·.withBytes bytes)
  exact ⟨t', bind_ok updated _, shows'⟩

theorem find_ok (shows : t.Shows L) (inside : b < L.buckets) (key : Key) :
    find b key t = .ok ((L.chain b).find? fun i => L.slots[i]?.any (·.key = key)) t := by
  rw [find, get_bind, shows.slots]
  exact onChains_ok (Chains.find_holds shows.chains inside _)

theorem chain_shows (shows : t.Shows L) (inside : b < L.buckets) (slot : i < L.slots.size)
    (fresh : ∀ b', i ∉ L.chain b') : ∃ t', chain b i t = .ok () t' ∧ t'.Shows (L.enchain b i) := by
  obtain ⟨chains, inserted, holds⟩ := Chains.insert_holds shows.chains inside slot fresh
  exact ⟨_, onChains_ok inserted, shows.slots, holds, shows.rings⟩

theorem unchain_shows (shows : t.Shows L) (member : i ∈ L.chain b) :
    ∃ t', unchain b i t = .ok () t' ∧ t'.Shows (L.unchain i) := by
  obtain ⟨chains, removed, holds⟩ := Chains.remove_holds shows.chains member
  exact ⟨_, onChains_ok removed, shows.slots, holds, shows.rings⟩

theorem takeOldest_nil (shows : t.Shows L) (inside : b < L.buckets) (none : L.ring b = []) :
    takeOldest b t = .ok .none t :=
  onRings_ok (Rings.pop_holds_nil shows.rings inside none)

theorem takeOldest_shows (shows : t.Shows L) {rest : List Nat} (oldest : L.ring b = i :: rest) :
    ∃ t', takeOldest b t = .ok (some i) t' ∧ t'.Shows (L.withdraw i) := by
  obtain ⟨rings, popped, holds⟩ := Rings.pop_holds shows.rings oldest
  exact ⟨_, onRings_ok popped, shows.slots, shows.chains, holds⟩

theorem addNewest_shows (shows : t.Shows L) (inside : b < L.buckets) (slot : i < L.slots.size)
    (fresh : ∀ b', i ∉ L.ring b') : ∃ t', addNewest b i t = .ok () t' ∧ t'.Shows (L.addNewest b i) := by
  obtain ⟨rings, pushed, holds⟩ := Rings.push_holds shows.rings inside slot fresh
  exact ⟨_, onRings_ok pushed, shows.slots, shows.chains, holds⟩

theorem withdraw_shows (shows : t.Shows L) (member : i ∈ L.ring b) :
    ∃ t', withdraw b i t = .ok () t' ∧ t'.Shows (L.withdraw i) := by
  obtain ⟨rings, removed, holds⟩ := Rings.remove_holds shows.rings member
  exact ⟨_, onRings_ok removed, shows.slots, shows.chains, holds⟩

theorem free_eq (shows : t.Shows L) : t.free = ((List.range L.buckets).flatMap L.ring).length := by
  have count (bs : List Nat) (n : Nat) :
      bs.foldl (fun n b => n + (L.ring b).length) n = n + (bs.flatMap L.ring).length := by
    induction bs generalizing n with
    | nil => rfl
    | cons b bs ih => rw [List.foldl_cons, ih, List.flatMap_cons, List.length_append, Nat.add_assoc]
  have rings : t.rings.rings.toList = (List.range L.buckets).map fun b =>
      ⟨(L.ring b).head?, (L.ring b).getLast?, (L.ring b).length⟩ := by
    refine List.ext_getElem? fun b => ?_
    rcases Nat.lt_or_ge b L.buckets with inside | outside
    · simp [shows.rings.ends b inside, inside]
    · have none : t.rings.rings[b]? = none :=
        Array.getElem?_eq_none (by rw [shows.rings.size_rings]; exact outside)
      simp [none, outside]
  rw [free, ← Array.foldl_toList, rings, List.foldl_map, count, Nat.zero_add]

end
end Table
end BlockCache
