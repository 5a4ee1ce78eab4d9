import BlockCache.Device.RamDisk
import BlockCache.Proofs.Host.Walks

/-!
# The representation invariant

In every state of every run the links of a cache say what its slots say: `representation_kept`.
-/

namespace BlockCache

structure Table.Represents (t : Table) (capacity buckets : Nat) : Prop where
  size : t.slots.size = capacity
  /-- A slot that stands for a block is in the chain of the block's bucket, once, and in no other chain. -/
  chained : ∀ b i, (t.chains.toList b).count i =
    if t.slots[i]?.any fun s => s.assigned ∧ s.key.block.toNat % buckets = b then 1 else 0
  /-- A slot that nobody refers to is in the ring of its block's bucket, or of its own number's if it was never used,
  once, and in no other ring. -/
  ringed : ∀ b i, (t.rings.forward b).count i =
    if t.slots[i]?.any fun s => s.refcount = 0 ∧ (if s.assigned then s.key.block.toNat else i) % buckets = b
    then 1 else 0
  distinct : ∀ (i j : Nat) (s s' : Slot), t.slots[i]? = some s → t.slots[j]? = some s' → s.assigned = true →
    s'.assigned = true → s.key = s'.key → i = j
  identified : ∀ (i : Nat) (s : Slot), t.slots[i]? = some s → s.valid = true ∨ 0 < s.refcount → s.assigned = true

namespace Table

variable {t : Table} {b i : Nat}

theorem Sound.mem_chain (sound : t.Sound) (b i : Nat) : i ∈ t.chains.toList b ↔
    t.slots[i]?.any (fun s => s.assigned ∧ s.key.block.toNat % t.layout.buckets = b) = true := by
  show i ∈ t.layout.chain b ↔ _
  cases here : t.slots[i]? with
  | none =>
      have outside : t.layout.slots.size ≤ i := Array.getElem?_eq_none_iff.mp here
      have away : i ∉ t.layout.chain b := fun member => Nat.not_lt.mpr outside (sound.shows.chains.lt_slots member)
      simp [away]
  | some s =>
      rw [sound.consistent.chained here b, Option.any_some, decide_eq_true_iff, eq_comm (a := b)]
      rfl

theorem Sound.mem_ring (sound : t.Sound) (b i : Nat) : i ∈ t.rings.forward b ↔
    t.slots[i]?.any (fun s =>
      s.refcount = 0 ∧ (if s.assigned then s.key.block.toNat else i) % t.layout.buckets = b) = true := by
  show i ∈ t.layout.ring b ↔ _
  cases here : t.slots[i]? with
  | none =>
      have outside : t.layout.slots.size ≤ i := Array.getElem?_eq_none_iff.mp here
      have away : i ∉ t.layout.ring b := fun member => Nat.not_lt.mpr outside (sound.shows.rings.lt_nodes member)
      simp [away]
  | some s =>
      rw [sound.consistent.ringed here b, Option.any_some, decide_eq_true_iff, eq_comm (a := b), Layout.bucketOf]
      cases s.assigned <;> rfl

theorem Sound.represents (sound : t.Sound) : t.Represents t.slots.size t.layout.buckets where
  size := rfl
  chained b i := by
    have nodup : (t.chains.toList b).Nodup := sound.consistent.chain_nodup b
    simp only [nodup.count, sound.mem_chain]
  ringed b i := by
    have nodup : (t.rings.forward b).Nodup := sound.consistent.ring_nodup b
    simp only [nodup.count, sound.mem_ring]
  distinct i j s s' here there := sound.consistent.distinct here there
  identified i s here used := used.elim (sound.consistent.proper here).valid (sound.consistent.proper here).referenced

end Table

/-- Whatever steps any threads take, the links of each cache agree with its slots. -/
theorem representation_kept {δ : Type} [BlockDevice δ] (devices : List δ) (plans : List (Nat × Plan))
    (steps : List Step) {c device : Nat} {plan : Plan} {m : Mount} (planned : plans[c]? = some (device, plan))
    (there : ((Host.assemble devices plans).walk steps).mount? c = some m) :
    m.cache.table.Represents plan.capacity plan.buckets := by
  obtain ⟨pins, sound⟩ := Host.walk_sound devices plans steps
  obtain ⟨-, capacity, buckets, -⟩ := Host.walk_measures there planned
  have represents := (sound.tables there).represents
  rwa [show m.cache.table.slots.size = plan.capacity from capacity,
    show m.cache.table.layout.buckets = plan.buckets from buckets] at represents

/-- A lookup ends in vain, while the lease on the only slot, which is pinned, ends in two steps. -/
theorem representation_of_full_cache :
    let plan : Plan := ⟨1, 2, 4, .wait⟩
    let steps : List Step := [.act (.start 0 "a" 0 ⟨⟨0, 3⟩, .block, true⟩), .probe 0 1, .probe 0 0, .act (.turn 0),
      .act (.turn 0), .act (.answer 0), .act (.pin 0 0 "a"), .unlock 0 "a" (.released none),
      .act (.start 1 "b" 0 ⟨⟨0, 4⟩, .block, true⟩), .probe 1 0, .part 0 0, .probe 1 1, .conclude 1 0]
    ∃ m, ((Host.assemble [RamDisk.empty 4 none] [(0, plan)]).walk steps).mount? 0 = some m ∧
      m.cache.table.Represents 1 2 := by
  intro plan steps
  have mounted : (((Host.assemble [RamDisk.empty 4 none] [(0, plan)]).walk steps).mount? 0).isSome = true := by
    decide +kernel
  obtain ⟨m, there⟩ := Option.isSome_iff_exists.mp mounted
  exact ⟨m, there, representation_kept _ _ _ rfl there⟩

end BlockCache
