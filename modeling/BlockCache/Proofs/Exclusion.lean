import BlockCache.Device.RamDisk
import BlockCache.Proofs.Host.Walks

/-!
# Mutual exclusion

A slot has one lease at a time, and a call that is answered with a lease has the lease on its block, however long it
had to wait and whatever happened to the slots meanwhile: `exclusion_kept`.
-/

namespace BlockCache

namespace Host

variable {δ : Type}

structure Exclusive (s : Host δ) : Prop where
  single : (s.live.map fun lease => (lease.cache, lease.slot)).Nodup
  held : ∀ lease ∈ s.live, ∃ sl, s.slot? lease.cache lease.slot = some sl ∧ sl.data.holder = some lease.thread
  locked : ∀ (c i : Nat) (sl : Slot), s.slot? c i = some sl →
    (sl.data.isLocked = true ↔ ∃ lease ∈ s.live, lease.cache = c ∧ lease.slot = i)
  distinct : ∀ lease ∈ s.live, ∀ lease' ∈ s.live, lease.cache = lease'.cache →
    (s.slot? lease.cache lease.slot).map Slot.key = (s.slot? lease'.cache lease'.slot).map Slot.key → lease = lease'

/-- A call that is made now has the lease on its block, if a lease is what it is answered with after any steps. -/
def Honours [BlockDevice δ] (s : Host δ) : Prop :=
  ∀ (t : Thread) (name : String) (c : Nat) (call : Call) (steps : List Step) (v : Cache.View),
    let started := (s.start t name c call).host
    (s.start t name c call).reply = .done → started.Unanswered t steps →
      ((started.walk steps).answer t).reply = .lease v →
        v.key = call.key ∧ ((started.walk steps).answer t).host.lease? name = some ⟨c, v.slot, t⟩

variable {s : Host δ} {pins : Nat → Nat → Nat} {lease : Lease}

theorem Sound.slot_of_live (sound : s.Sound pins) (live : lease ∈ s.live) :
    ∃ sl, s.slot? lease.cache lease.slot = some sl := by
  rcases List.mem_append.mp live with answered | pending
  · obtain ⟨entry, held, rfl⟩ := List.mem_map.mp answered
    exact Option.isSome_iff_exists.mp (sound.leased entry held)
  · obtain ⟨⟨t, p⟩, called, claim⟩ := List.mem_filterMap.mp pending
    have supports : s.Supports p := sound.called _ called
    cases stage : p.stage with
    | loading i | granted i =>
        obtain rfl : (⟨p.cache, i, t⟩ : Lease) = lease := by simpa [Pending.lease?, stage] using claim
        obtain ⟨sl, here, -⟩ := supports.slot (i := i) (by rw [stage]; rfl)
        exact ⟨sl, here⟩
    | _ => simp [Pending.lease?, stage] at claim

theorem count_live (s : Host δ) (pins : Nat → Nat → Nat) (c i : Nat) :
    (s.live.map fun lease => (lease.cache, lease.slot)).count (c, i) = ((s.ledger pins).holders c i).length := by
  rw [List.count, List.countP_map, Ledger.holders, List.length_map, ← List.countP_eq_length_filter]
  exact List.countP_congr fun lease _ => by simp

theorem Sound.live_nodup (sound : s.Sound pins) : (s.live.map fun lease => (lease.cache, lease.slot)).Nodup := by
  refine List.nodup_iff_count.mpr fun (c, i) => ?_
  by_cases member : (c, i) ∈ s.live.map fun lease => (lease.cache, lease.slot)
  · obtain ⟨lease, live, same⟩ := List.mem_map.mp member
    obtain ⟨rfl, rfl⟩ := Prod.mk.inj same
    obtain ⟨sl, here⟩ := sound.slot_of_live live
    exact count_live s pins _ _ ▸ Ledger.holders_length_le (sound.accounted here)
  · rw [List.count_eq_zero.mpr member]
    exact Nat.zero_le 1

theorem Sound.live_of_locked (sound : s.Sound pins) {c i : Nat} {sl : Slot} (here : s.slot? c i = some sl)
    (locked : sl.data.isLocked = true) : ∃ lease ∈ s.live, lease.cache = c ∧ lease.slot = i := by
  obtain ⟨t, holder⟩ := Option.isSome_iff_exists.mp ((sound.agrees here).isLocked_eq ▸ locked)
  have member : t ∈ (s.ledger pins).holders c i := (sound.accounted here).holders.mem_iff.mpr (by simp [holder])
  obtain ⟨lease, live, -⟩ := List.mem_map.mp member
  obtain ⟨live, same⟩ := List.mem_filter.mp live
  obtain ⟨cache, slot⟩ := Prod.mk.inj (of_decide_eq_true same)
  exact ⟨lease, live, cache, slot⟩

theorem Sound.assigned_of_live (sound : s.Sound pins) (live : lease ∈ s.live) {m : Mount}
    (there : s.mount? lease.cache = some m) {sl : Slot} (here : s.slot? lease.cache lease.slot = some sl) :
    m.cache.table.slots[lease.slot]? = some sl ∧ sl.assigned = true := by
  have inTable : m.cache.table.slots[lease.slot]? = some sl := (slot?_eq there _).symm.trans here
  have consistent := (sound.tables there).consistent
  have locked := (sound.agrees here).locked_of_holder (sound.holder_of_live live here)
  exact ⟨inTable, consistent.assigned_of_referenced inTable (consistent.referenced_of_locked inTable locked)⟩

theorem Sound.live_distinct (sound : s.Sound pins) {lease' : Lease} (live : lease ∈ s.live) (live' : lease' ∈ s.live)
    (cache : lease.cache = lease'.cache)
    (key : (s.slot? lease.cache lease.slot).map Slot.key = (s.slot? lease'.cache lease'.slot).map Slot.key) :
    lease = lease' := by
  obtain ⟨sl, here⟩ := sound.slot_of_live live
  obtain ⟨sl', here'⟩ := sound.slot_of_live live'
  obtain ⟨m, there, -⟩ := Option.bind_eq_some_iff.mp here
  obtain ⟨inTable, assigned⟩ := sound.assigned_of_live live there here
  obtain ⟨inTable', assigned'⟩ := sound.assigned_of_live live' (cache ▸ there) here'
  have key : sl.key = sl'.key := by simpa [here, here'] using key
  have slot := (sound.tables there).consistent.distinct inTable inTable' assigned assigned' key
  have same : sl = sl' := Option.some.inj (inTable.symm.trans (slot ▸ inTable'))
  have holder := sound.holder_of_live live here
  have holder' := sound.holder_of_live live' here'
  have thread : lease.thread = lease'.thread := Option.some.inj (holder.symm.trans (same ▸ holder'))
  calc
    lease = ⟨lease.cache, lease.slot, lease.thread⟩ := rfl
    _ = lease' := by rw [cache, slot, thread]

theorem Sound.exclusive (sound : s.Sound pins) : s.Exclusive where
  single := sound.live_nodup
  held lease live := by
    obtain ⟨sl, here⟩ := sound.slot_of_live live
    exact ⟨sl, here, sound.holder_of_live live here⟩
  locked c i sl here := by
    refine ⟨sound.live_of_locked here, ?_⟩
    rintro ⟨lease, live, rfl, rfl⟩
    exact (sound.agrees here).locked_of_holder (sound.holder_of_live live here)
  distinct lease live lease' live' := sound.live_distinct live live'

theorem Sound.honours [BlockDevice δ] (sound : s.Sound pins) : s.Honours := by
  intro t name c call steps v host started unanswered answered
  obtain ⟨pins₀, sound₀, -⟩ := sound.did (start_did s t name c call)
  obtain ⟨p, pending, continues⟩ := sound₀.walk_pending (start_pending started) unanswered
  obtain ⟨pins', sound'⟩ := sound₀.walk steps
  obtain ⟨key, -, held⟩ := sound'.answer_lease pending answered
  rw [continues.call] at key
  rw [continues.name, continues.cache] at held
  exact ⟨key, held⟩

end Host

/-- Whatever steps any threads take, the leases exclude each other and calls get what they ask for. -/
theorem exclusion_kept {δ : Type} [BlockDevice δ] (devices : List δ) (plans : List (Nat × Plan)) (steps : List Step) :
    ((Host.assemble devices plans).walk steps).Exclusive ∧ ((Host.assemble devices plans).walk steps).Honours := by
  obtain ⟨pins, sound⟩ := Host.walk_sound devices plans steps
  exact ⟨sound.exclusive, sound.honours⟩

/-- Two threads look for one block while the only slot is leased. One of them has passed the home bucket when the slot
is let go, and waits after the other has given it to the block. -/
theorem exclusion_after_waiting :
    let before : List Step := [.act (.start 0 "a" 0 ⟨⟨0, 3⟩, .block, false⟩), .probe 0 1, .probe 0 0, .act (.turn 0),
      .act (.answer 0), .act (.start 2 "c" 0 ⟨⟨0, 4⟩, .never, true⟩)]
    let between : List Step := [.probe 1 0, .unlock 0 "a" .dropped, .part 0 0, .act (.turn 2), .probe 1 1, .conclude 1 0,
      .act (.turn 2), .act (.turn 2), .act (.answer 2), .act (.answer 1), .act (.finish 2 "c" (.released none)),
      .act (.turn 1), .probe 1 0, .act (.turn 1), .act (.turn 1)]
    let host := (Host.assemble [RamDisk.empty 4 none] [(0, ⟨1, 2, 4, .wait⟩)]).walk before
    let waited := (host.start 1 "b" 0 ⟨⟨0, 4⟩, .block, true⟩).host.walk between
    ∃ v, (waited.answer 1).reply = .lease v ∧ v.key = ⟨0, 4⟩ ∧
      (waited.answer 1).host.lease? "b" = some ⟨0, v.slot, 1⟩ := by
  intro before between host waited
  have accepted : (host.start 1 "b" 0 ⟨⟨0, 4⟩, .block, true⟩).reply = .done := by decide +kernel
  have unanswered : (host.start 1 "b" 0 ⟨⟨0, 4⟩, .block, true⟩).host.Unanswered 1 between := by
    unfold Host.Unanswered
    decide +kernel
  have answered : (waited.answer 1).reply = .lease ⟨⟨0, 4⟩, 0, true, 1, 4⟩ := by decide +kernel
  have kept := exclusion_kept [RamDisk.empty 4 none] [(0, ⟨1, 2, 4, .wait⟩)] before
  exact ⟨_, answered, kept.2 1 "b" 0 _ between _ accepted unanswered answered⟩

end BlockCache
