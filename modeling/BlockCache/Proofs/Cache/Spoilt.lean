import BlockCache.Proofs.Cache.Turned

/-!
# Reads that fail

A read that fails may have overwritten bytes of the slot, and then the lease ends. What it leaves is what the end of the
lease would have left without the read, apart from these bytes: `Call.load_failed`.
-/

namespace BlockCache

namespace Layout

variable {L : Layout} {i : Nat} {f : Slot → Slot}

theorem letGo_change (L : Layout) (i : Nat) (kept : ∀ s, (f s).refcount = s.refcount ∧ (f s).key = s.key)
    (apart : ∀ s, (f s).give = f s.give) : (L.change i f).letGo i = (L.letGo i).change i f := by
  cases here : L.slots[i]? with
  | none =>
      have outside : (L.change i f).slots[i]? = none := by simp [change, Array.getElem?_modify, here]
      simp only [letGo, here, outside]
  | some s =>
      have inside : (L.change i f).slots[i]? = some (f s) := change_same here f
      have slots : (L.change i f).change i Slot.give = (L.change i Slot.give).change i f := by
        simp only [change_change, apart]
      simp only [letGo, here, inside, kept s, slots]
      split <;> rfl

theorem finish_change (L : Layout) (i : Nat) (bytes : Bytes) :
    (L.change i (·.withBytes bytes)).after (.finish i) = (L.after (.finish i)).change i (·.withBytes bytes) := by
  have unlocked : (L.change i (·.withBytes bytes)).change i (fun s => { s with data := s.data.unlock }) =
      (L.change i fun s => { s with data := s.data.unlock }).change i (·.withBytes bytes) := by
    simp only [change_change]
    rfl
  rw [after, unlocked]
  exact letGo_change _ i (fun s => ⟨rfl, rfl⟩) fun s => rfl

end Layout

namespace Cache

def withBytes (i : Nat) (bytes : Bytes) (c : Cache) : Cache :=
  { c with table.slots := c.table.slots.modify i (·.withBytes bytes) }

variable {c c₁ c' dropped : Cache} {i : Nat} {bytes : Bytes}

theorem Moved.spoilt (edited : c.Moved (.edit i bytes) c₁) (ended : c₁.Moved (.finish i) c')
    (moved : c.Moved (.finish i) dropped) : c' = dropped.withBytes i bytes := by
  have layout : c₁.table.layout = c.table.layout.change i (·.withBytes bytes) := edited.shows.layout_eq
  obtain ⟨s, here, -⟩ := edited.allowed
  have here : c.table.slots[i]? = some s := here
  have shows : (dropped.withBytes i bytes).table.Shows (c₁.table.layout.after (.finish i)) := by
    have set := moved.shows.set (by exact moved.shows.slots ▸ moved.same here) (·.withBytes bytes)
    rw [layout, Layout.finish_change]
    refine ⟨?_, set.chains, set.rings⟩
    exact congrArg (Array.modify · i (·.withBytes bytes)) moved.shows.slots
  have frees : c₁.table.layout.frees (.finish i) = c.table.layout.frees (.finish i) := by
    have after : c₁.table.slots[i]? = some (s.withBytes bytes) := edited.same here
    show c₁.table.slots[i]?.any _ = c.table.slots[i]?.any _
    rw [after, here]
    rfl
  have still : c₁.freed = c.freed := by simpa [Layout.frees] using edited.freed
  have freed : c'.freed = dropped.freed := by
    rw [ended.freed, moved.freed, still, edited.exhaustion, frees]
  have usage : c'.usage = dropped.usage := ended.usage.trans (edited.usage.trans moved.usage.symm)
  have blockSize := ended.blockSize.trans (edited.blockSize.trans moved.blockSize.symm)
  have exhaustion := ended.exhaustion.trans (edited.exhaustion.trans moved.exhaustion.symm)
  have table := ended.table_eq shows
  obtain ⟨table', blockSize', exhaustion', freed', usage'⟩ := c'
  obtain rfl : table' = _ := table
  obtain rfl : blockSize' = dropped.blockSize := blockSize
  obtain rfl : exhaustion' = dropped.exhaustion := exhaustion
  obtain rfl : freed' = dropped.freed := freed
  obtain rfl : usage' = dropped.usage := usage
  rfl

end Cache

namespace Call

variable {δ : Type} [BlockDevice δ] {c : Cache} {i : Nat} {s : Slot}

theorem load_valid (here : c.table.slots[i]? = some s) (valid : s.valid = true) (d : δ) :
    load i c d = ⟨c, d, [], .granted i⟩ := by
  simp [load, loadOr, here, valid]

theorem load_failed (sound : c.table.Sound) (here : c.table.slots[i]? = some s) (locked : s.data.isLocked = true)
    (invalid : s.valid = false) {d : δ} {failure : TransferFailure}
    (broken : (BlockDevice.read d s.key s.data.value).failure = some failure) :
    ∃ dropped, Cache.endLease i c = .ok () dropped ∧ c.Moved (.finish i) dropped ∧
      load i c d = ⟨dropped.withBytes i (BlockDevice.read d s.key s.data.value).buffer,
        (BlockDevice.read d s.key s.data.value).device, (BlockDevice.read d s.key s.data.value).events,
        .failed failure.toFailure⟩ := by
  obtain ⟨dropped, done, moved⟩ := Cache.endLease_moved sound here locked
  refine ⟨dropped, done, moved, ?_⟩
  rcases loadOr_cases sound here locked d with
    ⟨valid, -⟩ | ⟨-, success, -⟩ | ⟨-, failure', c₁, broken', edited, fetched⟩
  · cases invalid.symm.trans valid
  · cases success.symm.trans broken
  · obtain rfl : failure' = failure := Option.some.inj (broken'.symm.trans broken)
    obtain ⟨c', ended, finished⟩ := Cache.endLease_moved (edited.sound sound) (edited.same here) locked
    obtain rfl := edited.spoilt finished moved
    exact fetched (Cache.endLease i) _ ended

theorem load_reads (sound : c.table.Sound) (here : c.table.slots[i]? = some s) (locked : s.data.isLocked = true)
    (invalid : s.valid = false) (d : δ) :
    (load i c d).device = (BlockDevice.read d s.key s.data.value).device ∧
      (load i c d).events = (BlockDevice.read d s.key s.data.value).events ∧
      (load i c d).result = (BlockDevice.read d s.key s.data.value).failure.elim (.granted i)
        (.failed ∘ TransferFailure.toFailure) := by
  rcases loadOr_cases sound here locked d with
    ⟨valid, -⟩ | ⟨-, success, c', -, done⟩ | ⟨-, failure, -, broken, -⟩
  · cases invalid.symm.trans valid
  · simp [load, done, success]
  · obtain ⟨dropped, -, -, done⟩ := load_failed sound here locked invalid broken
    simp [done, broken]

end Call
end BlockCache
