import BlockCache.Cache.Build
import BlockCache.Proofs.Layout.Consistent

/-!
# Fresh caches

The slots of a fresh cache are dealt out to the rings in turn: bucket `b` has those whose number leaves the
remainder `b`, in increasing order.
-/

namespace BlockCache

/-- Unused slots of which some are in the rings, each in that of its remainder. -/
def Layout.dealt (slots buckets blockSize : Nat) (given : List Nat) : Layout :=
  { Layout.empty slots buckets blockSize with ring := fun b => given.filter (· % buckets = b) }

namespace Cache
open Update

variable {slots buckets blockSize : Nat}

theorem deal_shows (positive : 0 < buckets) {given left : List Nat} (nodup : (given ++ left).Nodup)
    (inside : ∀ i ∈ left, i < slots) {t : Table} (shows : t.Shows (Layout.dealt slots buckets blockSize given)) :
    ∃ t', (left.forM fun i => Table.addNewest (i % buckets) i) t = .ok () t' ∧
      t'.Shows (Layout.dealt slots buckets blockSize (given ++ left)) := by
  induction left generalizing given t with
  | nil => exact ⟨t, rfl, by simpa using shows⟩
  | cons i left ih =>
      have slot : i < (Layout.dealt slots buckets blockSize given).slots.size := by
        simpa [Layout.dealt, Layout.empty] using inside i (by simp)
      have away : i ∉ given := fun member => (List.nodup_append.mp nodup).2.2 i member i (by simp) rfl
      have fresh : ∀ b, i ∉ (Layout.dealt slots buckets blockSize given).ring b :=
        fun b member => away (List.mem_filter.mp member).1
      obtain ⟨t₁, added, shows₁⟩ := Table.addNewest_shows shows (Nat.mod_lt i positive) slot fresh
      have next : (Layout.dealt slots buckets blockSize given).addNewest (i % buckets) i =
          Layout.dealt slots buckets blockSize (given ++ [i]) := by
        simp only [Layout.dealt, Layout.addNewest, List.filter_append]
        congr
        funext b
        by_cases same : b = i % buckets
        · simp [same]
        · simp [same, Ne.symm same]
      obtain ⟨t', done, shows'⟩ := ih (by simpa using nodup) (fun j member => inside j (by simp [member]))
        (next ▸ shows₁)
      refine ⟨t', ?_, by simpa using shows'⟩
      exact (bind_ok added _).trans done

theorem fresh_dealt (config : Config) :
    deal config.capacity config.buckets (Table.empty config.capacity config.buckets config.blockSize) =
        .ok () (fresh config).table ∧
      (fresh config).table.Shows
        (Layout.dealt config.capacity config.buckets config.blockSize (List.range config.capacity)) := by
  have start : (Table.empty config.capacity config.buckets config.blockSize).Shows
      (Layout.dealt config.capacity config.buckets config.blockSize []) :=
    Table.empty_shows config.capacity config.buckets config.blockSize
  have inside : ∀ i ∈ List.range config.capacity, i < config.capacity := fun i => List.mem_range.mp
  obtain ⟨t, done, shows⟩ := deal_shows config.buckets_pos (by simpa using List.nodup_range) inside start
  have table : (fresh config).table = t := by simp only [fresh, stateAfter, deal, done]
  rw [table]
  exact ⟨done, by simpa using shows⟩

theorem fresh_shows (config : Config) :
    (fresh config).table.Shows
      (Layout.dealt config.capacity config.buckets config.blockSize (List.range config.capacity)) :=
  (fresh_dealt config).2

theorem fresh_capacity (config : Config) : (fresh config).capacity = config.capacity := by
  rw [capacity, (fresh_shows config).slots]
  simp [Layout.dealt, Layout.empty]

theorem dealt_slot {given : List Nat} {i : Nat} {s : Slot}
    (here : (Layout.dealt slots buckets blockSize given).slots[i]? = some s) :
    i < slots ∧ s = Slot.fresh blockSize := by
  simpa [Layout.dealt, Layout.empty, Array.getElem?_replicate, eq_comm] using here

theorem slot_of_fresh {config : Config} {i : Nat} {s : Slot} (here : (fresh config).table.slots[i]? = some s) :
    s = Slot.fresh config.blockSize :=
  (dealt_slot ((fresh_shows config).slots ▸ here)).2

theorem dealt_consistent (positive : 0 < buckets) :
    (Layout.dealt slots buckets blockSize (List.range slots)).Consistent where
  buckets_pos := positive
  chained {i s} here b := by
    obtain ⟨-, rfl⟩ := dealt_slot here
    simp [Layout.dealt, Layout.empty, Slot.fresh]
  ringed {i s} here b := by
    obtain ⟨inside, rfl⟩ := dealt_slot here
    simp [Layout.dealt, Layout.empty, Layout.bucketOf, Slot.fresh, inside, eq_comm]
  chain_nodup b := List.nodup_nil
  ring_nodup b := List.nodup_range.filter _
  distinct {i j s s'} here there assigned := by
    obtain ⟨-, rfl⟩ := dealt_slot here
    simp [Slot.fresh] at assigned
  proper {i s} here := by
    obtain ⟨-, rfl⟩ := dealt_slot here
    exact ⟨by simp [Slot.fresh], by simp [Slot.fresh], fun _ => rfl, Lock.free_agrees _⟩

theorem fresh_sound (config : Config) : (fresh config).table.Sound :=
  .of_shows (fresh_shows config) (dealt_consistent config.buckets_pos)

end Cache
end BlockCache
