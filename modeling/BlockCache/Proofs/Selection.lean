import BlockCache.Device.RamDisk
import BlockCache.Proofs.Cache.Resident
import BlockCache.Proofs.Cache.Taken
import BlockCache.Proofs.Host.Freed
import BlockCache.Proofs.Host.Runs

/-!
# Which slot a lookup selects

A lookup that nobody interrupts takes the slot that has the block, else the oldest free slot of the home bucket, else
that of the first other bucket that has one: `lookup_selects`.
-/

namespace BlockCache

namespace Cache

structure Selects (c : Cache) (key : Key) (found : Option Found) (c' : Cache) : Prop where
  sound : c'.table.Sound
  hit : ∀ i, c.table.layout.Has i key → found = some (.hit i) ∧ c.Reuses key i c'
  evicted : c.table.layout.Absent key → ∀ i rest, c.table.rings.forward (c.home key) = i :: rest →
    ∃ s, c.table.slots[i]? = some s ∧ found = some (.evicted i (if s.assigned then some s.key else none)) ∧
      c.Gives key i { c.usage with misses := c.usage.misses + 1, evictions := c.usage.evictions + 1 } c'
  stolen : c.table.layout.Absent key → c.table.rings.forward (c.home key) = [] →
    ∀ j i rest, c.table.rings.forward j = i :: rest → (∀ j' < j, c.table.rings.forward j' = []) →
      found = some (.stolen i j) ∧
        c.Gives key i { c.usage with misses := c.usage.misses + 1, steals := c.usage.steals + 1 } c'
  exhausted : found = none ↔ c.table.layout.Absent key ∧ ∀ (i : Nat) (s : Slot), c.table.slots[i]? = some s → s.refcount ≠ 0
  unchanged : found = none → c' = c

/-- The visits of a lookup that does not look at its home bucket again. -/
def scanOnce (home : Nat) (key : Key) : List Nat → Update Cache (Option Found)
  | [] => return none
  | j :: rest => do
    match ← steal home key j with
    | some found => return some found
    | none => scanOnce home key rest

def lookupOnce (key : Key) : Update Cache (Option Found) := do
  let c ← get
  match ← atHome (c.home key) key with
  | some found => return some found
  | none => scanOnce (c.home key) key (c.others (c.home key))

open Update

variable {c c' : Cache} {key : Key} {i : Nat} {found : Option Found}

theorem Without.scan_eq (without : c.Without key) (sound : c.table.Sound) {js : List Nat}
    (inside : ∀ j ∈ js, j < c.buckets) : scan (c.home key) key js c = scanOnce (c.home key) key js c := by
  induction js with
  | nil => rfl
  | cons j js ih =>
      have empty := without.empty
      have same := visit_eq_steal sound.shows sound.consistent without.absent (home_layout sound key ▸ empty) j
      rw [← home_layout sound] at same
      rw [scan, scanOnce]
      rcases steal_cases sound without (inside j List.mem_cons_self) with ⟨found, c', stolen, -⟩ | ⟨nothing, -⟩
      · rw [bind_ok (same.trans stolen), bind_ok stolen]
      · rw [bind_ok (same.trans nothing), bind_ok nothing]
        exact ih fun j member => inside j (List.mem_cons_of_mem _ member)

theorem lookup_eq_once (sound : c.table.Sound) (key : Key) : lookup key c = lookupOnce key c := by
  rw [lookup, lookupOnce, get_bind, get_bind]
  rcases atHome_cases sound key with ⟨found, c', done, -⟩ | ⟨nothing, without⟩
  · rw [bind_ok done, bind_ok done]
  · rw [bind_ok nothing, bind_ok nothing]
    exact without.scan_eq sound fun j member => ((mem_others sound.shows).mp member).1

theorem lookup_outcome (sound : c.table.Sound) (key : Key) :
    ∃ found c', lookup key c = .ok found c' ∧ c.Selects key found c' := by
  obtain ⟨found, L', change, t, finds, shows, same, done⟩ := lookup_finds sound.shows sound.consistent key
  refine ⟨found, _, done, ?_⟩
  have unfree := sound.unfree_iff
  cases finds with
  | @hit i has =>
      have reuses := reuses_of_shows sound has shows
      refine ⟨.of_shows shows ?_, fun j there => ?_, fun absent => ?_, fun absent => ?_, ?_, nofun⟩
      · obtain ⟨s, here, assigned, -⟩ := has
        exact sound.consistent.hit here assigned
      · obtain rfl := sound.consistent.unique has there
        exact ⟨rfl, reuses⟩
      · exact absurd has (absent i)
      · exact absurd has (absent i)
      · exact iff_of_false nofun fun outcome => outcome.1 i has
  | @evicted i rest s absent oldest here =>
      have nonempty : c.table.layout.ring (c.table.layout.home key) ≠ [] := by simp [oldest]
      have gives := gives_of_shows sound shows
      refine ⟨.of_shows shows (sound.consistent.assign here absent), fun j there => absurd there (absent j), ?_, ?_, ?_,
        nofun⟩
      · intro _ j rest' first
        rw [home_layout sound] at first
        obtain ⟨rfl, rfl⟩ := List.cons_eq_cons.mp (oldest.symm.trans first)
        exact ⟨s, here, rfl, gives _⟩
      · intro _ empty
        exact absurd (home_layout sound key ▸ empty) nonempty
      · exact iff_of_false nofun fun outcome => nonempty (unfree.mpr outcome.2 _)
  | @stolen i j rest s absent away before empty oldest here =>
      have nonempty : c.table.layout.ring j ≠ [] := by simp [oldest]
      have gives := gives_of_shows sound shows
      refine ⟨.of_shows shows (sound.consistent.assign here absent), fun j there => absurd there (absent j), ?_, ?_, ?_,
        nofun⟩
      · intro _ k rest' first
        rw [home_layout sound] at first
        cases empty.symm.trans first
      · intro _ _ j' k rest' first before'
        -- Both buckets are the first that has a free slot.
        obtain rfl : j = j' := by
          rcases Nat.lt_trichotomy j j' with less | same | more
          · exact absurd (before' j less) nonempty
          · exact same
          · cases (before j' more).symm.trans first
        obtain ⟨rfl, rfl⟩ := List.cons_eq_cons.mp (oldest.symm.trans first)
        exact ⟨rfl, gives _⟩
      · exact iff_of_false nofun fun outcome => nonempty (unfree.mpr outcome.2 j)
  | exhausted absent empty =>
      obtain rfl := same rfl
      refine ⟨sound, fun j there => absurd there (absent j), ?_, ?_, ?_, fun _ => rfl⟩
      · intro _ i rest first
        cases (empty _).symm.trans first
      · intro _ _ j i rest first
        cases (empty _).symm.trans first
      · exact iff_of_true rfl ⟨absent, unfree.mp empty⟩

end Cache

/-- A lookup in a cache in order takes the slot that has the block, or else the first free slot on its way. To look at
the home bucket again makes no difference unless somebody else was there. -/
theorem lookup_selects {c : Cache} (sound : c.table.Sound) (key : Key) :
    ∃ found c', Cache.lookup key c = .ok found c' ∧ c.Selects key found c' ∧
      Cache.lookupOnce key c = .ok found c' := by
  obtain ⟨found, c', done, selects⟩ := Cache.lookup_outcome sound key
  exact ⟨found, c', done, selects, (Cache.lookup_eq_once sound key).symm.trans done⟩

/-- The home bucket of block 3 has only the slot of block 0, which is leased, and the slot of block 1 is free. -/
theorem lookup_selects_other_bucket :
    let take (t : Thread) (name : String) (block : UInt32) : List Act :=
      [.start t name 0 ⟨⟨0, block⟩, .block, false⟩, .turn t, .turn t, .answer t]
    let acts := take 0 "a" 0 ++ take 0 "b" 1 ++ [.finish 0 "b" .dropped]
    ∃ m c', ((Host.assemble [RamDisk.empty 4 none] [(0, ⟨3, 3, 4, .stop⟩)]).run acts).mount? 0 = some m ∧
      Cache.lookup ⟨0, 3⟩ m.cache = .ok (some (.stolen 1 1)) c' ∧
      m.cache.Selects ⟨0, 3⟩ (some (.stolen 1 1)) c' ∧ c'.table.chains.toList 0 = [1, 0] := by
  intro take acts
  obtain ⟨pins, sound⟩ := Host.run_sound [RamDisk.empty 4 none] [(0, ⟨3, 3, 4, .stop⟩)] acts
  have looked : (((Host.assemble [RamDisk.empty 4 none] [(0, ⟨3, 3, 4, .stop⟩)]).run acts).mount? 0).any (fun m =>
      (Cache.lookup ⟨0, 3⟩).run' m.cache = some (some (.stolen 1 1)) &&
        (stateAfter (Cache.lookup ⟨0, 3⟩) m.cache).table.chains.toList 0 = [1, 0]) = true := by decide +kernel
  obtain ⟨m, there, looked⟩ := (Option.any_eq_true _ _).mp looked
  obtain ⟨found, c', done, selects, -⟩ := lookup_selects (sound.tables there) ⟨0, 3⟩
  obtain ⟨outcome, chain⟩ := (Bool.and_eq_true_iff.mp looked).imp of_decide_eq_true of_decide_eq_true
  delta EStateM.run' EStateM.run at outcome
  simp only [stateAfter, done] at outcome chain
  obtain rfl := Option.some.inj outcome
  exact ⟨m, c', there, done, selects, chain⟩

end BlockCache
