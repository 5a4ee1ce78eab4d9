import BlockCache.Host.Search
import BlockCache.Proofs.Cache.Turned

/-!
# The visits of a lookup

A visit that a lookup makes to a bucket of a sound cache finds a slot for the block, or there is none in that bucket
and the visit leaves the cache as it was: `probe_cases`.
-/

namespace BlockCache

namespace Cache
open Update

variable {c : Cache} {key : Key} {j : Nat}

structure Gains (c : Cache) (key : Key) (found : Found) (c' : Cache) : Prop where
  suits : c.table.layout.Suits key found
  moved : c.Moved (found.move key) c'

theorem Gains.has {found : Found} {c' : Cache} (gains : c.Gains key found c') : c'.table.layout.Has found.slot key := by
  obtain ⟨s, here, ready⟩ := gains.moved.allowed
  have after := gains.moved.same here
  rw [found.slot_move key] at here after
  refine ⟨_, after, ?_, gains.suits.key_after here⟩
  cases found with
  | hit i => exact ready
  | evicted | stolen => rfl

/-- Neither the block nor a free slot is in the home bucket. -/
structure Without (c : Cache) (key : Key) : Prop where
  absent : c.table.layout.Absent key
  empty : c.table.layout.ring (c.home key) = []

theorem home_layout (sound : c.table.Sound) (key : Key) : c.home key = c.table.layout.home key :=
  home_eq sound.shows key

theorem Without.of_lacks (sound : c.table.Sound) (empty : c.table.rings.forward (c.home key) = [])
    (lacks : ∀ i ∈ c.table.chains.toList (c.home key), ∀ s, c.table.slots[i]? = some s → s.key ≠ key) :
    c.Without key := by
  refine ⟨fun i has => ?_, empty⟩
  obtain ⟨s, here, assigned, rfl⟩ := has
  have chained : i ∈ c.table.layout.chain (c.home s.key) :=
    (sound.consistent.chained here _).mpr ⟨assigned, home_layout sound s.key⟩
  exact lacks i chained s here rfl

theorem oldest_here (sound : c.table.Sound) {b i : Nat} {rest : List Nat} (oldest : c.table.layout.ring b = i :: rest) :
    ∃ s, c.table.layout.slots[i]? = some s :=
  ⟨_, Array.getElem?_eq_getElem (sound.shows.rings.lt_nodes (b := b) (by simp [oldest]))⟩

theorem atHome_cases (sound : c.table.Sound) (key : Key) :
    (∃ found c', atHome (c.home key) key c = .ok (some found) c' ∧ c.Gains key found c') ∨
      atHome (c.home key) key c = .ok none c ∧ c.Without key := by
  simp only [home_layout sound]
  by_cases resident : ∃ i, c.table.layout.Has i key
  · obtain ⟨i, has⟩ := resident
    obtain ⟨table, done, shows⟩ := atHome_has sound.shows sound.consistent has
    have suits := has
    obtain ⟨s, here, assigned, -⟩ := has
    exact .inl ⟨_, _, done, suits,
      ⟨s, here, assigned⟩, shows, rfl, rfl, by simp [Layout.frees, Found.move], rfl⟩
  have absent : c.table.layout.Absent key := fun i has => resident ⟨i, has⟩
  rw [atHome_absent sound.shows sound.consistent absent]
  cases ring : c.table.layout.ring (c.table.layout.home key) with
  | nil =>
      refine .inr ⟨recycle_empty sound.shows sound.consistent ring, absent, ?_⟩
      rw [home_layout sound, ring]
  | cons i rest =>
      obtain ⟨s, here⟩ := oldest_here sound ring
      obtain ⟨table, done, shows⟩ := recycle_oldest sound.shows sound.consistent ring here
      have finds := Layout.Finds.evicted absent ring here
      exact .inl ⟨_, _, done, finds.suits,
        ⟨s, here, absent, rest, ring⟩, shows, rfl, rfl, by simp [Layout.frees, Found.move], rfl⟩

theorem steal_cases (sound : c.table.Sound) (without : c.Without key) (inside : j < c.buckets) :
    (∃ found c', steal (c.home key) key j c = .ok (some found) c' ∧ c.Gains key found c') ∨
      steal (c.home key) key j c = .ok none c ∧ c.table.layout.ring j = [] := by
  cases ring : c.table.layout.ring j with
  | nil => exact .inr ⟨steal_empty sound.shows inside ring _, rfl⟩
  | cons i rest =>
      obtain ⟨s, here⟩ := oldest_here sound ring
      obtain ⟨table, done, shows⟩ := steal_oldest sound.shows sound.consistent ring here key
      have away : j ≠ c.table.layout.home key := by
        rintro rfl
        have empty := without.empty
        rw [home_layout sound, ring] at empty
        cases empty
      rw [home_layout sound]
      exact .inl ⟨_, _, done, away,
        ⟨s, here, without.absent, rest, ring⟩, shows, rfl, rfl, by simp [Layout.frees, Found.move], rfl⟩

theorem visit_cases (sound : c.table.Sound) (inside : j < c.buckets) (kept : j < c.home key → c.Without key) :
    (∃ found c', visit (c.home key) key j c = .ok (some found) c' ∧ c.Gains key found c') ∨
      visit (c.home key) key j c = .ok none c ∧ c.Without key ∧ c.table.layout.ring j = [] := by
  rw [visit]
  by_cases before : j < c.home key
  · rw [if_pos before]
    exact (steal_cases sound (kept before) inside).imp_right fun took => ⟨took.1, kept before, took.2⟩
  · rw [if_neg before]
    rcases atHome_cases sound key with ⟨found, c', done, gains⟩ | ⟨nothing, without⟩
    · exact .inl ⟨found, c', bind_ok done _, gains⟩
    · rw [bind_ok nothing]
      exact (steal_cases sound without inside).imp_right fun took => ⟨took.1, without, took.2⟩

theorem Without.atHome_eq (without : c.Without key) (sound : c.table.Sound) :
    atHome (c.home key) key c = .ok none c := by
  have empty := without.empty
  rw [home_layout sound] at empty ⊢
  rw [atHome_absent sound.shows sound.consistent without.absent]
  exact recycle_empty sound.shows sound.consistent empty

theorem reaches_iff (sound : c.table.Sound) :
    c.reaches key j = true ↔ j < c.buckets ∧ (j < c.home key → c.Without key) := by
  simp only [reaches, Bool.and_eq_true, Bool.or_eq_true, decide_eq_true_eq, ← Nat.not_lt]
  refine and_congr_right fun inside => ?_
  rcases atHome_cases sound key with ⟨found, c', done, gains⟩ | ⟨nothing, without⟩
  · simp only [done, Bool.false_eq_true, or_false]
    refine forall_congr' fun before => iff_of_false id fun without => ?_
    rw [without.atHome_eq sound] at done
    cases done
  · simp [nothing, without]

theorem mem_route (sound : c.table.Sound) : j ∈ c.route key ↔ j < c.buckets := by
  have home : c.home key < c.buckets := by
    rw [home_layout sound]
    exact sound.consistent.home_lt key
  simp only [route, List.mem_cons, others, List.mem_filter, List.mem_range, decide_eq_true_eq]
  refine ⟨fun visited => ?_, fun inside => ?_⟩
  · rcases visited with rfl | ⟨inside, -⟩
    · exact home
    · exact inside
  · by_cases same : j = c.home key
    · exact .inl same
    · exact .inr ⟨inside, same⟩

theorem probe_cases (sound : c.table.Sound) (reached : c.reaches key j = true) :
    (∃ found c', probe (c.home key) key j c = .ok (some found) c' ∧ c.Gains key found c') ∨
      probe (c.home key) key j c = .ok none c ∧ c.Without key ∧ c.table.layout.ring j = [] := by
  obtain ⟨inside, kept⟩ := (reaches_iff sound).mp reached
  rw [probe]
  split
  · rename_i here
    exact (atHome_cases sound key).imp_right fun ⟨done, without⟩ => ⟨done, without, here ▸ without.empty⟩
  · exact visit_cases sound inside kept

end Cache
end BlockCache
