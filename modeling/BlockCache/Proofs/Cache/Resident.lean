import BlockCache.Proofs.Cache.Moved

/-!
# Slots that lookups find

While somebody refers to a slot, lookups of its block find it there and no lookup of another block takes it:
`Table.Sound.keeps`.
-/

namespace BlockCache

/-- Slot `i` has the block: its bucket finds it there, and so do lookups. No lookup of another block takes the slot,
at none of the buckets that it visits. -/
structure Cache.Keeps (c : Cache) (i : Nat) (key : Key) : Prop where
  slot : ∃ s, c.table.slots[i]? = some s ∧ s.assigned = true ∧ s.key = key
  find : Table.find (c.home key) key c.table = .ok (some i) c.table
  hit : ∃ c', Cache.lookup key c = .ok (some (.hit i)) c'
  spared : ∀ key' ≠ key, ∀ (found : Found) (c' : Cache), Cache.lookup key' c = .ok (some found) c' → found.slot ≠ i
  passed : ∀ key' ≠ key, ∀ j < c.buckets, ∀ (found : Found) (c' : Cache),
    Cache.visit (c.home key') key' j c = .ok (some found) c' → found.slot ≠ i

namespace Layout

variable {L : Layout} {i j : Nat} {s : Slot} {key : Key}

theorem Has.ne (has : L.Has j key) (here : L.slots[i]? = some s) (other : key ≠ s.key) : j ≠ i := by
  rintro rfl
  obtain ⟨s', here', -, same⟩ := has
  obtain rfl : s = s' := Option.some.inj (here.symm.trans here')
  exact other same.symm

theorem Consistent.unique (consistent : L.Consistent) (has : L.Has i key) (has' : L.Has j key) : i = j := by
  obtain ⟨s, here, assigned, rfl⟩ := has
  obtain ⟨s', here', assigned', same⟩ := has'
  exact consistent.distinct here here' assigned assigned' same.symm

theorem Consistent.oldest_ne (consistent : L.Consistent) (here : L.slots[i]? = some s) (referenced : s.refcount ≠ 0)
    {b : Nat} {rest : List Nat} (oldest : L.ring b = j :: rest) : j ≠ i := by
  rintro rfl
  exact referenced ((consistent.ringed here b).mp (oldest ▸ List.mem_cons_self)).1

theorem Finds.slot_ne {found : Found} {L' : Layout} {change : Usage → Usage}
    (finds : L.Finds key (some found) L' change) (consistent : L.Consistent) (here : L.slots[i]? = some s)
    (referenced : s.refcount ≠ 0) (other : key ≠ s.key) : found.slot ≠ i := by
  cases finds with
  | hit has => exact has.ne here other
  | evicted absent oldest => exact consistent.oldest_ne here referenced oldest
  | stolen absent away before empty oldest => exact consistent.oldest_ne here referenced oldest

end Layout

namespace Cache
open Update

variable {c : Cache} {L : Layout} {i j : Nat} {s : Slot} {key : Key}

theorem lookup_has (shows : c.table.Shows L) (consistent : L.Consistent) (has : L.Has i key) :
    ∃ c', lookup key c = .ok (some (.hit i)) c' := by
  obtain ⟨t, taken, -⟩ := atHome_has shows consistent has
  refine ⟨{ c with table := t, usage := { c.usage with hits := c.usage.hits + 1 } }, ?_⟩
  rw [lookup, get_bind, home_eq shows, bind_ok taken]
  rfl

theorem steal_ne (shows : c.table.Shows L) (consistent : L.Consistent) (here : L.slots[i]? = some s)
    (referenced : s.refcount ≠ 0) (key : Key) (inside : j < L.buckets) {found : Found} {c' : Cache}
    (stolen : steal (L.home key) key j c = .ok (some found) c') : found.slot ≠ i := by
  cases ring : L.ring j with
  | nil =>
      rw [steal_empty shows inside ring] at stolen
      cases stolen
  | cons k rest =>
      have bound : k < L.slots.size := shows.rings.lt_nodes (b := j) (by simp [ring])
      obtain ⟨t, done, -⟩ := steal_oldest shows consistent ring (Array.getElem?_eq_getElem bound) key
      rw [done] at stolen
      cases stolen
      exact consistent.oldest_ne here referenced ring

theorem atHome_ne (shows : c.table.Shows L) (consistent : L.Consistent) (here : L.slots[i]? = some s)
    (referenced : s.refcount ≠ 0) (other : key ≠ s.key) :
    atHome (L.home key) key c = .ok none c ∨
      ∃ found c', atHome (L.home key) key c = .ok (some found) c' ∧ found.slot ≠ i := by
  by_cases resident : ∃ k, L.Has k key
  · obtain ⟨k, has⟩ := resident
    obtain ⟨t, taken, -⟩ := atHome_has shows consistent has
    exact .inr ⟨_, _, taken, has.ne here other⟩
  have absent : L.Absent key := fun k has => resident ⟨k, has⟩
  rw [atHome_absent shows consistent absent]
  cases ring : L.ring (L.home key) with
  | nil => exact .inl (recycle_empty shows consistent ring)
  | cons k rest =>
      have bound : k < L.slots.size := shows.rings.lt_nodes (b := L.home key) (by simp [ring])
      obtain ⟨t, done, -⟩ := recycle_oldest shows consistent ring (Array.getElem?_eq_getElem bound)
      exact .inr ⟨_, _, done, consistent.oldest_ne here referenced ring⟩

theorem visit_ne (shows : c.table.Shows L) (consistent : L.Consistent) (here : L.slots[i]? = some s)
    (referenced : s.refcount ≠ 0) (other : key ≠ s.key) (inside : j < L.buckets) {found : Found} {c' : Cache}
    (visited : visit (L.home key) key j c = .ok (some found) c') : found.slot ≠ i := by
  rw [visit] at visited
  split at visited
  · exact steal_ne shows consistent here referenced key inside visited
  · rcases atHome_ne shows consistent here referenced other with nothing | ⟨found', c₁, done, away⟩
    · rw [bind_ok nothing] at visited
      exact steal_ne shows consistent here referenced key inside visited
    · rw [bind_ok done] at visited
      cases visited
      exact away

end Cache

theorem Table.Sound.keeps {c : Cache} {i : Nat} {s : Slot} (sound : c.table.Sound)
    (here : c.table.slots[i]? = some s) (referenced : s.refcount ≠ 0) : c.Keeps i s.key where
  slot := ⟨s, here, sound.consistent.assigned_of_referenced here referenced, rfl⟩
  find := by
    have assigned := sound.consistent.assigned_of_referenced here referenced
    rw [Cache.home_eq sound.shows]
    exact Cache.find_has sound.shows sound.consistent ⟨s, here, assigned, rfl⟩
  hit := Cache.lookup_has sound.shows sound.consistent
    ⟨s, here, sound.consistent.assigned_of_referenced here referenced, rfl⟩
  spared key other found c' done := by
    obtain ⟨found', L', change, t, finds, -, -, done'⟩ := Cache.lookup_finds sound.shows sound.consistent key
    rw [done'] at done
    cases done
    exact finds.slot_ne sound.consistent here referenced other
  passed key other j inside found c' visited := by
    rw [Cache.home_eq sound.shows] at visited
    exact Cache.visit_ne sound.shows sound.consistent here referenced other inside visited

end BlockCache
