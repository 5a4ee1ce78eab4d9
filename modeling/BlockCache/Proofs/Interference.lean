import BlockCache.Device.RamDisk
import BlockCache.Proofs.Cache.Probed
import BlockCache.Proofs.Representation

/-!
# A scan that others interfere with

Between two visits of a lookup other threads may do what they like to the cache, except to buckets that the lookup has
locked. The scan copes with it: it never gives a block a second slot, and what it returns is its caller's:
`scan_tolerates`.
-/

namespace BlockCache

namespace Cache
open Update

/-- The visits of a scan to some buckets. Before each of them others interfere. -/
def scanAmid (home : Nat) (key : Key) : List (Nat × (Cache → Cache)) → Update Cache (Option Found)
  | [] => return none
  | (j, interfere) :: rest => do
    modify interfere
    match ← visit home key j with
    | some found => return some found
    | none => scanAmid home key rest

/-- What a lookup may meet when it comes to bucket `j`: any cache that is in order. As long as the buckets before the
home bucket are visited the home bucket stays locked, so that neither the block nor a free slot comes there. -/
structure Meets (c : Cache) (capacity buckets : Nat) (key : Key) (j : Nat) : Prop where
  sound : c.table.Sound
  capacity : c.capacity = capacity
  buckets : c.buckets = buckets
  locked : j < c.home key → c.table.rings.forward (c.home key) = [] ∧
    ∀ i ∈ c.table.chains.toList (c.home key), ∀ s, c.table.slots[i]? = some s → s.key ≠ key

/-- Others interfere with a scan of cache `c` in ways that it may meet, as long as it has found nothing. -/
def Suffers (capacity buckets : Nat) (key : Key) : List (Nat × (Cache → Cache)) → Cache → Prop
  | [], _ => True
  | (j, interfere) :: rest, c =>
      (interfere c).Meets capacity buckets key j ∧ ∀ c',
        visit (key.block.toNat % buckets) key j (interfere c) = .ok none c' → Suffers capacity buckets key rest c'

structure Obtains (c : Cache) (key : Key) (i : Nat) (c' : Cache) : Prop where
  slot : ∃ s s', c.table.slots[i]? = some s ∧ c'.table.slots[i]? = some s' ∧ s'.assigned = true ∧ s'.key = key ∧
    s'.refcount = s.refcount + 1
  chained : i ∈ c'.table.chains.toList (c'.home key)
  unringed : ∀ b, i ∉ c'.table.rings.forward b

variable {c c' : Cache} {capacity buckets : Nat} {key : Key} {j : Nat} {found : Found}

theorem Meets.without (meets : c.Meets capacity buckets key j) (before : j < c.home key) : c.Without key :=
  .of_lacks meets.sound (meets.locked before).1 (meets.locked before).2

theorem Gains.obtains (gains : c.Gains key found c') (sound : c.table.Sound) : c.Obtains key found.slot c' := by
  have sound' := gains.moved.sound sound
  obtain ⟨s, here, ready⟩ := gains.moved.allowed
  have after := gains.moved.same here
  rw [found.slot_move key] at here after
  obtain ⟨s', there, assigned, same⟩ := gains.has
  have changed : (found.move key).change s = s' := Option.some.inj (after.symm.trans there)
  have taken : s'.refcount = s.refcount + 1 := by
    rw [← changed]
    cases found with
    | hit i => rfl
    | evicted i old => rw [Layout.refcount_of_assign sound.consistent here ready]; rfl
    | stolen i j => rw [Layout.refcount_of_assign sound.consistent here ready]; rfl
  refine ⟨⟨s, s', here, there, assigned, same, taken⟩, ?_, fun b ringed => ?_⟩
  · apply (sound'.consistent.chained there _).mpr
    rw [same, home_layout sound']
    exact ⟨assigned, rfl⟩
  · have free := ((sound'.consistent.ringed there b).mp ringed).1
    omega

theorem Meets.visit (meets : c.Meets capacity buckets key j) (inside : j < buckets) :
    ∃ found c', Cache.visit (key.block.toNat % buckets) key j c = .ok found c' ∧ c'.table.Sound ∧
      c.SameMeasures c' ∧ (found = none → c' = c) ∧ ∀ f, found = some f → c.Obtains key f.slot c' := by
  have home : c.home key = key.block.toNat % buckets := by rw [Cache.home, meets.buckets]
  rw [← home]
  rcases visit_cases meets.sound (meets.buckets.symm ▸ inside) meets.without with
    ⟨found, c', done, gains⟩ | ⟨done, -, -⟩
  · refine ⟨some found, c', done, gains.moved.sound meets.sound, gains.moved.sameMeasures, by simp, ?_⟩
    rintro f ⟨⟩
    exact gains.obtains meets.sound
  · exact ⟨none, c, done, meets.sound, .rfl, fun _ => rfl, by simp⟩

theorem Suffers.scan {stops : List (Nat × (Cache → Cache))} (suffers : Suffers capacity buckets key stops c)
    (inside : ∀ stop ∈ stops, stop.1 < buckets) (sound : c.table.Sound) (capacity_eq : c.capacity = capacity)
    (buckets_eq : c.buckets = buckets) :
    ∃ found c', scanAmid (key.block.toNat % buckets) key stops c = .ok found c' ∧ c'.table.Sound ∧
      c'.capacity = capacity ∧ c'.buckets = buckets ∧
      ∀ f, found = some f → ∃ stop ∈ stops, ∃ met : Cache, met.Meets capacity buckets key stop.1 ∧
        Cache.visit (key.block.toNat % buckets) key stop.1 met = .ok (some f) c' ∧ met.Obtains key f.slot c' := by
  induction stops generalizing c with
  | nil => exact ⟨none, c, rfl, sound, capacity_eq, buckets_eq, nofun⟩
  | cons stop rest ih =>
      obtain ⟨j, interfere⟩ := stop
      obtain ⟨meets, next⟩ := suffers
      obtain ⟨found, c₁, visited, sound₁, measures, -, obtains⟩ := meets.visit (inside _ List.mem_cons_self)
      have capacity₁ := measures.capacity.trans meets.capacity
      have buckets₁ := measures.buckets.trans meets.buckets
      rw [scanAmid, modify_bind, bind_ok visited]
      cases found with
      | some f =>
          refine ⟨some f, c₁, rfl, sound₁, capacity₁, buckets₁, ?_⟩
          rintro f ⟨⟩
          exact ⟨_, List.mem_cons_self, interfere c, meets, visited, obtains f rfl⟩
      | none =>
          obtain ⟨found, c', done, sound', capacity', buckets', obtained⟩ :=
            ih (next c₁ visited) (fun stop member => inside stop (List.mem_cons_of_mem _ member)) sound₁ capacity₁
              buckets₁
          refine ⟨found, c', done, sound', capacity', buckets', fun f same => ?_⟩
          obtain ⟨stop, member, met, meets, visited, obtains⟩ := obtained f same
          exact ⟨stop, List.mem_cons_of_mem _ member, met, meets, visited, obtains⟩

end Cache
open Cache

/-- Whatever others do between the visits of a scan to some buckets, it ends with the cache in order and no block in
two slots. A slot that it returns has the block, and the caller's reference to it is one more than the last visit
met. -/
theorem scan_tolerates {capacity buckets : Nat} {key : Key} {stops : List (Nat × (Cache → Cache))} {c : Cache}
    (sound : c.table.Sound) (capacity_eq : c.capacity = capacity) (buckets_eq : c.buckets = buckets)
    (inside : ∀ stop ∈ stops, stop.1 < buckets) (suffers : Suffers capacity buckets key stops c) :
    ∃ found c', scanAmid (key.block.toNat % buckets) key stops c = .ok found c' ∧ c'.table.Sound ∧
      c'.table.Represents capacity buckets ∧
      (∀ (i j : Nat) (s s' : Slot), c'.table.slots[i]? = some s → c'.table.slots[j]? = some s' →
        s.assigned = true → s'.assigned = true → s.key = key → s'.key = key → i = j) ∧
      ∀ f, found = some f → ∃ stop ∈ stops, ∃ met : Cache, met.Meets capacity buckets key stop.1 ∧
        visit (key.block.toNat % buckets) key stop.1 met = .ok (some f) c' ∧ met.Obtains key f.slot c' := by
  obtain ⟨found, c', done, sound', capacity', buckets', obtained⟩ :=
    suffers.scan inside sound capacity_eq buckets_eq
  have represents := sound'.represents
  rw [show c'.table.slots.size = capacity from capacity', show c'.table.layout.buckets = buckets from buckets']
    at represents
  refine ⟨found, c', done, sound', represents, fun i j s s' here there assigned assigned' same same' => ?_, obtained⟩
  exact represents.distinct i j s s' here there assigned assigned' (same.trans same'.symm)

/-- While a lookup of block 6 is on its way to bucket 3, another thread lets go of a slot of the home bucket and brings
the block in there. -/
theorem scan_tolerates_arrival :
    let host (acts : List Act) := (Host.assemble [RamDisk.empty 4 none] [(0, ⟨4, 4, 4, .stop⟩)]).run acts
    let take (t : Thread) (name : String) (block : UInt32) : List Act :=
      [.start t name 0 ⟨⟨0, block⟩, .block, false⟩, .turn t, .turn t, .answer t]
    let before := take 0 "a" 0 ++ take 0 "b" 1 ++ take 0 "c" 2
    let after := before ++ [.finish 0 "c" .dropped] ++ take 1 "d" 6
    ∃ m₁ m₂ c', (host before).mount? 0 = some m₁ ∧ (host after).mount? 0 = some m₂ ∧
      scanAmid 2 ⟨0, 6⟩ [(0, fun _ => m₁.cache), (1, id), (3, fun _ => m₂.cache)] m₁.cache =
        .ok (some (.hit 2)) c' ∧
      c'.table.Represents 4 4 := by
  intro host take before after
  let lacks (m : Mount) : Bool := m.cache.table.rings.forward 2 = [] &&
    (m.cache.table.chains.toList 2).all fun i => m.cache.table.slots[i]?.all fun s => s.key ≠ ⟨0, 6⟩
  have meets (acts : List Act) (m : Mount) (there : (host acts).mount? 0 = some m) (j : Nat)
      (locked : j < 2 → lacks m = true) : m.cache.Meets 4 4 ⟨0, 6⟩ j := by
    obtain ⟨pins, sound⟩ := Host.run_sound [RamDisk.empty 4 none] [(0, ⟨4, 4, 4, .stop⟩)] acts
    obtain ⟨-, capacity, buckets, -⟩ := Host.run_measures there rfl
    have home : m.cache.home ⟨0, 6⟩ = 2 := by simp [home, buckets]
    refine ⟨sound.tables there, capacity, buckets, fun earlier => ?_⟩
    rw [home] at earlier ⊢
    simpa [lacks, Option.all_eq_true] using locked earlier
  have scanned : ((host before).mount? 0).any (fun m₁ => lacks m₁ && ((host after).mount? 0).any fun m₂ =>
      (scanAmid 2 ⟨0, 6⟩ [(0, fun _ => m₁.cache), (1, id), (3, fun _ => m₂.cache)]).run' m₁.cache =
        some (some (.hit 2))) = true := by decide +kernel
  obtain ⟨m₁, there₁, scanned⟩ := (Option.any_eq_true _ _).mp scanned
  obtain ⟨locked, scanned⟩ := Bool.and_eq_true_iff.mp scanned
  obtain ⟨m₂, there₂, scanned⟩ := (Option.any_eq_true _ _).mp scanned
  have early (j : Nat) := meets before m₁ there₁ j fun _ => locked
  have unmoved {j : Nat} (inside : j < 4) {c' : Cache} (visited : visit 2 ⟨0, 6⟩ j m₁.cache = .ok none c') :
      c' = m₁.cache := by
    obtain ⟨found, c₁, done, -, -, same, -⟩ := (early j).visit inside
    obtain ⟨rfl, rfl⟩ := EStateM.Result.ok.inj (done.symm.trans visited)
    exact same rfl
  have suffers : Suffers 4 4 ⟨0, 6⟩ [(0, fun _ => m₁.cache), (1, id), (3, fun _ => m₂.cache)] m₁.cache := by
    refine ⟨early 0, fun c₁ first => ?_⟩
    obtain rfl := unmoved (by decide) first
    refine ⟨early 1, fun c₂ second => ?_⟩
    obtain rfl := unmoved (by decide) second
    exact ⟨meets after m₂ there₂ 3 (by simp), fun _ _ => trivial⟩
  obtain ⟨found, c', done, -, represents, -, -⟩ := scan_tolerates (early 0).sound (early 0).capacity (early 0).buckets
    (by simp) suffers
  refine ⟨m₁, m₂, c', there₁, there₂, ?_, represents⟩
  have result : EStateM.run' (fun _ : Cache => scanAmid 2 ⟨0, 6⟩ _ m₁.cache) m₁.cache = some (some (.hit 2)) :=
    of_decide_eq_true scanned
  rw [show scanAmid 2 ⟨0, 6⟩ _ m₁.cache = .ok found c' from done] at result ⊢
  rw [Option.some.inj result]

end BlockCache
