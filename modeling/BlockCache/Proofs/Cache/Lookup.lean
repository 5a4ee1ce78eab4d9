import BlockCache.Cache.Lookup
import BlockCache.Proofs.Layout.Consistent

/-!
# What a lookup does

`Layout.Finds` lists the outcomes of a lookup: the slot that has the block, else the oldest free slot of the home
bucket, else that of the first other bucket that has one, else nothing. `lookup_finds` says that a lookup in a
consistent layout has one of them.
-/

namespace BlockCache

/-- The outcomes of a lookup of a block, with the layout that is left and the count of the outcome. -/
inductive Layout.Finds (L : Layout) (key : Key) : Option Found → Layout → (Usage → Usage) → Prop
  | hit {i : Nat} (has : L.Has i key) :
      Finds L key (some (.hit i)) (L.hit i) fun n => { n with hits := n.hits + 1 }
  | evicted {i : Nat} {rest : List Nat} {s : Slot} (absent : L.Absent key)
      (oldest : L.ring (L.home key) = i :: rest) (here : L.slots[i]? = some s) :
      Finds L key (some (.evicted i (if s.assigned then some s.key else none))) (L.assign i key)
        fun n => { n with misses := n.misses + 1, evictions := n.evictions + 1 }
  | stolen {i j : Nat} {rest : List Nat} {s : Slot} (absent : L.Absent key) (away : j ≠ L.home key)
      (before : ∀ j' < j, L.ring j' = []) (empty : L.ring (L.home key) = [])
      (oldest : L.ring j = i :: rest) (here : L.slots[i]? = some s) :
      Finds L key (some (.stolen i j)) (L.assign i key)
        fun n => { n with misses := n.misses + 1, steals := n.steals + 1 }
  | exhausted (absent : L.Absent key) (empty : ∀ b, L.ring b = []) : Finds L key none L id

namespace Cache
open Update

variable {c : Cache} {L : Layout} {key : Key} {i j : Nat}

theorem onTable_ok {α : Type} {update : Update Table α} {a : α} {table : Table}
    (done : update c.table = .ok a table) : onTable update c = .ok a { c with table } := by
  simp [onTable, done]

@[simp] theorem count_apply (change : Usage → Usage) :
    count change c = .ok () { c with usage := change c.usage } := rfl

theorem home_eq (shows : c.table.Shows L) (key : Key) : c.home key = L.home key := by
  simp [home, buckets, Layout.home, shows.chains.size_heads]

theorem Layout.hit_of_referenced (consistent : L.Consistent) {s : Slot} (here : L.slots[i]? = some s)
    (referenced : s.refcount ≠ 0) : L.change i Slot.take = L.hit i := by
  have ring : L.ring = fun b => (L.ring b).erase i := by
    funext b
    have away : i ∉ L.ring b := fun member => referenced ((consistent.ringed here b).mp member).1
    rw [List.erase_of_not_mem away]
  simp only [Layout.hit, Layout.withdraw, Layout.change]
  rw [← ring]

private theorem has_key {L : Layout} {i : Nat} {key : Key} :
    L.slots[i]?.any (·.key = key) = true ↔ ∃ s, L.slots[i]? = some s ∧ s.key = key := by
  cases L.slots[i]? <;> simp

theorem find_has {t : Table} (shows : t.Shows L) (consistent : L.Consistent) (has : L.Has i key) :
    Table.find (L.home key) key t = .ok (some i) t := by
  obtain ⟨s, here, assigned, rfl⟩ := has
  have found : (L.chain (L.home s.key)).find? (fun i => L.slots[i]?.any (·.key = s.key)) = some i := by
    cases found : (L.chain (L.home s.key)).find? (fun i => L.slots[i]?.any (·.key = s.key)) with
    | none =>
        have member := (consistent.chained here _).mpr ⟨assigned, rfl⟩
        simpa [here] using List.find?_eq_none.mp found i member
    | some j =>
        have member := List.mem_of_find?_eq_some found
        have fits := List.find?_some found
        obtain ⟨s', there, same⟩ := has_key.mp fits
        have assigned' := ((consistent.chained there _).mp member).1
        rw [consistent.distinct there here assigned' assigned same]
  rw [Table.find_ok shows (consistent.home_lt _), found]

theorem takeResident_has (shows : c.table.Shows L) (consistent : L.Consistent) (has : L.Has i key) :
    ∃ t, takeResident (L.home key) key c =
        .ok (some (.hit i)) { c with table := t, usage := { c.usage with hits := c.usage.hits + 1 } } ∧
      t.Shows (L.hit i) := by
  have found := find_has shows consistent has
  obtain ⟨s, here, assigned, rfl⟩ := has
  obtain ⟨t₁, taken, shows₁⟩ := Table.take_shows shows here
  rw [takeResident, bind_ok (onTable_ok found)]
  simp only
  rw [bind_ok (onTable_ok taken)]
  by_cases free : s.refcount = 0
  · have member : i ∈ L.ring (L.home s.key) :=
      (consistent.ringed here _).mpr ⟨free, by simp [Layout.bucketOf, assigned]⟩
    obtain ⟨t₂, withdrawn, shows₂⟩ := Table.withdraw_shows shows₁ member
    refine ⟨t₂, ?_, shows₂⟩
    rw [if_pos free, bind_ok (onTable_ok withdrawn)]
    rfl
  · refine ⟨t₁, ?_, Layout.hit_of_referenced consistent here free ▸ shows₁⟩
    rw [if_neg free]
    rfl

theorem takeResident_absent (shows : c.table.Shows L) (consistent : L.Consistent) (absent : L.Absent key) :
    takeResident (L.home key) key c = .ok none c := by
  have found : (L.chain (L.home key)).find? (fun i => L.slots[i]?.any (·.key = key)) = none := by
    refine List.find?_eq_none.mpr fun i member fits => ?_
    obtain ⟨s, here, same⟩ := has_key.mp fits
    exact absent i ⟨s, here, ((consistent.chained here _).mp member).1, same⟩
  rw [takeResident, bind_ok (onTable_ok (Table.find_ok shows (consistent.home_lt _) _)), found]
  rfl

theorem occupy_shows (shows : c.table.Shows L) {s : Slot} (here : L.slots[i]? = some s) (free : s.refcount = 0)
    (unlocked : s.data.isLocked = false) {home : Nat} (inside : home < L.buckets) (fresh : ∀ b, i ∉ L.chain b)
    (key : Key) :
    ∃ t, occupy home i key c =
        .ok () { c with table := t, usage := { c.usage with misses := c.usage.misses + 1 } } ∧
      t.Shows ((L.change i (·.occupy key)).enchain home i) := by
  obtain ⟨t₁, occupied, shows₁⟩ := Table.occupy_shows shows here key
  have slot : i < (L.change i (·.occupy key)).slots.size := by
    simpa [Layout.change] using (Array.getElem?_eq_some_iff.mp here).1
  obtain ⟨t₂, chained, shows₂⟩ := Table.chain_shows shows₁ inside slot fresh
  refine ⟨t₂, ?_, shows₂⟩
  rw [occupy, bind_ok (onTable_ok (Table.slot_ok shows here))]
  simp only [free, ne_eq, not_true, if_false, unlocked, Bool.false_eq_true]
  rw [bind_ok (onTable_ok occupied), bind_ok (onTable_ok chained)]
  rfl

theorem recycle_empty (shows : c.table.Shows L) (consistent : L.Consistent) (empty : L.ring (L.home key) = []) :
    recycle (L.home key) key c = .ok none c := by
  rw [recycle, bind_ok (onTable_ok (Table.takeOldest_nil shows (consistent.home_lt key) empty))]
  rfl

theorem unchain_occupy (shows : c.table.Shows (L.withdraw i)) (consistent : L.Consistent) {s : Slot}
    (here : L.slots[i]? = some s) (free : s.refcount = 0) (bucket : j = L.bucketOf i s) (key : Key) :
    ∃ t₁ t₂, (s.assigned = true → onTable (Table.unchain j i) c = .ok () { c with table := t₁ }) ∧
      (¬ s.assigned = true → c = { c with table := t₁ }) ∧
      occupy (L.home key) i key { c with table := t₁ } =
        .ok () { c with table := t₂, usage := { c.usage with misses := c.usage.misses + 1 } } ∧
      t₂.Shows (L.assign i key) := by
  have unlocked := (consistent.proper here).unlocked free
  have gone : ∀ b, i ∉ (L.chain b).erase i := fun b => (consistent.chain_nodup b).not_mem_erase
  by_cases assigned : s.assigned = true
  · have member : i ∈ (L.withdraw i).chain j :=
      (consistent.chained here j).mpr ⟨assigned, by simpa [Layout.bucketOf, assigned] using bucket⟩
    obtain ⟨t₁, unchained, shows₁⟩ := Table.unchain_shows shows member
    obtain ⟨t₂, occupied, shows₂⟩ := occupy_shows (c := { c with table := t₁ }) shows₁ here free unlocked
      (consistent.home_lt key) gone key
    exact ⟨t₁, t₂, fun _ => onTable_ok unchained, fun never => absurd assigned never, occupied, shows₂⟩
  · have away : ∀ b, i ∉ L.chain b := fun b member => assigned ((consistent.chained here b).mp member).1
    have same : L.withdraw i = (L.withdraw i).unchain i := by
      simp only [Layout.unchain, Layout.withdraw, List.erase_of_not_mem (away _)]
    rw [same] at shows
    obtain ⟨t₂, occupied, shows₂⟩ := occupy_shows shows here free unlocked (consistent.home_lt key) gone key
    exact ⟨c.table, t₂, fun always => absurd always assigned, fun _ => rfl, occupied, shows₂⟩

theorem recycle_oldest (shows : c.table.Shows L) (consistent : L.Consistent) {rest : List Nat} {s : Slot}
    (oldest : L.ring (L.home key) = i :: rest) (here : L.slots[i]? = some s) :
    ∃ t, recycle (L.home key) key c =
        .ok (some (.evicted i (if s.assigned then some s.key else none))) { c with
          table := t
          usage := { c.usage with misses := c.usage.misses + 1, evictions := c.usage.evictions + 1 } } ∧
      t.Shows (L.assign i key) := by
  obtain ⟨free, bucket⟩ := (consistent.ringed here _).mp (oldest ▸ List.mem_cons_self)
  obtain ⟨t₀, taken, shows₀⟩ := Table.takeOldest_shows shows oldest
  obtain ⟨t₁, t₂, unchained, unused, occupied, shows₂⟩ :=
    unchain_occupy (c := { c with table := t₀ }) shows₀ consistent here free bucket key
  refine ⟨t₂, ?_, shows₂⟩
  rw [recycle, bind_ok (onTable_ok taken)]
  simp only
  rw [bind_ok (onTable_ok (Table.slot_ok shows₀ here))]
  by_cases assigned : s.assigned = true
  · rw [if_pos assigned, bind_ok (unchained assigned), bind_ok occupied]
    rfl
  · rw [if_neg assigned, unused assigned, bind_ok occupied]
    rfl

theorem atHome_has (shows : c.table.Shows L) (consistent : L.Consistent) (has : L.Has i key) :
    ∃ t, atHome (L.home key) key c =
        .ok (some (.hit i)) { c with table := t, usage := { c.usage with hits := c.usage.hits + 1 } } ∧
      t.Shows (L.hit i) := by
  obtain ⟨t, taken, shows'⟩ := takeResident_has shows consistent has
  exact ⟨t, bind_ok taken _, shows'⟩

theorem atHome_absent (shows : c.table.Shows L) (consistent : L.Consistent) (absent : L.Absent key) :
    atHome (L.home key) key c = recycle (L.home key) key c :=
  bind_ok (takeResident_absent shows consistent absent) _

theorem steal_empty (shows : c.table.Shows L) (inside : j < L.buckets) (empty : L.ring j = []) (home : Nat) :
    steal home key j c = .ok none c := by
  rw [steal, bind_ok (onTable_ok (Table.takeOldest_nil shows inside empty))]
  rfl

theorem steal_oldest (shows : c.table.Shows L) (consistent : L.Consistent) {rest : List Nat} {s : Slot}
    (oldest : L.ring j = i :: rest) (here : L.slots[i]? = some s) (key : Key) :
    ∃ t, steal (L.home key) key j c =
        .ok (some (.stolen i j)) { c with
          table := t
          usage := { c.usage with misses := c.usage.misses + 1, steals := c.usage.steals + 1 } } ∧
      t.Shows (L.assign i key) := by
  obtain ⟨free, bucket⟩ := (consistent.ringed here _).mp (oldest ▸ List.mem_cons_self)
  obtain ⟨t₀, taken, shows₀⟩ := Table.takeOldest_shows shows oldest
  obtain ⟨t₁, t₂, unchained, unused, occupied, shows₂⟩ :=
    unchain_occupy (c := { c with table := t₀ }) shows₀ consistent here free bucket key
  refine ⟨t₂, ?_, shows₂⟩
  rw [steal, bind_ok (onTable_ok taken)]
  simp only
  rw [bind_ok (onTable_ok (Table.slot_ok shows₀ here))]
  by_cases assigned : s.assigned = true
  · have origin : home { c with table := t₀ } s.key = j := by
      rw [home_eq (c := { c with table := t₀ }) shows₀, bucket, Layout.bucketOf, if_pos assigned]
      rfl
    rw [if_pos assigned, get_bind, origin, if_neg (by simp), bind_ok (unchained assigned), bind_ok occupied]
    rfl
  · rw [if_neg assigned, unused assigned, bind_ok occupied]
    rfl

theorem visit_eq_steal (shows : c.table.Shows L) (consistent : L.Consistent) (absent : L.Absent key)
    (empty : L.ring (L.home key) = []) (j : Nat) : visit (L.home key) key j c = steal (L.home key) key j c := by
  rw [visit]
  split
  · rfl
  · rw [bind_ok ((atHome_absent shows consistent absent).trans (recycle_empty shows consistent empty))]

theorem scan_empty (shows : c.table.Shows L) (consistent : L.Consistent) (absent : L.Absent key)
    (empty : L.ring (L.home key) = []) {js : List Nat} (inside : ∀ j ∈ js, j < L.buckets)
    (empties : ∀ j ∈ js, L.ring j = []) (next : List Nat) :
    scan (L.home key) key (js ++ next) c = scan (L.home key) key next c := by
  induction js with
  | nil => rfl
  | cons j js ih =>
      rw [List.cons_append, scan, bind_ok ((visit_eq_steal shows consistent absent empty j).trans
        (steal_empty shows (inside j (by simp)) (empties j (by simp)) _))]
      exact ih (fun k member => inside k (List.mem_cons_of_mem j member))
        fun k member => empties k (List.mem_cons_of_mem j member)

theorem mem_others (shows : c.table.Shows L) {home : Nat} : j ∈ c.others home ↔ j < L.buckets ∧ j ≠ home := by
  simp [others, buckets, shows.chains.size_heads]

theorem others_split (shows : c.table.Shows L) {home : Nat} (empty : L.ring home = []) {before after : List Nat}
    (split : c.others home = before ++ j :: after) (empties : ∀ j' ∈ before, L.ring j' = []) :
    ∀ j' < j, L.ring j' = [] := by
  have ordered : (c.others home).Pairwise (· < ·) := List.pairwise_lt_range.filter _
  have inside : j ∈ c.others home := by simp [split]
  rw [split] at ordered
  intro j' less
  by_cases same : j' = home
  · rw [same, empty]
  · have bound := ((mem_others shows).mp inside).1
    have member : j' ∈ c.others home := (mem_others shows).mpr ⟨by omega, same⟩
    rcases List.mem_append.mp (split ▸ member) with first | later
    · exact empties j' first
    · have later : j ≤ j' := by
        rcases List.mem_cons.mp later with rfl | later
        · exact Nat.le_refl _
        · exact Nat.le_of_lt ((List.pairwise_cons.mp (List.pairwise_append.mp ordered).2.1).1 j' later)
      omega

theorem lookup_finds (shows : c.table.Shows L) (consistent : L.Consistent) (key : Key) :
    ∃ found L' change t, L.Finds key found L' change ∧ t.Shows L' ∧ (found = none → t = c.table) ∧
      lookup key c = .ok found { c with table := t, usage := change c.usage } := by
  have home := home_eq shows key
  by_cases resident : ∃ i, L.Has i key
  · obtain ⟨i, has⟩ := resident
    obtain ⟨t, taken, shows'⟩ := atHome_has shows consistent has
    refine ⟨_, _, _, t, .hit has, shows', nofun, ?_⟩
    rw [lookup, get_bind, home, bind_ok taken]
    rfl
  have absent : L.Absent key := fun i has => resident ⟨i, has⟩
  have slot {b i : Nat} {rest : List Nat} (oldest : L.ring b = i :: rest) : i < L.slots.size :=
    shows.rings.lt_nodes (b := b) (by simp [oldest])
  cases own : L.ring (L.home key) with
  | cons i rest =>
      have here := Array.getElem?_eq_getElem (slot own)
      obtain ⟨t, recycled, shows'⟩ := recycle_oldest shows consistent own here
      refine ⟨_, _, _, t, .evicted absent own here, shows', nofun, ?_⟩
      rw [lookup, get_bind, home, bind_ok ((atHome_absent shows consistent absent).trans recycled)]
      rfl
  | nil =>
      have start : lookup key c = scan (L.home key) key (c.others (L.home key)) c := by
        rw [lookup, get_bind, home,
          bind_ok ((atHome_absent shows consistent absent).trans (recycle_empty shows consistent own))]
      have inside : ∀ j ∈ c.others (L.home key), j < L.buckets := fun j member => ((mem_others shows).mp member).1
      cases search : (c.others (L.home key)).find? fun j => L.ring j ≠ [] with
      | none =>
          have empties : ∀ j ∈ c.others (L.home key), L.ring j = [] := by simpa using search
          refine ⟨_, _, _, c.table, .exhausted absent fun b => ?_, shows, fun _ => rfl, ?_⟩
          · rcases Nat.lt_or_ge b L.buckets with within | outside
            · by_cases same : b = L.home key
              · rw [same, own]
              · exact empties b ((mem_others shows).mpr ⟨within, same⟩)
            · exact shows.rings.outside b outside
          · rw [start, ← List.append_nil (c.others _), scan_empty shows consistent absent own inside empties]
            rfl
      | some j =>
          obtain ⟨busy, before, after, split, empties⟩ := List.find?_eq_some_iff_append.mp search
          have empties : ∀ j ∈ before, L.ring j = [] := by simpa using empties
          have member : j ∈ c.others (L.home key) := by simp [split]
          obtain ⟨i, rest, oldest⟩ := List.exists_cons_of_ne_nil (of_decide_eq_true busy)
          have here := Array.getElem?_eq_getElem (slot oldest)
          obtain ⟨t, stolen, shows'⟩ := steal_oldest shows consistent oldest here key
          refine ⟨_, _, _, t, .stolen absent ((mem_others shows).mp member).2 ?_ own oldest here, shows', nofun, ?_⟩
          · exact others_split shows own split empties
          · rw [start, split, scan_empty shows consistent absent own (fun j first => inside j (by simp [split, first]))
              empties, scan, bind_ok ((visit_eq_steal shows consistent absent own j).trans stolen)]
            rfl

end Cache
end BlockCache
