import BlockCache.Proofs.Cache.Probed

/-!
# Slots that are taken

What a lookup that has found a slot makes of its cache, in terms of the links as they are walked, with all that stays
the same.
-/

namespace BlockCache.Cache

/-- Slot `i` is changed by `f` and is in no ring any more. The chains and the usage become what is given, and the rest
stays as it was. -/
structure Takes (c : Cache) (i : Nat) (f : Slot → Slot) (chain : Nat → List Nat) (usage : Usage) (c' : Cache) :
    Prop where
  slots : c'.table.slots = c.table.slots.modify i f
  chains : ∀ b, c'.table.chains.toList b = chain b
  rings : ∀ b, c'.table.rings.forward b = (c.table.rings.forward b).erase i
  backward : ∀ b, c'.table.rings.backward b = (c.table.rings.backward b).erase i
  buckets : c'.buckets = c.buckets
  blockSize : c'.blockSize = c.blockSize
  exhaustion : c'.exhaustion = c.exhaustion
  freed : c'.freed = c.freed
  usage : c'.usage = usage

structure Reuses (c : Cache) (key : Key) (i : Nat) (c' : Cache) : Prop where
  takes : c.Takes i Slot.take c.table.chains.toList { c.usage with hits := c.usage.hits + 1 } c'
  chains : c'.table.chains = c.table.chains
  free : ∀ s, c.table.slots[i]? = some s → s.refcount = 0 → i ∈ c.table.rings.forward (c.home key)
  busy : ∀ s, c.table.slots[i]? = some s → s.refcount ≠ 0 → c'.table.rings = c.table.rings

/-- The slot `i` is given to the block. Its bytes and pins stay, and it becomes the first of the chain. -/
def Gives (c : Cache) (key : Key) (i : Nat) (usage : Usage) (c' : Cache) : Prop :=
  c.Takes i (fun s => { s with key, assigned := true, valid := false, refcount := 1 })
    (fun b => if b = c.home key then i :: (c.table.chains.toList b).erase i else (c.table.chains.toList b).erase i)
    usage c'

def Claims (c : Cache) (key : Key) (c' : Cache) : Found → Prop
  | .hit i => c.Reuses key i c'
  | .evicted i _ => c.Gives key i { c.usage with misses := c.usage.misses + 1, evictions := c.usage.evictions + 1 } c'
  | .stolen i _ => c.Gives key i { c.usage with misses := c.usage.misses + 1, steals := c.usage.steals + 1 } c'

variable {c c' : Cache} {key : Key} {i : Nat} {found : Found}

theorem takes_of_shows (sound : c.table.Sound) {L : Layout} {t : Table} (shows : t.Shows L) {f : Slot → Slot}
    (slots : L.slots = c.table.slots.modify i f) (buckets : L.buckets = c.buckets)
    (ring : ∀ b, L.ring b = (c.table.rings.forward b).erase i) (usage : Usage) :
    c.Takes i f L.chain usage { c with table := t, usage } where
  slots := shows.slots.trans slots
  chains := shows.chains.toList_eq
  rings b := (shows.rings.forward_eq b).trans (ring b)
  backward b := by
    have nodup := sound.consistent.ring_nodup b
    rw [shows.rings.backward_eq, ring, sound.shows.rings.backward_eq,
      ((List.reverse_perm _).nodup_iff.mpr nodup).erase_eq_filter, List.filter_reverse, ← nodup.erase_eq_filter]
    rfl
  buckets := shows.chains.size_heads.trans buckets
  blockSize := rfl
  exhaustion := rfl
  freed := rfl
  usage := rfl

theorem reuses_of_shows (sound : c.table.Sound) (has : c.table.layout.Has i key) {t : Table}
    (shows : t.Shows (c.table.layout.hit i)) :
    c.Reuses key i { c with table := t, usage := { c.usage with hits := c.usage.hits + 1 } } := by
  obtain ⟨s, here, assigned, rfl⟩ := has
  have size : (c.table.layout.hit i).slots.size = c.table.layout.slots.size := Array.size_modify
  have chains := shows.chains
  have rings := shows.rings
  rw [size] at chains rings
  refine ⟨takes_of_shows sound shows rfl rfl (fun _ => rfl) _, chains.unique sound.shows.chains, ?_, ?_⟩
  · intro s' here' free
    obtain rfl := Option.some.inj (here.symm.trans here')
    exact (sound.consistent.ringed here _).mpr ⟨free, by simp [Layout.bucketOf, assigned, home_layout sound]⟩
  · intro s' here' busy
    obtain rfl := Option.some.inj (here.symm.trans here')
    have ring : (c.table.layout.hit i).ring = c.table.layout.ring := by
      rw [← Layout.hit_of_referenced sound.consistent here busy]
      rfl
    rw [ring] at rings
    exact rings.unique sound.shows.rings

theorem gives_of_shows (sound : c.table.Sound) {t : Table} (shows : t.Shows (c.table.layout.assign i key))
    (usage : Usage) : c.Gives key i usage { c with table := t, usage } := by
  have takes := takes_of_shows sound (f := (·.occupy key)) shows rfl rfl (fun _ => rfl) usage
  rw [Gives, home_layout sound]
  exact takes

theorem Gains.claims (gains : c.Gains key found c') (sound : c.table.Sound) : c.Claims key c' found := by
  obtain ⟨suits, moved⟩ := gains
  have same : c' = { c with table := c'.table, usage := (found.move key).count c.usage } := by
    refine eq_of_fields rfl moved.blockSize moved.exhaustion ?_ moved.usage
    rw [moved.freed]
    cases found <;> simp [Found.move, Layout.frees]
  rw [same]
  cases found with
  | hit i => exact reuses_of_shows sound suits moved.shows
  | evicted i old | stolen i j => exact gives_of_shows sound moved.shows _

end BlockCache.Cache
