import BlockCache.Device.RamDisk
import BlockCache.Proofs.Host.Walks

/-!
# References

The reference count of a slot is the number of those who refer to it: its lease, the calls that wait for its lock, the
leases that have given the lock back but not yet their reference, and its pins. So a slot is free exactly as long as
nobody refers to it, and none is lost: `references_balanced`.
-/

namespace BlockCache

theorem Layout.Consistent.rings_perm {L : Layout} (consistent : L.Consistent)
    (inside : ∀ {b i : Nat}, i ∈ L.ring b → i < L.slots.size) :
    ((List.range L.buckets).flatMap L.ring).Perm ((List.range L.slots.size).filter L.isFree) := by
  have nodup : ((List.range L.buckets).flatMap L.ring).Nodup := by
    refine List.pairwise_flatMap.mpr ⟨fun b _ => consistent.ring_nodup b, ?_⟩
    refine List.nodup_range.imp fun {b b'} other i member j member' same => other ?_
    subst same
    have here := Array.getElem?_eq_getElem (inside member)
    exact ((consistent.ringed here b).mp member).2.trans ((consistent.ringed here b').mp member').2.symm
  refine (List.perm_ext_iff_of_nodup nodup (List.nodup_range.filter _)).mpr fun i => ?_
  simp only [List.mem_flatMap, List.mem_filter, List.mem_range]
  constructor
  · rintro ⟨b, -, member⟩
    have here := Array.getElem?_eq_getElem (inside member)
    refine ⟨inside member, ?_⟩
    simp [isFree, here, ((consistent.ringed here b).mp member).1]
  · rintro ⟨bound, free⟩
    have here := Array.getElem?_eq_getElem bound
    have free : L.slots[i].refcount = 0 := by simpa [isFree, here] using free
    exact ⟨_, consistent.bucketOf_lt i _, (consistent.ringed here _).mpr ⟨free, rfl⟩⟩

namespace Table

variable {t : Table}

theorem Sound.free_add (sound : t.Sound) :
    t.free + (List.range t.slots.size).countP (fun i => ¬ t.layout.isFree i) = t.slots.size := by
  have free : t.free = (List.range t.slots.size).countP t.layout.isFree := by
    rw [Table.free_eq sound.shows, List.countP_eq_length_filter]
    exact (sound.consistent.rings_perm sound.shows.rings.lt_nodes).length_eq
  rw [free, ← List.length_eq_countP_add_countP, List.length_range]

theorem Sound.free_iff (sound : t.Sound) {i : Nat} {s : Slot} (here : t.slots[i]? = some s) :
    (∃ b < t.layout.buckets, i ∈ t.rings.forward b) ↔ s.refcount = 0 := by
  constructor
  · rintro ⟨b, -, member⟩
    exact ((sound.consistent.ringed here b).mp member).1
  · intro free
    exact ⟨_, sound.consistent.bucketOf_lt i s, (sound.consistent.ringed here _).mpr ⟨free, rfl⟩⟩

end Table

def Step.halves : Step → Bool
  | unlock .. | spoil _ => true
  | _ => false

namespace Host

variable {δ : Type}

/-- Whether somebody refers to slot `i` of cache `c`: a lease, also one that is about to end, a call that waits for its
lock, or a pin. -/
def inUse (s : Host δ) (pins : Nat → Nat → Nat) (c i : Nat) : Bool :=
  s.live.any (fun lease => lease.cache = c ∧ lease.slot = i) || s.waiting.contains (c, i) ||
    s.parting.contains (c, i) || pins c i ≠ 0

/-- Cache `c`, whose mount is `m`, accounts for all references to its slots, `pins c i` of which are pins. -/
structure Balanced [BlockDevice δ] (s : Host δ) (pins : Nat → Nat → Nat) (c : Nat) (m : Mount)
    (capacity buckets : Nat) : Prop where
  references : ∀ (i : Nat) (sl : Slot), m.cache.table.slots[i]? = some sl → sl.refcount =
    (if s.live.any fun lease => lease.cache = c ∧ lease.slot = i then 1 else 0) + s.waiting.count (c, i) +
      s.parting.count (c, i) + pins c i
  unpin : ∀ (t : Thread) (c' : Nat) (name : String) (i : Nat) (sl sl' : Slot), m.cache.table.slots[i]? = some sl →
    (s.perform (.unpin t c' name)).host.slot? c i = some sl' → sl.refcount ≠ 0 → sl'.refcount ≠ 0
  free : ∀ i < capacity, (∃ b < buckets, i ∈ m.cache.table.rings.forward b) ↔ s.inUse pins c i = false
  total : ((List.range buckets).flatMap m.cache.table.rings.forward).length +
    (List.range capacity).countP (s.inUse pins c) = capacity
  quiet : s.leases = [] → s.calls = [] → s.parting = [] →
    m.cache.free + (List.range capacity).countP (fun i => 0 < pins c i) = capacity

variable {s : Host δ} {pins : Nat → Nat → Nat} {c i : Nat} {sl : Slot} {m : Mount}

theorem Sound.references (sound : s.Sound pins) (here : s.slot? c i = some sl) : sl.refcount =
    (if s.live.any fun lease => lease.cache = c ∧ lease.slot = i then 1 else 0) + s.waiting.count (c, i) +
      s.parting.count (c, i) + pins c i := by
  have accounted := sound.accounted here
  have bound := Ledger.holders_length_le accounted
  have bare : (s.ledger pins).bareOn c i = s.waiting.count (c, i) + s.parting.count (c, i) := List.count_append
  have refcount : sl.refcount = ((s.ledger pins).holders c i).length + (s.ledger pins).bareOn c i + pins c i :=
    accounted.refcount
  have some : 0 < ((s.ledger pins).holders c i).length ↔
      s.live.any (fun lease => lease.cache = c ∧ lease.slot = i) = true := by
    simp [Ledger.holders, ledger]
  split
  · rename_i leased
    have single := some.mpr leased
    omega
  · rename_i unleased
    have none := mt some.mp unleased
    omega

theorem Sound.refcount_eq_zero (sound : s.Sound pins) (here : s.slot? c i = some sl) :
    sl.refcount = 0 ↔ s.inUse pins c i = false := by
  rw [sound.references here, inUse]
  cases s.live.any fun lease => lease.cache = c ∧ lease.slot = i with
  | true => simp
  | false => simp [List.count_eq_zero, and_assoc]

theorem Sound.isFree_eq (sound : s.Sound pins) (there : s.mount? c = some m) (bound : i < m.cache.table.slots.size) :
    m.cache.table.layout.isFree i = !s.inUse pins c i := by
  have inTable : m.cache.table.slots[i]? = some _ := Array.getElem?_eq_getElem bound
  have here := (slot?_eq there i).trans inTable
  have zero := sound.refcount_eq_zero here
  show m.cache.table.slots[i]?.any _ = _
  rw [inTable, Option.any_some]
  cases used : s.inUse pins c i with
  | true => simpa [used] using zero
  | false => simpa [used] using zero

theorem Sound.free_add_inUse (sound : s.Sound pins) (there : s.mount? c = some m) :
    m.cache.free + (List.range m.cache.table.slots.size).countP (s.inUse pins c) = m.cache.table.slots.size := by
  have busy : (List.range m.cache.table.slots.size).countP (s.inUse pins c) =
      (List.range m.cache.table.slots.size).countP fun i => ¬ m.cache.table.layout.isFree i := by
    refine List.countP_congr fun i bound => ?_
    simp [sound.isFree_eq there (List.mem_range.mp bound)]
  rw [busy]
  exact (sound.tables there).free_add

theorem Sound.referenced_after_unpin [BlockDevice δ] (sound : s.Sound pins) (t : Thread) (c' : Nat) (name : String)
    {sl' : Slot} (before : s.slot? c i = some sl)
    (after : (s.perform (.unpin t c' name)).host.slot? c i = some sl') (referenced : sl.refcount ≠ 0) :
    sl'.refcount ≠ 0 := by
  have did := sound.perform_did (.unpin t c' name)
  generalize s.perform (.unpin t c' name) = done at did after
  have unchanged (same : done.host.slot? c i = s.slot? c i) : sl'.refcount ≠ 0 := by
    rw [same, before] at after
    exact Option.some.inj after ▸ referenced
  cases did with
  | refused | foreign => exact unchanged rfl
  | stopped which held there device => exact unchanged ((Host.carry_alike there _ _).slot?_eq c i)
  | @unpinned _ _ lease m d cache _ held there device moved carried =>
      subst carried
      have moved := carry_movedAt there moved d []
      by_cases same : (c, i) = (lease.cache, lease.slot)
      · obtain ⟨rfl, rfl⟩ := Prod.mk.inj same
        obtain ⟨-, sl₀, -, here, -, -, -, two⟩ := moved.ready
        have less : sl₀.refcount - 1 = sl'.refcount :=
          congrArg Slot.refcount (Option.some.inj ((moved.slot_same here).symm.trans after))
        omega
      · exact unchanged (moved.slot_other same)
  | edited which => simp at which

theorem Sound.balanced [BlockDevice δ] (sound : s.Sound pins) (there : s.mount? c = some m) :
    s.Balanced pins c m m.cache.table.slots.size m.cache.table.layout.buckets where
  references i sl inTable := sound.references ((slot?_eq there i).trans inTable)
  unpin t c' name i sl sl' inTable after :=
    sound.referenced_after_unpin t c' name ((slot?_eq there i).trans inTable) after
  free i bound := by
    have inTable : m.cache.table.slots[i]? = some _ := Array.getElem?_eq_getElem bound
    rw [(sound.tables there).free_iff inTable, sound.refcount_eq_zero ((slot?_eq there i).trans inTable)]
  total := by
    have all := sound.free_add_inUse there
    rw [Cache.free, Table.free_eq (sound.tables there).shows] at all
    exact all
  quiet leases calls parting := by
    have pinned : s.inUse pins c = fun i => decide (0 < pins c i) := by
      funext i
      simp [inUse, live, waiting, leases, calls, parting, Nat.pos_iff_ne_zero]
    exact pinned ▸ sound.free_add_inUse there

theorem Sound.advance_parting [BlockDevice δ] (sound : s.Sound pins) {step : Step} (whole : step.halves = false)
    (none : s.parting = []) : (s.advance step).host.parting = [] := by
  have took := sound.advance_took step
  generalize s.advance step = done at took ⊢
  cases took with
  | did did => exact did.parting_eq.trans none
  | unlocked | spoilt => cases whole
  | parted owed => exact absurd owed (none ▸ List.not_mem_nil)
  | _ => exact none

theorem Sound.walk_parting [BlockDevice δ] (sound : s.Sound pins) (none : s.parting = []) {steps : List Step}
    (whole : ∀ step ∈ steps, step.halves = false) : (s.walk steps).parting = [] := by
  induction steps generalizing s pins with
  | nil => exact none
  | cons step steps ih =>
      obtain ⟨pins₁, sound₁⟩ := sound.advance step
      exact ih sound₁ (sound.advance_parting (whole step (.head _)) none) fun step member => whole step (.tail _ member)

end Host

def Move.adds : Move → Nat
  | edit .. => 0
  | _ => 1

theorem Move.adds_le (move : Move) : move.adds ≤ 1 := by
  cases move <;> simp [adds]

namespace Cache

structure CountsTo (c : Cache) (n : Nat) : Prop where
  references : ∀ (i : Nat) (s : Slot), c.table.slots[i]? = some s → s.refcount ≤ n
  freed : c.freed ≤ n
  lookups : c.usage.hits ≤ n ∧ c.usage.misses ≤ n
  transfers : c.usage.reads ≤ n ∧ c.usage.writes ≤ n
  assignments : c.usage.evictions ≤ n ∧ c.usage.steals ≤ n

variable {c c' : Cache} {move : Move} {n : Nat}

theorem CountsTo.mono {k : Nat} (counts : c.CountsTo n) (le : n ≤ k) : c.CountsTo k where
  references i s here := Nat.le_trans (counts.references i s here) le
  freed := Nat.le_trans counts.freed le
  lookups := ⟨Nat.le_trans counts.lookups.1 le, Nat.le_trans counts.lookups.2 le⟩
  transfers := ⟨Nat.le_trans counts.transfers.1 le, Nat.le_trans counts.transfers.2 le⟩
  assignments := ⟨Nat.le_trans counts.assignments.1 le, Nat.le_trans counts.assignments.2 le⟩

theorem Moved.countsTo (moved : c.Moved move c') (counts : c.CountsTo n) : c'.CountsTo (n + move.adds) := by
  obtain ⟨references, freed, lookups, transfers, assignments⟩ := counts
  obtain ⟨s₀, here₀, -⟩ := moved.allowed
  have usage := moved.usage
  have frees := moved.freed
  refine ⟨fun i s here => ?_, ?_, ?_, ?_, ?_⟩
  · by_cases same : i = move.slot
    · subst same
      obtain rfl := Option.some.inj ((moved.same here₀).symm.trans here)
      have before := references _ _ here₀
      cases move <;>
        simp only [Move.adds, Move.change, Slot.take, Slot.give, Slot.occupy, Slot.withBytes, Slot.validate] <;> omega
    · exact Nat.le_add_right_of_le (references i s ((moved.other same).symm.trans here))
  · cases move with
    | edit =>
        have kept : c'.freed = c.freed := by simpa [Layout.frees] using frees
        exact kept ▸ freed
    | _ =>
        split at frees
        all_goals
          simp only [Move.adds]
          omega
  all_goals
    cases move with
    | assign i key origin => cases origin <;> simp only [usage, Move.count, Move.adds] <;> omega
    | _ =>
        simp only [usage, Move.count, Move.adds, id]
        omega

end Cache

theorem Host.Sound.walk_countsTo {δ : Type} [BlockDevice δ] {s : Host δ} {pins : Nat → Nat → Nat} (sound : s.Sound pins)
    {c n : Nat} {m : Mount} (there : s.mount? c = some m) (counts : m.cache.CountsTo n) (steps : List Step) :
    ∃ m', (s.walk steps).mount? c = some m' ∧ m'.cache.CountsTo (n + steps.length) := by
  induction steps generalizing s pins m n with
  | nil => exact ⟨m, there, counts⟩
  | cons step steps ih =>
      obtain ⟨pins₁, sound₁⟩ := sound.advance step
      obtain ⟨m₁, there₁, changes⟩ := sound.advance_cases step there
      have counts₁ : m₁.cache.CountsTo (n + 1) := by
        generalize m₁.cache = cache at changes
        rcases changes with calms | ⟨key, found, gains⟩
        · cases calms with
          | rest => exact counts.mono (Nat.le_succ n)
          | moved moved still => exact (moved.countsTo counts).mono (Nat.add_le_add_left (Move.adds_le _) n)
          | spoilt spoils ended =>
              exact (ended.countsTo (spoils.countsTo counts)).mono (Nat.add_le_add_left (Move.adds_le _) n)
        · exact (gains.moved.countsTo counts).mono (Nat.add_le_add_left (Move.adds_le _) n)
      obtain ⟨m', there', counts'⟩ := ih sound₁ there₁ counts₁
      exact ⟨m', there', counts'.mono (by rw [List.length_cons]; omega)⟩

/-- No count of a cache is more than the number of steps, so that it fits a word of 64 bits in any run of less than 2^64
steps. -/
theorem counts_bounded {δ : Type} [BlockDevice δ] (devices : List δ) (plans : List (Nat × Plan)) (steps : List Step)
    {c : Nat} {m : Mount} (there : ((Host.assemble devices plans).walk steps).mount? c = some m) :
    m.cache.CountsTo steps.length := by
  have sound := Host.assemble_sound devices plans
  obtain ⟨m₀, there₀, -⟩ := sound.walk_becomes steps there
  obtain ⟨config, fresh, -⟩ := Host.assemble_fresh there₀
  have start : m₀.cache.CountsTo 0 := by
    rw [fresh]
    refine ⟨fun i s here => ?_, Nat.le_refl 0, ⟨Nat.le_refl 0, Nat.le_refl 0⟩, ⟨Nat.le_refl 0, Nat.le_refl 0⟩,
      ⟨Nat.le_refl 0, Nat.le_refl 0⟩⟩
    obtain rfl := Cache.slot_of_fresh here
    exact Nat.le_refl 0
  obtain ⟨m', there', counts⟩ := sound.walk_countsTo there₀ start steps
  obtain rfl := Option.some.inj (there.symm.trans there')
  exact counts.mono (Nat.le_of_eq (Nat.zero_add _))

/-- Whatever steps any threads take, each cache accounts for all references to its slots. A slot has as many pins as
were set less those that were taken back. Nothing but pins, leases and calls refers to one if leases end in one step. -/
theorem references_balanced {δ : Type} [BlockDevice δ] (devices : List δ) (plans : List (Nat × Plan))
    (steps : List Step) {c device : Nat} {plan : Plan} {m : Mount} (planned : plans[c]? = some (device, plan))
    (there : ((Host.assemble devices plans).walk steps).mount? c = some m) :
    let host := Host.assemble devices plans
    (∀ i, host.unpinCount steps c i ≤ host.pinCount steps c i) ∧
      (host.walk steps).Balanced (fun c i => host.pinCount steps c i - host.unpinCount steps c i) c m plan.capacity
        plan.buckets ∧
      ((∀ step ∈ steps, step.halves = false) → (host.walk steps).parting = []) := by
  intro host
  obtain ⟨fewer, sound⟩ := Host.walk_balanced devices plans steps
  obtain ⟨-, capacity, buckets, -⟩ := Host.walk_measures there planned
  have balanced := sound.balanced there
  rw [show m.cache.table.slots.size = plan.capacity from capacity,
    show m.cache.table.layout.buckets = plan.buckets from buckets] at balanced
  exact ⟨fewer c, balanced, (Host.assemble_sound devices plans).walk_parting rfl⟩

/-- A pin outlives the lease that it was set with, while the lookup of another call is under way. -/
theorem references_balanced_after_release :
    let plan : Plan := ⟨2, 2, 4, .wait⟩
    let steps : List Step := [.act (.start 0 "a" 0 ⟨⟨0, 3⟩, .block, true⟩), .act (.turn 0), .act (.turn 0),
      .act (.turn 0), .act (.answer 0), .act (.start 1 "b" 0 ⟨⟨0, 2⟩, .block, true⟩), .act (.pin 0 0 "a"), .probe 1 0,
      .unlock 0 "a" (.released none)]
    let host := Host.assemble [RamDisk.empty 4 none] [(0, plan)]
    ∃ m, (host.walk steps).mount? 0 = some m ∧
      (host.walk steps).Balanced (fun c i => host.pinCount steps c i - host.unpinCount steps c i) 0 m 2 2 ∧
      host.pinCount steps 0 1 = 1 ∧ (host.walk steps).parting = [(0, 1)] := by
  intro plan steps host
  have mounted : ((host.walk steps).mount? 0).isSome = true := by decide +kernel
  obtain ⟨m, there⟩ := Option.isSome_iff_exists.mp mounted
  exact ⟨m, there, (references_balanced _ _ _ rfl there).2.1, by decide +kernel, by decide +kernel⟩

end BlockCache
