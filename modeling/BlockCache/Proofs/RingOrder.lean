import BlockCache.Device.RamDisk
import BlockCache.Proofs.Cache.Aged
import BlockCache.Proofs.Counters

/-!
# The order of the rings

The rings are in the order in which slots became free: `rings_ordered`. So a lookup that gives a slot to another block
takes one that was never used, or the one that has been free for the longest time.
-/

namespace BlockCache

namespace Cache

/-- The ring of bucket `b` has the slots that it was dealt and that were not given to a block, in increasing order, and
then `used`: all other free slots of the bucket, in the order in which they became free last. -/
structure Ordered (c : Cache) (given : Nat → Bool) (freed : List Nat) (b : Nat) (used : List Nat) : Prop where
  ring : c.table.rings.forward b = ((List.range c.capacity).filter fun i => i % c.buckets = b && !given i) ++ used
  member : ∀ i, i ∈ used ↔ given i = true ∧ ∃ s, c.table.slots[i]? = some s ∧ s.refcount = 0 ∧ c.home s.key = b
  numbered : ∀ i ∈ used, i ∈ freed
  sorted : used.Pairwise fun i j => lastFreed freed i < lastFreed freed j

/-- Slot `i` was never used, and is the first such slot of its ring, or all slots of the ring were used and it has been
free for the longest time. -/
def Oldest (c : Cache) (given : Nat → Bool) (freed : List Nat) (b i : Nat) : Prop :=
  i ∈ c.table.rings.forward b ∧ ∀ j ∈ c.table.rings.forward b, j ≠ i →
    if given i then given j = true ∧ lastFreed freed i < lastFreed freed j else given j = true ∨ i < j

variable {c : Cache} {given : Nat → Bool} {freed used rest : List Nat} {b i : Nat}

theorem Ordered.oldest (ordered : c.Ordered given freed b used) (ring : c.table.rings.forward b = i :: rest) :
    c.Oldest given freed b i := by
  refine ⟨by simp [ring], ?_⟩
  have line := ordered.ring.symm.trans ring
  have taken : ∀ j ∈ used, given j = true := fun j member => ((ordered.member j).mp member).1
  have increasing : ((List.range c.capacity).filter fun i => i % c.buckets = b && !given i).Pairwise (· < ·) :=
    List.pairwise_lt_range.filter _
  cases unused : (List.range c.capacity).filter fun i => i % c.buckets = b && !given i with
  | nil =>
      rw [unused, List.nil_append] at line
      intro j member other
      rw [ring] at member
      have sorted := ordered.sorted
      rw [line] at taken sorted
      have later := (List.mem_cons.mp member).resolve_left other
      rw [if_pos (taken i List.mem_cons_self)]
      exact ⟨taken j member, (List.pairwise_cons.mp sorted).1 j later⟩
  | cons k unused' =>
      rw [unused] at line increasing
      obtain ⟨rfl, rfl⟩ := List.cons.inj line
      have fresh : given k = false := by
        have first : k ∈ (List.range c.capacity).filter fun i => i % c.buckets = b && !given i := by simp [unused]
        simpa using (Bool.and_eq_true_iff.mp (List.mem_filter.mp first).2).2
      intro j member other
      rw [ring] at member
      simp only [fresh, Bool.false_eq_true, if_false]
      rcases List.mem_append.mp ((List.mem_cons.mp member).resolve_left other) with later | later
      · exact .inr ((List.pairwise_cons.mp increasing).1 j later)
      · exact .inl (taken j later)

theorem ordered_of_aged (sound : c.table.Sound) (aged : c.table.layout.Aged freed)
    (blocks : ∀ i, (c.table.layout.block? i).isSome = given i) (b : Nat) : ∃ used, c.Ordered given freed b used := by
  obtain ⟨used, line, old, sorted⟩ := aged b
  have unused : c.table.layout.unused b = (List.range c.capacity).filter fun i => i % c.buckets = b && !given i := by
    simp only [Layout.unused, ← blocks, Option.not_isSome]
    rfl
  have assigned {i : Nat} {s : Slot} (here : c.table.layout.slots[i]? = some s) : given i = s.assigned := by
    rw [← blocks, Layout.block?, here]
    cases assigned : s.assigned <;> simp [Option.filter, assigned]
  refine ⟨used, line.trans (congrArg (· ++ used) unused), fun i => ?_, fun i member => (old i member).2, sorted⟩
  constructor
  · intro member
    have ringed : i ∈ c.table.layout.ring b := line ▸ List.mem_append_right _ member
    have here := Array.getElem?_eq_getElem (sound.shows.rings.lt_nodes ringed)
    have taken : given i = true := (blocks i).symm.trans (old i member).1
    obtain ⟨free, home⟩ := (sound.consistent.ringed here b).mp ringed
    rw [Layout.bucketOf, ← assigned here, if_pos taken] at home
    exact ⟨taken, _, here, free, (home_layout sound _).trans home.symm⟩
  · rintro ⟨taken, s, here, free, home⟩
    have here : c.table.layout.slots[i]? = some s := here
    have ringed : i ∈ c.table.layout.ring b := by
      rw [sound.consistent.ringed here, Layout.bucketOf, ← assigned here, if_pos taken, ← home_layout sound]
      exact ⟨free, home.symm⟩
    rcases List.mem_append.mp (line ▸ ringed) with fresh | member
    · rw [unused] at fresh
      simp [taken] at fresh
    · exact member

theorem Does.block? {deed : Option Deed} {c' : Cache} (does : c.Does deed c') (sound : c.table.Sound) (i : Nat) :
    (c'.table.layout.block? i).isSome = ((c.table.layout.block? i).isSome || deed.any (Deed.reassigns i)) := by
  cases does with
  | @found key slot c' gains =>
      simp only [gains.block?]
      by_cases same : i = slot.slot
      · rw [if_pos same]
        cases slot with
        | hit j =>
            have before := Layout.block?_eq_some.mpr gains.suits
            simp [same, Found.slot, before]
        | evicted j old | stolen j b => simp [same, Found.slot, Deed.reassigns]
      · rw [if_neg same]
        cases slot with
        | hit j => simp [Deed.reassigns]
        | evicted j old | stolen j b =>
            have away : j ≠ i := Ne.symm same
            simp [Deed.reassigns, away]
  | loaded here invalid moved => simp [(Settles.one moved rfl).block? sound, Deed.reassigns]
  | stored here moved => simp [(Settles.one moved rfl).block? sound, Deed.reassigns]
  | idle idle moved => simp [(moved.settles idle).block? sound]

end Cache

namespace Host

variable {δ : Type} [BlockDevice δ]

def freedIn (s : Host δ) (c : Nat) (step : Step) : List Nat :=
  (List.range (((s.mount? c).map fun m => m.cache.capacity).getD 0)).filter fun i =>
    !s.isFree c i && (s.advance step).host.isFree c i

def freedSlots (s : Host δ) (c : Nat) (steps : List Step) : List Nat :=
  (s.trail steps).flatMap fun (s, step) => s.freedIn c step

omit [BlockDevice δ] in
def SameRings (s s' : Host δ) (c : Nat) : Prop :=
  (s'.mount? c).map (fun m => m.cache.table.rings) = (s.mount? c).map fun m => m.cache.table.rings

structure RingsInTurn (s : Host δ) (c : Nat) (m : Mount) (given : Nat → Bool) (freed : List Nat) : Prop where
  ordered : ∀ b, ∃ used, m.cache.Ordered given freed b used
  evicted : ∀ step key i old, s.deedIn c step = some (.found key (.evicted i old)) →
    m.cache.Oldest given freed (m.cache.home key) i
  stolen : ∀ step key i b, s.deedIn c step = some (.found key (.stolen i b)) → m.cache.Oldest given freed b i
  still : ∀ step, (∀ i, (s.advance step).host.isFree c i = s.isFree c i) → s.SameRings (s.advance step).host c
  pinned : ∀ t c' name, s.SameRings (s.pin t c' name).host c
  unpinned : ∀ t c' name, s.SameRings (s.unpin t c' name).host c
  joined : ∀ step key i, s.deedIn c step = some (.found key (.hit i)) → s.isFree c i = false →
    s.SameRings (s.advance step).host c
  /-- A call takes the lock of its slot, waits for it or gives up, and the slot is referred to even so. -/
  queued : ∀ t p i, s.pending? t = some p → p.cache = c → p.stage = .queued i →
    (s.turn t).host.isFree c i = false → s.SameRings (s.turn t).host c

variable {s s' : Host δ} {pins : Nat → Nat → Nat} {c : Nat} {m m' : Mount} {freed : List Nat} {step : Step}

theorem freedIn_eq (there : s.mount? c = some m) (after : (s.advance step).host.mount? c = some m') :
    s.freedIn c step = m.cache.table.layout.freedIn m'.cache.table.layout := by
  simp only [freedIn, there, Option.map_some, Option.getD_some, isFree_eq_layout there, isFree_eq_layout after]
  rfl

theorem Sound.advance_aged (sound : s.Sound pins) (step : Step) (there : s.mount? c = some m)
    (aged : m.cache.table.layout.Aged freed) : ∃ m', (s.advance step).host.mount? c = some m' ∧
      m'.cache.table.layout.Aged (freed ++ s.freedIn c step) ∧ (s.freedIn c step).length ≤ 1 := by
  obtain ⟨m', after, calms | ⟨key, found, gains⟩⟩ := sound.advance_cases step there
  · rw [freedIn_eq there after]
    exact ⟨m', after, calms.aged (sound.tables there) aged⟩
  · obtain ⟨aged', none⟩ := gains.aged (sound.tables there) aged
    rw [freedIn_eq there after, none, List.append_nil]
    exact ⟨m', after, aged', Nat.zero_le 1⟩

theorem Sound.walk_aged (sound : s.Sound pins) (steps : List Step) (there : s.mount? c = some m)
    (aged : m.cache.table.layout.Aged freed) :
    (∃ m', (s.walk steps).mount? c = some m' ∧ m'.cache.table.layout.Aged (freed ++ s.freedSlots c steps)) ∧
      ∀ entry ∈ s.trail steps, (entry.1.freedIn c entry.2).length ≤ 1 := by
  induction steps generalizing s pins m freed with
  | nil => exact ⟨⟨m, there, by simpa [freedSlots, trail] using aged⟩, by simp [trail]⟩
  | cons step steps ih =>
      obtain ⟨pins₁, sound₁⟩ := sound.advance step
      obtain ⟨m₁, there₁, aged₁, single⟩ := sound.advance_aged step there aged
      obtain ⟨⟨m', there', aged'⟩, singles⟩ := ih sound₁ there₁ aged₁
      refine ⟨⟨m', there', ?_⟩, List.forall_mem_cons.mpr ⟨single, singles⟩⟩
      rwa [List.append_assoc] at aged'

theorem walk_given (devices : List δ) (plans : List (Nat × Plan)) (steps : List Step)
    (there : ((assemble devices plans).walk steps).mount? c = some m) (i : Nat) :
    (m.cache.table.layout.block? i).isSome = ((assemble devices plans).deeds c steps).any (Deed.reassigns i) := by
  refine Sound.walk_deeds (P := fun m deeds => (m.cache.table.layout.block? i).isSome = deeds.any (Deed.reassigns i))
    ?_ (assemble_sound devices plans) ?_ steps there
  · intro m m' told deed before sound same history does tells
    rw [does.block? sound, same, List.any_append]
    cases deed <;> simp
  · intro m there
    obtain ⟨config, fresh, -⟩ := assemble_fresh there
    rw [fresh, (Cache.fresh_shows config).layout_eq, Layout.dealt_block?]
    rfl

omit [BlockDevice δ] in
theorem sameRings_of_carry {c' : Nat} {cache : Cache} {d : δ} {events : List Event} (there : s.mount? c' = some m)
    (same : c' = c → cache.table.rings = m.cache.table.rings) : s.SameRings (s.carry c' m cache d events) c := by
  by_cases here : c' = c
  · subst here
    rw [SameRings, carry_same there, there]
    exact congrArg some (same rfl)
  · rw [SameRings, carry_other (Ne.symm here)]

theorem Did.sameRings_of_pin {act : Act} {done : Performed δ} (did : s.Did act done) (sound : s.Sound pins)
    {t : Thread} {c' : Nat} {name : String} (which : act = .pin t c' name ∨ act = .unpin t c' name) (c : Nat) :
    s.SameRings done.host c := by
  cases did with
  | refused | foreign => rfl
  | pinned held there device moved carried =>
      subst carried
      exact sameRings_of_carry there fun _ => moved.rings_eq_of_pin (sound.tables there) (.inl rfl)
  | unpinned held there device moved carried =>
      subst carried
      exact sameRings_of_carry there fun _ => moved.rings_eq_of_pin (sound.tables there) (.inr rfl)
  | stopped which held there device => exact sameRings_of_carry there fun _ => rfl
  | edited which' =>
      rcases which' with ⟨offset, part, rfl⟩ | ⟨byte, rfl⟩ <;> rcases which with which | which <;> cases which
  | _ => rcases which with which | which <;> cases which

theorem Sound.sameRings_of_queued (sound : s.Sound pins) {t : Thread} {p : Pending} {i : Nat}
    (pending : s.pending? t = some p) (queued : p.stage = .queued i)
    (busy : (s.turn t).host.isFree p.cache i = false) : s.SameRings (s.turn t).host p.cache := by
  obtain ⟨m, d, turn, there, device, turned, done⟩ := sound.turn_eq pending
  have table := sound.tables there
  rw [done] at busy ⊢
  have there' : (s.carry p.cache m turn.cache turn.device turn.events).mount? p.cache = some _ := carry_same there
  have busy : turn.cache.table.layout.isFree i = false := (isFree_eq_layout there' i).symm.trans busy
  refine sameRings_of_carry (d := turn.device) there fun _ => ?_
  rw [queued] at turned
  cases turned with
  | granted moved => exact moved.rings_eq table rfl busy
  | refused refusal moved => exact moved.rings_eq table rfl busy
  | _ => rfl

theorem Sound.ringsInTurn (sound : s.Sound pins) (there : s.mount? c = some m) {given : Nat → Bool}
    (aged : m.cache.table.layout.Aged freed) (blocks : ∀ i, (m.cache.table.layout.block? i).isSome = given i) :
    s.RingsInTurn c m given freed := by
  have table := sound.tables there
  have ordered := Cache.ordered_of_aged table aged blocks
  have oldest {b i : Nat} (first : ∃ rest, m.cache.table.layout.ring b = i :: rest) :
      m.cache.Oldest given freed b i := by
    obtain ⟨used, line⟩ := ordered b
    obtain ⟨rest, ring⟩ := first
    exact line.oldest ring
  have same {m' : Mount} {s' : Host δ} (after : s'.mount? c = some m')
      (rings : m'.cache.table.rings = m.cache.table.rings) : s.SameRings s' c := by
    rw [SameRings, after, there]
    exact congrArg some rings
  refine ⟨ordered, ?_, ?_, ?_, ?_, ?_, ?_, ?_⟩
  · intro step key i old deed
    obtain ⟨m', -, gains⟩ := sound.gains_of_deed there deed
    obtain ⟨sl, -, -, first⟩ := gains.moved.allowed
    rw [Cache.home_layout table]
    exact oldest first
  · intro step key i b deed
    obtain ⟨m', -, gains⟩ := sound.gains_of_deed there deed
    obtain ⟨sl, -, -, first⟩ := gains.moved.allowed
    exact oldest first
  · intro step unfreed
    obtain ⟨m', after, calms | ⟨key, found, gains⟩⟩ := sound.advance_cases step there
    all_goals
      simp only [isFree_eq_layout there, isFree_eq_layout after] at unfreed
    · exact same after (calms.rings_eq table unfreed)
    · exact same after (gains.rings_eq table unfreed)
  · exact fun t c' name => (sound.perform_did (.pin t c' name)).sameRings_of_pin sound (.inl rfl) c
  · exact fun t c' name => (sound.perform_did (.unpin t c' name)).sameRings_of_pin sound (.inr rfl) c
  · intro step key i deed busy
    obtain ⟨m', after, gains⟩ := sound.gains_of_deed there deed
    obtain ⟨sl, here, -⟩ := gains.moved.allowed
    have referenced : sl.refcount ≠ 0 := by
      rw [isFree_eq_layout there, Layout.isFree, show m.cache.table.layout.slots[i]? = some sl from here] at busy
      simpa using busy
    refine same after ?_
    rw [gains.moved.joined table here referenced]
    rfl
  · rintro t p i pending rfl queued busy
    exact sound.sameRings_of_queued pending queued busy

end Host
open Host

/-- Number the times at which a slot of a cache becomes free; no step frees more than one. After any steps of any
threads each ring has the slots that were never given to a block, and then all others that are free by the number of
the last time. A lookup that gives a slot to another block takes the first of a ring. What frees no slot and takes none
changes no ring. -/
theorem rings_ordered {δ : Type} [BlockDevice δ] (devices : List δ) (plans : List (Nat × Plan)) (steps : List Step)
    {c : Nat} {m : Mount} (there : ((assemble devices plans).walk steps).mount? c = some m) :
    let host := assemble devices plans
    (∀ entry ∈ host.trail steps, (entry.1.freedIn c entry.2).length ≤ 1) ∧
      (host.walk steps).RingsInTurn c m (fun i => (host.deeds c steps).any (Deed.reassigns i))
        (host.freedSlots c steps) := by
  intro host
  obtain ⟨pins, sound⟩ := walk_sound devices plans steps
  obtain ⟨m₀, there₀, -⟩ := (assemble_sound devices plans).walk_becomes steps there
  have fresh : m₀.cache.table.layout.Aged [] := by
    obtain ⟨config, fresh, -⟩ := assemble_fresh there₀
    rw [fresh, (Cache.fresh_shows config).layout_eq]
    exact Layout.dealt_aged config.capacity config.buckets config.blockSize
  obtain ⟨⟨m', there', aged⟩, single⟩ := (assemble_sound devices plans).walk_aged steps there₀ fresh
  obtain rfl : m' = m := Option.some.inj (there'.symm.trans there)
  exact ⟨single, sound.ringsInTurn there aged (walk_given devices plans steps there)⟩

theorem rings_ordered_by_release :
    let take (t : Thread) (name : String) (block : UInt32) : List Step :=
      [.act (.start t name 0 ⟨⟨0, block⟩, .block, false⟩), .act (.turn t), .act (.turn t), .act (.answer t)]
    let steps := take 0 "a" 0 ++ take 1 "b" 2 ++ [.act (.finish 1 "b" .dropped), .act (.finish 0 "a" .dropped)]
    let host := assemble [RamDisk.empty 4 none] [(0, ⟨3, 2, 4, .stop⟩)]
    ∃ m, (host.walk steps).mount? 0 = some m ∧ m.cache.table.rings.forward 0 = [2, 0] ∧
      (host.walk steps).RingsInTurn 0 m (fun i => (host.deeds 0 steps).any (Deed.reassigns i)) [2, 0] := by
  intro take steps host
  have line : ((host.walk steps).mount? 0).any (fun m => m.cache.table.rings.forward 0 = [2, 0]) = true := by
    decide +kernel
  obtain ⟨m, there, line⟩ := (Option.any_eq_true _ _).mp line
  have freed : host.freedSlots 0 steps = [2, 0] := by decide +kernel
  obtain ⟨-, turn⟩ := rings_ordered _ _ steps there
  exact ⟨m, there, of_decide_eq_true line, freed ▸ turn⟩

end BlockCache
