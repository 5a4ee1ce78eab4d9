import BlockCache.Device.Disk
import BlockCache.Proofs.Accounting
import BlockCache.Proofs.Cache.Ranked

/-!
# Which lookups are hits

A cache that is used by one lease at a time keeps, of the blocks of each bucket, those that were looked up last, as many
as the bucket was dealt slots: `lookups_hit_by_recency`.
-/

namespace BlockCache

open Recency

namespace Host

variable {δ : Type} [BlockDevice δ]

def course (s : Host δ) : List Act → List (Host δ × Act)
  | [] => []
  | act :: acts => (s, act) :: (s.perform act).host.course acts

/-- The blocks that some acts look up in cache `c`, in the order in which they do. -/
def lookups (s : Host δ) (c : Nat) (acts : List Act) : List Key :=
  (s.course acts).filterMap fun (s, act) => (act.lookup? s).bind fun (c', key) => if c' = c then some key else none

/-- Whenever an act looks a block up in cache `c`, nobody refers to one of its slots: the leases before have ended, no
other call waits, and nothing is pinned. -/
def OneAtATime (s : Host δ) (c capacity : Nat) (acts : List Act) : Prop :=
  ∀ n, (inside : n < acts.length) → (acts[n].lookup? (s.run (acts.take n))).map Prod.fst = some c → ∀ i < capacity,
    let first := (acts.take n).map .act
    (s.walk first).inUse (fun c i => s.pinCount first c i - s.unpinCount first c i) c i = false

def FreeAtLookups (s : Host δ) (c : Nat) (acts : List Act) : Prop :=
  ∀ first act key, first ++ [act] <+: acts → act.lookup? (s.run first) = some (c, key) →
    ∀ i sl, (s.run first).slot? c i = some sl → sl.refcount = 0

variable {s : Host δ} {pins : Nat → Nat → Nat} {c : Nat} {m : Mount} {busy : Option Nat} {history : List Key}
  {act : Act} {acts : List Act} {key : Key}

theorem OneAtATime.free {devices : List δ} {plans : List (Nat × Plan)} {device : Nat} {plan : Plan}
    (single : (assemble devices plans).OneAtATime c plan.capacity acts) (planned : plans[c]? = some (device, plan)) :
    (assemble devices plans).FreeAtLookups c acts := by
  rintro first act key ⟨rest, rfl⟩ looks i sl here
  obtain ⟨-, sound⟩ := walk_balanced devices plans (first.map .act)
  obtain ⟨m, there, inTable⟩ := Option.bind_eq_some_iff.mp here
  have inside : i < plan.capacity := (run_measures there planned).2.1 ▸ (Array.getElem?_eq_some_iff.mp inTable).1
  have unused := single first.length (by simp) (by simp [looks]) i inside
  rw [List.append_assoc, List.take_left] at unused
  rw [← walk_acts] at here
  exact (sound.refcount_eq_zero here).mpr unused

theorem FreeAtLookups.tail (free : s.FreeAtLookups c (act :: acts)) : (s.perform act).host.FreeAtLookups c acts :=
  fun first act' key initial => free (act :: first) act' key (List.cons_prefix_cons.mpr ⟨rfl, initial⟩)

omit [BlockDevice δ] in
theorem assemble_ranked {devices : List δ} {plans : List (Nat × Plan)}
    (there : (assemble devices plans).mount? c = some m) :
    m.cache.table.layout.Ranked none [] := by
  obtain ⟨config, fresh, -⟩ := assemble_fresh there
  rw [fresh, (Cache.fresh_shows config).layout_eq]
  exact Layout.dealt_ranked config.capacity config.buckets config.blockSize

theorem lookups_looked (looks : act.lookup? s = some (c, key)) :
    s.lookups c (act :: acts) = key :: (s.perform act).host.lookups c acts := by
  simp [lookups, course, looks]

theorem lookups_other (still : ∀ key, act.lookup? s ≠ some (c, key)) :
    s.lookups c (act :: acts) = (s.perform act).host.lookups c acts := by
  rw [lookups, course, List.filterMap_cons_none, lookups]
  refine Option.bind_eq_none_iff.mpr ?_
  rintro ⟨c', key⟩ looks
  refine if_neg ?_
  rintro rfl
  exact still key looks

theorem Sound.looked_ranked (sound : s.Sound pins) (there : s.mount? c = some m)
    (ranked : m.cache.table.layout.Ranked busy history) (enough : m.cache.buckets ≤ m.cache.capacity)
    (looks : act.lookup? s = some (c, key)) (free : ∀ i sl, s.slot? c i = some sl → sl.refcount = 0) :
    ∃ (slot : Found) (m' : Mount), (s.perform act).events = slot.events key ∧ (∀ i b, slot ≠ .stolen i b) ∧
      (s.perform act).host.mount? c = some m' ∧ m.cache.SameMeasures m'.cache ∧
      m'.cache.table.layout.Ranked (some slot.slot) (key :: history) ∧ ((∃ i, slot = .hit i) ↔ some key ∈
        places (history.filter (m.cache.home · = m.cache.home key))
          (m.cache.table.layout.share (m.cache.home key))) := by
  obtain ⟨found, m', there', -, sought, events⟩ := sound.looked there looks
  have idle := ranked.idle fun {i sl} inTable => free i sl ((slot?_eq there i).trans inTable)
  obtain ⟨slot, rfl, unstolen, after, hit⟩ := sought.ranked (sound.tables there) idle enough
  exact ⟨slot, m', events slot rfl, unstolen, there', sought.sameMeasures, after, hit⟩

theorem Sound.run_ranked (sound : s.Sound pins) (there : s.mount? c = some m)
    (ranked : m.cache.table.layout.Ranked busy history) (enough : m.cache.buckets ≤ m.cache.capacity)
    (free : s.FreeAtLookups c acts) : ∃ m' busy', (s.run acts).mount? c = some m' ∧
      m'.cache.table.layout.Ranked busy' ((s.lookups c acts).reverse ++ history) := by
  induction acts generalizing s pins m busy history with
  | nil => exact ⟨m, busy, there, ranked⟩
  | cons act acts ih =>
      obtain ⟨pins₁, sound₁, -⟩ := sound.did (sound.perform_did act)
      by_cases looks : ∃ key, act.lookup? s = some (c, key)
      · obtain ⟨key, looks⟩ := looks
        have idle := free [] act key (List.prefix_append [act] acts) looks
        obtain ⟨slot, m₁, -, -, there₁, same, after, -⟩ := sound.looked_ranked there ranked enough looks idle
        have enough₁ : m₁.cache.buckets ≤ m₁.cache.capacity := same.buckets ▸ same.capacity ▸ enough
        obtain ⟨m', busy', there', ranked'⟩ := ih sound₁ there₁ after enough₁ free.tail
        refine ⟨m', busy', there', ?_⟩
        rw [lookups_looked looks]
        simpa using ranked'
      · have still : ∀ key, act.lookup? s ≠ some (c, key) := fun key same => looks ⟨key, same⟩
        obtain ⟨m₁, there₁, -, calms⟩ := (sound.perform_did act).rested still m there
        have settles := calms.settles
        obtain ⟨busy₁, after⟩ := settles.ranked (sound.tables there) ranked
        have same := settles.sameMeasures
        have enough₁ : m₁.cache.buckets ≤ m₁.cache.capacity := same.buckets ▸ same.capacity ▸ enough
        rw [lookups_other still]
        exact ih sound₁ there₁ after enough₁ free.tail

end Host

/-- As long as one lease at a time is taken, no lookup steals a slot, and one is a hit exactly if its block was looked
up before and since then fewer other blocks of its bucket than the bucket has slots, each of them counted once. -/
theorem lookups_hit_by_recency {δ : Type} [BlockDevice δ] (devices : List δ) (plans : List (Nat × Plan))
    {c device : Nat} {plan : Plan} (planned : plans[c]? = some (device, plan)) (enough : plan.buckets ≤ plan.capacity)
    (acts : List Act) (act : Act) {key : Key}
    (single : (Host.assemble devices plans).OneAtATime c plan.capacity (acts ++ [act]))
    (looks : act.lookup? ((Host.assemble devices plans).run acts) = some (c, key)) :
    let host := Host.assemble devices plans
    let home (key : Key) := key.block.toNat % plan.buckets
    let history := (host.lookups c acts).reverse
    let since := history.takeWhile (· ≠ key)
    ∃ found : Found, ((host.run acts).perform act).events = found.events key ∧ (∀ i b, found ≠ .stolen i b) ∧
      ((∃ i, found = .hit i) ↔ key ∈ history ∧
        (since.filter fun other => home other = home key).eraseDups.length <
          (List.range plan.capacity).countP (· % plan.buckets = home key)) := by
  intro host home history since
  obtain ⟨pins, sound⟩ := Host.run_sound devices plans acts
  obtain ⟨t, p, -, pending, -, mine, -⟩ := Host.lookup?_eq_some looks
  obtain ⟨m, there⟩ := Option.isSome_iff_exists.mp (sound.called _ (mem_of_lookup pending)).mounted
  rw [mine] at there
  obtain ⟨-, capacity, buckets, -⟩ := Host.run_measures there planned
  obtain ⟨m₀, there₀, -⟩ := (Host.assemble_sound devices plans).becomes acts there
  have there₁ : (host.run []).mount? c = some m₀ := there₀
  obtain ⟨-, capacity₀, buckets₀, -⟩ := Host.run_measures there₁ planned
  have free := single.free planned
  have before : host.FreeAtLookups c acts :=
    fun first act' key' initial => free first act' key' (initial.trans (List.prefix_append acts [act]))
  obtain ⟨m', busy, there', ranked⟩ := (Host.assemble_sound devices plans).run_ranked there₀
    (Host.assemble_ranked there₀)
    (buckets₀ ▸ capacity₀ ▸ enough) before
  obtain rfl : m = m' := Option.some.inj (there.symm.trans there')
  obtain ⟨found, -, events, unstolen, -, -, -, hit⟩ := sound.looked_ranked there ranked
    (buckets ▸ capacity ▸ enough) looks (free acts act key (List.prefix_refl _) looks)
  refine ⟨found, events, unstolen, hit.trans ?_⟩
  have home' : m.cache.home = home := funext fun key => by rw [Cache.home, buckets]
  have share : m.cache.table.layout.share (home key) =
      (List.range plan.capacity).countP (· % plan.buckets = home key) := by
    rw [← capacity, ← buckets]
    rfl
  rw [List.append_nil, home', share, mem_places, takeWhile_filter_ne (by simp)]
  simp [history, since, host]

theorem lookups_hit_by_recency_after_failure :
    let plan : Plan := ⟨3, 2, 4, .stop⟩
    let disk := Disk.make (RamDisk.empty 4 none) none [⟨.read, 0, .error .interrupted, []⟩]
    let read (block : UInt32) : List Act := .start 0 "a" 0 ⟨⟨0, block⟩, .block, true⟩ :: List.replicate 4 (.turn 0) ++
      [.answer 0, .finish 0 "a" .dropped]
    let acts := read 2 ++ read 3 ++ read 4 ++ read 5 ++ [.start 1 "b" 0 ⟨⟨0, 2⟩, .never, false⟩]
    let host := Host.assemble [disk] [(0, plan)]
    host.OneAtATime 0 3 (acts ++ [.turn 1]) ∧ (host.lookups 0 acts).map Key.block = [2, 3, 4, 5] ∧
      ∃ found i, ((host.run acts).perform (.turn 1)).events = Found.events ⟨0, 2⟩ found ∧ found = .hit i := by
  intro plan disk read acts host
  have single : host.OneAtATime 0 3 (acts ++ [.turn 1]) := by
    unfold Host.OneAtATime
    decide +kernel
  have history : host.lookups 0 acts = [⟨0, 2⟩, ⟨0, 3⟩, ⟨0, 4⟩, ⟨0, 5⟩] := by decide +kernel
  have looks : (Act.turn 1).lookup? (host.run acts) = some (0, ⟨0, 2⟩) := by decide +kernel
  obtain ⟨found, events, -, hit⟩ :=
    lookups_hit_by_recency [disk] [(0, plan)] (c := 0) rfl (by decide) acts (.turn 1) single looks
  rw [history] at hit
  obtain ⟨i, hit⟩ := hit.mpr (by decide)
  exact ⟨single, by rw [history]; rfl, found, i, events, hit⟩

end BlockCache
