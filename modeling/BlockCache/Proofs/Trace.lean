import BlockCache.Proofs.Cache.Ranked
import BlockCache.Proofs.Host.Deeds

/-!
# The cache in its log

Which block each slot stands for can be read off what a cache has reported: a miss says which slot was given to which
block. `Trace.Fits` says of each report of a lookup what was the case where it stands in the log, and `log_replayed`
that this holds after any run.
-/

namespace BlockCache

namespace Trace

def record (blocks : Nat → Option Key) : Event → Nat → Option Key
  | .miss key i => fun j => if j = i then some key else blocks j
  | _ => blocks

def replay (log : List Event) : Nat → Option Key := log.foldl record fun _ => none

/-- What a report of a lookup says where it stands in a log. The slot that is given away comes from the home bucket,
unless the next report is that it was stolen from another bucket. -/
def Fits (buckets : Nat) (before : List Event) (e : Event) (after : List Event) : Prop :=
  match e with
  | .hit key i => replay before i = some key
  | .evicting old i key => replay before i = some old ∧ after.head? = some (.miss key i)
  | .miss key i =>
      (∃ j, after.head? = some (.stealing i j key)) ∨
        (∀ i j key, after.head? ≠ some (.stealing i j key)) ∧
          ∀ old, before.getLast? = some (.evicting old i key) ↔ replay before i = some old
  | .stealing i j key =>
      ∃ first, before = first ++ [.miss key i] ∧ j ≠ key.block.toNat % buckets ∧
        j = ((replay first i).map (·.block.toNat % buckets)).getD (i % buckets)
  | _ => True

def isHit : Event → Bool
  | .hit .. => true
  | _ => false

def isMiss : Event → Bool
  | .miss .. => true
  | _ => false

def isSteal : Event → Bool
  | .stealing .. => true
  | _ => false

variable {buckets : Nat} {log before after told : List Event} {e : Event} {key : Key} {i j : Nat}

theorem replay_concat (log : List Event) (e : Event) : replay (log ++ [e]) = record (replay log) e := by
  rw [replay, List.foldl_append]
  rfl

theorem replay_quiet (log : List Event) (quiet : Event.Quiet told) : replay (log ++ told) = replay log := by
  induction told generalizing log with
  | nil => rw [List.append_nil]
  | cons e told ih =>
      have still : record (replay log) e = replay log := by
        have mute := quiet e (.head _)
        cases e with
        | miss => cases mute
        | _ => rfl
      rw [← List.singleton_append, ← List.append_assoc, ih _ fun e member => quiet e (.tail _ member), replay_concat,
        still]

theorem Fits.of_quiet (quiet : e.seeks = false) : Fits buckets before e after := by
  cases e with
  | hit | miss | evicting | stealing => cases quiet
  | _ => trivial

theorem Fits.extend (fits : Fits buckets before e after) (apart : ∀ i j key, told.head? ≠ some (.stealing i j key)) :
    Fits buckets before e (after ++ told) := by
  have same {a : Event} (first : after.head? = some a) : (after ++ told).head? = some a := by
    rw [List.head?_append, first]
    rfl
  cases e with
  | evicting old i key => exact ⟨fits.1, same fits.2⟩
  | miss key i =>
      rcases fits with ⟨j, stolen⟩ | ⟨kept, evicted⟩
      · exact .inl ⟨j, same stolen⟩
      · refine .inr ⟨fun i j key => ?_, evicted⟩
        cases after with
        | nil => exact apart i j key
        | cons a after => exact kept i j key
  | _ => exact fits

def Faithful (buckets : Nat) (log : List Event) : Prop :=
  ∀ before e after, log = before ++ e :: after → Fits buckets before e after

theorem Faithful.append (faithful : Faithful buckets log)
    (own : ∀ front e after, told = front ++ e :: after → Fits buckets (log ++ front) e after)
    (apart : ∀ i j key, told.head? ≠ some (.stealing i j key)) : Faithful buckets (log ++ told) := by
  intro before e after whole
  rcases append_eq_split whole with ⟨rest, rfl, split⟩ | ⟨front, rfl, split⟩
  · exact (faithful before e rest split).extend apart
  · exact own front e after split

theorem Faithful.quiet (faithful : Faithful buckets log) (quiet : Event.Quiet told) :
    Faithful buckets (log ++ told) := by
  apply faithful.append
  · intro front e after split
    exact .of_quiet (quiet e (by simp [split]))
  · intro i j key first
    cases quiet _ (List.mem_of_head? first)

theorem Faithful.one (faithful : Faithful buckets log) (fits : Fits buckets log e [])
    (apart : ∀ i j key, e ≠ .stealing i j key) : Faithful buckets (log ++ [e]) := by
  apply faithful.append
  · intro front e' after split
    cases front with
    | nil =>
        obtain ⟨rfl, rfl⟩ := List.cons.inj split
        rwa [List.append_nil]
    | cons a front => simp at split
  · simpa using apart

theorem Faithful.two {e' : Event} (faithful : Faithful buckets log) (first : Fits buckets log e [e'])
    (last : Fits buckets (log ++ [e]) e' []) (apart : ∀ i j key, e ≠ .stealing i j key) :
    Faithful buckets (log ++ [e, e']) := by
  apply faithful.append
  · intro front a after split
    cases front with
    | nil =>
        obtain ⟨rfl, rfl⟩ := List.cons.inj split
        rwa [List.append_nil]
    | cons b front =>
        obtain ⟨rfl, rest⟩ := List.cons.inj split
        cases front with
        | nil =>
            obtain ⟨rfl, rfl⟩ := List.cons.inj rest
            exact last
        | cons b front => simp at rest
  · simpa using apart

theorem Faithful.not_evicting (faithful : Faithful buckets log) (old : Key) :
    log.getLast? ≠ some (.evicting old i key) := by
  intro last
  obtain ⟨front, rfl⟩ := List.getLast?_eq_some_iff.mp last
  obtain ⟨-, next⟩ := faithful front _ [] rfl
  cases next

end Trace

open Trace in
theorem Found.events_count (found : Found) (key : Key) (n : Usage) :
    ((found.move key).count n).hits = n.hits + (found.events key).countP isHit ∧
      ((found.move key).count n).misses = n.misses + (found.events key).countP isMiss ∧
      ((found.move key).count n).steals = n.steals + (found.events key).countP isSteal := by
  cases found with
  | evicted i old => cases old <;> exact ⟨rfl, rfl, rfl⟩
  | _ => exact ⟨rfl, rfl, rfl⟩

namespace Cache
open Trace

variable {c c' : Cache} {move : Move} {deed : Option Deed} {key : Key} {found : Found} {i : Nat} {log told : List Event}

structure Traced (c : Cache) (log : List Event) : Prop where
  blocks : replay log = c.table.layout.block?
  faithful : Faithful c.buckets log
  hits : log.countP isHit = c.usage.hits
  misses : log.countP isMiss = c.usage.misses
  steals : log.countP isSteal = c.usage.steals

theorem Traced.fits (traced : c.Traced log) (sound : c.table.Sound) (gains : c.Gains key found c') :
    Faithful c.buckets (log ++ found.events key) := by
  obtain ⟨s, here, ready⟩ := gains.moved.allowed
  have suits := gains.suits
  rw [found.slot_move key] at here
  have block : replay log found.slot = if s.assigned then some s.key else none := by
    have before : c.table.slots[found.slot]? = some s := here
    rw [traced.blocks, Layout.block?, Table.layout, before]
    cases assigned : s.assigned <;> simp [Option.filter, assigned]
  cases found with
  | hit i =>
      have known : replay log i = some key := by
        rw [traced.blocks]
        exact Layout.block?_eq_some.mpr suits
      exact traced.faithful.one known (by simp)
  | evicted i old =>
      obtain rfl : replay log i = old := block.trans (suits s here).symm
      cases known : replay log i with
      | none =>
          simp only [Found.events]
          refine traced.faithful.one (.inr ⟨by simp, fun old => ?_⟩) (by simp)
          exact iff_of_false (traced.faithful.not_evicting old) (by simp [known])
      | some old =>
          simp only [Found.events]
          have still : replay (log ++ [.evicting old i key]) = replay log := replay_concat log _
          refine traced.faithful.two ⟨known, rfl⟩ (.inr ⟨by simp, fun old' => ?_⟩) (by simp)
          rw [still, known, List.getLast?_concat]
          simp
  | stolen i j =>
      -- A slot that stands for a block is in the ring of its bucket, and one that never did in that of its number.
      obtain ⟨-, rest, oldest⟩ := ready
      have bucket : j = c.table.layout.bucketOf i s :=
        ((sound.consistent.ringed here j).mp (oldest ▸ List.mem_cons_self)).2
      have block : replay log i = if s.assigned then some s.key else none := block
      refine traced.faithful.two (.inl ⟨j, rfl⟩) ⟨log, rfl, suits, ?_⟩ (by simp)
      rw [block, bucket, Layout.bucketOf]
      cases s.assigned <;> rfl

theorem Traced.gains (traced : c.Traced log) (sound : c.table.Sound) (gains : c.Gains key found c') :
    c'.Traced (log ++ found.events key) := by
  obtain ⟨hits, misses, steals⟩ := found.events_count key c.usage
  rw [← gains.moved.usage] at hits misses steals
  refine ⟨?_, ?_, ?_, ?_, ?_⟩
  · rw [gains.block?, ← traced.blocks]
    cases found with
    | hit i =>
        have known : replay log i = some key := by
          rw [traced.blocks]
          exact Layout.block?_eq_some.mpr gains.suits
        have still : replay (log ++ [.hit key i]) = replay log := replay_concat log _
        funext j
        by_cases same : j = i <;> simp [Found.events, Found.slot, still, same, known]
    | evicted i old =>
        cases old with
        | none => exact replay_concat log (.miss key i)
        | some old =>
            have still : replay (log ++ [.evicting old i key]) = replay log := replay_concat log _
            have last := replay_concat (log ++ [.evicting old i key]) (.miss key i)
            rw [List.append_assoc, still] at last
            exact last
    | stolen i j =>
        have first := replay_concat log (.miss key i)
        have last := replay_concat (log ++ [.miss key i]) (.stealing i j key)
        rw [List.append_assoc, first] at last
        exact last
  · rw [gains.moved.sameMeasures.buckets]
    exact traced.fits sound gains
  · rw [List.countP_append, traced.hits, hits]
  · rw [List.countP_append, traced.misses, misses]
  · rw [List.countP_append, traced.steals, steals]

theorem Traced.quiet (traced : c.Traced log) (quiet : Event.Quiet told) (buckets : c'.buckets = c.buckets)
    (blocks : c'.table.layout.block? = c.table.layout.block?) (hits : c'.usage.hits = c.usage.hits)
    (misses : c'.usage.misses = c.usage.misses) (steals : c'.usage.steals = c.usage.steals) :
    c'.Traced (log ++ told) := by
  have uncounted {p : Event → Bool} (seeks : ∀ e, p e = true → e.seeks = true) :
      (log ++ told).countP p = log.countP p := by
    rw [List.countP_append, Nat.add_eq_left, List.countP_eq_zero]
    exact fun e member counted => absurd (quiet e member) (by simp [seeks e counted])
  refine ⟨?_, buckets ▸ traced.faithful.quiet quiet, ?_, ?_, ?_⟩
  · rw [replay_quiet log quiet, blocks]
    exact traced.blocks
  · rw [uncounted (by intro e; cases e <;> simp [isHit, Event.seeks]), hits]
    exact traced.hits
  · rw [uncounted (by intro e; cases e <;> simp [isMiss, Event.seeks]), misses]
    exact traced.misses
  · rw [uncounted (by intro e; cases e <;> simp [isSteal, Event.seeks]), steals]
    exact traced.steals

theorem Does.traced (does : c.Does deed c') (sound : c.table.Sound) (traced : c.Traced log)
    (tells : Deed.Told told deed) : c'.Traced (log ++ told) := by
  cases does with
  | found gains =>
      obtain rfl := tells
      exact traced.gains sound gains
  | loaded here invalid moved | stored here moved =>
      apply traced.quiet tells moved.sameMeasures.buckets ((Settles.one moved rfl).block? sound)
      all_goals rw [moved.usage]; rfl
  | idle idle moved =>
      have usage := moved.usage_eq idle
      apply traced.quiet tells moved.sameMeasures.buckets ((moved.settles idle).block? sound)
      all_goals rw [usage]

theorem fresh_traced (config : Config) : (fresh config).Traced [] where
  blocks := by
    rw [(fresh_shows config).layout_eq, Layout.dealt_block?]
    rfl
  faithful := by simp [Faithful]
  hits := rfl
  misses := rfl
  steals := rfl

end Cache
open Trace

/-- After any steps of any threads the blocks of the slots are those that are replayed from the log, each report of a
lookup fits where it stands, and the counters are the numbers of the reports. -/
theorem log_replayed {δ : Type} [BlockDevice δ] [Discreet δ] (devices : List δ) (plans : List (Nat × Plan))
    (steps : List Step) {c device : Nat} {plan : Plan} {m : Mount} (planned : plans[c]? = some (device, plan))
    (there : ((Host.assemble devices plans).walk steps).mount? c = some m) :
    (∀ i key, replay m.log i = some key ↔
      ∃ s, m.cache.table.slots[i]? = some s ∧ s.assigned = true ∧ s.key = key) ∧
    (∀ before e after, m.log = before ++ e :: after → Fits plan.buckets before e after) ∧
    m.log.countP isHit = m.cache.usage.hits ∧ m.log.countP isMiss = m.cache.usage.misses ∧
    m.log.countP isSteal = m.cache.usage.steals := by
  have traced : m.cache.Traced m.log := by
    refine Host.Sound.walk_deeds (P := fun m _ => m.cache.Traced m.log) ?_ (Host.assemble_sound devices plans) ?_ steps
      there
    · intro m m' told deed before sound traced history does tells
      have log : m'.log = m.log ++ told := by simp [Mount.log, history]
      rw [log]
      exact does.traced sound traced (tells ‹_›)
    · intro m there
      obtain ⟨config, fresh, history⟩ := Host.assemble_fresh there
      rw [Mount.log, history, fresh]
      exact Cache.fresh_traced config
  obtain ⟨-, -, buckets, -⟩ := Host.walk_measures there planned
  refine ⟨fun i key => ?_, buckets ▸ traced.faithful, traced.hits, traced.misses, traced.steals⟩
  rw [traced.blocks]
  exact Layout.block?_eq_some

theorem log_replayed_after_steal :
    let disk := Disk.make (.empty 4 none) (some (.named "d")) []
    let take (name : String) (block : UInt32) : List Step :=
      [.act (.start 0 name 0 ⟨⟨0, block⟩, .block, false⟩), .act (.turn 0), .act (.turn 0), .act (.answer 0)]
    let drop (name : String) : List Step := [.act (.finish 0 name .dropped)]
    let steps := take "a" 0 ++ drop "a" ++ take "b" 2 ++ take "c" 1 ++ drop "c" ++ take "d" 4
    ∃ m, ((Host.assemble [disk] [(0, ⟨2, 2, 4, .stop⟩)]).walk steps).mount? 0 = some m ∧
      m.log = [.miss ⟨0, 0⟩ 0, .evicting ⟨0, 0⟩ 0 ⟨0, 2⟩, .miss ⟨0, 2⟩ 0, .miss ⟨0, 1⟩ 1, .miss ⟨0, 4⟩ 1,
        .stealing 1 1 ⟨0, 4⟩] ∧
      (∃ s, m.cache.table.slots[1]? = some s ∧ s.assigned = true ∧ s.key = ⟨0, 4⟩) ∧
      m.cache.usage.misses = 4 ∧ m.cache.usage.steals = 1 := by
  intro disk take drop steps
  have told : (((Host.assemble [disk] [(0, ⟨2, 2, 4, .stop⟩)]).walk steps).mount? 0).any (fun m =>
      m.log = [.miss ⟨0, 0⟩ 0, .evicting ⟨0, 0⟩ 0 ⟨0, 2⟩, .miss ⟨0, 2⟩ 0, .miss ⟨0, 1⟩ 1, .miss ⟨0, 4⟩ 1,
        .stealing 1 1 ⟨0, 4⟩]) = true := by decide +kernel
  obtain ⟨m, there, told⟩ := (Option.any_eq_true _ _).mp told
  have log := of_decide_eq_true told
  obtain ⟨blocks, -, -, misses, steals⟩ := log_replayed [disk] [(0, ⟨2, 2, 4, .stop⟩)] steps rfl there
  refine ⟨m, there, log, (blocks 1 ⟨0, 4⟩).mp ?_, misses.symm.trans ?_, steals.symm.trans ?_⟩
  · rw [log]
    rfl
  · rw [log]
    rfl
  · rw [log]
    rfl

end BlockCache
