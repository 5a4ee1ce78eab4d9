import BlockCache.Proofs.Cache.Resident
import BlockCache.Proofs.Host.Uses

/-!
# Slots that are referred to

A slot keeps its block as long as somebody refers to it, and is not read from the device if it was valid:
`Sound.walk_remains` and `Sound.walk_unread`. The bytes under a lease change through the lease only: `Sound.took_bytes`.
-/

namespace BlockCache

structure Slot.Remains (s s' : Slot) : Prop where
  key : s'.key = s.key
  assigned : s.assigned = true → s'.assigned = true
  valid : s.valid = true → s'.valid = true

theorem Slot.Remains.rfl {s : Slot} : s.Remains s := ⟨Eq.refl _, id, id⟩

theorem Slot.Remains.trans {s s₁ s' : Slot} (first : s.Remains s₁) (last : s₁.Remains s') : s.Remains s' :=
  ⟨last.key.trans first.key, last.assigned ∘ first.assigned, last.valid ∘ first.valid⟩

namespace Act

variable {δ : Type}

def Through (act : Act) (s : Host δ) (lease : Lease) : Prop :=
  match act with
  | .put name _ _ | .fill name _ => s.lease? name = some lease
  | .turn t => t = lease.thread ∧ ∃ p, s.pending? t = some p ∧ p.cache = lease.cache ∧ p.stage = .loading lease.slot
  | _ => False

end Act

/-- Whether a step is one through a lease that may change the bytes under it: it puts bytes there, or the call that has
the lease reads its block. -/
def Step.Through {δ : Type} (step : Step) (s : Host δ) (lease : Lease) : Prop :=
  match step with
  | .act a => a.Through s lease
  | .spoil t => t = lease.thread ∧ ∃ p, s.pending? t = some p ∧ p.cache = lease.cache ∧ p.stage = .loading lease.slot
  | _ => False

namespace Cache

variable {c c' : Cache} {move : Move} {i : Nat} {s : Slot} {key : Key}

theorem Moved.remains (moved : c.Moved move c') (sound : c.table.Sound) (here : c.table.slots[i]? = some s)
    (busy : move.seeks = true → s.refcount ≠ 0) : ∃ s', c'.table.slots[i]? = some s' ∧ s.Remains s' := by
  by_cases same : i = move.slot
  · subst same
    obtain ⟨s', here', ready⟩ := moved.allowed
    obtain rfl : s = s' := Option.some.inj (here.symm.trans here')
    refine ⟨_, moved.same here, ?_⟩
    cases move with
    | assign i key origin => exact absurd (Layout.refcount_of_assign sound.consistent here' ready) (busy rfl)
    | load | keep => exact ⟨rfl, id, fun _ => rfl⟩
    | _ => exact ⟨rfl, id, id⟩
  · exact ⟨s, (moved.other same).trans here, .rfl⟩

theorem Settles.remains (settles : c.Settles c') (sound : c.table.Sound) (here : c.table.slots[i]? = some s) :
    ∃ s', c'.table.slots[i]? = some s' ∧ s.Remains s' := by
  obtain ⟨moves, still, moves⟩ := settles
  induction moves generalizing s with
  | nil => exact ⟨s, here, .rfl⟩
  | cons moved rest ih =>
      have quiet := still _ List.mem_cons_self
      obtain ⟨s₁, here₁, first⟩ := moved.remains sound here fun seeks => absurd (quiet.symm.trans seeks) nofun
      obtain ⟨s', here', last⟩ := ih (moved.sound sound) here₁ fun move member => still move (.tail _ member)
      exact ⟨s', here', first.trans last⟩

def content? (c : Cache) (i : Nat) : Option Bytes := c.table.slots[i]?.map (·.data.value)

theorem Moved.content? (moved : c.Moved move c') (still : ∀ bytes, move ≠ .edit i bytes ∧ move ≠ .load i bytes) :
    c'.content? i = c.content? i := by
  by_cases same : i = move.slot
  · obtain ⟨s, here, -⟩ := moved.allowed
    have before : c.table.slots[move.slot]? = some s := here
    rw [Cache.content?, Cache.content?, same, moved.same before, before]
    cases move with
    | edit j bytes => exact absurd (congrArg (Move.edit · bytes) same.symm) (still bytes).1
    | load j bytes => exact absurd (congrArg (Move.load · bytes) same.symm) (still bytes).2
    | _ => rfl
  · rw [Cache.content?, Cache.content?, moved.other same]

end Cache

theorem Call.Turned.content? {δ : Type} [BlockDevice δ] {call : Call} {t : Thread} {cancelled : Token → Bool}
    {c : Cache} {d : δ} {stage : Stage} {turn : Turn δ Stage} (turned : call.Turned t cancelled c d stage turn)
    {i : Nat} (away : stage ≠ .loading i) : turn.cache.content? i = c.content? i := by
  cases turned with
  | @found found L' change c' finds moved =>
      refine moved.content? fun bytes => ?_
      cases found <;> exact ⟨nofun, nofun⟩
  | granted moved => exact moved.content? fun bytes => ⟨nofun, nofun⟩
  | refused refusal moved => exact moved.content? fun bytes => ⟨nofun, nofun⟩
  | @loaded j s c' here invalid success moved =>
      refine moved.content? fun bytes => ⟨nofun, fun same => away ?_⟩
      rw [(Move.load.inj same).1]
  | @unloaded j s c₁ c' failure here invalid broken spoilt ended =>
      rw [ended.content? fun bytes => ⟨nofun, nofun⟩]
      refine spoilt.content? fun bytes => ⟨fun same => away ?_, nofun⟩
      rw [(Move.edit.inj same).1]
  | _ => rfl

theorem Cache.Flushed.content? {δ : Type} [BlockDevice δ] {c : Cache} {d : δ} {t : Thread} {j : Nat}
    {turn : Turn δ (Option Failure)} (flushed : c.Flushed d t j turn) (i : Nat) :
    turn.cache.content? i = c.content? i := by
  cases flushed with
  | kept here holder success moved => exact moved.content? fun bytes => ⟨nofun, nofun⟩
  | _ => rfl

namespace Host

variable {δ : Type} {s s' : Host δ} {c i : Nat} {sl sl' : Slot} {pins : Nat → Nat → Nat} {lease lease' : Lease}

theorem Sound.live_unique (sound : s.Sound pins) (live : lease ∈ s.live) (live' : lease' ∈ s.live)
    (cache : lease'.cache = lease.cache) (slot : lease'.slot = lease.slot)
    (here : s.slot? lease.cache lease.slot = some sl) : lease' = lease := by
  have holder := sound.holder_of_live live here
  have holder' := sound.holder_of_live live' (cache ▸ slot ▸ here)
  have thread : lease'.thread = lease.thread := Option.some.inj (holder'.symm.trans holder)
  calc
    lease' = ⟨lease'.cache, lease'.slot, lease'.thread⟩ := rfl
    _ = lease := by rw [cache, slot, thread]

theorem Sound.reading?_ne (sound : s.Sound pins) (here : s.slot? c i = some sl) (referenced : sl.refcount ≠ 0)
    (valid : sl.valid = true) {t : Thread} {use : Use} (reading : s.reading? t = some use) :
    use.reads c sl.key = false := by
  obtain ⟨p, sl', pending, stage, cache, here', invalid, access⟩ := reading?_eq_some reading
  rw [← cache] at here'
  by_contra reads
  obtain ⟨rfl, key⟩ : p.cache = c ∧ sl'.key = sl.key := by simpa [Use.reads, access, cache] using reads
  have referenced' := sound.referenced_of_called (mem_of_lookup pending) (by rw [stage]; rfl) here'
  obtain ⟨m, there, inTable⟩ := Option.bind_eq_some_iff.mp here
  have inTable' := (slot?_eq there use.slot).symm.trans here'
  have consistent := (sound.tables there).consistent
  have assigned := consistent.assigned_of_referenced inTable referenced
  have assigned' := consistent.assigned_of_referenced inTable' referenced'
  have slot := consistent.distinct inTable' inTable assigned' assigned key
  obtain rfl : sl = sl' := Option.some.inj (here.symm.trans (slot ▸ here'))
  exact absurd (valid.symm.trans invalid) nofun

theorem Sound.use?_ne [BlockDevice δ] (sound : s.Sound pins) (here : s.slot? c i = some sl)
    (referenced : sl.refcount ≠ 0) (valid : sl.valid = true) {step : Step} {use : Use}
    (used : s.use? step = some use) : use.reads c sl.key = false := by
  rcases use?_cases used with ⟨t, reading⟩ | ⟨key, bytes, access⟩
  · exact sound.reading?_ne here referenced valid reading
  · simp [Use.reads, access]

def content? (s : Host δ) (c i : Nat) : Option Bytes := (s.mount? c).bind fun m => m.cache.content? i

theorem content?_carry {m : Mount} {cache : Cache} {c' : Nat} (there : s.mount? c' = some m)
    (same : c' = c → cache.content? i = m.cache.content? i) (device : δ) (events : List Event) :
    (s.carry c' m cache device events).content? c i = s.content? c i := by
  by_cases here : c' = c
  · subst here
    rw [content?, content?, carry_same there, there]
    exact same rfl
  · rw [content?, content?, carry_other (Ne.symm here)]

theorem Ended.content? {name : String} {events : List Event} (ended : s.Ended name events s') (c i : Nat) :
    s'.content? c i = s.content? c i := by
  obtain ⟨lease, m, d, cache, -, there, -, -, moved, rfl⟩ := ended
  exact content?_carry there (fun _ => moved.content? fun bytes => ⟨nofun, nofun⟩) d events

theorem Sound.did_bytes [BlockDevice δ] (sound : s.Sound pins) {act : Act} {done : Performed δ} (did : s.Did act done)
    (live : lease ∈ s.live) (here : s.slot? lease.cache lease.slot = some sl) (other : ¬ act.Through s lease) :
    done.host.content? lease.cache lease.slot = s.content? lease.cache lease.slot := by
  cases did with
  | @turned t p m d turn pending there device turned =>
      refine content?_carry there (fun cache => turned.content? fun loading => other ⟨?_, p, pending, cache, loading⟩)
        turn.device turn.events
      have claim := (Pending.claims_lock (.inl loading) t).1
      have same := sound.live_unique live (lease?_mem_live (mem_of_lookup pending) claim) cache rfl here
      exact congrArg Lease.thread same
  | answered pending granted dropped =>
      rcases dropped with ⟨-, rfl⟩ | ended
      · rfl
      · exact ended.content? _ _
  | finished ended reply => exact ended.content? _ _
  | wrote held there device flushed carried =>
      subst carried
      exact content?_carry there (fun _ => flushed.content? _) _ _
  | pinned held there device moved carried | unpinned held there device moved carried =>
      subst carried
      exact content?_carry there (fun _ => moved.content? fun bytes => ⟨nofun, nofun⟩) _ _
  | stopped which held there device => exact content?_carry there (fun _ => rfl) _ _
  | @edited act name lease' m d bytes cache which held there device moved =>
      refine content?_carry there (fun same => moved.content? fun bytes => ⟨fun edit => other ?_, nofun⟩) _ _
      have live' : lease' ∈ s.live := List.mem_append_left _ (List.mem_map_of_mem (mem_of_lookup held))
      obtain rfl := sound.live_unique live live' same (Move.edit.inj edit).1 here
      rcases which with ⟨offset, part, rfl⟩ | ⟨byte, rfl⟩ <;> exact held
  | _ => rfl

variable [BlockDevice δ] {step : Step} {steps : List Step} {done : Performed δ}

theorem Sound.took_bytes (sound : s.Sound pins) (took : s.Took step done) (live : lease ∈ s.live)
    (here : s.slot? lease.cache lease.slot = some sl) (other : ¬ step.Through s lease) :
    done.host.content? lease.cache lease.slot = s.content? lease.cache lease.slot := by
  cases took with
  | did did => exact sound.did_bytes did live here other
  | refused | nothing => rfl
  | @found t j p m d found cache pending looking there device gains =>
      refine content?_carry there (fun _ => gains.moved.content? fun bytes => ?_) d _
      cases found <;> exact ⟨nofun, nofun⟩
  | @stopped t seen p m d pending looking there | @starved t seen p m d pending looking there =>
      exact content?_carry there (fun _ => rfl) d _
  | unlocked unlocked =>
      obtain ⟨lease', m, d, cache, -, there, -, -, moved, rfl⟩ := unlocked
      exact content?_carry there (fun _ => moved.content? fun bytes => ⟨nofun, nofun⟩) d _
  | @spoilt t p j m d sl' c₁ cache tr failure pending loading there device inTable invalid transfer broken spoils unlocked =>
      refine content?_carry there (fun same => ?_) tr.device tr.events
      rw [unlocked.content? fun bytes => ⟨nofun, nofun⟩]
      refine spoils.content? fun bytes => ⟨fun edit => other ?_, nofun⟩
      obtain rfl := (Move.edit.inj edit).1
      have claim := (Pending.claims_lock (.inl loading) t).1
      have mine := sound.live_unique live (lease?_mem_live (mem_of_lookup pending) claim) same rfl here
      exact ⟨congrArg Lease.thread mine, p, pending, same, loading⟩
  | @parted c' j m d cache owed there device moved =>
      exact content?_carry there (fun _ => moved.content? fun bytes => ⟨nofun, nofun⟩) d _

/-- Somebody refers to slot `i` of cache `c` from now on until the steps are taken. -/
def Referenced (s : Host δ) (c i : Nat) (steps : List Step) : Prop :=
  ∀ first, first <+: steps → ∃ sl, (s.walk first).slot? c i = some sl ∧ sl.refcount ≠ 0

theorem Referenced.tail (referenced : s.Referenced c i (step :: steps)) :
    (s.advance step).host.Referenced c i steps :=
  fun first initial => referenced (step :: first) (List.cons_prefix_cons.mpr ⟨rfl, initial⟩)

theorem Referenced.now (referenced : s.Referenced c i steps) (here : s.slot? c i = some sl) : sl.refcount ≠ 0 := by
  obtain ⟨sl₀, here₀, busy⟩ := referenced [] List.nil_prefix
  obtain rfl : sl = sl₀ := Option.some.inj (here.symm.trans here₀)
  exact busy

theorem Sound.advance_remains (sound : s.Sound pins) (step : Step) (here : s.slot? c i = some sl)
    (referenced : sl.refcount ≠ 0) : ∃ sl', (s.advance step).host.slot? c i = some sl' ∧ sl.Remains sl' := by
  obtain ⟨m, there, inTable⟩ := Option.bind_eq_some_iff.mp here
  have table := sound.tables there
  obtain ⟨m', there', calms | ⟨key, found, gains⟩⟩ := sound.advance_cases step there
  · obtain ⟨sl', inTable', remains⟩ := calms.settles.remains table inTable
    exact ⟨sl', (slot?_eq there' i).trans inTable', remains⟩
  · obtain ⟨sl', inTable', remains⟩ := gains.moved.remains table inTable fun _ => referenced
    exact ⟨sl', (slot?_eq there' i).trans inTable', remains⟩

theorem Sound.walk_remains (sound : s.Sound pins) (referenced : s.Referenced c i steps)
    (here : s.slot? c i = some sl) : ∃ sl', (s.walk steps).slot? c i = some sl' ∧ sl.Remains sl' := by
  induction steps generalizing s pins sl with
  | nil => exact ⟨sl, here, .rfl⟩
  | cons step steps ih =>
      obtain ⟨sl₁, here₁, first⟩ := sound.advance_remains step here (referenced.now here)
      obtain ⟨pins₁, sound₁⟩ := sound.advance step
      obtain ⟨sl', here', last⟩ := ih sound₁ referenced.tail here₁
      exact ⟨sl', here', first.trans last⟩

theorem Sound.walk_slot (sound : s.Sound pins) (steps : List Step) (here : (s.slot? c i).isSome = true) :
    ((s.walk steps).slot? c i).isSome = true := by
  obtain ⟨sl, here⟩ := Option.isSome_iff_exists.mp here
  obtain ⟨m, there, inTable⟩ := Option.bind_eq_some_iff.mp here
  obtain ⟨m', there', becomes⟩ := sound.walk_mounted there steps
  obtain ⟨moves, moved⟩ := becomes.moves
  have bound : i < m'.cache.capacity := moved.sameMeasures.capacity ▸ (Array.getElem?_eq_some_iff.mp inTable).1
  exact Option.isSome_iff_exists.mpr ⟨_, (slot?_eq there' i).trans (Array.getElem?_eq_getElem bound)⟩

theorem Sound.walk_unread (sound : s.Sound pins) (referenced : s.Referenced c i steps) (here : s.slot? c i = some sl)
    (valid : sl.valid = true) :
    ∀ entry ∈ s.trail steps, ∀ use, entry.1.use? entry.2 = some use → use.reads c sl.key = false := by
  induction steps generalizing s pins sl with
  | nil => nofun
  | cons step steps ih =>
      rintro entry (_ | ⟨_, member⟩)
      · exact fun use used => sound.use?_ne here (referenced.now here) valid used
      · obtain ⟨sl₁, here₁, first⟩ := sound.advance_remains step here (referenced.now here)
        obtain ⟨pins₁, sound₁⟩ := sound.advance step
        exact first.key ▸ ih sound₁ referenced.tail here₁ (first.valid valid) entry member

end Host
end BlockCache
