import BlockCache.Proofs.Host.Runs

/-!
# Mounts

Whatever acts a run is made of, a cache goes from one state to another by moves. What all moves leave alone is the same
in every state.
-/

namespace BlockCache

namespace Layout

variable {L : Layout} {i : Nat} {s : Slot} {move : Move}

theorem letGo_buckets (L : Layout) (i : Nat) : (L.letGo i).buckets = L.buckets := by
  rw [letGo]
  split
  · split <;> rfl
  · rfl

theorem after_buckets (L : Layout) (move : Move) : (L.after move).buckets = L.buckets := by
  cases move with
  | giveUp i => exact letGo_buckets L i
  | finish i => exact letGo_buckets _ i
  | _ => rfl

end Layout

namespace Cache

inductive Moves : Cache → List Move → Cache → Prop
  | nil (c : Cache) : Moves c [] c
  | cons {c c₁ c' : Cache} {move : Move} {moves : List Move} (moved : c.Moved move c₁) (rest : Moves c₁ moves c') :
      Moves c (move :: moves) c'

variable {a b c : Cache} {move : Move} {moves more : List Move}

theorem Moves.one (moved : a.Moved move b) : Moves a [move] b := .cons moved (.nil b)

theorem Moves.append (first : Moves a moves b) (last : Moves b more c) : Moves a (moves ++ more) c := by
  induction first with
  | nil c => exact last
  | cons moved _ ih => exact .cons moved (ih last)

structure SameMeasures (a b : Cache) : Prop where
  capacity : b.capacity = a.capacity
  buckets : b.buckets = a.buckets
  blockSize : b.blockSize = a.blockSize
  exhaustion : b.exhaustion = a.exhaustion

theorem Moved.sameMeasures (moved : a.Moved move b) : SameMeasures a b where
  capacity := by simp [capacity, moved.slots_eq]
  buckets := moved.shows.chains.size_heads.trans (Layout.after_buckets _ _)
  blockSize := moved.blockSize
  exhaustion := moved.exhaustion

theorem SameMeasures.rfl : SameMeasures a a := ⟨Eq.refl _, Eq.refl _, Eq.refl _, Eq.refl _⟩

theorem SameMeasures.trans (first : SameMeasures a b) (last : SameMeasures b c) : SameMeasures a c where
  capacity := last.capacity.trans first.capacity
  buckets := last.buckets.trans first.buckets
  blockSize := last.blockSize.trans first.blockSize
  exhaustion := last.exhaustion.trans first.exhaustion

theorem Moves.sameMeasures (moves : Moves a more b) : SameMeasures a b := by
  induction moves with
  | nil => exact .rfl
  | cons moved _ ih => exact moved.sameMeasures.trans ih

end Cache

theorem Call.Turned.moves {δ : Type} [BlockDevice δ] {call : Call} {t : Thread} {cancelled : Token → Bool}
    {cache : Cache} {d : δ} {stage : Stage} {turn : Turn δ Stage}
    (turned : call.Turned t cancelled cache d stage turn) :
    ∃ moves, cache.Moves moves turn.cache := by
  cases turned with
  | found finds moved => exact ⟨_, .one moved⟩
  | granted moved => exact ⟨_, .one moved⟩
  | refused refusal moved => exact ⟨_, .one moved⟩
  | loaded here invalid success moved => exact ⟨_, .one moved⟩
  | unloaded here invalid broken spoilt ended => exact ⟨_, .cons spoilt (.one ended)⟩
  | _ => exact ⟨[], .nil _⟩

theorem Cache.Flushed.moves {δ : Type} [BlockDevice δ] {cache : Cache} {d : δ} {t : Thread} {i : Nat}
    {turn : Turn δ (Option Failure)} (flushed : cache.Flushed d t i turn) :
    ∃ moves, cache.Moves moves turn.cache := by
  cases flushed with
  | kept here holder success moved => exact ⟨_, .one moved⟩
  | _ => exact ⟨[], .nil _⟩

structure Mount.Becomes (m m' : Mount) : Prop where
  device : m'.device = m.device
  moves : ∃ moves, m.cache.Moves moves m'.cache

theorem Mount.Becomes.rfl {m : Mount} : m.Becomes m := ⟨Eq.refl _, [], .nil _⟩

theorem Mount.Becomes.trans {m m₁ m' : Mount} (first : m.Becomes m₁) (last : m₁.Becomes m') : m.Becomes m' := by
  obtain ⟨moves, first'⟩ := first.moves
  obtain ⟨more, last'⟩ := last.moves
  exact ⟨last.device.trans first.device, moves ++ more, first'.append last'⟩

namespace Host

variable {δ : Type} {s s' : Host δ} {c c' : Nat} {m m' : Mount} {cache : Cache} {pins : Nat → Nat → Nat}

theorem becomes_of_carry (there : s.mount? c = some m) {moves : List Move} (moved : m.cache.Moves moves cache)
    (device : δ) {events : List Event} (after : (s.carry c m cache device events).mount? c' = some m') :
    ∃ m, s.mount? c' = some m ∧ m.Becomes m' := by
  by_cases same : c' = c
  · subst same
    rw [carry_same there] at after
    obtain rfl := Option.some.inj after
    exact ⟨m, there, rfl, moves, moved⟩
  · rw [carry_other same] at after
    exact ⟨m', after, .rfl⟩

theorem Ended.becomes {name : String} {events : List Event} (ended : s.Ended name events s')
    (after : s'.mount? c = some m') : ∃ m, s.mount? c = some m ∧ m.Becomes m' := by
  obtain ⟨lease, m, d, cache, -, there, -, -, moved, rfl⟩ := ended
  exact becomes_of_carry there (.one moved) d after

variable [BlockDevice δ]

theorem Did.becomes {act : Act} {done : Performed δ} (did : s.Did act done) (after : done.host.mount? c = some m') :
    ∃ m, s.mount? c = some m ∧ m.Becomes m' := by
  cases did with
  | @turned t p m d turn pending there device turned =>
      obtain ⟨moves, moved⟩ := turned.moves
      exact becomes_of_carry there moved turn.device after
  | answered pending granted dropped =>
      rcases dropped with ⟨-, rfl⟩ | ended
      · exact ⟨m', after, .rfl⟩
      · exact ended.becomes after
  | finished ended reply => exact ended.becomes after
  | wrote held there device flushed carried =>
      subst carried
      obtain ⟨moves, moved⟩ := flushed.moves
      exact becomes_of_carry there moved _ after
  | pinned held there device moved carried | unpinned held there device moved carried =>
      subst carried
      exact becomes_of_carry there (.one moved) _ after
  | stopped which held there device => exact becomes_of_carry there (.nil _) _ after
  | edited which held there device moved => exact becomes_of_carry there (.one moved) _ after
  | _ => exact ⟨m', after, .rfl⟩

theorem Sound.becomes (sound : s.Sound pins) (acts : List Act) (after : (s.run acts).mount? c = some m') :
    ∃ m, s.mount? c = some m ∧ m.Becomes m' := by
  induction acts generalizing s pins with
  | nil => exact ⟨m', after, .rfl⟩
  | cons act acts ih =>
      obtain ⟨pins₁, sound₁, -⟩ := sound.did (sound.perform_did act)
      obtain ⟨m₁, there₁, last⟩ := ih sound₁ after
      obtain ⟨m, there, first⟩ := (sound.perform_did act).becomes there₁
      exact ⟨m, there, first.trans last⟩

omit [BlockDevice δ] in
theorem measures_of_becomes {devices : List δ} {plans : List (Nat × Plan)} {m₀ : Mount}
    (there₀ : (assemble devices plans).mount? c = some m₀) (becomes : m₀.Becomes m) {device : Nat} {plan : Plan}
    (planned : plans[c]? = some (device, plan)) :
    m.device = device ∧ m.cache.capacity = plan.capacity ∧ m.cache.buckets = plan.buckets ∧
      m.cache.blockSize = plan.blockSize ∧ m.cache.exhaustion = plan.exhaustion := by
  obtain ⟨device', plan', planned', rfl, built, -⟩ := assemble_mount there₀
  obtain ⟨rfl, rfl⟩ := Prod.mk.inj (Option.some.inj (planned'.symm.trans planned))
  obtain ⟨-, config, capacity, buckets, blockSize, exhaustion, fresh⟩ := Plan.buildOver_ok built
  obtain ⟨moves, moved⟩ := becomes.moves
  have measures := moved.sameMeasures
  have shows := Cache.fresh_shows config
  refine ⟨becomes.device, measures.capacity.trans ?_, measures.buckets.trans ?_, measures.blockSize.trans ?_,
    measures.exhaustion.trans ?_⟩
  · rw [fresh, ← capacity]
    exact Cache.fresh_capacity config
  · rw [fresh, ← buckets]
    exact shows.chains.size_heads
  · rw [fresh, ← blockSize]
    rfl
  · rw [fresh, ← exhaustion]
    rfl

theorem run_measures {devices : List δ} {plans : List (Nat × Plan)} {acts : List Act}
    (there : ((assemble devices plans).run acts).mount? c = some m) {device : Nat} {plan : Plan}
    (planned : plans[c]? = some (device, plan)) :
    m.device = device ∧ m.cache.capacity = plan.capacity ∧ m.cache.buckets = plan.buckets ∧
      m.cache.blockSize = plan.blockSize ∧ m.cache.exhaustion = plan.exhaustion := by
  obtain ⟨m₀, there₀, becomes⟩ := (assemble_sound devices plans).becomes acts there
  exact measures_of_becomes there₀ becomes planned

end Host
end BlockCache
