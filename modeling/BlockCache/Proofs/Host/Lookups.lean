import BlockCache.Proofs.Host.Mounts

/-!
# Acts that look a block up

An act that looks a block up in a cache does to it what a lookup can do: `Sound.looked`. Any other act makes a single
move there, if any, and gives no slot another block: `Did.rested`.
-/

namespace BlockCache

def Move.seeks : Move → Bool
  | hit _ | assign .. => true
  | _ => false

def Act.lookup? {δ : Type} (act : Act) (s : Host δ) : Option (Nat × Key) :=
  match act with
  | .turn t => (s.pending? t).bind fun p => if p.stage = .looking then some (p.cache, p.call.key) else none
  | _ => none

namespace Cache

inductive Sought (c : Cache) (key : Key) : Option Found → Cache → Prop
  | found {found : Found} {L' : Layout} {change : Usage → Usage} {c' : Cache}
      (finds : c.table.layout.Finds key (some found) L' change) (moved : c.Moved (found.move key) c') :
      Sought c key (some found) c'
  | nothing (absent : c.table.layout.Absent key) (empty : ∀ b, c.table.layout.ring b = []) : Sought c key none c

def Settles (c c' : Cache) : Prop := ∃ moves, (∀ move ∈ moves, move.seeks = false) ∧ c.Moves moves c'

variable {c c₁ c' : Cache} {move : Move}

theorem Settles.rfl : c.Settles c := ⟨[], nofun, .nil c⟩

theorem Settles.cons (moved : c.Moved move c₁) (still : move.seeks = false) (rest : c₁.Settles c') : c.Settles c' := by
  obtain ⟨moves, quiet, moved'⟩ := rest
  refine ⟨move :: moves, ?_, .cons moved moved'⟩
  simpa [still] using quiet

theorem Settles.one (moved : c.Moved move c') (still : move.seeks = false) : c.Settles c' := .cons moved still .rfl

theorem Settles.sameMeasures (settles : c.Settles c') : c.SameMeasures c' := by
  obtain ⟨moves, -, moved⟩ := settles
  exact moved.sameMeasures

/-- What can come of a cache while nothing is looked up: one move, if any, unless a lease ends because its block could
not be read. -/
inductive Calms (c : Cache) : Cache → Prop
  | rest : Calms c c
  | moved {move : Move} {c' : Cache} (moved : c.Moved move c') (still : move.seeks = false) : Calms c c'
  | spoilt {i : Nat} {bytes : Bytes} {move : Move} {c₁ c' : Cache} (spoils : c.Moved (.edit i bytes) c₁)
      (ended : c₁.Moved move c') (ends : move = .finish i ∨ move = .unlock i) : Calms c c'

theorem Calms.settles (calms : c.Calms c') : c.Settles c' := by
  cases calms with
  | rest => exact .rfl
  | moved moved still => exact .one moved still
  | spoilt spoils ended ends => exact .cons spoils rfl (.one ended (by rcases ends with rfl | rfl <;> rfl))

theorem Sought.sameMeasures {key : Key} {found : Option Found} (sought : c.Sought key found c') :
    c.SameMeasures c' := by
  cases sought with
  | found finds moved => exact moved.sameMeasures
  | nothing => exact ⟨Eq.refl _, Eq.refl _, Eq.refl _, Eq.refl _⟩

end Cache

variable {δ : Type}

theorem Call.Turned.sought [BlockDevice δ] {call : Call} {t : Thread} {cancelled : Token → Bool} {c : Cache} {d : δ}
    {stage : Stage} {turn : Turn δ Stage} (turned : call.Turned t cancelled c d stage turn) :
    (stage = .looking ∧ ∃ found, c.Sought call.key found turn.cache ∧
        ∀ slot, found = some slot → turn.events = slot.events call.key) ∨
      stage ≠ .looking ∧ c.Calms turn.cache := by
  cases turned with
  | found finds moved => exact .inl ⟨rfl, _, .found finds moved, fun _ same => Option.some.inj same ▸ rfl⟩
  | stopped absent empty | starved absent empty => exact .inl ⟨rfl, none, .nothing absent empty, nofun⟩
  | granted moved => exact .inr ⟨nofun, .moved moved rfl⟩
  | refused refusal moved => exact .inr ⟨nofun, .moved moved rfl⟩
  | loaded here invalid success moved => exact .inr ⟨nofun, .moved moved rfl⟩
  | unloaded here invalid broken spoilt ended => exact .inr ⟨nofun, .spoilt spoilt ended (.inl rfl)⟩
  | settled done =>
      refine .inr ⟨?_, .rest⟩
      rcases done with ⟨_, rfl⟩ | ⟨_, rfl⟩ <;> nofun
  | _ => exact .inr ⟨nofun, .rest⟩

theorem Cache.Flushed.calms [BlockDevice δ] {c : Cache} {d : δ} {t : Thread} {i : Nat}
    {turn : Turn δ (Option Failure)} (flushed : c.Flushed d t i turn) : c.Calms turn.cache := by
  cases flushed with
  | kept here holder success moved => exact .moved moved rfl
  | _ => exact .rest

namespace Host

variable {s s' : Host δ} {c c' : Nat} {m : Mount} {cache : Cache}

theorem lookup?_turn {t : Thread} {p : Pending} (pending : s.pending? t = some p) {key : Key} :
    (Act.turn t).lookup? s = some (c, key) ↔ p.stage = .looking ∧ p.cache = c ∧ p.call.key = key := by
  simp [Act.lookup?, pending]

theorem lookup?_eq_some {act : Act} {key : Key} (looks : act.lookup? s = some (c, key)) :
    ∃ t p, act = .turn t ∧ s.pending? t = some p ∧ p.stage = .looking ∧ p.cache = c ∧ p.call.key = key := by
  cases act with
  | turn t =>
      obtain ⟨p, pending, -⟩ := Option.bind_eq_some_iff.mp looks
      exact ⟨t, p, rfl, pending, (lookup?_turn pending).mp looks⟩
  | _ => cases looks

def Rested (s : Host δ) (c : Nat) (s' : Host δ) : Prop :=
  ∀ m, s.mount? c = some m → ∃ m', s'.mount? c = some m' ∧ m'.device = m.device ∧ m.cache.Calms m'.cache

theorem rested_of_same (same : s'.mount? c = s.mount? c) : s.Rested c s' :=
  fun m there => ⟨m, same.trans there, rfl, .rest⟩

theorem rested_of_carry (there : s.mount? c' = some m) (calms : c' = c → m.cache.Calms cache) (device : δ)
    (events : List Event) : s.Rested c (s.carry c' m cache device events) := by
  intro m' there'
  by_cases same : c' = c
  · subst same
    obtain rfl : m = m' := Option.some.inj (there.symm.trans there')
    exact ⟨_, carry_same there, rfl, calms rfl⟩
  · exact rested_of_same (carry_other (Ne.symm same)) m' there'

theorem Ended.rested {name : String} {events : List Event} (ended : s.Ended name events s') (c : Nat) :
    s.Rested c s' := by
  obtain ⟨lease, m, d, cache, -, there, -, -, moved, rfl⟩ := ended
  exact rested_of_carry there (fun _ => .moved moved rfl) d events

variable [BlockDevice δ] {act : Act} {done : Performed δ} {t : Thread} {p : Pending} {pins : Nat → Nat → Nat}

theorem Did.rested (did : s.Did act done) (still : ∀ key, act.lookup? s ≠ some (c, key)) : s.Rested c done.host := by
  cases did with
  | @turned t p m d turn pending there device turned =>
      refine rested_of_carry there (fun same => ?_) turn.device turn.events
      rcases turned.sought with ⟨looking, -⟩ | ⟨-, calms⟩
      · exact absurd ((lookup?_turn pending).mpr ⟨looking, same, rfl⟩) (still p.call.key)
      · exact calms
  | answered pending granted dropped =>
      rcases dropped with ⟨-, rfl⟩ | ended
      · exact rested_of_same rfl
      · exact ended.rested c
  | finished ended reply => exact ended.rested c
  | wrote held there device flushed carried =>
      subst carried
      exact rested_of_carry there (fun _ => flushed.calms) _ _
  | pinned held there device moved carried | unpinned held there device moved carried =>
      subst carried
      exact rested_of_carry there (fun _ => .moved moved rfl) _ _
  | stopped which held there device => exact rested_of_carry there (fun _ => .rest) _ _
  | edited which held there device moved => exact rested_of_carry there (fun _ => .moved moved rfl) _ _
  | _ => exact rested_of_same rfl

theorem Sound.turn_eq (sound : s.Sound pins) (pending : s.pending? t = some p) :
    ∃ m d turn, s.mount? p.cache = some m ∧ s.devices[m.device]? = some d ∧
      p.call.Turned t s.isCancelled m.cache d p.stage turn ∧
      s.turn t = ⟨(s.carry p.cache m turn.cache turn.device turn.events).setPending t
        { p with stage := turn.result, events := p.events ++ turn.events }, .done, turn.events⟩ := by
  have called := mem_of_lookup pending
  obtain ⟨m, there⟩ := Option.isSome_iff_exists.mp (sound.called _ called).mounted
  have device := Array.getElem?_eq_getElem (sound.devices there)
  refine ⟨m, _, _, there, device, Call.turn_turned (sound.tables there) p.call (sound.based called there), ?_⟩
  simp only [turn, pending, operate_eq there device]

theorem Sound.looked (sound : s.Sound pins) (there : s.mount? c = some m) {key : Key}
    (looks : act.lookup? s = some (c, key)) :
    ∃ found m', (s.perform act).host.mount? c = some m' ∧ m'.device = m.device ∧ m.cache.Sought key found m'.cache ∧
      ∀ slot, found = some slot → (s.perform act).events = slot.events key := by
  obtain ⟨t, p, rfl, pending, looking, rfl, rfl⟩ := lookup?_eq_some looks
  obtain ⟨m', d, turn, there', -, turned, done⟩ := sound.turn_eq pending
  obtain rfl : m = m' := Option.some.inj (there.symm.trans there')
  rcases turned.sought with ⟨-, found, sought, events⟩ | ⟨away, -⟩
  · have after : (s.carry p.cache m turn.cache turn.device turn.events).mount? p.cache = some _ := carry_same there
    rw [perform, done]
    exact ⟨found, _, after, rfl, sought, events⟩
  · exact absurd looking away

theorem Sound.perform_mounted (sound : s.Sound pins) (act : Act) (there : s.mount? c = some m) :
    ∃ m', (s.perform act).host.mount? c = some m' ∧ m.cache.SameMeasures m'.cache := by
  by_cases looks : ∃ key, act.lookup? s = some (c, key)
  · obtain ⟨key, looks⟩ := looks
    obtain ⟨found, m', there', -, sought, -⟩ := sound.looked there looks
    exact ⟨m', there', sought.sameMeasures⟩
  · obtain ⟨m', there', -, calms⟩ := (sound.perform_did act).rested (fun key same => looks ⟨key, same⟩) m there
    exact ⟨m', there', calms.settles.sameMeasures⟩

theorem Sound.run_mounted (sound : s.Sound pins) (acts : List Act) (there : s.mount? c = some m) :
    ∃ m', (s.run acts).mount? c = some m' ∧ m.cache.SameMeasures m'.cache := by
  induction acts generalizing s pins m with
  | nil => exact ⟨m, there, .rfl⟩
  | cons act acts ih =>
      obtain ⟨pins₁, sound₁, -⟩ := sound.did (sound.perform_did act)
      obtain ⟨m₁, there₁, first⟩ := sound.perform_mounted act there
      obtain ⟨m', there', last⟩ := ih sound₁ there₁
      exact ⟨m', there', first.trans last⟩

end Host
end BlockCache
