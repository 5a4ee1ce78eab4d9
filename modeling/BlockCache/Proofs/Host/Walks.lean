import BlockCache.Proofs.Host.Searches

/-!
# Walks

A host that was assembled is sound, and stays sound whatever steps it takes. `walk_balanced` says so together with the
number of pins: a slot has as many as were set less those that were taken back.
-/

namespace BlockCache.Host

variable {δ : Type} [BlockDevice δ] {s : Host δ} {pins : Nat → Nat → Nat} {t : Thread} {p : Pending} {c : Nat}
  {m : Mount} {step : Step} {done : Performed δ}

theorem walk_cons (s : Host δ) (step : Step) (steps : List Step) :
    s.walk (step :: steps) = (s.advance step).host.walk steps := rfl

theorem walk_append (s : Host δ) (steps more : List Step) : s.walk (steps ++ more) = (s.walk steps).walk more :=
  List.foldl_append

theorem walk_acts (s : Host δ) (acts : List Act) : s.walk (acts.map .act) = s.run acts := by
  simp [walk, run, List.foldl_map, advance]

/-- The steps of a run, each with the host that it met. -/
def trail (s : Host δ) : List Step → List (Host δ × Step)
  | [] => []
  | step :: steps => (s, step) :: (s.advance step).host.trail steps

theorem mem_trail {s s' : Host δ} {step : Step} {steps : List Step} : (s', step) ∈ s.trail steps ↔
    ∃ before after, steps = before ++ step :: after ∧ s' = s.walk before := by
  induction steps generalizing s with
  | nil => simp [trail]
  | cons first steps ih =>
      rw [trail, List.mem_cons, ih]
      constructor
      · rintro (same | ⟨before, after, rfl, rfl⟩)
        · obtain ⟨rfl, rfl⟩ := Prod.mk.inj same
          exact ⟨[], steps, rfl, rfl⟩
        · exact ⟨first :: before, after, rfl, rfl⟩
      · rintro ⟨before, after, split, rfl⟩
        cases before with
        | nil =>
            obtain ⟨rfl, rfl⟩ := List.cons.inj split
            exact .inl rfl
        | cons step' before =>
            obtain ⟨rfl, rfl⟩ := List.cons.inj split
            exact .inr ⟨before, after, rfl, rfl⟩

theorem Sound.advance (sound : s.Sound pins) (step : Step) : ∃ pins', (s.advance step).host.Sound pins' := by
  obtain ⟨pins', sound', -⟩ := sound.took (sound.advance_took step)
  exact ⟨pins', sound'⟩

theorem Sound.walk_preserves {P : Host δ → Prop}
    (preserved : ∀ {s : Host δ} {pins : Nat → Nat → Nat}, s.Sound pins → P s → ∀ step, P (s.advance step).host)
    (sound : s.Sound pins) (holds : P s) (steps : List Step) : P (s.walk steps) := by
  induction steps generalizing s pins with
  | nil => exact holds
  | cons step steps ih =>
      obtain ⟨pins₁, sound₁⟩ := sound.advance step
      exact ih sound₁ (preserved sound holds step)

theorem Sound.walk (sound : s.Sound pins) (steps : List Step) : ∃ pins', (s.walk steps).Sound pins' :=
  sound.walk_preserves (P := fun s => ∃ pins, s.Sound pins) (fun sound _ step => sound.advance step) ⟨pins, sound⟩ steps

theorem walk_sound (devices : List δ) (plans : List (Nat × Plan)) (steps : List Step) :
    ∃ pins, ((assemble devices plans).walk steps).Sound pins :=
  (assemble_sound devices plans).walk steps

def pinCount (s : Host δ) (steps : List Step) (c i : Nat) : Nat :=
  (s.trail steps).countP fun (s, step) => step.pinned? s (s.advance step).reply = some (c, i)

def unpinCount (s : Host δ) (steps : List Step) (c i : Nat) : Nat :=
  (s.trail steps).countP fun (s, step) => step.unpinned? s (s.advance step).reply = some (c, i)

theorem Sound.walk_balanced (sound : s.Sound pins) (steps : List Step) :
    ∃ pins', (s.walk steps).Sound pins' ∧ ∀ c i,
      pins' c i + s.unpinCount steps c i = pins c i + s.pinCount steps c i := by
  induction steps generalizing s pins with
  | nil => exact ⟨pins, sound, fun _ _ => rfl⟩
  | cons step steps ih =>
      obtain ⟨pins₁, sound₁, first⟩ := sound.took (sound.advance_took step)
      obtain ⟨pins', sound', rest⟩ := ih sound₁
      refine ⟨pins', sound', fun c i => ?_⟩
      have first := first c i
      have rest := rest c i
      simp only [pinCount, unpinCount, trail, List.countP_cons, decide_eq_true_eq] at first rest ⊢
      omega

theorem walk_balanced (devices : List δ) (plans : List (Nat × Plan)) (steps : List Step) :
    let start := assemble devices plans
    (∀ c i, start.unpinCount steps c i ≤ start.pinCount steps c i) ∧
      (start.walk steps).Sound fun c i => start.pinCount steps c i - start.unpinCount steps c i := by
  intro start
  obtain ⟨pins, sound, balance⟩ := (assemble_sound devices plans).walk_balanced steps
  have balance : ∀ c i, pins c i + start.unpinCount steps c i = start.pinCount steps c i :=
    fun c i => (balance c i).trans (Nat.zero_add _)
  have counted : pins = fun c i => start.pinCount steps c i - start.unpinCount steps c i :=
    funext fun c => funext fun i => Nat.eq_sub_of_add_eq (balance c i)
  exact ⟨fun c i => balance c i ▸ Nat.le_add_left _ _, counted ▸ sound⟩

theorem Took.becomes {m' : Mount} (took : s.Took step done) (after : done.host.mount? c = some m') :
    ∃ m, s.mount? c = some m ∧ m.Becomes m' := by
  cases took with
  | did did => exact did.becomes after
  | refused | nothing => exact ⟨m', after, .rfl⟩
  | @found _ _ _ _ d _ _ pending looking there device gains => exact becomes_of_carry there (.one gains.moved) d after
  | @stopped _ _ _ _ d pending looking there | @starved _ _ _ _ d pending looking there =>
      exact becomes_of_carry there (.nil _) d after
  | unlocked unlocked =>
      obtain ⟨lease, m, d, cache, -, there, -, -, moved, rfl⟩ := unlocked
      exact becomes_of_carry there (.one moved) d after
  | @spoilt t p i m d sl c₁ cache tr failure pending loading there device here invalid transfer broken spoils unlocked =>
      exact becomes_of_carry there (.cons spoils (.one unlocked)) tr.device after
  | @parted c i m d cache owed there device moved => exact becomes_of_carry there (.one moved) d after

theorem Sound.advance_mounted (sound : s.Sound pins) (step : Step) (there : s.mount? c = some m) :
    ∃ m', (s.advance step).host.mount? c = some m' ∧ m.Becomes m' := by
  obtain ⟨m', there', -⟩ := sound.advance_cases step there
  obtain ⟨m₀, there₀, becomes⟩ := (sound.advance_took step).becomes there'
  obtain rfl := Option.some.inj (there.symm.trans there₀)
  exact ⟨m', there', becomes⟩

theorem Sound.walk_mounted (sound : s.Sound pins) (there : s.mount? c = some m) (steps : List Step) :
    ∃ m', (s.walk steps).mount? c = some m' ∧ m.Becomes m' := by
  refine sound.walk_preserves (P := fun s' => ∃ m', s'.mount? c = some m' ∧ m.Becomes m') (fun sound₁ mounted step => ?_)
    ⟨m, there, .rfl⟩ steps
  obtain ⟨m₁, there₁, first⟩ := mounted
  obtain ⟨m', there', last⟩ := sound₁.advance_mounted step there₁
  exact ⟨m', there', first.trans last⟩

theorem Sound.walk_becomes (sound : s.Sound pins) (steps : List Step) {m' : Mount}
    (after : (s.walk steps).mount? c = some m') : ∃ m, s.mount? c = some m ∧ m.Becomes m' := by
  let Comes (s' : Host δ) : Prop := ∀ m', s'.mount? c = some m' → ∃ m, s.mount? c = some m ∧ m.Becomes m'
  have start : Comes s := fun m there => ⟨m, there, .rfl⟩
  refine sound.walk_preserves (P := Comes) (fun sound₁ comes step m' there' => ?_) start steps m' after
  obtain ⟨m₁, there₁, last⟩ := (sound₁.advance_took step).becomes there'
  obtain ⟨m, there, first⟩ := comes m₁ there₁
  exact ⟨m, there, first.trans last⟩

theorem walk_measures {devices : List δ} {plans : List (Nat × Plan)} {steps : List Step}
    (there : ((assemble devices plans).walk steps).mount? c = some m) {device : Nat} {plan : Plan}
    (planned : plans[c]? = some (device, plan)) :
    m.device = device ∧ m.cache.capacity = plan.capacity ∧ m.cache.buckets = plan.buckets ∧
      m.cache.blockSize = plan.blockSize ∧ m.cache.exhaustion = plan.exhaustion := by
  obtain ⟨m₀, there₀, becomes⟩ := (assemble_sound devices plans).walk_becomes steps there
  exact measures_of_becomes there₀ becomes planned

theorem Took.pending_other (took : s.Took step done) (other : step.caller? ≠ some t) :
    done.host.pending? t = s.pending? t := by
  have away {t' : Thread} (caller : step.caller? = some t') : t ≠ t' := fun same => other (same ▸ caller)
  cases took with
  | did did => exact did.pending_other other
  | refused | nothing | parted => rfl
  | found | stopped | starved | spoilt => exact lookup_replace_other _ (away rfl)
  | unlocked unlocked =>
      obtain ⟨lease, m, d, cache, -, -, -, -, -, rfl⟩ := unlocked
      rfl

theorem Sound.took_pending (sound : s.Sound pins) (took : s.Took step done) (pending : s.pending? t = some p) :
    (∃ p', done.host.pending? t = some p' ∧ p.Continues p') ∨
      step = .act (.answer t) ∧ done.reply.isRefused = false := by
  by_cases mine : step.caller? = some t
  case neg => exact .inl ⟨p, (took.pending_other mine).trans pending, .rfl⟩
  have changed (stage : Stage) (events : List Event) :
      ∃ p', (s.setPending t { p with stage, events }).pending? t = some p' ∧ p.Continues p' :=
    ⟨_, lookup_replace_same pending _, ⟨rfl, rfl, rfl⟩⟩
  cases took with
  | @did act done did => exact (sound.did_pending did pending).imp_right fun ⟨same, answered⟩ => ⟨congrArg _ same, answered⟩
  | refused | nothing => exact .inl ⟨p, pending, .rfl⟩
  | found pending' | stopped pending' | starved pending' | spoilt pending' =>
      cases mine
      obtain rfl := Option.some.inj (pending.symm.trans pending')
      exact .inl (changed _ _)
  | unlocked | parted => cases mine

/-- The thread gets no answer while the steps are taken, other than that there is none yet. -/
def Unanswered (s : Host δ) (t : Thread) (steps : List Step) : Prop :=
  ∀ entry ∈ s.trail steps, entry.2 = .act (.answer t) → (entry.1.answer t).reply.isRefused = true

theorem Sound.walk_pending (sound : s.Sound pins) (pending : s.pending? t = some p) {steps : List Step}
    (unanswered : s.Unanswered t steps) : ∃ p', (s.walk steps).pending? t = some p' ∧ p.Continues p' := by
  induction steps generalizing s pins p with
  | nil => exact ⟨p, pending, .rfl⟩
  | cons step steps ih =>
      obtain ⟨pins₁, sound₁⟩ := sound.advance step
      rcases sound.took_pending (sound.advance_took step) pending with ⟨p₁, pending₁, first⟩ | ⟨rfl, answered⟩
      · have rest : (s.advance step).host.Unanswered t steps := fun entry member =>
          unanswered entry (List.mem_cons_of_mem _ member)
        obtain ⟨p', pending', last⟩ := ih sound₁ pending₁ rest
        exact ⟨p', pending', first.trans last⟩
      · have refused := unanswered _ List.mem_cons_self rfl
        exact absurd (answered.symm.trans refused) nofun

end BlockCache.Host
