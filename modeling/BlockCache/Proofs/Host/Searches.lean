import BlockCache.Proofs.Cache.Probed
import BlockCache.Proofs.Host.Calls
import BlockCache.Proofs.Host.Lookups

/-!
# The effects of steps

`Host.Took` lists what a step can do to a sound host: an act does what it does anyway, a visit of a lookup finds a slot
or changes nothing, and a lease ends in two moves. `Sound.took` says that the host stays sound.
-/

namespace BlockCache

def Step.caller? : Step → Option Thread
  | .act a => a.caller?
  | .probe t _ | .conclude t _ | .spoil t => some t
  | .unlock .. | .part .. => none

def Step.pinned? {δ : Type} (step : Step) (s : Host δ) (reply : Reply) : Option (Nat × Nat) :=
  match step with
  | .act a => a.pinned? s reply
  | _ => none

def Step.unpinned? {δ : Type} (step : Step) (s : Host δ) (reply : Reply) : Option (Nat × Nat) :=
  match step with
  | .act a => a.unpinned? s reply
  | _ => none

namespace Host
open Update

variable {δ : Type}

def queuedAt (s : Host δ) (t : Thread) (p : Pending) (m : Mount) (cache : Cache) (d : δ) (found : Found) : Host δ :=
  (s.carry p.cache m cache d (found.events p.call.key)).setPending t
    { p with stage := .queued found.slot, events := p.events ++ found.events p.call.key }

theorem queuedAt_pending {s : Host δ} {t : Thread} {p : Pending} (pending : s.pending? t = some p) (m : Mount)
    (cache : Cache) (d : δ) (found : Found) : (s.queuedAt t p m cache d found).pending? t =
      some { p with stage := .queued found.slot, events := p.events ++ found.events p.call.key } :=
  lookup_replace_same pending _

/-- The lock of a lease has been released, after its cache has reported `events`. -/
def Unlocked (s : Host δ) (name : String) (events : List Event) (s' : Host δ) : Prop :=
  ∃ lease m d cache, s.lease? name = some lease ∧ s.mount? lease.cache = some m ∧ s.devices[m.device]? = some d ∧
    Checks events ∧ m.cache.Moved (.unlock lease.slot) cache ∧
    s' = ((s.carry lease.cache m cache d events).forget name).owe lease.cache lease.slot

def spoiltAt (s : Host δ) (t : Thread) (p : Pending) (i : Nat) (m : Mount) (cache : Cache) (tr : Transfer δ)
    (failure : TransferFailure) : Host δ :=
  ((s.carry p.cache m cache tr.device tr.events).setPending t
    { p with stage := .failed failure.toFailure, events := p.events ++ tr.events }).owe p.cache i

variable [BlockDevice δ]

inductive Took (s : Host δ) : Step → Performed δ → Prop
  | did {act : Act} {done : Performed δ} (did : s.Did act done) : Took s (.act act) done
  | refused (step : Step) (why : Refusal) : Took s step (s.refuse why)
  | found {t : Thread} {j : Nat} {p : Pending} {m : Mount} {d : δ} {found : Found} {cache : Cache}
      (pending : s.pending? t = some p) (looking : p.stage = .looking) (there : s.mount? p.cache = some m)
      (device : s.devices[m.device]? = some d) (gains : m.cache.Gains p.call.key found cache)
      (reached : m.cache.reaches p.call.key j = true)
      (probed : Cache.probe (m.cache.home p.call.key) p.call.key j m.cache = .ok (some found) cache) :
      Took s (.probe t j) ⟨s.queuedAt t p m cache d found, .done, found.events p.call.key⟩
  | nothing {t : Thread} {j : Nat} {p : Pending} {m : Mount} (pending : s.pending? t = some p)
      (looking : p.stage = .looking) (there : s.mount? p.cache = some m) (without : m.cache.Without p.call.key)
      (empty : m.cache.table.layout.ring j = [])
      (probed : Cache.probe (m.cache.home p.call.key) p.call.key j m.cache = .ok none m.cache) :
      Took s (.probe t j) ⟨s, .done, []⟩
  | stopped {t : Thread} {seen : Nat} {p : Pending} {m : Mount} {d : δ} (pending : s.pending? t = some p)
      (looking : p.stage = .looking) (there : s.mount? p.cache = some m) (device : s.devices[m.device]? = some d)
      (policy : m.cache.exhaustion = .stop) :
      Took s (.conclude t seen) ⟨(s.carry p.cache m m.cache d [.stopped .exhausted]).setPending t
        { p with stage := .failed (.fault (.stop .exhausted)), events := p.events ++ [.stopped .exhausted] }, .done,
        [.stopped .exhausted]⟩
  | starved {t : Thread} {seen : Nat} {p : Pending} {m : Mount} {d : δ} (pending : s.pending? t = some p)
      (looking : p.stage = .looking) (there : s.mount? p.cache = some m) (device : s.devices[m.device]? = some d)
      (policy : m.cache.exhaustion = .wait) :
      Took s (.conclude t seen) ⟨(s.carry p.cache m m.cache d [.waiting]).setPending t
        { p with stage := .starved seen, events := p.events ++ [.waiting] }, .done, [.waiting]⟩
  | unlocked {t : Thread} {name : String} {ending : Ending} {told : List Event} {s' : Host δ}
      (unlocked : s.Unlocked name told s') (reply : Reply) (events : List Event) :
      Took s (.unlock t name ending) ⟨s', reply, events⟩
  | spoilt {t : Thread} {p : Pending} {i : Nat} {m : Mount} {d : δ} {sl : Slot} {c₁ cache : Cache}
      {tr : Transfer δ} {failure : TransferFailure} (pending : s.pending? t = some p) (loading : p.stage = .loading i)
      (there : s.mount? p.cache = some m) (device : s.devices[m.device]? = some d)
      (here : m.cache.table.slots[i]? = some sl) (invalid : sl.valid = false)
      (transfer : BlockDevice.read d sl.key sl.data.value = tr) (broken : tr.failure = some failure)
      (spoils : m.cache.Moved (.edit i tr.buffer) c₁) (unlocked : c₁.Moved (.unlock i) cache) :
      Took s (.spoil t) ⟨s.spoiltAt t p i m cache tr failure, .done, tr.events⟩
  | parted {c i : Nat} {m : Mount} {d : δ} {cache : Cache} (owed : (c, i) ∈ s.parting)
      (there : s.mount? c = some m) (device : s.devices[m.device]? = some d) (moved : m.cache.Moved (.giveUp i) cache) :
      Took s (.part c i) ⟨(s.carry c m cache d []).repay c i, .done, []⟩

variable {s : Host δ} {pins : Nat → Nat → Nat} {t : Thread} {p : Pending} {c : Nat} {m : Mount} {j : Nat}

omit [BlockDevice δ] in
theorem setPending_self (threads : (s.calls.map Prod.fst).Nodup) (pending : s.pending? t = some p) :
    s.setPending t p = s := by
  have same : s.calls.map (fun entry => if entry.1 = t then (t, p) else entry) = s.calls := by
    refine (List.map_congr_left fun entry member => ?_).trans (List.map_id _)
    by_cases mine : entry.1 = t
    · obtain rfl : entry.2 = p := Option.some.inj ((lookup_of_mem threads member).symm.trans (mine ▸ pending))
      rw [if_pos mine, ← mine]
      rfl
    · rw [if_neg mine, id]
  rw [setPending, same]

omit [BlockDevice δ] in
theorem Sound.lookOn_eq (sound : s.Sound pins) (pending : s.pending? t = some p) (looking : p.stage = .looking)
    (there : s.mount? p.cache = some m) (ready : Call → Cache → Bool) (able : ready p.call m.cache = true)
    (step : Call → Cache → δ → Turn δ Stage) :
    ∃ d, s.devices[m.device]? = some d ∧ s.lookOn t ready step =
      let turn := step p.call m.cache d
      ⟨(s.carry p.cache m turn.cache turn.device turn.events).setPending t
        { p with stage := turn.result, events := p.events ++ turn.events }, .done, turn.events⟩ := by
  have device := Array.getElem?_eq_getElem (sound.devices there)
  refine ⟨_, device, ?_⟩
  simp [lookOn, pending, looking, there, able, operate_eq there device]

omit [BlockDevice δ] in
theorem Sound.lookOn_cases (sound : s.Sound pins) (t : Thread) (ready : Call → Cache → Bool)
    (step : Call → Cache → δ → Turn δ Stage) :
    (∃ why, s.lookOn t ready step = s.refuse why) ∨
      ∃ p m, s.pending? t = some p ∧ p.stage = .looking ∧ s.mount? p.cache = some m ∧
        ready p.call m.cache = true := by
  cases pending : s.pending? t with
  | none => exact .inl ⟨.notPending, by simp [lookOn, pending]⟩
  | some p =>
      obtain ⟨m, there⟩ := Option.isSome_iff_exists.mp (sound.called _ (mem_of_lookup pending)).mounted
      by_cases able : p.stage = .looking ∧ ready p.call m.cache = true
      · exact .inr ⟨p, m, rfl, able.1, there, able.2⟩
      · exact .inl ⟨.blocked, by simp [lookOn, pending, there, able]⟩

omit [BlockDevice δ] in
theorem Sound.probe_cases (sound : s.Sound pins) (pending : s.pending? t = some p) (looking : p.stage = .looking)
    (there : s.mount? p.cache = some m) (reached : m.cache.reaches p.call.key j = true) :
    (∃ d found cache, s.devices[m.device]? = some d ∧ m.cache.Gains p.call.key found cache ∧
      Cache.probe (m.cache.home p.call.key) p.call.key j m.cache = .ok (some found) cache ∧
      s.probe t j = ⟨s.queuedAt t p m cache d found, .done, found.events p.call.key⟩) ∨
      m.cache.Without p.call.key ∧ m.cache.table.layout.ring j = [] ∧
        Cache.probe (m.cache.home p.call.key) p.call.key j m.cache = .ok none m.cache ∧
        s.probe t j = ⟨s, .done, []⟩ := by
  rw [probe]
  obtain ⟨d, device, done⟩ := sound.lookOn_eq pending looking there (fun call c => c.reaches call.key j) reached
    fun call => call.probe j
  rw [done]
  rcases Cache.probe_cases (sound.tables there) reached with ⟨found, cache, probed, gains⟩ | ⟨probed, without, empty⟩
  · refine .inl ⟨d, found, cache, device, gains, probed, ?_⟩
    simp only [Call.probe, probed, queuedAt]
  · have same : { p with stage := .looking, events := p.events ++ [] } = p := by simp [← looking]
    refine .inr ⟨without, empty, probed, ?_⟩
    simp only [Call.probe, probed, same, carry_self there device, setPending_self sound.threads pending]

theorem Sound.probe_took (sound : s.Sound pins) (t : Thread) (j : Nat) : s.Took (.probe t j) (s.probe t j) := by
  rcases sound.lookOn_cases t (fun call c => c.reaches call.key j) (fun call => call.probe j) with
    ⟨why, refused⟩ | ⟨p, m, pending, looking, there, reached⟩
  · rw [probe, refused]
    exact .refused _ why
  · rcases sound.probe_cases pending looking there reached with
      ⟨d, found, cache, device, gains, probed, done⟩ | ⟨without, empty, probed, done⟩
    · rw [done]
      exact .found pending looking there device gains reached probed
    · rw [done]
      exact .nothing pending looking there without empty probed

theorem Sound.conclude_took (sound : s.Sound pins) (t : Thread) (seen : Nat) :
    s.Took (.conclude t seen) (s.conclude t seen) := by
  rw [conclude]
  rcases sound.lookOn_cases t (fun _ _ => true) (fun _ => Call.conclude seen) with
    ⟨why, refused⟩ | ⟨p, m, pending, looking, there, able⟩
  · rw [refused]
    exact .refused _ why
  · obtain ⟨d, device, done⟩ := sound.lookOn_eq pending looking there (fun _ _ => true) able
      fun _ => Call.conclude seen
    rw [done]
    cases policy : m.cache.exhaustion with
    | stop =>
        simp only [Call.conclude, policy]
        exact .stopped pending looking there device policy
    | wait =>
        simp only [Call.conclude, policy]
        exact .starved pending looking there device policy

omit [BlockDevice δ] in
theorem unlock_does {name : String} {lease : Lease} {d : δ} {cache : Cache} (held : s.lease? name = some lease)
    (there : s.mount? lease.cache = some m) (device : s.devices[m.device]? = some d)
    (unlocked : Cache.onTable (Table.unlock lease.slot) m.cache = .ok () cache) :
    s.unlock name = ⟨((s.carry lease.cache m cache d []).forget name).owe lease.cache lease.slot, .done, []⟩ := by
  simp [unlock, held, onSlot, operate_eq there device, Turn.ofUpdate_ok unlocked]

omit [BlockDevice δ] in
theorem Sound.finishBy_cases (sound : s.Sound pins) (t : Thread) (name : String) (ending : Ending) :
    (∃ why, ∀ ends, s.finishBy ends t name ending = s.refuse why) ∨ (∀ ends, s.finishBy ends t name ending = ends s) ∨
      ∃ lease m d told reply events, s.lease? name = some lease ∧ s.mount? lease.cache = some m ∧
        s.devices[m.device]? = some d ∧ Checks told ∧ ∀ ends, s.finishBy ends t name ending =
          ⟨(ends (s.carry lease.cache m m.cache d told)).host, reply, events⟩ := by
  cases ending with
  | dropped => exact .inr (.inl fun _ => rfl)
  | released called =>
      rcases releaseBy_cases s t name called with refused | ⟨lease, held, mounted⟩
      · exact .inl refused
      · obtain ⟨m, d, sl, there, device, -, -, done | ⟨stop, told, -, checks, done⟩⟩ :=
          sound.releaseBy_held held mounted t
        · exact .inr (.inr ⟨lease, m, d, [], .done, [], held, there, device, .inl rfl, fun ends => by
            rw [carry_self there device, done]⟩)
        · exact .inr (.inr ⟨lease, m, d, told, _, _, held, there, device, checks, done⟩)

theorem Sound.unlock_took (sound : s.Sound pins) (t : Thread) (name : String) (ending : Ending) :
    s.Took (.unlock t name ending) (s.finishBy (·.unlock name) t name ending) := by
  rcases sound.finishBy_cases t name ending with
    ⟨why, refused⟩ | unlocks | ⟨lease, m, d, told, reply, events, held, there, device, checks, done⟩
  · rw [refused]
    exact .refused _ why
  · rw [unlocks]
    cases held : s.lease? name with
    | none =>
        rw [unlock, held]
        exact .refused _ _
    | some lease =>
        obtain ⟨m, d, sl, there, device, table, here, holder⟩ := sound.held held
        obtain ⟨cache, unlocked, moved⟩ := Cache.unlock_moved table here (Cache.locked_of_holder table here holder)
        rw [unlock_does held there device unlocked]
        exact .unlocked ⟨lease, m, d, cache, held, there, device, .inl rfl, moved, rfl⟩ _ _
  · obtain ⟨m', d', sl, there', -, table, here, holder⟩ := sound.held held
    obtain rfl : m = m' := Option.some.inj (there.symm.trans there')
    obtain ⟨cache, unlocked, moved⟩ := Cache.unlock_moved table here (Cache.locked_of_holder table here holder)
    have held' : (s.carry lease.cache m m.cache d told).lease? name = some lease := held
    have after := unlock_does held' (carry_same there) (carry_device device m.cache d told) unlocked
    rw [carry_carry, List.append_nil] at after
    rw [done, after]
    exact .unlocked ⟨lease, m, d, cache, held, there, device, checks, moved, rfl⟩ reply events

theorem Sound.spoil_took (sound : s.Sound pins) (t : Thread) : s.Took (.spoil t) (s.spoil t) := by
  rw [spoil]
  cases pending : s.pending? t with
  | none => exact .refused _ _
  | some p =>
      have called := mem_of_lookup pending
      obtain ⟨m, there⟩ := Option.isSome_iff_exists.mp (sound.called _ called).mounted
      obtain ⟨d, device⟩ : ∃ d, s.devices[m.device]? = some d := ⟨_, Array.getElem?_eq_getElem (sound.devices there)⟩
      have based := sound.based called there
      cases stage : p.stage with
      | loading i =>
          obtain ⟨sl, here, locked⟩ : (Stage.loading i).Based m.cache := stage ▸ based
          rcases Call.loadOr_cases (sound.tables there) here locked d with
            ⟨-, done⟩ | ⟨-, -, c', -, done⟩ | ⟨invalid, failure, c₁, broken, spoils, done⟩
          · simp only [stage, operate_eq there device, done]
            exact .refused _ _
          · simp only [stage, operate_eq there device, done]
            exact .refused _ _
          · obtain ⟨cache, unlocked, moved⟩ :=
              Cache.unlock_moved (spoils.sound (sound.tables there)) (spoils.same here) locked
            simp only [stage, operate_eq there device, done (Cache.onTable (Table.unlock i)) cache unlocked]
            exact .spoilt pending stage there device here invalid rfl broken spoils moved
      | _ =>
          simp only [stage]
          exact .refused _ _

theorem Sound.part_took (sound : s.Sound pins) (c i : Nat) : s.Took (.part c i) (s.part c i) := by
  rw [part]
  by_cases owed : (c, i) ∈ s.parting
  · obtain ⟨sl, here⟩ := Option.isSome_iff_exists.mp (sound.parted _ owed)
    obtain ⟨m, there, inTable⟩ := Option.bind_eq_some_iff.mp here
    have device := Array.getElem?_eq_getElem (sound.devices there)
    obtain ⟨busy, last⟩ := sound.referenced_of_bare (List.mem_append_right _ owed) here
    obtain ⟨cache, given, moved⟩ := Cache.letGo_moved (sound.tables there) inTable busy last
    rw [if_pos owed]
    simp only [operate_eq there device, Turn.ofUpdate_ok given]
    exact .parted owed there device moved
  · rw [if_neg owed]
    exact .refused _ _

theorem Sound.advance_took (sound : s.Sound pins) (step : Step) : s.Took step (s.advance step) := by
  cases step with
  | act act => exact .did (sound.perform_did act)
  | probe t j => exact sound.probe_took t j
  | conclude t seen => exact sound.conclude_took t seen
  | unlock t name ending => exact sound.unlock_took t name ending
  | spoil t => exact sound.spoil_took t
  | part c i => exact sound.part_took c i

omit [BlockDevice δ] in
theorem owe_bare (s : Host δ) (c i : Nat) : (s.owe c i).bare.Perm ((c, i) :: s.bare) := List.perm_middle

omit [BlockDevice δ] in
theorem repay_bare (owed : (c, j) ∈ s.parting) : s.bare.Perm ((c, j) :: (s.repay c j).bare) :=
  ((List.perm_cons_erase owed).append_left _).trans List.perm_middle

omit [BlockDevice δ] in
theorem Sound.unlocked (sound : s.Sound pins) {name : String} {told : List Event} {s' : Host δ}
    (unlocked : s.Unlocked name told s') : s'.Sound pins := by
  obtain ⟨lease, m, d, cache, held, there, -, -, moved, rfl⟩ := unlocked
  have step := carry_movedAt there moved d told
  refine sound.moved ⟨step.mount, step.others, step.devices⟩
    ⟨⟨lease.thread, forget_live sound.names held⟩, owe_bare s _ _, rfl⟩ (filter_names sound.names _) sound.threads
    (fun entry member => (List.mem_filter.mp member).1) (fun _ => .inl) fun entry member => ?_
  exact (List.mem_cons.mp member).symm

omit [BlockDevice δ] in
theorem Sound.parts (sound : s.Sound pins) (owed : (c, j) ∈ s.parting) (there : s.mount? c = some m) {cache : Cache}
    (moved : m.cache.Moved (.giveUp j) cache) (d : δ) : ((s.carry c m cache d []).repay c j).Sound pins := by
  have step := carry_movedAt there moved d []
  exact sound.moved ⟨step.mount, step.others, step.devices⟩ ⟨.refl _, repay_bare owed, rfl⟩ sound.names sound.threads
    (fun _ => id) (fun _ => .inl) fun entry member => .inl (List.mem_of_mem_erase member)

omit [BlockDevice δ] in
theorem Sound.spoiltAt (sound : s.Sound pins) (pending : s.pending? t = some p) (there : s.mount? p.cache = some m)
    {i : Nat} (loading : p.stage = .loading i) {c₁ cache : Cache} {tr : Transfer δ}
    (spoils : m.cache.Moved (.edit i tr.buffer) c₁) (moved : c₁.Moved (.unlock i) cache) (failure : TransferFailure) :
    (s.spoiltAt t p i m cache tr failure).Sound pins := by
  have sound := sound.carry_moved there spoils ⟨.refl _, .refl _, rfl⟩ tr.device []
  have there' : (s.carry p.cache m c₁ tr.device []).mount? p.cache = some { m with cache := c₁ } := carry_same there
  have pending' : (s.carry p.cache m c₁ tr.device []).pending? t = some p := pending
  obtain ⟨live, bare, before, after, before', after'⟩ := sound.claims_setPending pending'
    (Pending.claims_lock (.inl loading) t)
    (Pending.claims_nothing (p := { p with stage := .failed failure.toFailure, events := p.events ++ tr.events }) rfl t)
  have step := carry_movedAt there' moved tr.device tr.events
  have supports := sound.supports_moved step (mem_of_lookup pending')
  have whole : (s.carry p.cache m c₁ tr.device []).carry p.cache { m with cache := c₁ } cache tr.device tr.events =
      s.carry p.cache m cache tr.device tr.events :=
    carry_carry s p.cache m c₁ cache tr.device tr.device [] tr.events
  rw [Host.spoiltAt, ← whole]
  refine sound.moved ⟨step.mount, step.others, step.devices⟩
    ⟨⟨t, before.trans (after.symm.cons _)⟩, ?_, rfl⟩ sound.names (sound.threads_setPending t _) (fun _ => id) ?_ ?_
  · exact (owe_bare _ _ _).trans ((after'.trans before'.symm).cons _)
  · intro entry member
    rcases sound.mem_setPending pending' _ entry member with before | rfl
    · exact .inl before
    · exact .inr (.of_looking supports.mounted rfl)
  · intro entry member
    exact (List.mem_cons.mp member).symm

theorem Sound.took (sound : s.Sound pins) {step : Step} {done : Performed δ} (took : s.Took step done) :
    ∃ pins', done.host.Sound pins' ∧ ∀ c i,
      pins' c i + (if step.unpinned? s done.reply = some (c, i) then 1 else 0) =
        pins c i + if step.pinned? s done.reply = some (c, i) then 1 else 0 := by
  cases took with
  | did did => exact sound.did did
  | refused step =>
      refine ⟨pins, sound, fun c i => ?_⟩
      cases step with
      | act act => cases act <;> rfl
      | _ => rfl
  | nothing => exact ⟨pins, sound, fun _ _ => rfl⟩
  | found pending looking there device gains =>
      exact ⟨pins, sound.turned_found pending there looking gains.suits gains.moved _ _ _, fun _ _ => rfl⟩
  | stopped pending looking there | starved pending looking there =>
      exact ⟨pins, sound.turned_idle pending there (by simp [looking, Stage.slot?]) rfl _ _ _, fun _ _ => rfl⟩
  | unlocked unlocked => exact ⟨pins, sound.unlocked unlocked, fun _ _ => rfl⟩
  | spoilt pending loading there device here invalid transfer broken spoils unlocked =>
      exact ⟨pins, sound.spoiltAt pending there loading spoils unlocked _, fun _ _ => rfl⟩
  | parted owed there device moved => exact ⟨pins, sound.parts owed there moved _, fun _ _ => rfl⟩

theorem Sound.advance_cases (sound : s.Sound pins) (step : Step) (there : s.mount? c = some m) :
    ∃ m', (s.advance step).host.mount? c = some m' ∧
      (m.cache.Calms m'.cache ∨ ∃ key found, m.cache.Gains key found m'.cache) := by
  have took := sound.advance_took step
  have rested {s' : Host δ} (rested : s.Rested c s') : ∃ m', s'.mount? c = some m' ∧
      (m.cache.Calms m'.cache ∨ ∃ key found, m.cache.Gains key found m'.cache) := by
    obtain ⟨m', after, -, calms⟩ := rested m there
    exact ⟨m', after, .inl calms⟩
  generalize same : s.advance step = done at took
  cases took with
  | @did act done did =>
      by_cases looks : ∃ key, act.lookup? s = some (c, key)
      · obtain ⟨key, looks⟩ := looks
        obtain ⟨found, m', after, -, sought, -⟩ := sound.looked there looks
        refine ⟨m', same ▸ after, ?_⟩
        generalize m'.cache = cache at sought
        cases sought with
        | found finds moved => exact .inr ⟨key, _, finds.suits, moved⟩
        | nothing => exact .inl .rest
      · exact rested (did.rested fun key same => looks ⟨key, same⟩)
  | refused | nothing => exact ⟨m, there, .inl .rest⟩
  | @found t j p m₀ d found cache pending looking there₀ device gains =>
      by_cases mine : c = p.cache
      · subst mine
        obtain rfl : m = m₀ := Option.some.inj (there.symm.trans there₀)
        have after : (s.carry p.cache m cache d (found.events p.call.key)).mount? p.cache = some _ := carry_same there
        exact ⟨_, after, .inr ⟨_, _, gains⟩⟩
      · exact rested (rested_of_carry there₀ (fun same => absurd same.symm mine) d _)
  | @stopped t seen p m₀ d pending looking there₀ | @starved t seen p m₀ d pending looking there₀ =>
      exact rested (rested_of_carry there₀ (fun _ => .rest) d _)
  | unlocked unlocked =>
      obtain ⟨lease, m₀, d, cache, -, there₀, -, -, moved, rfl⟩ := unlocked
      exact rested (rested_of_carry there₀ (fun _ => .moved moved rfl) d _)
  | @spoilt t p i m₀ d sl c₁ cache tr failure pending loading there₀ device here invalid transfer broken spoils unlocked =>
      exact rested (rested_of_carry there₀ (fun _ => .spoilt spoils unlocked (.inr rfl)) tr.device tr.events)
  | @parted c i m₀ d cache owed there₀ device moved =>
      exact rested (rested_of_carry there₀ (fun _ => .moved moved rfl) d _)

end Host
end BlockCache
