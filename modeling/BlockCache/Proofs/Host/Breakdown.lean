import BlockCache.Proofs.Host.Walks

/-!
# Runs as walks

A lookup that is left alone is its visits to the buckets in turn, and the end of a lease is its two halves. So a run is a
walk in which no step takes a lookup or the end of a lease as a whole: `run_breaks_down`.
-/

namespace BlockCache.Host
open Update

variable {δ : Type} [BlockDevice δ] {s s' s'' : Host δ} {pins : Nat → Nat → Nat} {t : Thread} {p : Pending} {c i : Nat}
  {m : Mount} {d : δ} {cache : Cache} {name : String}

/-- No lookup and no end of a lease is taken as a whole in the step. -/
def Splits (s : Host δ) : Step → Prop
  | .act (.turn t) => s.isLooking t = false ∧ (s.spoil t).reply.isRefused = true
  | .act (.answer t) => ∀ p i, s.pending? t = some p → p.stage = .granted i → s.lease? p.name = none
  | .act (.finish ..) => False
  | _ => True

def BreaksDown (s s' : Host δ) : Prop := ∃ steps, (∀ entry ∈ s.trail steps, entry.1.Splits entry.2) ∧ s.walk steps = s'

theorem trail_append (s : Host δ) (steps more : List Step) :
    s.trail (steps ++ more) = s.trail steps ++ (s.walk steps).trail more := by
  induction steps generalizing s with
  | nil => rfl
  | cons step steps ih => rw [List.cons_append, trail, trail, ih, List.cons_append, walk_cons]

theorem BreaksDown.rfl : s.BreaksDown s := ⟨[], List.forall_mem_nil _, by rfl⟩

theorem BreaksDown.one (step : Step) (splits : s.Splits step) : s.BreaksDown (s.advance step).host :=
  ⟨[step], by simpa [trail] using splits, by rfl⟩

theorem BreaksDown.of_steps {steps : List Step} (split : ∀ step ∈ steps, ∀ s : Host δ, s.Splits step) :
    s.BreaksDown (s.walk steps) := by
  refine ⟨steps, fun entry member => ?_, by rfl⟩
  obtain ⟨before, after, rfl, -⟩ := mem_trail.mp member
  exact split entry.2 (by simp) entry.1

theorem BreaksDown.trans (first : s.BreaksDown s') (rest : s'.BreaksDown s'') : s.BreaksDown s'' := by
  obtain ⟨steps, splits, rfl⟩ := first
  obtain ⟨more, splits', rfl⟩ := rest
  refine ⟨steps ++ more, fun entry member => ?_, walk_append s steps more⟩
  rw [trail_append] at member
  rcases List.mem_append.mp member with member | member
  · exact splits entry member
  · exact splits' entry member

/-! ## Lookups -/

theorem walk_settled (pending : s.pending? t = some p) (settled : p.stage ≠ .looking) (js : List Nat) :
    s.walk (js.map (.probe t)) = s := by
  induction js with
  | nil => rfl
  | cons j js ih =>
      have same : (s.advance (.probe t j)).host = s := by simp [Host.advance, probe, lookOn, pending, settled, refuse]
      rw [List.map_cons, walk_cons, same]
      exact ih

/-- The visits of a lookup that has found nothing at home are those of the scan. -/
theorem Sound.walk_scan (sound : s.Sound pins) (pending : s.pending? t = some p) (looking : p.stage = .looking)
    (there : s.mount? p.cache = some m) (without : m.cache.Without p.call.key) {js : List Nat}
    (others : ∀ j ∈ js, j < m.cache.buckets ∧ j ≠ m.cache.home p.call.key) :
    (∃ d found cache, s.devices[m.device]? = some d ∧
      Cache.scan (m.cache.home p.call.key) p.call.key js m.cache = .ok (some found) cache ∧
      s.walk (js.map (.probe t)) = s.queuedAt t p m cache d found) ∨
      Cache.scan (m.cache.home p.call.key) p.call.key js m.cache = .ok none m.cache ∧
        s.walk (js.map (.probe t)) = s := by
  induction js with
  | nil => exact .inr ⟨rfl, rfl⟩
  | cons j js ih =>
      obtain ⟨⟨inside, away⟩, others⟩ := List.forall_mem_cons.mp others
      have reached := (Cache.reaches_iff (sound.tables there)).mpr ⟨inside, fun _ => without⟩
      rw [List.map_cons, walk_cons, Host.advance, Cache.scan]
      rcases sound.probe_cases pending looking there reached with
        ⟨d, found, cache, device, gains, probed, done⟩ | ⟨-, -, probed, done⟩
      · rw [Cache.probe, if_neg away] at probed
        refine .inl ⟨d, found, cache, device, bind_ok probed _, ?_⟩
        rw [done]
        exact walk_settled (queuedAt_pending pending m cache d found) (by simp) js
      · rw [Cache.probe, if_neg away] at probed
        rw [bind_ok probed, done]
        exact ih others

theorem Sound.walk_route (sound : s.Sound pins) (pending : s.pending? t = some p) (looking : p.stage = .looking)
    (there : s.mount? p.cache = some m) :
    (∃ d found cache, s.devices[m.device]? = some d ∧ Cache.lookup p.call.key m.cache = .ok (some found) cache ∧
      s.walk ((m.cache.route p.call.key).map (.probe t)) = s.queuedAt t p m cache d found) ∨
      Cache.lookup p.call.key m.cache = .ok none m.cache ∧ s.walk ((m.cache.route p.call.key).map (.probe t)) = s := by
  have table := sound.tables there
  have home : m.cache.home p.call.key < m.cache.buckets := (Cache.mem_route table).mp List.mem_cons_self
  have reached := (Cache.reaches_iff table).mpr ⟨home, fun before => absurd before (Nat.lt_irrefl _)⟩
  rw [Cache.route, List.map_cons, walk_cons, Host.advance]
  rcases sound.probe_cases pending looking there reached with
    ⟨d, found, cache, device, gains, probed, done⟩ | ⟨without, -, probed, done⟩
  · rw [Cache.probe, if_pos rfl] at probed
    refine .inl ⟨d, found, cache, device, ?_, ?_⟩
    · rw [Cache.lookup, get_bind, bind_ok probed]
      rfl
    · rw [done]
      exact walk_settled (queuedAt_pending pending m cache d found) (by simp) _
  · rw [Cache.probe, if_pos rfl] at probed
    have looked : Cache.lookup p.call.key m.cache = Cache.scan (m.cache.home p.call.key) p.call.key
        (m.cache.others (m.cache.home p.call.key)) m.cache := by
      rw [Cache.lookup, get_bind, bind_ok probed]
    rw [done, looked]
    exact sound.walk_scan pending looking there without (by simp [Cache.others])

/-- The act in which a call looks for its block is the visits of its lookup, and its end if they found nothing. -/
theorem Sound.look_breaks_down (sound : s.Sound pins) (pending : s.pending? t = some p) (looking : p.stage = .looking)
    (there : s.mount? p.cache = some m) : s.BreaksDown (s.turn t).host := by
  obtain ⟨d, device⟩ : ∃ d, s.devices[m.device]? = some d := ⟨_, Array.getElem?_eq_getElem (sound.devices there)⟩
  have turned : (s.turn t).host =
      let turn := p.call.look m.cache d
      (s.carry p.cache m turn.cache turn.device turn.events).setPending t
        { p with stage := turn.result, events := p.events ++ turn.events } := by
    simp [turn, pending, looking, Call.turn, operate_eq there device]
  have visits : s.BreaksDown (s.walk ((m.cache.route p.call.key).map (.probe t))) :=
    .of_steps fun step member => by
      obtain ⟨j, -, rfl⟩ := List.mem_map.mp member
      exact fun _ => trivial
  rcases sound.walk_route pending looking there with ⟨d', found, cache, device', looked, walked⟩ | ⟨looked, walked⟩
  · obtain rfl : d = d' := Option.some.inj (device.symm.trans device')
    have same : (s.turn t).host = s.queuedAt t p m cache d found := by
      rw [turned]
      simp only [Call.look, looked, queuedAt]
    rw [same, ← walked]
    exact visits
  · obtain ⟨d', device', done⟩ := sound.lookOn_eq pending looking there (fun _ _ => true) rfl
      fun _ => Call.conclude m.cache.freed
    obtain rfl : d = d' := Option.some.inj (device.symm.trans device')
    have same : (s.turn t).host = (s.conclude t m.cache.freed).host := by
      rw [turned, conclude, done]
      cases policy : m.cache.exhaustion <;> simp [Call.look, Call.conclude, looked, policy]
    rw [same]
    exact .one (.conclude t m.cache.freed) trivial

/-! ## Ends of leases -/

omit [BlockDevice δ] in
theorem part_owed (there : s.mount? c = some m) (device : s.devices[m.device]? = some d)
    (given : Cache.letGo i m.cache = .ok () cache) : ((s.owe c i).part c i).host = s.carry c m cache d [] := by
  have there' : (s.owe c i).mount? c = some m := there
  have device' : (s.owe c i).devices[m.device]? = some d := device
  have owed : (c, i) ∈ (s.owe c i).parting := List.mem_cons_self
  rw [part, if_pos owed, operate_eq there' device']
  simp only [Turn.ofUpdate_ok given]
  simp [owe, repay, carry]

omit [BlockDevice δ] in
theorem Sound.drop_parts (sound : s.Sound pins) (name : String) :
    (s.unlock name).host = (s.drop name).host ∨ ∃ c i, ((s.unlock name).host.part c i).host = (s.drop name).host := by
  cases held : s.lease? name with
  | none => exact .inl (by simp [unlock, drop, onLease, held, refuse])
  | some lease =>
      obtain ⟨m, d, sl, there, device, table, here, holder⟩ := sound.held held
      obtain ⟨c₁, cache, unlocked, given, -⟩ :=
        Cache.unlock_letGo table here (Cache.locked_of_holder table here holder)
      have ended : Cache.endLease lease.slot m.cache = .ok () cache := (bind_ok unlocked _).trans given
      refine .inr ⟨lease.cache, lease.slot, ?_⟩
      have carried : (s.carry lease.cache m c₁ d []).mount? lease.cache = some { m with cache := c₁ } := carry_same there
      have there₁ : ((s.carry lease.cache m c₁ d []).forget name).mount? lease.cache = some { m with cache := c₁ } :=
        carried
      have device₁ : ((s.carry lease.cache m c₁ d []).forget name).devices[m.device]? = some d :=
        Array.getElem?_setIfInBounds_self_of_lt (Array.getElem?_eq_some_iff.mp device).1
      rw [unlock_does held there device unlocked, part_owed there₁ device₁ given, drop_does held there device ended]
      exact congrArg (forget · name) (carry_carry s lease.cache m c₁ cache d d [] [])

theorem Sound.finish_breaks_down (sound : s.Sound pins) (t : Thread) (name : String) (ending : Ending) :
    s.BreaksDown (s.finish t name ending).host := by
  have unlocks : s.BreaksDown (s.finishBy (·.unlock name) t name ending).host :=
    .one (.unlock t name ending) trivial
  have split {s₁ : Host δ} (sound₁ : s₁.Sound pins) (unlocks : s.BreaksDown (s₁.unlock name).host) :
      s.BreaksDown (s₁.drop name).host := by
    rcases sound₁.drop_parts name with whole | ⟨c, i, parted⟩
    · exact whole ▸ unlocks
    · exact parted ▸ unlocks.trans (.one (.part c i) trivial)
  rcases sound.finishBy_cases t name ending with
    ⟨why, refused⟩ | same | ⟨lease, m, d, told, reply, events, -, there, device, -, done⟩
  · rw [finish, refused]
    exact .rfl
  · rw [finish, same]
    rw [same] at unlocks
    exact split sound unlocks
  · rw [finish, done]
    rw [done] at unlocks
    exact split (sound.carry_alike there d told) unlocks

theorem Sound.answer_breaks_down (sound : s.Sound pins) (t : Thread) : s.BreaksDown (s.answer t).host := by
  by_cases splits : s.Splits (.act (.answer t))
  · exact .one _ splits
  · obtain ⟨p, pending, i, granted, -⟩ : ∃ p, s.pending? t = some p ∧ ∃ i, p.stage = .granted i ∧ s.lease? p.name ≠ none := by
      simpa [Splits] using splits
    -- The lease that has the name is let go of before.
    obtain ⟨free, calls⟩ : (s.drop p.name).host.lease? p.name = none ∧ (s.drop p.name).host.calls = s.calls := by
      rcases sound.drop_cases p.name with ⟨free, refused⟩ | ⟨s', ended, done⟩
      · exact refused ▸ ⟨free, by rfl⟩
      · exact done ▸ ⟨ended.free, ended.calls_eq⟩
    have pending' : (s.drop p.name).host.pending? t = some p := by rw [pending?, calls]; exact pending
    have free' : ((s.drop p.name).host.removePending t).lease? p.name = none := free
    have same : ((s.drop p.name).host.answer t).host = (s.answer t).host := by
      simp only [answer, pending, pending', granted, sound.drop_removePending, drop_free free', refuse]
    have dropped : s.BreaksDown (s.drop p.name).host := sound.finish_breaks_down t p.name .dropped
    exact same ▸ dropped.trans (.one (.act (.answer t)) fun p' i' pending₁ _ => by
      obtain rfl := Option.some.inj (pending'.symm.trans pending₁)
      exact free)

theorem Sound.load_breaks_down (sound : s.Sound pins) (pending : s.pending? t = some p) (loading : p.stage = .loading i)
    (there : s.mount? p.cache = some m) : s.BreaksDown (s.turn t).host := by
  obtain ⟨d, device⟩ : ∃ d, s.devices[m.device]? = some d := ⟨_, Array.getElem?_eq_getElem (sound.devices there)⟩
  have table := sound.tables there
  obtain ⟨sl, here, locked⟩ : (Stage.loading i).Based m.cache := loading ▸ sound.based (mem_of_lookup pending) there
  have whole (refused : (s.spoil t).reply.isRefused = true) : s.BreaksDown (s.turn t).host :=
    .one (.act (.turn t)) ⟨by simp [isLooking, pending, loading], refused⟩
  rcases Call.loadOr_cases table here locked d with
    ⟨-, done⟩ | ⟨-, -, c', -, done⟩ | ⟨-, failure, c₁, broken, spoils, done⟩
  · refine whole ?_
    simp [spoil, pending, loading, operate_eq there device, done, refuse, Reply.isRefused]
  · refine whole ?_
    simp [spoil, pending, loading, operate_eq there device, done, refuse, Reply.isRefused]
  · have here₁ : c₁.table.slots[i]? = some _ := spoils.same here
    obtain ⟨c₂, cache, unlocked, given, -⟩ := Cache.unlock_letGo (spoils.sound table) here₁ locked
    have ended : Cache.endLease i c₁ = .ok () cache := (bind_ok unlocked _).trans given
    generalize BlockDevice.read d sl.key sl.data.value = tr at done broken
    let p' : Pending := { p with stage := .failed failure.toFailure, events := p.events ++ tr.events }
    have spoilt : (s.spoil t).host = ((s.carry p.cache m c₂ tr.device tr.events).setPending t p').owe p.cache i := by
      simp [spoil, pending, loading, operate_eq there device, done (Cache.onTable (Table.unlock i)) c₂ unlocked, p']
    have turned : (s.turn t).host = (s.carry p.cache m cache tr.device tr.events).setPending t p' := by
      simp [turn, pending, loading, operate_eq there device, Call.turn, Call.load, done (Cache.endLease i) cache ended, p']
    have carried : (s.carry p.cache m c₂ tr.device tr.events).mount? p.cache =
        some { m with cache := c₂, history := tr.events.reverse ++ m.history } := carry_same there
    have there₁ : ((s.carry p.cache m c₂ tr.device tr.events).setPending t p').mount? p.cache =
        some { m with cache := c₂, history := tr.events.reverse ++ m.history } := carried
    have device₁ : ((s.carry p.cache m c₂ tr.device tr.events).setPending t p').devices[m.device]? = some tr.device :=
      Array.getElem?_setIfInBounds_self_of_lt (Array.getElem?_eq_some_iff.mp device).1
    have parted : ((s.spoil t).host.part p.cache i).host = (s.turn t).host := by
      rw [spoilt, turned, part_owed there₁ device₁ given]
      refine (congrArg (setPending · t p') (carry_carry s p.cache m c₂ cache tr.device tr.device tr.events [])).trans ?_
      rw [List.append_nil]
    exact parted ▸ (BreaksDown.one (.spoil t) trivial).trans (.one (.part p.cache i) trivial)

theorem Sound.turn_breaks_down (sound : s.Sound pins) (t : Thread) : s.BreaksDown (s.turn t).host := by
  cases pending : s.pending? t with
  | none =>
      rw [turn, pending]
      exact .rfl
  | some p =>
      obtain ⟨m, there⟩ := Option.isSome_iff_exists.mp (sound.called _ (mem_of_lookup pending)).mounted
      cases stage : p.stage with
      | looking => exact sound.look_breaks_down pending stage there
      | loading i => exact sound.load_breaks_down pending stage there
      | _ =>
          refine .one (.act (.turn t)) ⟨?_, ?_⟩
          · simp [isLooking, pending, stage]
          · simp [spoil, pending, stage, refuse, Reply.isRefused]

/-! ## Runs -/

theorem Sound.perform_breaks_down (sound : s.Sound pins) (act : Act) : s.BreaksDown (s.perform act).host := by
  cases act with
  | turn t => exact sound.turn_breaks_down t
  | answer t => exact sound.answer_breaks_down t
  | finish t name ending => exact sound.finish_breaks_down t name ending
  | _ => exact .one (.act _) trivial

theorem Sound.run_breaks_down (sound : s.Sound pins) (acts : List Act) : s.BreaksDown (s.run acts) := by
  induction acts generalizing s pins with
  | nil => exact .rfl
  | cons act acts ih =>
      obtain ⟨pins', sound', -⟩ := sound.did (sound.perform_did act)
      exact (sound.perform_breaks_down act).trans (ih sound')

/-- Whatever can be reached in acts is reached in steps that take no lookup and no end of a lease as a whole. -/
theorem run_breaks_down (devices : List δ) (plans : List (Nat × Plan)) (acts : List Act) :
    (assemble devices plans).BreaksDown ((assemble devices plans).run acts) :=
  (assemble_sound devices plans).run_breaks_down acts

end BlockCache.Host
