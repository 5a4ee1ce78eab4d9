import BlockCache.Proofs.Host.Preserved

/-!
# Runs

A host that was assembled is sound, and stays sound in every run: `run_sound`.
-/

namespace BlockCache

def Act.pinned? {δ : Type} (act : Act) (s : Host δ) (reply : Reply) : Option (Nat × Nat) :=
  match act, reply with
  | .pin _ _ name, .lease _ => (s.lease? name).map fun lease => (lease.cache, lease.slot)
  | _, _ => none

def Act.unpinned? {δ : Type} (act : Act) (s : Host δ) (reply : Reply) : Option (Nat × Nat) :=
  match act, reply with
  | .unpin _ _ name, .lease _ => (s.lease? name).map fun lease => (lease.cache, lease.slot)
  | _, _ => none

theorem Plan.buildOver_ok {plan : Plan} {device devices : Nat} {cache : Cache}
    (built : plan.buildOver device devices = .ok cache) : device < devices ∧ ∃ config : Config,
      config.capacity = plan.capacity ∧ config.buckets = plan.buckets ∧ config.blockSize = plan.blockSize ∧
        config.exhaustion = plan.exhaustion ∧ cache = Cache.fresh config := by
  by_cases inside : device < devices
  · refine ⟨inside, ?_⟩
    rw [buildOver, if_pos inside, build, Config.ofMeasures] at built
    by_cases capacity : plan.capacity = 0
    · simp [capacity] at built
    by_cases buckets : plan.buckets = 0
    · simp [capacity, buckets] at built
    by_cases blockSize : plan.blockSize = 0
    · simp [capacity, buckets, blockSize] at built
    simp only [capacity, buckets, blockSize, dif_neg, not_false_eq_true, Cache.build] at built
    split at built
    · rename_i refused
      split at refused <;> cases refused
      cases built
    · rename_i built'
      split at built' <;> cases built'
      cases built
      exact ⟨_, rfl, rfl, rfl, rfl, rfl⟩
  · simp [buildOver, inside] at built

namespace Host

variable {δ : Type} {s s' : Host δ} {pins : Nat → Nat → Nat} {t : Thread} {p : Pending} {name : String} {c : Nat}

theorem Sound.started (sound : s.Sound pins) (idle : s.pending? t = none) (mounted : (s.mount? c).isSome = true)
    (name : String) (call : Call) :
    Sound { s with calls := s.calls ++ [(t, ⟨name, c, call, .looking, []⟩)] } pins := by
  refine sound.alike ⟨fun _ => rfl, rfl⟩ ?_ ?_ sound.names (append_names sound.threads idle _) (fun _ => .inl) ?_ rfl
  · simp [live, Pending.lease?]
  · simp [bare, waiting, Pending.awaited?]
  · intro entry member
    rcases List.mem_append.mp member with before | new
    · exact .inl before
    · rw [List.mem_singleton.mp new]
      exact .inr (.of_looking mounted rfl)

theorem Sound.answered (sound : s.Sound pins) (pending : s.pending? t = some p) {i : Nat}
    (granted : p.stage = .granted i) (free : s.lease? p.name = none) :
    Sound { s.removePending t with leases := s.leases ++ [(p.name, ⟨p.cache, i, t⟩)] } pins := by
  have calls := calls_perm sound.threads pending
  have claims := Pending.claims_lock (.inr granted) t
  have live := live_perm calls rfl
  have bare := bare_perm calls rfl
  rw [claims.1] at live
  rw [claims.2] at bare
  obtain ⟨sl, here, -⟩ := (sound.called _ (mem_of_lookup pending)).slot (i := i) (by simp [granted, Stage.slot?])
  refine sound.alike ⟨fun _ => rfl, rfl⟩ ?_ bare.symm (append_names sound.names free _)
    (filter_names sound.threads _) ?_ ?_ rfl
  · refine .trans ?_ live.symm
    simp only [Host.live, List.map_append, List.append_assoc]
    exact List.perm_middle
  · intro entry member
    rcases List.mem_append.mp member with before | new
    · exact .inl before
    · rw [List.mem_singleton.mp new]
      exact .inr (by simp [here])
  · exact fun entry member => .inl (List.mem_filter.mp member).1

theorem Sound.denied (sound : s.Sound pins) (pending : s.pending? t = some p) {why : Failure}
    (failed : p.stage = .failed why) : (s.removePending t).Sound pins := by
  have calls := calls_perm sound.threads pending
  have claims := Pending.claims_nothing (p := p) (by simp [failed, Stage.slot?]) t
  have live := live_perm calls rfl
  have bare := bare_perm calls rfl
  rw [claims.1] at live
  rw [claims.2] at bare
  exact sound.alike ⟨fun _ => rfl, rfl⟩ live.symm bare.symm sound.names (filter_names sound.threads _)
    (fun _ => .inl) (fun entry member => .inl (List.mem_filter.mp member).1) rfl

theorem Ended.calls_eq {events : List Event} (ended : s.Ended name events s') : s'.calls = s.calls := by
  obtain ⟨lease, m, d, cache, -, -, -, -, -, rfl⟩ := ended
  rfl

theorem Dropped.calls_eq (dropped : s.Dropped name s') : s'.calls = s.calls := by
  rcases dropped with ⟨-, rfl⟩ | ended
  · rfl
  · exact ended.calls_eq

theorem Ended.free {events : List Event} (ended : s.Ended name events s') : s'.lease? name = none := by
  obtain ⟨lease, m, d, cache, -, -, -, -, -, rfl⟩ := ended
  exact lookup_filter_same s.leases name

theorem Dropped.free (dropped : s.Dropped name s') : s'.lease? name = none := by
  rcases dropped with ⟨free, rfl⟩ | ended
  · exact free
  · exact ended.free

theorem Sound.pinned (sound : s.Sound pins) {lease : Lease} {m : Mount} {cache : Cache}
    (held : s.lease? name = some lease) (there : s.mount? lease.cache = some m)
    (moved : m.cache.Moved (.pin lease.slot) cache) (t : Thread) (device : δ) :
    let s' := s.carry lease.cache m cache device []
    ∃ pins', s'.Sound pins' ∧ ∀ c i, pins' c i =
      pins c i + if (Act.pin t lease.cache name).pinned? s (s'.view lease) = some (c, i) then 1 else 0 := by
  have step := carry_movedAt there moved device []
  obtain ⟨m, sl, -, here, -⟩ := step.ready
  obtain ⟨pins', after⟩ : ∃ pins' : Nat → Nat → Nat, ∀ c i, pins' c i =
      pins c i + if (c, i) = (lease.cache, lease.slot) then 1 else 0 := ⟨_, fun _ _ => rfl⟩
  have entered : Ledger.Entered lease.cache (s.ledger pins) (s.ledger pins') (.pin lease.slot) :=
    ⟨.refl _, .refl _, after⟩
  refine ⟨pins', sound.carry_moved there moved entered device [], fun c i => ?_⟩
  rw [view_eq (step.slot_same here), after]
  simp [Act.pinned?, held, eq_comm]

theorem Sound.unpinned (sound : s.Sound pins) {lease : Lease} {m : Mount} {cache : Cache}
    (held : s.lease? name = some lease) (there : s.mount? lease.cache = some m)
    (moved : m.cache.Moved (.unpin lease.slot) cache) (t : Thread) (device : δ) :
    let s' := s.carry lease.cache m cache device []
    ∃ pins', s'.Sound pins' ∧ ∀ c i,
      pins' c i + (if (Act.unpin t lease.cache name).unpinned? s (s'.view lease) = some (c, i) then 1 else 0) =
        pins c i := by
  have step := carry_movedAt there moved device []
  obtain ⟨m, sl, -, here, -, -, pinned, -⟩ := step.ready
  have some : pins lease.cache lease.slot ≠ 0 := sound.pins_ne_zero here pinned
  obtain ⟨pins', before⟩ : ∃ pins' : Nat → Nat → Nat, ∀ c i, pins c i =
      pins' c i + if (c, i) = (lease.cache, lease.slot) then 1 else 0 := by
    refine ⟨fun c i => pins c i - if (c, i) = (lease.cache, lease.slot) then 1 else 0, fun c i => ?_⟩
    by_cases same : (c, i) = (lease.cache, lease.slot)
    · obtain ⟨rfl, rfl⟩ := Prod.mk.inj same
      simp only [if_true]
      omega
    · simp [same]
  have entered : Ledger.Entered lease.cache (s.ledger pins) (s.ledger pins') (.unpin lease.slot) :=
    ⟨.refl _, .refl _, before⟩
  refine ⟨pins', sound.carry_moved there moved entered device [], fun c i => ?_⟩
  rw [view_eq (step.slot_same here), before]
  simp [Act.unpinned?, held, eq_comm]

variable [BlockDevice δ]

theorem Sound.wrote (sound : s.Sound pins) {m : Mount} {d : δ} {i : Nat}
    {turn : Turn δ (Option Failure)} (there : s.mount? c = some m) (flushed : m.cache.Flushed d t i turn) :
    (s.carry c m turn.cache turn.device turn.events).Sound pins := by
  cases flushed with
  | unauthorized | failed => exact sound.carry_alike there _ _
  | kept here holder success moved => exact sound.carry_moved there moved ⟨.refl _, .refl _, rfl⟩ _ _

theorem Sound.did (sound : s.Sound pins) {act : Act} {done : Performed δ} (did : s.Did act done) :
    ∃ pins', done.host.Sound pins' ∧ ∀ c i,
      pins' c i + (if act.unpinned? s done.reply = some (c, i) then 1 else 0) =
        pins c i + if act.pinned? s done.reply = some (c, i) then 1 else 0 := by
  cases did with
  | refused act why => exact ⟨pins, sound, fun c i => by cases act <;> rfl⟩
  | looked | got => exact ⟨pins, sound, fun _ _ => rfl⟩
  | cancelled token =>
      exact ⟨pins, sound.alike ⟨fun _ => rfl, rfl⟩ (.refl _) (.refl _) sound.names sound.threads (fun _ => .inl)
        (fun _ => .inl) rfl, fun _ _ => rfl⟩
  | readPast | writtenPast =>
      exact ⟨pins, sound.alike ⟨fun _ => rfl, Array.size_setIfInBounds⟩ (.refl _) (.refl _) sound.names sound.threads
        (fun _ => .inl) (fun _ => .inl) rfl, fun _ _ => rfl⟩
  | started idle mounted free => exact ⟨pins, sound.started idle mounted _ _, fun _ _ => rfl⟩
  | turned pending there device turned => exact ⟨pins, sound.turned pending there turned _, fun _ _ => rfl⟩
  | answered pending granted dropped =>
      have pending : pending? _ _ = some _ := (congrArg (List.lookup _) dropped.calls_eq).trans pending
      exact ⟨pins, (sound.dropped dropped).answered pending granted dropped.free, fun _ _ => rfl⟩
  | denied pending failed => exact ⟨pins, sound.denied pending failed, fun _ _ => rfl⟩
  | finished ended reply events => exact ⟨pins, sound.ended ended, fun _ _ => rfl⟩
  | foreign op which =>
      refine ⟨pins, sound, fun c i => ?_⟩
      rcases which with rfl | rfl | rfl <;> rfl
  | wrote held there device flushed carried =>
      subst carried
      exact ⟨pins, sound.wrote there flushed, fun _ _ => rfl⟩
  | pinned held there device moved carried =>
      subst carried
      exact sound.pinned held there moved _ _
  | unpinned held there device moved carried =>
      subst carried
      exact sound.unpinned held there moved _ _
  | stopped which held there device =>
      refine ⟨pins, sound.carry_alike there _ _, fun c i => ?_⟩
      rcases which with rfl | rfl <;> rfl
  | edited which held there device moved =>
      refine ⟨pins, sound.carry_moved there moved ⟨.refl _, .refl _, rfl⟩ _ _, fun c i => ?_⟩
      rcases which with ⟨offset, part, rfl⟩ | ⟨byte, rfl⟩ <;> rfl

omit [BlockDevice δ] in
theorem assemble_mount {devices : List δ} {plans : List (Nat × Plan)} {m : Mount}
    (there : (assemble devices plans).mount? c = some m) : ∃ device plan, plans[c]? = some (device, plan) ∧
      m.device = device ∧ plan.buildOver device devices.length = .ok m.cache ∧ m.history = [] := by
  simp only [mount?_eq_some, assemble, List.getElem?_toArray, List.getElem?_map, Option.map_eq_some_iff] at there
  obtain ⟨⟨device, plan⟩, here, built⟩ := there
  refine ⟨device, plan, here, ?_⟩
  cases outcome : plan.buildOver device devices.length with
  | error why => simp [outcome, Except.toOption] at built
  | ok cache =>
      obtain rfl : (⟨cache, device, []⟩ : Mount) = m := by simpa [outcome, Except.toOption] using built
      exact ⟨rfl, rfl, rfl⟩

omit [BlockDevice δ] in
theorem assemble_fresh {devices : List δ} {plans : List (Nat × Plan)} {m : Mount}
    (there : (assemble devices plans).mount? c = some m) :
    ∃ config : Config, m.cache = Cache.fresh config ∧ m.history = [] := by
  obtain ⟨device, plan, -, -, built, history⟩ := assemble_mount there
  obtain ⟨-, config, -, -, -, -, fresh⟩ := Plan.buildOver_ok built
  exact ⟨config, fresh, history⟩

omit [BlockDevice δ] in
theorem assemble_sound (devices : List δ) (plans : List (Nat × Plan)) :
    (assemble devices plans).Sound fun _ _ => 0 where
  names := List.nodup_nil
  threads := List.nodup_nil
  devices {c m} there := by
    obtain ⟨device, plan, -, rfl, built, -⟩ := assemble_mount there
    exact (Plan.buildOver_ok built).1
  tables {c m} there := by
    obtain ⟨config, fresh, -⟩ := assemble_fresh there
    exact fresh ▸ Cache.fresh_sound config
  accounted {c i sl} here := by
    obtain ⟨m, there, inTable⟩ := Option.bind_eq_some_iff.mp here
    obtain ⟨config, fresh, -⟩ := assemble_fresh there
    obtain rfl := Cache.slot_of_fresh (fresh ▸ inTable)
    exact ⟨.refl _, rfl, rfl⟩
  leased entry member := nomatch member
  called entry member := nomatch member
  parted entry member := nomatch member

theorem Sound.run (sound : s.Sound pins) (acts : List Act) : ∃ pins', (s.run acts).Sound pins' := by
  induction acts generalizing s pins with
  | nil => exact ⟨pins, sound⟩
  | cons act acts ih =>
      obtain ⟨pins₁, sound₁, -⟩ := sound.did (sound.perform_did act)
      exact ih sound₁

theorem run_sound (devices : List δ) (plans : List (Nat × Plan)) (acts : List Act) :
    ∃ pins, ((assemble devices plans).run acts).Sound pins :=
  (assemble_sound devices plans).run acts

end Host
end BlockCache
