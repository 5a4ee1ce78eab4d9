import BlockCache.Proofs.Host.Steps

/-!
# Sound hosts stay sound

Each effect of an act keeps a host sound. The pins that a host is sound with change with those acts only that pin or
unpin.
-/

namespace BlockCache.Host

variable {δ : Type} {s s' : Host δ} {c : Nat} {m : Mount} {d : δ} {cache : Cache} {move : Move}
  {pins pins' : Nat → Nat → Nat} {name : String} {lease : Lease} {t : Thread} {p p' : Pending}

theorem Sound.carry_alike (sound : s.Sound pins) (there : s.mount? c = some m) (device : δ) (events : List Event) :
    (s.carry c m m.cache device events).Sound pins :=
  sound.alike (Host.carry_alike there device events) (.refl _) (.refl _) sound.names sound.threads
    (fun _ => .inl) (fun _ => .inl) rfl

theorem Sound.carry_moved (sound : s.Sound pins) (there : s.mount? c = some m) (moved : m.cache.Moved move cache)
    (entered : Ledger.Entered c (s.ledger pins) (s.ledger pins') move) (device : δ) (events : List Event) :
    (s.carry c m cache device events).Sound pins' :=
  sound.moved (carry_movedAt there moved device events) entered sound.names sound.threads (fun _ => id) (fun _ => .inl)
    fun _ => .inl

theorem Sound.ended (sound : s.Sound pins) {events : List Event} (ended : s.Ended name events s') :
    s'.Sound pins := by
  obtain ⟨lease, m, d, cache, held, there, -, -, moved, rfl⟩ := ended
  have step := carry_movedAt there moved d events
  have forgotten : s.MovedAt lease.cache (.finish lease.slot)
      ((s.carry lease.cache m cache d events).forget name) := ⟨step.mount, step.others, step.devices⟩
  refine sound.moved forgotten ⟨⟨lease.thread, forget_live sound.names held⟩, .refl _, rfl⟩
    (filter_names sound.names _) sound.threads ?_ (fun _ => .inl) fun _ => .inl
  exact fun entry member => (List.mem_filter.mp member).1

theorem Sound.dropped (sound : s.Sound pins) (dropped : s.Dropped name s') : s'.Sound pins := by
  rcases dropped with ⟨-, rfl⟩ | ended
  · exact sound
  · exact sound.ended ended

theorem Sound.claims_setPending (sound : s.Sound pins) (pending : s.pending? t = some p)
    {lease lease' : Option Lease} {slot slot' : Option (Nat × Nat)} (old : p.lease? t = lease ∧ p.awaited? = slot)
    (new : p'.lease? t = lease' ∧ p'.awaited? = slot') :
    ∃ live bare, s.live.Perm (lease.toList ++ live) ∧ (s.setPending t p').live.Perm (lease'.toList ++ live) ∧
      s.bare.Perm (slot.toList ++ bare) ∧ (s.setPending t p').bare.Perm (slot'.toList ++ bare) := by
  obtain ⟨rfl, rfl⟩ := old
  obtain ⟨rfl, rfl⟩ := new
  have before := calls_perm sound.threads pending
  have after := setPending_perm sound.threads pending p'
  exact ⟨_, _, live_perm before rfl, live_perm after rfl, bare_perm before rfl, bare_perm after rfl⟩

theorem Sound.threads_setPending (sound : s.Sound pins) (t : Thread) (p' : Pending) :
    ((s.setPending t p').calls.map Prod.fst).Nodup :=
  (replace_names s.calls t p').symm ▸ sound.threads

theorem Sound.mem_setPending (sound : s.Sound pins) (pending : s.pending? t = some p) (p' : Pending) :
    ∀ entry ∈ (s.setPending t p').calls, entry ∈ s.calls ∨ entry = (t, p') := by
  intro entry member
  rcases List.mem_cons.mp ((setPending_perm sound.threads pending p').mem_iff.mp member) with same | other
  · exact .inr same
  · exact .inl (List.mem_filter.mp other).1

theorem Sound.turned_alike (sound : s.Sound pins) (pending : s.pending? t = some p)
    (there : s.mount? p.cache = some m) (supports : s.Supports p') (lease : p'.lease? t = p.lease? t)
    (awaited : p'.awaited? = p.awaited?) (device : δ) (events : List Event) :
    ((s.carry p.cache m m.cache device events).setPending t p').Sound pins := by
  have alike := Host.carry_alike there device events
  obtain ⟨live, bare, before, after, before', after'⟩ :=
    sound.claims_setPending pending ⟨rfl, rfl⟩ ⟨lease, awaited⟩
  refine sound.alike ⟨alike.caches, alike.devices⟩ ?_ ?_ sound.names (sound.threads_setPending t p') (fun _ => .inl) ?_ rfl
  · exact after.trans before.symm
  · exact after'.trans before'.symm
  · intro entry member
    rcases sound.mem_setPending pending p' entry member with before | rfl
    · exact .inl before
    · exact .inr supports

theorem Sound.turned_moved (sound : s.Sound pins) (pending : s.pending? t = some p)
    (there : s.mount? p.cache = some m) (moved : m.cache.Moved move cache)
    (entered : Ledger.Entered p.cache (s.ledger pins) ((s.setPending t p').ledger pins) move) (device : δ)
    (events : List Event)
    (supports : ((s.carry p.cache m cache device events).setPending t p').Supports p') :
    ((s.carry p.cache m cache device events).setPending t p').Sound pins := by
  have step := carry_movedAt there moved device events
  refine sound.moved ⟨step.mount, step.others, step.devices⟩ entered sound.names (sound.threads_setPending t p')
    (fun _ => id) ?_ fun _ => .inl
  intro entry member
  rcases sound.mem_setPending pending p' entry member with before | rfl
  · exact .inl before
  · exact .inr supports

theorem Supports.of_looking (mounted : (s.mount? p.cache).isSome = true) (none : p.stage.slot? = none) :
    s.Supports p where
  mounted := mounted
  slot refers := by simp [none] at refers

theorem Sound.turned_idle (sound : s.Sound pins) (pending : s.pending? t = some p)
    (there : s.mount? p.cache = some m) (before : p.stage.slot? = none) {stage : Stage} (after : stage.slot? = none)
    (device : δ) (told events : List Event) :
    ((s.carry p.cache m m.cache device events).setPending t { p with stage, events := told }).Sound pins := by
  have mounted : (s.mount? p.cache).isSome = true := (sound.called _ (mem_of_lookup pending)).mounted
  have old := Pending.claims_nothing before t
  have new := Pending.claims_nothing (p := { p with stage, events := told }) after t
  have supports : s.Supports { p with stage, events := told } := .of_looking mounted after
  exact sound.turned_alike pending there supports (new.1.trans old.1.symm) (new.2.trans old.2.symm) device events

theorem Sound.turned_still (sound : s.Sound pins) (pending : s.pending? t = some p)
    (there : s.mount? p.cache = some m) {stage : Stage} (same : p.stage = stage) (device : δ)
    (told events : List Event) :
    ((s.carry p.cache m m.cache device events).setPending t { p with stage, events := told }).Sound pins := by
  subst same
  have supports : s.Supports p := sound.called _ (mem_of_lookup pending)
  have still : s.Supports { p with events := told } := ⟨supports.mounted, supports.slot⟩
  exact sound.turned_alike pending there still rfl rfl device events

theorem Sound.turned_found (sound : s.Sound pins) (pending : s.pending? t = some p)
    (there : s.mount? p.cache = some m) (looking : p.stage = .looking) {found : Found}
    (suits : m.cache.table.layout.Suits p.call.key found)
    (moved : m.cache.Moved (found.move p.call.key) cache) (device : δ) (told events : List Event) :
    ((s.carry p.cache m cache device events).setPending t
      { p with stage := .queued found.slot, events := told }).Sound pins := by
  have nothing := Pending.claims_nothing (p := p) (by rw [looking]; rfl) t
  obtain ⟨live, bare, before, after, before', after'⟩ := sound.claims_setPending pending nothing
    (Pending.claims_turn (p := { p with stage := .queued found.slot, events := told }) rfl t)
  have step := carry_movedAt there moved device events
  have mounted := step.mounted (sound.called _ (mem_of_lookup pending)).mounted
  refine sound.turned_moved pending there moved ?_ device events ⟨mounted, fun {i} refers => ?_⟩
  · cases found with
    | _ => exact ⟨after.trans before.symm, after'.trans (before'.symm.cons _), rfl⟩
  · obtain rfl : found.slot = i := by simpa [Stage.slot?] using refers
    have slot := found.slot_move p.call.key
    obtain ⟨m', sl, there', here, inTable, -⟩ := step.ready
    obtain rfl : m = m' := Option.some.inj (there.symm.trans there')
    exact ⟨_, slot ▸ step.slot_same here, suits.key_after (slot ▸ inTable), by simp⟩

theorem Sound.turned_granted (sound : s.Sound pins) (pending : s.pending? t = some p)
    (there : s.mount? p.cache = some m) {i : Nat} (queued : p.stage = .queued i)
    (moved : m.cache.Moved (.grant i t) cache) (device : δ) (told events : List Event) :
    ((s.carry p.cache m cache device events).setPending t
      { p with stage := if p.call.loads then .loading i else .granted i, events := told }).Sound pins := by
  obtain ⟨stage, next⟩ : ∃ stage, stage = if p.call.loads then Stage.loading i else .granted i := ⟨_, rfl⟩
  rw [← next]
  have locked : stage = .loading i ∨ stage = .granted i := by
    rw [next]
    cases p.call.loads
    · exact .inr rfl
    · exact .inl rfl
  obtain ⟨live, bare, before, after, before', after'⟩ := sound.claims_setPending pending
    (Pending.claims_turn queued t) (Pending.claims_lock (p := { p with stage, events := told }) locked t)
  have supports := sound.supports_moved (carry_movedAt there moved device events) (mem_of_lookup pending)
  refine sound.turned_moved pending there moved ?_ device events ⟨supports.mounted, fun {j} refers => ?_⟩
  · exact ⟨after.trans (before.symm.cons _), before'.trans (after'.symm.cons _), rfl⟩
  · obtain rfl : i = j := by
      rw [next] at refers
      cases loads : p.call.loads <;> simpa [Stage.slot?, loads] using refers
    obtain ⟨sl, here, key, -⟩ := supports.slot (i := i) (by rw [queued]; rfl)
    refine ⟨sl, here, key, fun granted loads => ?_⟩
    have loads : p.call.loads = true := loads
    simp [next, loads] at granted

theorem Sound.turned_refused (sound : s.Sound pins) (pending : s.pending? t = some p)
    (there : s.mount? p.cache = some m) {i : Nat} (queued : p.stage = .queued i)
    (moved : m.cache.Moved (.giveUp i) cache) (device : δ) (told events : List Event) (why : Failure) :
    ((s.carry p.cache m cache device events).setPending t
      { p with stage := .failed why, events := told }).Sound pins := by
  obtain ⟨live, bare, before, after, before', after'⟩ := sound.claims_setPending pending
    (Pending.claims_turn queued t) (Pending.claims_nothing (p := { p with stage := .failed why, events := told }) rfl t)
  have supports := sound.supports_moved (carry_movedAt there moved device events) (mem_of_lookup pending)
  refine sound.turned_moved pending there moved ?_ device events (.of_looking supports.mounted rfl)
  exact ⟨after.trans before.symm, before'.trans (after'.symm.cons _), rfl⟩

theorem Sound.turned_valid (sound : s.Sound pins) (pending : s.pending? t = some p)
    (there : s.mount? p.cache = some m) {i : Nat} (loading : p.stage = .loading i) {sl : Slot}
    (here : m.cache.table.slots[i]? = some sl) (valid : sl.valid = true) (device : δ) (told events : List Event) :
    ((s.carry p.cache m m.cache device events).setPending t
      { p with stage := .granted i, events := told }).Sound pins := by
  have supports : s.Supports p := sound.called _ (mem_of_lookup pending)
  have satisfied : s.Supports { p with stage := .granted i, events := told } := by
    refine ⟨supports.mounted, fun {j} refers => ?_⟩
    obtain rfl : i = j := by simpa [Stage.slot?] using refers
    obtain ⟨sl', here', key, -⟩ := supports.slot (i := i) (by simp [loading, Stage.slot?])
    obtain rfl : sl = sl' := Option.some.inj (here.symm.trans ((slot?_eq there i).symm.trans here'))
    exact ⟨sl, here', key, fun _ _ => valid⟩
  have old := Pending.claims_lock (.inl loading) t
  have new := Pending.claims_lock (p := { p with stage := .granted i, events := told }) (.inr rfl) t
  exact sound.turned_alike pending there satisfied (new.1.trans old.1.symm) (new.2.trans old.2.symm) device events

theorem Sound.turned_loaded (sound : s.Sound pins) (pending : s.pending? t = some p)
    (there : s.mount? p.cache = some m) {i : Nat} (loading : p.stage = .loading i) {bytes : Bytes}
    (moved : m.cache.Moved (.load i bytes) cache) (device : δ) (told events : List Event) :
    ((s.carry p.cache m cache device events).setPending t
      { p with stage := .granted i, events := told }).Sound pins := by
  obtain ⟨live, bare, before, after, before', after'⟩ := sound.claims_setPending pending
    (Pending.claims_lock (.inl loading) t)
    (Pending.claims_lock (p := { p with stage := .granted i, events := told }) (.inr rfl) t)
  have step := carry_movedAt there moved device events
  have supports := sound.supports_moved step (mem_of_lookup pending)
  refine sound.turned_moved pending there moved ⟨after.trans before.symm, after'.trans before'.symm, rfl⟩ device events
    ⟨supports.mounted, fun {j} refers => ?_⟩
  obtain rfl : i = j := by simpa [Stage.slot?] using refers
  obtain ⟨sl, here, key, -⟩ := supports.slot (i := i) (by simp [loading, Stage.slot?])
  obtain ⟨-, sl', -, here', -, -⟩ := step.ready
  obtain rfl : (sl'.withBytes bytes).validate = sl := Option.some.inj ((step.slot_same here').symm.trans here)
  exact ⟨_, here, key, fun _ _ => rfl⟩

theorem Sound.turned_unloaded (sound : s.Sound pins) (pending : s.pending? t = some p)
    (there : s.mount? p.cache = some m) {i : Nat} (loading : p.stage = .loading i) {bytes : Bytes} {spoilt : Cache}
    (spoils : m.cache.Moved (.edit i bytes) spoilt) (moved : spoilt.Moved (.finish i) cache) (device : δ)
    (told events : List Event) (why : Failure) :
    ((s.carry p.cache m cache device events).setPending t
      { p with stage := .failed why, events := told }).Sound pins := by
  have sound := sound.carry_moved there spoils ⟨.refl _, .refl _, rfl⟩ device []
  have there' : (s.carry p.cache m spoilt device []).mount? p.cache = some { m with cache := spoilt } :=
    carry_same there
  have pending' : (s.carry p.cache m spoilt device []).pending? t = some p := pending
  obtain ⟨live, bare, before, after, before', after'⟩ := sound.claims_setPending pending'
    (Pending.claims_lock (.inl loading) t)
    (Pending.claims_nothing (p := { p with stage := .failed why, events := told }) rfl t)
  have supports := sound.supports_moved (carry_movedAt there' moved device events) (mem_of_lookup pending')
  have ended := sound.turned_moved pending' there' moved
    ⟨⟨t, before.trans (after.symm.cons _)⟩, after'.trans before'.symm, rfl⟩ device events
    (.of_looking supports.mounted rfl)
  have whole : (s.carry p.cache m spoilt device []).carry p.cache { m with cache := spoilt } cache device events =
      s.carry p.cache m cache device events := carry_carry s p.cache m spoilt cache device device [] events
  rwa [whole] at ended

theorem Sound.turned [BlockDevice δ] (sound : s.Sound pins) (pending : s.pending? t = some p)
    (there : s.mount? p.cache = some m) {cancelled : Token → Bool} {turn : Turn δ Stage}
    (turned : p.call.Turned t cancelled m.cache d p.stage turn) (told : List Event) :
    ((s.carry p.cache m turn.cache turn.device turn.events).setPending t
      { p with stage := turn.result, events := told }).Sound pins := by
  generalize stage : p.stage = before at turned
  cases turned with
  | found finds moved => exact sound.turned_found pending there stage finds.suits moved d told _
  | stopped | starved | awake | asleep | unserved =>
      exact sound.turned_idle pending there (by simp [stage, Stage.slot?]) rfl d told _
  | granted moved => exact sound.turned_granted pending there stage moved d told _
  | busy | settled => exact sound.turned_still pending there stage d told _
  | refused refusal moved => exact sound.turned_refused pending there stage moved d told _ _
  | valid here valid => exact sound.turned_valid pending there stage here valid d told _
  | loaded here invalid success moved => exact sound.turned_loaded pending there stage moved _ told _
  | unloaded here invalid broken spoilt ended =>
      exact sound.turned_unloaded pending there stage spoilt ended _ told _ _

end BlockCache.Host
