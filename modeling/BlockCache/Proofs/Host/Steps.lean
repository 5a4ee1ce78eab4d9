import BlockCache.Proofs.Host.Sound

/-!
# The effects of acts

`Host.Did` lists what an act can do to a sound host, and `perform_did` says that every act does one of these things.
-/

namespace BlockCache

def Reply.isRefused : Reply → Bool
  | refused _ => true
  | _ => false

theorem Reply.answered_of_failure {α : Type} (failure : Option α) (why : α → Failure) {reply : Reply}
    (answered : reply.isRefused = false) :
    ((failure.map fun a => Reply.failed (why a)).getD reply).isRefused = false := by
  cases failure with
  | none => exact answered
  | some a => rfl

namespace Host

variable {δ : Type}

/-- The host after an operation on cache `c`, whose mount is `m`. -/
def carry (s : Host δ) (c : Nat) (m : Mount) (cache : Cache) (device : δ) (events : List Event) : Host δ :=
  { s with
    mounts := s.mounts.setIfInBounds c (some { m with cache, history := events.reverse ++ m.history })
    devices := s.devices.setIfInBounds m.device device }

def Checks (events : List Event) : Prop := events = [] ∨ ∃ stop, events = [.stopped stop]

/-- The lease of a name has ended, after its cache has reported `events`. -/
def Ended (s : Host δ) (name : String) (events : List Event) (s' : Host δ) : Prop :=
  ∃ lease m d cache, s.lease? name = some lease ∧ s.mount? lease.cache = some m ∧ s.devices[m.device]? = some d ∧
    Checks events ∧ m.cache.Moved (.finish lease.slot) cache ∧
    s' = (s.carry lease.cache m cache d events).forget name

def Dropped (s : Host δ) (name : String) (s' : Host δ) : Prop :=
  s.lease? name = none ∧ s' = s ∨ s.Ended name [] s'

inductive Did [BlockDevice δ] (s : Host δ) : Act → Performed δ → Prop
  | refused (act : Act) (why : Refusal) : Did s act (s.refuse why)
  | looked {name : String} {lease : Lease} (held : s.lease? name = some lease) :
      Did s (.look name) ⟨s, s.view lease, []⟩
  | got {name : String} {offset : Nat} {length : Option Nat} (bytes : Bytes) :
      Did s (.get name offset length) ⟨s, .bytes bytes, []⟩
  | cancelled (token : Token) : Did s (.cancel token) (s.cancel token)
  | readPast {k : Nat} {d : δ} {key : Key} {length : Nat} {t : Transfer δ} (device : s.devices[k]? = some d)
      (transfer : BlockDevice.read d key (List.replicate length 0) = t) {reply : Reply}
      (answered : reply.isRefused = false) :
      Did s (.deviceRead k key length) ⟨{ s with devices := s.devices.setIfInBounds k t.device }, reply, t.events⟩
  | writtenPast {k : Nat} {d : δ} {key : Key} {bytes : Bytes} {t : Transfer δ} (device : s.devices[k]? = some d)
      (transfer : BlockDevice.write d key bytes = t) {reply : Reply} (answered : reply.isRefused = false) :
      Did s (.deviceWrite k key bytes) ⟨{ s with devices := s.devices.setIfInBounds k t.device }, reply, t.events⟩
  | started {t : Thread} {name : String} {c : Nat} {call : Call} (idle : s.pending? t = none)
      (mounted : (s.mount? c).isSome = true) (free : s.lease? name = none) :
      Did s (.start t name c call) ⟨{ s with calls := s.calls ++ [(t, ⟨name, c, call, .looking, []⟩)] }, .done, []⟩
  | turned {t : Thread} {p : Pending} {m : Mount} {d : δ} {turn : Turn δ Stage} (pending : s.pending? t = some p)
      (there : s.mount? p.cache = some m) (device : s.devices[m.device]? = some d)
      (turned : p.call.Turned t s.isCancelled m.cache d p.stage turn) :
      Did s (.turn t) ⟨(s.carry p.cache m turn.cache turn.device turn.events).setPending t
        { p with stage := turn.result, events := p.events ++ turn.events }, .done, turn.events⟩
  | answered {t : Thread} {p : Pending} {i : Nat} {s₁ : Host δ} (pending : s.pending? t = some p)
      (granted : p.stage = .granted i) (dropped : s.Dropped p.name s₁) :
      Did s (.answer t) ⟨{ s₁.removePending t with leases := s₁.leases ++ [(p.name, ⟨p.cache, i, t⟩)] },
        s₁.view ⟨p.cache, i, t⟩, p.events⟩
  | denied {t : Thread} {p : Pending} {why : Failure} (pending : s.pending? t = some p)
      (failed : p.stage = .failed why) : Did s (.answer t) ⟨s.removePending t, .failed why, p.events⟩
  | finished {t : Thread} {name : String} {ending : Ending} {told : List Event} {s' : Host δ}
      (ended : s.Ended name told s') (reply : Reply) (events : List Event) :
      Did s (.finish t name ending) ⟨s', reply, events⟩
  | foreign {act : Act} {t : Thread} {c : Nat} {name : String} {lease : Lease} (op : LeaseOp)
      (which : act = .write t c name ∨ act = .pin t c name ∨ act = .unpin t c name)
      (held : s.lease? name = some lease) (other : c ≠ lease.cache) :
      Did s act ⟨s, .failed (.fault (.stop (.foreignLease op))), [.stopped (.foreignLease op)]⟩
  | wrote {t : Thread} {name : String} {lease : Lease} {m : Mount} {d : δ} {s' : Host δ}
      {turn : Turn δ (Option Failure)} (held : s.lease? name = some lease) (there : s.mount? lease.cache = some m)
      (device : s.devices[m.device]? = some d) (flushed : m.cache.Flushed d t lease.slot turn)
      (carried : s' = s.carry lease.cache m turn.cache turn.device turn.events) :
      Did s (.write t lease.cache name) ⟨s', (turn.result.map Reply.failed).getD (s'.view lease), turn.events⟩
  | pinned {t : Thread} {name : String} {lease : Lease} {m : Mount} {d : δ} {cache : Cache} {s' : Host δ}
      (held : s.lease? name = some lease) (there : s.mount? lease.cache = some m)
      (device : s.devices[m.device]? = some d) (moved : m.cache.Moved (.pin lease.slot) cache)
      (carried : s' = s.carry lease.cache m cache d []) :
      Did s (.pin t lease.cache name) ⟨s', s'.view lease, []⟩
  | unpinned {t : Thread} {name : String} {lease : Lease} {m : Mount} {d : δ} {cache : Cache} {s' : Host δ}
      (held : s.lease? name = some lease) (there : s.mount? lease.cache = some m)
      (device : s.devices[m.device]? = some d) (moved : m.cache.Moved (.unpin lease.slot) cache)
      (carried : s' = s.carry lease.cache m cache d []) :
      Did s (.unpin t lease.cache name) ⟨s', s'.view lease, []⟩
  | stopped {act : Act} {t : Thread} {name : String} {lease : Lease} {m : Mount} {d : δ} {stop : Stop}
      (which : act = .pin t lease.cache name ∨ act = .unpin t lease.cache name) (held : s.lease? name = some lease)
      (there : s.mount? lease.cache = some m) (device : s.devices[m.device]? = some d) :
      Did s act ⟨s.carry lease.cache m m.cache d [.stopped stop], .failed (.fault (.stop stop)), [.stopped stop]⟩
  | edited {act : Act} {name : String} {lease : Lease} {m : Mount} {d : δ} {bytes : Bytes} {cache : Cache}
      (which : (∃ offset part, act = .put name offset part) ∨ ∃ byte, act = .fill name byte)
      (held : s.lease? name = some lease) (there : s.mount? lease.cache = some m)
      (device : s.devices[m.device]? = some d) (moved : m.cache.Moved (.edit lease.slot bytes) cache) :
      Did s act ⟨s.carry lease.cache m cache d [], .done, []⟩

section
variable {s s' : Host δ} {c c' : Nat} {m : Mount} {d device : δ} {cache : Cache} {events : List Event} {move : Move}
  {pins : Nat → Nat → Nat} {name : String} {lease : Lease}

theorem mount?_eq_some : s.mount? c = some m ↔ s.mounts[c]? = some (some m) := by
  simp [mount?, Option.join_eq_some_iff]

theorem carry_same (there : s.mount? c = some m) :
    (s.carry c m cache device events).mount? c =
      some { m with cache, history := events.reverse ++ m.history } := by
  have inside := (Array.getElem?_eq_some_iff.mp (mount?_eq_some.mp there)).1
  rw [mount?_eq_some, carry, Array.getElem?_setIfInBounds_self_of_lt inside]

theorem carry_other (other : c' ≠ c) : (s.carry c m cache device events).mount? c' = s.mount? c' := by
  simp [mount?, carry, Array.getElem?_setIfInBounds_ne (Ne.symm other)]

theorem carry_carry (s : Host δ) (c : Nat) (m : Mount) (cache cache' : Cache) (device device' : δ)
    (events more : List Event) :
    (s.carry c m cache device events).carry c { m with cache, history := events.reverse ++ m.history } cache' device'
      more = s.carry c m cache' device' (events ++ more) := by
  simp [carry, Array.setIfInBounds_setIfInBounds]

theorem carry_device (device : s.devices[m.device]? = some d) (cache : Cache) (d' : δ) (events : List Event) :
    (s.carry c m cache d' events).devices[m.device]? = some d' :=
  Array.getElem?_setIfInBounds_self_of_lt (Array.getElem?_eq_some_iff.mp device).1

theorem setIfInBounds_self {α : Type} {xs : Array α} {i : Nat} {x : α} (here : xs[i]? = some x) :
    xs.setIfInBounds i x = xs := by
  obtain ⟨inside, rfl⟩ := Array.getElem?_eq_some_iff.mp here
  rw [Array.setIfInBounds_def, dif_pos inside, Array.set_getElem_self]

theorem carry_self (there : s.mount? c = some m) (device : s.devices[m.device]? = some d) :
    s.carry c m m.cache d [] = s := by
  simp [carry, setIfInBounds_self (mount?_eq_some.mp there), setIfInBounds_self device]

theorem carry_movedAt (there : s.mount? c = some m) (moved : m.cache.Moved move cache) (device : δ)
    (events : List Event) : s.MovedAt c move (s.carry c m cache device events) where
  mount := ⟨m, _, there, carry_same there, rfl, moved⟩
  others _ other := carry_other other
  devices := by simp [carry]

theorem carry_alike (there : s.mount? c = some m) (device : δ) (events : List Event) :
    s.Alike (s.carry c m m.cache device events) where
  caches c' := by
    by_cases same : c' = c
    · subst same
      simp [carry_same there, there]
    · rw [carry_other same]
  devices := by simp [carry]

theorem operate_eq {α : Type} (there : s.mount? c = some m) (here : s.devices[m.device]? = some d)
    (operation : Cache → δ → Turn δ α) :
    s.operate c operation =
      let turn := operation m.cache d
      some (s.carry c m turn.cache turn.device turn.events, turn.events, turn.result) := by
  simp [operate, there, here, carry]

theorem Sound.held (sound : s.Sound pins) (held : s.lease? name = some lease) :
    ∃ m d sl, s.mount? lease.cache = some m ∧ s.devices[m.device]? = some d ∧ m.cache.table.Sound ∧
      m.cache.table.slots[lease.slot]? = some sl ∧ sl.data.holder = some lease.thread := by
  have member := mem_of_lookup held
  obtain ⟨sl, here⟩ := Option.isSome_iff_exists.mp (sound.leased _ member)
  obtain ⟨m, there, inTable⟩ := Option.bind_eq_some_iff.mp here
  have live : lease ∈ s.live := List.mem_append_left _ (List.mem_map_of_mem member)
  exact ⟨m, _, sl, there, Array.getElem?_eq_getElem (sound.devices there), sound.tables there, inTable,
    sound.holder_of_live live here⟩

theorem onLease_carry (held : s.lease? name = some lease) (there : s.mount? lease.cache = some m)
    (device : s.devices[m.device]? = some d) (operation : Nat → Cache → δ → Turn δ (Option Failure))
    (reply : Host δ → Lease → Reply) :
    s.onLease name operation reply =
      let turn := operation lease.slot m.cache d
      let s' := s.carry lease.cache m turn.cache turn.device turn.events
      ⟨s', (turn.result.map Reply.failed).getD (reply s' lease), turn.events⟩ := by
  simp [onLease, onSlot, held, operate_eq there device]

theorem callOn_own (held : s.lease? name = some lease) (there : s.mount? lease.cache = some m) {called : Option Nat}
    (own : called.getD lease.cache = lease.cache) (op : LeaseOp)
    (operation : Nat → Cache → δ → Turn δ (Option Failure)) (reply : Host δ → Lease → Reply) :
    s.callOn op name called operation reply = s.onLease name operation reply := by
  simp [callOn, onLease, held, own, there]

theorem callOn_foreign (held : s.lease? name = some lease) (called : Option Nat)
    (mounted : (s.mount? (called.getD lease.cache)).isSome = true) (other : called.getD lease.cache ≠ lease.cache)
    (op : LeaseOp) (operation : Nat → Cache → δ → Turn δ (Option Failure)) (reply : Host δ → Lease → Reply) :
    s.callOn op name called operation reply =
      ⟨s, .failed (.fault (.stop (.foreignLease op))), [.stopped (.foreignLease op)]⟩ := by
  simp [callOn, held, other, Option.isNone_eq_false_iff.mpr mounted]

theorem Sound.onLease_cases (sound : s.Sound pins) (name : String)
    (operation : Nat → Cache → δ → Turn δ (Option Failure)) (reply : Host δ → Lease → Reply) :
    s.lease? name = none ∧ s.onLease name operation reply = s.refuse .noLease ∨
      ∃ lease m d sl, s.lease? name = some lease ∧ s.mount? lease.cache = some m ∧ s.devices[m.device]? = some d ∧
        m.cache.table.Sound ∧ m.cache.table.slots[lease.slot]? = some sl ∧ sl.data.holder = some lease.thread ∧
        s.onLease name operation reply =
          let turn := operation lease.slot m.cache d
          let s' := s.carry lease.cache m turn.cache turn.device turn.events
          ⟨s', (turn.result.map Reply.failed).getD (reply s' lease), turn.events⟩ := by
  cases held : s.lease? name with
  | none => exact .inl ⟨rfl, by simp [onLease, held]⟩
  | some lease =>
      obtain ⟨m, d, sl, there, device, table, here, holder⟩ := sound.held held
      exact .inr ⟨lease, m, d, sl, rfl, there, device, table, here, holder,
        onLease_carry held there device operation reply⟩

theorem Sound.callOn_cases (sound : s.Sound pins) (op : LeaseOp) (name : String) (called : Option Nat)
    (operation : Nat → Cache → δ → Turn δ (Option Failure)) (reply : Host δ → Lease → Reply) :
    (∃ why, s.callOn op name called operation reply = s.refuse why) ∨
      (∃ lease, s.lease? name = some lease ∧ called.getD lease.cache ≠ lease.cache ∧
        s.callOn op name called operation reply =
          ⟨s, .failed (.fault (.stop (.foreignLease op))), [.stopped (.foreignLease op)]⟩) ∨
      ∃ lease m d sl, s.lease? name = some lease ∧ called.getD lease.cache = lease.cache ∧
        s.mount? lease.cache = some m ∧ s.devices[m.device]? = some d ∧
        m.cache.table.Sound ∧ m.cache.table.slots[lease.slot]? = some sl ∧ sl.data.holder = some lease.thread ∧
        s.callOn op name called operation reply =
          let turn := operation lease.slot m.cache d
          let s' := s.carry lease.cache m turn.cache turn.device turn.events
          ⟨s', (turn.result.map Reply.failed).getD (reply s' lease), turn.events⟩ := by
  cases held : s.lease? name with
  | none => exact .inl ⟨.noLease, by simp [callOn, held]⟩
  | some lease =>
      cases mounted : s.mount? (called.getD lease.cache) with
      | none => exact .inl ⟨.noCache, by simp [callOn, held, mounted]⟩
      | some m' =>
          by_cases own : called.getD lease.cache = lease.cache
          · obtain ⟨m, d, sl, there, device, table, here, holder⟩ := sound.held held
            exact .inr (.inr ⟨lease, m, d, sl, rfl, own, there, device, table, here, holder,
              (callOn_own held there own op operation reply).trans (onLease_carry held there device operation reply)⟩)
          · exact .inr (.inl ⟨lease, rfl, own, callOn_foreign held called (by rw [mounted]; rfl) own op operation reply⟩)

/-! ## Ending leases -/

theorem drop_does (held : s.lease? name = some lease) (there : s.mount? lease.cache = some m)
    (here : s.devices[m.device]? = some d) (ended : Cache.endLease lease.slot m.cache = .ok () cache) :
    s.drop name = ⟨(s.carry lease.cache m cache d []).forget name, .done, []⟩ := by
  simp [drop, onLease_carry held there here, Turn.ofUpdate_ok ended]

theorem drop_free (free : s.lease? name = none) : s.drop name = s.refuse .noLease := by
  simp [drop, onLease, free, refuse]

theorem Sound.drop_cases (sound : s.Sound pins) (name : String) :
    (s.lease? name = none ∧ s.drop name = s.refuse .noLease) ∨
      ∃ s', s.Ended name [] s' ∧ s.drop name = ⟨s', .done, []⟩ := by
  cases held : s.lease? name with
  | none => exact .inl ⟨rfl, drop_free held⟩
  | some lease =>
      obtain ⟨m, d, sl, there, device, table, here, holder⟩ := sound.held held
      obtain ⟨cache, ended, moved⟩ := Cache.endLease_moved table here (Cache.locked_of_holder table here holder)
      exact .inr ⟨_, ⟨lease, m, d, cache, held, there, device, .inl rfl, moved, rfl⟩, drop_does held there device ended⟩

theorem Sound.drop_removePending (sound : s.Sound pins) (t : Thread) (name : String) :
    (s.removePending t).drop name = ⟨(s.drop name).host.removePending t, (s.drop name).reply, (s.drop name).events⟩ := by
  cases held : s.lease? name with
  | none =>
      have free : (s.removePending t).lease? name = none := held
      rw [drop_free held, drop_free free]
      rfl
  | some lease =>
      obtain ⟨m, d, sl, there, device, table, here, holder⟩ := sound.held held
      obtain ⟨cache, ended, -⟩ := Cache.endLease_moved table here (Cache.locked_of_holder table here holder)
      have held' : (s.removePending t).lease? name = some lease := held
      have there' : (s.removePending t).mount? lease.cache = some m := there
      have device' : (s.removePending t).devices[m.device]? = some d := device
      rw [drop_does held there device ended, drop_does held' there' device' ended]
      rfl

theorem Sound.drop_pending (sound : s.Sound pins) (t : Thread) (name : String) :
    ∃ s' reply, s.Dropped name s' ∧ (∀ why, reply ≠ .failed why) ∧
      (s.removePending t).drop name = ⟨s'.removePending t, reply, []⟩ := by
  rw [sound.drop_removePending]
  rcases sound.drop_cases name with ⟨free, refused⟩ | ⟨s', ended, done⟩
  · exact ⟨s, .refused .noLease, .inl ⟨free, rfl⟩, fun _ => Reply.noConfusion, by rw [refused]; rfl⟩
  · exact ⟨s', .done, .inr ended, fun _ => Reply.noConfusion, by rw [done]⟩

theorem drop_carried (held : s.lease? name = some lease) (there : s.mount? lease.cache = some m)
    (here : s.devices[m.device]? = some d) (ended : Cache.endLease lease.slot m.cache = .ok () cache)
    (told : List Event) :
    (s.carry lease.cache m m.cache d told).drop name = ⟨(s.carry lease.cache m cache d told).forget name, .done, []⟩ := by
  have held' : (s.carry lease.cache m m.cache d told).lease? name = some lease := held
  have dropped := drop_does held' (carry_same there) (carry_device here m.cache d told) ended
  rwa [carry_carry, List.append_nil] at dropped

theorem Sound.releaseBy_held (sound : s.Sound pins) (held : s.lease? name = some lease) {called : Option Nat}
    (mounted : (s.mount? (called.getD lease.cache)).isSome = true) (t : Thread) :
    ∃ m d sl, s.mount? lease.cache = some m ∧ s.devices[m.device]? = some d ∧
      m.cache.table.slots[lease.slot]? = some sl ∧ sl.data.holder = some lease.thread ∧
      ((∀ ends, s.finishBy ends t name (.released called) = ⟨(ends s).host, .done, []⟩) ∨
        ∃ stop told, Cache.Denied sl (called.getD lease.cache = lease.cache) t .release stop ∧ Checks told ∧
          ∀ ends, s.finishBy ends t name (.released called) =
            ⟨(ends (s.carry lease.cache m m.cache d told)).host, .failed (.fault (.stop stop)), [.stopped stop]⟩) := by
  obtain ⟨m, d, sl, there, device, table, here, holder⟩ := sound.held held
  refine ⟨m, d, sl, there, device, here, holder, ?_⟩
  by_cases own : called.getD lease.cache = lease.cache
  · simp only [finishBy, callOn_own held there own, onLease_carry held there device]
    rcases Cache.authorize_cases table here .release t with ⟨-, authorized⟩ | ⟨denied, refused⟩
    · refine .inl fun ends => ?_
      simp only [Turn.ofUpdate_ok authorized, Option.map_none, Option.getD_none, carry_self there device]
    · refine .inr ⟨.notHeld .release, [.stopped (.notHeld .release)], ?_, .inr ⟨_, rfl⟩, fun ends => ?_⟩
      · rwa [decide_eq_true own]
      · simp only [Turn.ofUpdate_error refused, Option.map_some, Option.getD_some]
        rfl
  · refine .inr ⟨.foreignLease .release, [], .foreign _ (decide_eq_false own), .inl rfl, fun ends => ?_⟩
    simp only [finishBy, callOn_foreign held called mounted own, carry_self there device]

theorem releaseBy_cases (s : Host δ) (t : Thread) (name : String) (called : Option Nat) :
    (∃ why, ∀ ends, s.finishBy ends t name (.released called) = s.refuse why) ∨
      ∃ lease, s.lease? name = some lease ∧ (s.mount? (called.getD lease.cache)).isSome = true := by
  cases held : s.lease? name with
  | none => exact .inl ⟨.noLease, fun ends => by simp [finishBy, callOn, held, refuse]⟩
  | some lease =>
      cases mounted : s.mount? (called.getD lease.cache) with
      | none => exact .inl ⟨.noCache, fun ends => by simp [finishBy, callOn, held, mounted, refuse]⟩
      | some => exact .inr ⟨lease, rfl, by rw [mounted]; rfl⟩

theorem Sound.release_ended (sound : s.Sound pins) (held : s.lease? name = some lease) {called : Option Nat}
    (mounted : (s.mount? (called.getD lease.cache)).isSome = true) (t : Thread) :
    ∃ told s' reply events, s.Ended name told s' ∧ s.finish t name (.released called) = ⟨s', reply, events⟩ := by
  obtain ⟨m, d, sl, there, device, here, holder, done⟩ := sound.releaseBy_held held mounted t
  have table := sound.tables there
  obtain ⟨cache, ended, moved⟩ := Cache.endLease_moved table here (Cache.locked_of_holder table here holder)
  rcases done with done | ⟨stop, told, -, checks, done⟩
  · have done := done (·.drop name)
    rw [drop_does held there device ended] at done
    exact ⟨[], _, _, _, ⟨lease, m, d, cache, held, there, device, .inl rfl, moved, rfl⟩, done⟩
  · have done := done (·.drop name)
    rw [drop_carried held there device ended] at done
    exact ⟨told, _, _, _, ⟨lease, m, d, cache, held, there, device, checks, moved, rfl⟩, done⟩

theorem Sound.finish_did [BlockDevice δ] (sound : s.Sound pins) (t : Thread) (name : String) (ending : Ending) :
    s.Did (.finish t name ending) (s.finish t name ending) := by
  cases ending with
  | dropped =>
      rw [finish, finishBy]
      rcases sound.drop_cases name with ⟨-, refused⟩ | ⟨s', ended, done⟩
      · rw [refused]
        exact .refused _ _
      · rw [done]
        exact .finished ended .done []
  | released called =>
      rcases releaseBy_cases s t name called with ⟨why, refused⟩ | ⟨lease, held, mounted⟩
      · rw [finish, refused]
        exact .refused _ why
      · obtain ⟨told, s', reply, events, ended, done⟩ := sound.release_ended held mounted t
        rw [done]
        exact .finished ended reply events

/-! ## Calls -/

theorem Sound.based {t : Thread} {p : Pending} (sound : s.Sound pins) (called : (t, p) ∈ s.calls)
    (there : s.mount? p.cache = some m) : p.stage.Based m.cache := by
  have slot {i : Nat} (refers : p.stage.slot? = some i) : ∃ sl, s.slot? p.cache i = some sl ∧
      m.cache.table.slots[i]? = some sl := by
    obtain ⟨sl, here, -⟩ := (sound.called (t, p) called).slot refers
    exact ⟨sl, here, (slot?_eq there i).symm.trans here⟩
  have held {i : Nat} (claim : p.lease? t = some ⟨p.cache, i, t⟩) (refers : p.stage.slot? = some i) :
      ∃ sl, m.cache.table.slots[i]? = some sl ∧ sl.data.isLocked = true := by
    obtain ⟨sl, here, inTable⟩ := slot refers
    have holder := sound.holder_of_live (lease?_mem_live called claim) here
    exact ⟨sl, inTable, Cache.locked_of_holder (sound.tables there) inTable holder⟩
  cases stage : p.stage with
  | queued i =>
      obtain ⟨sl, here, inTable⟩ := slot (i := i) (by rw [stage]; rfl)
      have bare := awaited?_mem_bare (c := p.cache) (i := i) called (Pending.claims_turn stage t).2
      exact ⟨sl, inTable, sound.referenced_of_bare bare here⟩
  | loading i => exact held (Pending.claims_lock (.inl stage) t).1 (by rw [stage]; rfl)
  | granted i => exact held (Pending.claims_lock (.inr stage) t).1 (by rw [stage]; rfl)
  | _ => trivial

theorem Sound.pins_ne_zero {i : Nat} {sl : Slot} (sound : s.Sound pins) (here : s.slot? c i = some sl)
    (pinned : sl.pins ≠ 0) : pins c i ≠ 0 := by
  intro none
  rw [(sound.accounted here).pins] at pinned
  exact pinned (by simp [ledger, none])

theorem Sound.referenced_of_pinned {i : Nat} {sl : Slot} (sound : s.Sound pins) (here : s.slot? c i = some sl)
    (locked : sl.data.isLocked = true) (pinned : sl.pins ≠ 0) : 2 ≤ sl.refcount := by
  obtain ⟨t, holder⟩ := Option.isSome_iff_exists.mp ((sound.agrees here).isLocked_eq ▸ locked)
  have count := sound.referenced_of_holder here holder
  have some := sound.pins_ne_zero here pinned
  omega

variable [BlockDevice δ]

theorem start_did (s : Host δ) (t : Thread) (name : String) (c : Nat) (call : Call) :
    s.Did (.start t name c call) (s.start t name c call) := by
  rw [start]
  cases pending : s.pending? t with
  | some p => exact .refused _ _
  | none =>
      cases mounted : s.mount? c with
      | none => exact .refused _ _
      | some m =>
          cases held : s.lease? name with
          | some lease => simpa [nameInUse, held] using Did.refused _ _
          | none => simpa [nameInUse, held] using Did.started pending (by rw [mounted]; rfl) held

theorem Sound.turn_did (sound : s.Sound pins) (t : Thread) : s.Did (.turn t) (s.turn t) := by
  rw [turn]
  cases pending : s.pending? t with
  | none => exact .refused _ _
  | some p =>
      have called := mem_of_lookup pending
      obtain ⟨m, there⟩ := Option.isSome_iff_exists.mp (sound.called _ called).mounted
      have device := Array.getElem?_eq_getElem (sound.devices there)
      simp only [operate_eq there device]
      exact .turned pending there device (Call.turn_turned (sound.tables there) p.call (sound.based called there))

theorem Sound.answer_did (sound : s.Sound pins) (t : Thread) : s.Did (.answer t) (s.answer t) := by
  rw [answer]
  cases pending : s.pending? t with
  | none => exact .refused _ _
  | some p =>
      cases stage : p.stage with
      | granted i =>
          obtain ⟨s', reply, dropped, -, done⟩ := sound.drop_pending t p.name
          simp only [stage, done]
          exact .answered pending stage dropped
      | failed why =>
          simp only [stage]
          exact .denied pending stage
      | _ =>
          simp only [stage]
          exact .refused _ _

/-! ## Leases -/

theorem Sound.write_did (sound : s.Sound pins) (t : Thread) (c : Nat) (name : String) :
    s.Did (.write t c name) (s.write t c name) := by
  rw [write]
  rcases sound.callOn_cases .write name (some c) (fun i => Cache.flush t i) view with
    ⟨why, refused⟩ | ⟨lease, held, other, done⟩ | ⟨lease, m, d, sl, held, own, there, device, table, here, -, done⟩
  · rw [refused]
    exact .refused _ why
  · rw [done]
    exact .foreign .write (.inl rfl) held other
  · obtain rfl : c = lease.cache := own
    rw [done]
    exact .wrote held there device (Cache.flush_flushed table here t d) rfl

theorem Sound.pin_did (sound : s.Sound pins) (t : Thread) (c : Nat) (name : String) :
    s.Did (.pin t c name) (s.pin t c name) := by
  rw [pin]
  rcases sound.callOn_cases .pin name (some c) (fun i => Turn.ofUpdate (Cache.pin t i)) view with
    ⟨why, refused⟩ | ⟨lease, held, other, done⟩ | ⟨lease, m, d, sl, held, own, there, device, table, here, -, done⟩
  · rw [refused]
    exact .refused _ why
  · rw [done]
    exact .foreign .pin (.inr (.inl rfl)) held other
  · obtain rfl : c = lease.cache := own
    rw [done]
    rcases Cache.pin_moved table here t with ⟨cache, -, pinned, moved⟩ | ⟨stop, -, stopped⟩
    · simp only [Turn.ofUpdate_ok pinned]
      exact .pinned held there device moved rfl
    · simp only [Turn.ofUpdate_error stopped]
      exact .stopped (.inl rfl) held there device

theorem Sound.unpin_did (sound : s.Sound pins) (t : Thread) (c : Nat) (name : String) :
    s.Did (.unpin t c name) (s.unpin t c name) := by
  rw [unpin]
  rcases sound.callOn_cases .unpin name (some c) (fun i => Turn.ofUpdate (Cache.unpin t i)) view with
    ⟨why, refused⟩ | ⟨lease, held, other, done⟩ | ⟨lease, m, d, sl, held, own, there, device, table, here, -, done⟩
  · rw [refused]
    exact .refused _ why
  · rw [done]
    exact .foreign .unpin (.inr (.inr rfl)) held other
  · obtain rfl : c = lease.cache := own
    have enough := sound.referenced_of_pinned ((slot?_eq there _).trans here)
    rw [done]
    rcases Cache.unpin_moved table here enough t with ⟨cache, -, -, unpinned, moved⟩ | ⟨stop, -, stopped⟩
    · simp only [Turn.ofUpdate_ok unpinned]
      exact .unpinned held there device moved rfl
    · simp only [Turn.ofUpdate_error stopped]
      exact .stopped (.inr rfl) held there device

theorem Sound.edit_did (sound : s.Sound pins) {act : Act} {name : String}
    (which : (∃ offset part, act = .put name offset part) ∨ ∃ byte, act = .fill name byte) (change : Bytes → Bytes) :
    s.Did act (s.edit name change) := by
  rw [edit]
  rcases sound.onLease_cases name
    (fun i c => Turn.ofUpdate (Cache.onTable (Table.setBytes i (change (c.bytes i)))) c) fun _ _ => .done with
    ⟨-, refused⟩ | ⟨lease, m, d, sl, held, there, device, table, here, holder, done⟩
  · rw [refused]
    exact .refused _ _
  · obtain ⟨cache, changed, moved⟩ := Cache.setBytes_moved table here (Cache.locked_of_holder table here holder)
      (change (m.cache.bytes lease.slot))
    rw [done]
    simp only [Turn.ofUpdate_ok changed]
    exact .edited which held there device moved

theorem Sound.put_did (sound : s.Sound pins) (name : String) (offset : Nat) (part : Bytes) :
    s.Did (.put name offset part) (s.put name offset part) := by
  rw [put]
  cases held : s.lease? name with
  | none => exact .refused _ _
  | some lease =>
      dsimp only
      split
      · exact .refused _ _
      · exact sound.edit_did (.inl ⟨offset, part, rfl⟩) _

theorem Sound.fill_did (sound : s.Sound pins) (name : String) (byte : UInt8) :
    s.Did (.fill name byte) (s.fill name byte) := by
  rw [fill]
  exact sound.edit_did (.inr ⟨byte, rfl⟩) _

/-! ## Acts -/

theorem look_did (s : Host δ) (name : String) : s.Did (.look name) (s.look name) := by
  rw [look]
  cases held : s.lease? name with
  | none => exact .refused _ _
  | some lease => exact .looked held

theorem get_did (s : Host δ) (name : String) (offset : Nat) (length : Option Nat) :
    s.Did (.get name offset length) (s.get name offset length) := by
  rw [get]
  cases held : s.lease? name with
  | none => exact .refused _ _
  | some lease =>
      dsimp only
      split
      · exact .refused _ _
      · exact .got _

theorem deviceRead_did (s : Host δ) (k : Nat) (key : Key) (length : Nat) :
    s.Did (.deviceRead k key length) (s.perform (.deviceRead k key length)) := by
  rw [perform, onDevice]
  cases device : s.devices[k]? with
  | none => exact .refused _ _
  | some d => exact .readPast device rfl (Reply.answered_of_failure _ _ rfl)

theorem deviceWrite_did (s : Host δ) (k : Nat) (key : Key) (part : Bytes) :
    s.Did (.deviceWrite k key part) (s.perform (.deviceWrite k key part)) := by
  rw [perform, onDevice]
  cases device : s.devices[k]? with
  | none => exact .refused _ _
  | some d => exact .writtenPast device rfl (Reply.answered_of_failure _ _ rfl)

theorem Sound.perform_did (sound : s.Sound pins) (act : Act) : s.Did act (s.perform act) := by
  cases act with
  | start t name c call => exact start_did s t name c call
  | turn t => exact sound.turn_did t
  | answer t => exact sound.answer_did t
  | finish t name ending => exact sound.finish_did t name ending
  | write t c name => exact sound.write_did t c name
  | pin t c name => exact sound.pin_did t c name
  | unpin t c name => exact sound.unpin_did t c name
  | look name => exact look_did s name
  | get name offset length => exact get_did s name offset length
  | put name offset part => exact sound.put_did name offset part
  | fill name byte => exact sound.fill_did name byte
  | cancel token => exact .cancelled token
  | deviceRead k key length => exact deviceRead_did s k key length
  | deviceWrite k key part => exact deviceWrite_did s k key part

end
end Host
end BlockCache
