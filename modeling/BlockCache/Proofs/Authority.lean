import BlockCache.Device.Disk
import BlockCache.Proofs.Host.Differences
import BlockCache.Proofs.Host.Walks

/-!
# Who may use a lease

An operation on a lease is for the cache and the thread that the lease is of: `lease_authority`. Anybody else's leaves
all caches as they were, except that a release ends the lease, as a drop does.
-/

namespace BlockCache

def LeaseOp.act (op : LeaseOp) (t : Thread) (c : Nat) (name : String) : Act :=
  match op with
  | write => .write t c name
  | release => .finish t name (.released (some c))
  | pin => .pin t c name
  | unpin => .unpin t c name

def Cache.written (i : Nat) (c : Cache) : Cache :=
  { c with
    table.slots := c.table.slots.modify i Slot.validate
    usage := { c.usage with writes := c.usage.writes + 1 } }

namespace Host

variable {δ : Type} [BlockDevice δ]

/-- What comes of the operations on a lease if thread `u` asks cache `c` for them. The lease is of the slot `sl` of
mount `m`, whose device is `d`. -/
structure Honors (s : Host δ) (name : String) (lease : Lease) (m : Mount) (d : δ) (sl : Slot) (c : Nat) (u : Thread) :
    Prop where
  foreign : c ≠ lease.cache → ∀ op : LeaseOp, ∃ stop,
    (s.perform (op.act u c name)).reply = .failed (.fault (.stop stop)) ∧
      stop.message = op.name ++ ": buffer belongs to another cache"
  notHeld : c = lease.cache → u ≠ lease.thread → ∀ op : LeaseOp, ∃ stop,
    (s.perform (op.act u c name)).reply = .failed (.fault (.stop stop)) ∧
      stop.message = op.name ++ ": buffer lock not held"
  passes : c = lease.cache → u = lease.thread → ∀ (op : LeaseOp) (stop : Stop),
    (s.perform (op.act u c name)).reply = .failed (.fault (.stop stop)) →
      op = .unpin ∧ stop = .notPinned sl.key ∧ sl.pins = 0
  denied : ¬ (c = lease.cache ∧ u = lease.thread) → ∀ op : LeaseOp, op ≠ .release →
    (s.perform (op.act u c name)).host.unlogged = s.unlogged
  unpinned : c = lease.cache → u = lease.thread → sl.pins = 0 →
    (s.unpin u c name).reply = .failed (.fault (.stop (.notPinned sl.key))) ∧
      (s.unpin u c name).host.unlogged = s.unlogged
  unwritten : c = lease.cache → u = lease.thread → ∀ failure,
    (BlockDevice.write d sl.key sl.data.value).failure = some failure →
      (s.write u c name).reply = .failed failure.toFailure ∧ (s.write u c name).host.unlogged =
        (s.setDevice m.device (BlockDevice.write d sl.key sl.data.value).device).unlogged
  written : c = lease.cache → u = lease.thread → (BlockDevice.write d sl.key sl.data.value).failure = none →
    (∃ view, (s.write u c name).reply = .lease view) ∧ (s.write u c name).host.unlogged =
      ((s.onCache c (Cache.written lease.slot)).setDevice m.device
        (BlockDevice.write d sl.key sl.data.value).device).unlogged
  released : (s.finish u name (.released (some c))).host.unlogged = (s.finish u name .dropped).host.unlogged
  dropped : (s.finish u name .dropped).host.unlogged =
    ((s.onCache lease.cache (stateAfter (Cache.endLease lease.slot))).forget name).unlogged
  /-- Whatever is asked of cache `c`, only the cache of the lease is changed. -/
  elsewhere : ∀ (op : LeaseOp) (c' : Nat), c' ≠ lease.cache → (s.perform (op.act u c name)).host.mount? c' = s.mount? c'

variable {s : Host δ} {pins : Nat → Nat → Nat} {name : String} {lease : Lease} {c : Nat} {u : Thread} {m : Mount}
  {d : δ} {sl : Slot} {op : LeaseOp} {stop : Stop}

omit [BlockDevice δ] in
theorem callOn_does (held : s.lease? name = some lease) (there : s.mount? lease.cache = some m)
    (device : s.devices[m.device]? = some d) (op : LeaseOp) {operation : Nat → Cache → δ → Turn δ (Option Failure)}
    (reply : Host δ → Lease → Reply) {turn : Turn δ (Option Failure)} (does : operation lease.slot m.cache d = turn)
    (change : Cache → Cache) (changed : turn.cache = change m.cache) :
    let done := s.callOn op name (some lease.cache) operation reply
    done.reply = (turn.result.map Reply.failed).getD (reply done.host lease) ∧
      done.host.unlogged = ((s.onCache lease.cache change).setDevice m.device turn.device).unlogged := by
  have done := onLease_carry held there device operation reply
  simp only [does] at done
  rw [callOn_own held there rfl, done]
  exact ⟨rfl, carry_unlogged there changed⟩

omit [BlockDevice δ] in
theorem callOn_stops (held : s.lease? name = some lease) (there : s.mount? lease.cache = some m)
    (device : s.devices[m.device]? = some d) (op : LeaseOp)
    (operation : Nat → Cache → δ → Turn δ (Option Failure)) (reply : Host δ → Lease → Reply)
    (stops : operation lease.slot m.cache d = ⟨m.cache, d, [.stopped stop], some (.fault (.stop stop))⟩) :
    let done := s.callOn op name (some lease.cache) operation reply
    done.reply = .failed (.fault (.stop stop)) ∧ done.host.unlogged = s.unlogged := by
  have same := callOn_does held there device op reply stops id rfl
  rwa [onCache_id there rfl, setDevice_self device] at same

omit [BlockDevice δ] in
theorem Sound.view_leased (sound : s.Sound pins) (held : s.lease? name = some lease) :
    ∃ v, s.view lease = .lease v := by
  obtain ⟨sl, here⟩ := Option.isSome_iff_exists.mp (sound.leased _ (mem_of_lookup held))
  exact ⟨_, view_eq here⟩

theorem op_foreign (held : s.lease? name = some lease) (mounted : (s.mount? c).isSome = true)
    (other : c ≠ lease.cache) (op : LeaseOp) (u : Thread) :
    (s.perform (op.act u c name)).reply = .failed (.fault (.stop (.foreignLease op))) ∧
      (op ≠ .release → (s.perform (op.act u c name)).host = s) := by
  have stops := callOn_foreign held (some c) mounted other op
  cases op with
  | release => simp [LeaseOp.act, perform, finish, finishBy, stops]
  | write | pin | unpin =>
      exact ⟨congrArg Performed.reply (stops _ view), fun _ => congrArg Performed.host (stops _ view)⟩

omit [BlockDevice δ] in
theorem release_own (held : s.lease? name = some lease) (there : s.mount? lease.cache = some m)
    (device : s.devices[m.device]? = some d) (table : m.cache.table.Sound)
    (here : m.cache.table.slots[lease.slot]? = some sl) (u : Thread) :
    s.finish u name (.released (some lease.cache)) =
      if sl.data.holder = some u then ⟨(s.drop name).host, .done, []⟩
      else ⟨((s.carry lease.cache m m.cache d [.stopped (.notHeld .release)]).drop name).host,
        .failed (.fault (.stop (.notHeld .release))), [.stopped (.notHeld .release)]⟩ := by
  have done := onLease_carry held there device (fun i => Turn.ofUpdate (Cache.authorize .release u i)) fun _ _ => .done
  rw [finish, finishBy, callOn_own held there rfl, done]
  by_cases mine : sl.data.holder = some u
  · have passed := (Cache.authorize_eq table here .release u).trans (if_pos mine)
    simp only [if_pos mine, Turn.ofUpdate_ok passed, Option.map_none, Option.getD_none, carry_self there device]
  · have stopped := (Cache.authorize_eq table here .release u).trans (if_neg mine)
    simp only [if_neg mine, Turn.ofUpdate_error stopped, Option.map_some, Option.getD_some]
    rfl

theorem Sound.op_notHeld (sound : s.Sound pins) (held : s.lease? name = some lease)
    (there : s.mount? lease.cache = some m) (device : s.devices[m.device]? = some d)
    (here : m.cache.table.slots[lease.slot]? = some sl) (away : sl.data.holder ≠ some u) (op : LeaseOp) :
    (s.perform (op.act u lease.cache name)).reply = .failed (.fault (.stop (.notHeld op))) ∧
      (op ≠ .release → (s.perform (op.act u lease.cache name)).host.unlogged = s.unlogged) := by
  have table := sound.tables there
  have stopped := (Cache.authorize_eq table here op u).trans (if_neg away)
  cases op with
  | release =>
      have done := (release_own held there device table here u).trans (if_neg away)
      exact ⟨congrArg Performed.reply done, fun other => absurd rfl other⟩
  | write =>
      have stops : Cache.flush u lease.slot m.cache d =
          ⟨m.cache, d, [.stopped (.notHeld .write)], some (.fault (.stop (.notHeld .write)))⟩ := by
        rw [Cache.flush, stopped]
        rfl
      obtain ⟨reply, same⟩ := callOn_stops held there device .write (fun i => Cache.flush u i) view stops
      exact ⟨reply, fun _ => same⟩
  | pin =>
      have stopped : Cache.pin u lease.slot m.cache = _ := Update.bind_error stopped _
      obtain ⟨reply, same⟩ := callOn_stops held there device .pin (fun i => Turn.ofUpdate (Cache.pin u i)) view
        (Turn.ofUpdate_error stopped d)
      exact ⟨reply, fun _ => same⟩
  | unpin =>
      have stopped : Cache.unpin u lease.slot m.cache = _ := Update.bind_error stopped _
      obtain ⟨reply, same⟩ := callOn_stops held there device .unpin (fun i => Turn.ofUpdate (Cache.unpin u i)) view
        (Turn.ofUpdate_error stopped d)
      exact ⟨reply, fun _ => same⟩

theorem Sound.write_does (sound : s.Sound pins) (held : s.lease? name = some lease)
    (there : s.mount? lease.cache = some m) (device : s.devices[m.device]? = some d)
    (here : m.cache.table.slots[lease.slot]? = some sl) (holder : sl.data.holder = some lease.thread) :
    let t := BlockDevice.write d sl.key sl.data.value
    let done := s.write lease.thread lease.cache name
    (∀ failure, t.failure = some failure → done.reply = .failed failure.toFailure ∧
        done.host.unlogged = (s.setDevice m.device t.device).unlogged) ∧
      (t.failure = none → (∃ v, done.reply = .lease v) ∧
        done.host.unlogged =
          ((s.onCache lease.cache (Cache.written lease.slot)).setDevice m.device t.device).unlogged) := by
  intro t done
  have does {turn : Turn δ (Option Failure)} (flushed : m.cache.flush lease.thread lease.slot d = turn)
      (change : Cache → Cache) (changed : turn.cache = change m.cache) :
      done.reply = (turn.result.map Reply.failed).getD (done.host.view lease) ∧
        done.host.unlogged = ((s.onCache lease.cache change).setDevice m.device turn.device).unlogged :=
    callOn_does held there device .write view flushed change changed
  have flushed := Cache.flush_flushed (sound.tables there) here lease.thread d
  generalize turned : m.cache.flush lease.thread lease.slot d = turn at flushed
  cases flushed with
  | unauthorized here' denied =>
      obtain rfl : sl = _ := Option.some.inj (here.symm.trans here')
      exact absurd holder (denied.stranger nofun)
  | failed here' _ broken =>
      obtain rfl : sl = _ := Option.some.inj (here.symm.trans here')
      refine ⟨fun failure failed => ?_, fun success => absurd (success.symm.trans broken) (by simp)⟩
      obtain rfl := Option.some.inj (failed.symm.trans broken)
      have same := does turned id rfl
      rwa [onCache_id there rfl] at same
  | @kept sl' cache here' _ success moved =>
      obtain rfl : sl = sl' := Option.some.inj (here.symm.trans here')
      refine ⟨fun failure failed => absurd (success.symm.trans failed) (by simp), fun _ => ?_⟩
      have kept : cache = Cache.written lease.slot m.cache := moved.eq_change (sound.tables there) rfl rfl
      obtain ⟨reply, same⟩ := does turned (Cache.written lease.slot) kept
      obtain ⟨pins', sound', -⟩ := sound.did (sound.write_did lease.thread lease.cache name)
      have leases : done.host.leases = s.leases := (congrArg Host.leases same :)
      have held' : done.host.lease? name = some lease := (congrArg (List.lookup name) leases).trans held
      obtain ⟨v, view⟩ := sound'.view_leased held'
      exact ⟨⟨v, reply.trans view⟩, same⟩

omit [BlockDevice δ] in
theorem update_stopped (held : s.lease? name = some lease) (there : s.mount? lease.cache = some m)
    (device : s.devices[m.device]? = some d) (op : LeaseOp) {update : Nat → Update Cache Unit}
    (stopped : (s.callOn op name (some lease.cache) (fun i => Turn.ofUpdate (update i)) view).reply =
      .failed (.fault (.stop stop))) :
    ∃ cache, update lease.slot m.cache = .error (.stop stop) cache := by
  have does {turn : Turn δ (Option Failure)} (comes : Turn.ofUpdate (update lease.slot) m.cache d = turn) :
      (turn.result.map Reply.failed).getD (view _ lease) = .failed (.fault (.stop stop)) :=
    (callOn_does held there device op view comes (fun _ => turn.cache) rfl).1.symm.trans stopped
  cases outcome : update lease.slot m.cache with
  | ok _ cache => exact absurd (does (Turn.ofUpdate_ok outcome d)) (view_ne_failed _ lease _)
  | error fault cache =>
      have reply := does (Turn.ofUpdate_error outcome d)
      obtain rfl : fault = .stop stop := by simpa using reply
      exact ⟨cache, rfl⟩

theorem Sound.passes (sound : s.Sound pins) (held : s.lease? name = some lease)
    (there : s.mount? lease.cache = some m) (device : s.devices[m.device]? = some d)
    (here : m.cache.table.slots[lease.slot]? = some sl) (holder : sl.data.holder = some lease.thread)
    (stopped : (s.perform (op.act lease.thread lease.cache name)).reply = .failed (.fault (.stop stop))) :
    op = .unpin ∧ stop = .notPinned sl.key ∧ sl.pins = 0 := by
  have table := sound.tables there
  cases op with
  | release =>
      have done := (release_own held there device table here lease.thread).trans (if_pos holder)
      cases (congrArg Performed.reply done).symm.trans stopped
  | write =>
      obtain ⟨failed, kept⟩ := sound.write_does held there device here holder
      cases outcome : (BlockDevice.write d sl.key sl.data.value).failure with
      | none =>
          obtain ⟨v, reply⟩ := (kept outcome).1
          cases reply.symm.trans stopped
      | some failure =>
          have reply := (failed failure outcome).1
          cases failure <;> cases reply.symm.trans stopped
  | pin =>
      obtain ⟨cache, failed⟩ := update_stopped held there device .pin stopped
      rcases Cache.pin_moved table here lease.thread with ⟨cache', -, pinned, -⟩ | ⟨stop', denied, refused⟩
      · cases pinned.symm.trans failed
      · exact absurd holder (denied.stranger nofun)
  | unpin =>
      obtain ⟨cache, failed⟩ := update_stopped held there device .unpin stopped
      have enough := sound.referenced_of_pinned ((slot?_eq there _).trans here)
      rcases Cache.unpin_moved table here enough lease.thread with
        ⟨cache', -, -, unpinned, -⟩ | ⟨stop', denied, refused⟩
      · cases unpinned.symm.trans failed
      · cases refused.symm.trans failed
        cases denied with
        | foreign _ other => cases other
        | notHeld _ _ away => exact absurd holder away
        | notPinned _ _ none => exact ⟨rfl, rfl, none⟩

omit [BlockDevice δ] in
theorem Sound.op_unpinned (sound : s.Sound pins) (held : s.lease? name = some lease)
    (there : s.mount? lease.cache = some m) (device : s.devices[m.device]? = some d)
    (here : m.cache.table.slots[lease.slot]? = some sl) (holder : sl.data.holder = some lease.thread)
    (none : sl.pins = 0) :
    (s.unpin lease.thread lease.cache name).reply = .failed (.fault (.stop (.notPinned sl.key))) ∧
      (s.unpin lease.thread lease.cache name).host.unlogged = s.unlogged := by
  have enough := sound.referenced_of_pinned ((slot?_eq there _).trans here)
  rcases Cache.unpin_moved (sound.tables there) here enough lease.thread with
    ⟨cache, -, some, -⟩ | ⟨stop, denied, stopped⟩
  · exact absurd none some
  · cases denied with
    | foreign _ other => cases other
    | notHeld _ _ away => exact absurd holder away
    | notPinned => exact callOn_stops held there device .unpin _ view (Turn.ofUpdate_error stopped d)

omit [BlockDevice δ] in
theorem Sound.release_drops (sound : s.Sound pins) (held : s.lease? name = some lease)
    (there : s.mount? lease.cache = some m) (device : s.devices[m.device]? = some d)
    (mounted : (s.mount? c).isSome = true) (here : m.cache.table.slots[lease.slot]? = some sl) (u : Thread) :
    ∃ told, (s.finish u name (.released (some c))).host = ((s.carry lease.cache m m.cache d told).drop name).host := by
  by_cases own : c = lease.cache
  · subst own
    rw [release_own held there device (sound.tables there) here u]
    split
    · exact ⟨[], by rw [carry_self there device]⟩
    · exact ⟨_, rfl⟩
  · refine ⟨[], ?_⟩
    rw [carry_self there device, finish, finishBy, callOn_foreign held (some c) mounted own]

theorem op_elsewhere (held : s.lease? name = some lease) (there : s.mount? lease.cache = some m)
    (device : s.devices[m.device]? = some d) (keeps : op ≠ .release) {c' : Nat} (other : c' ≠ lease.cache) :
    (s.perform (op.act u lease.cache name)).host.mount? c' = s.mount? c' := by
  have asked (op : LeaseOp) (operation : Nat → Cache → δ → Turn δ (Option Failure)) :
      (s.callOn op name (some lease.cache) operation view).host.mount? c' = s.mount? c' := by
    rw [callOn_own held there rfl, onLease_carry held there device operation view]
    exact carry_other other
  cases op with
  | release => exact absurd rfl keeps
  | write => exact asked .write fun i => Cache.flush u i
  | pin => exact asked .pin fun i => Turn.ofUpdate (Cache.pin u i)
  | unpin => exact asked .unpin fun i => Turn.ofUpdate (Cache.unpin u i)

omit [BlockDevice δ] in
/-- Whatever has been logged before it, a drop ends the lease on its own cache and changes nothing else. -/
theorem Sound.drop_ends (sound : s.Sound pins) (held : s.lease? name = some lease)
    (there : s.mount? lease.cache = some m) (device : s.devices[m.device]? = some d)
    (here : m.cache.table.slots[lease.slot]? = some sl) (holder : sl.data.holder = some lease.thread)
    (told : List Event) :
    let ended := ((s.carry lease.cache m m.cache d told).drop name).host
    ended.unlogged = ((s.onCache lease.cache (stateAfter (Cache.endLease lease.slot))).forget name).unlogged ∧
      ∀ c' ≠ lease.cache, ended.mount? c' = s.mount? c' := by
  intro ended
  have table := sound.tables there
  obtain ⟨cache, done, -⟩ := Cache.endLease_moved table here (Cache.locked_of_holder table here holder)
  have changed : cache = stateAfter (Cache.endLease lease.slot) m.cache := by rw [stateAfter, done]
  have gone : ended = (s.carry lease.cache m cache d told).forget name :=
    congrArg Performed.host (drop_carried held there device done told)
  rw [gone]
  refine ⟨congrArg (·.forget name) (carry_unlogged_same there device changed), fun c' other => ?_⟩
  show (s.carry lease.cache m cache d told).mount? c' = _
  exact carry_other other

theorem Sound.honors (sound : s.Sound pins) (held : s.lease? name = some lease)
    (there : s.mount? lease.cache = some m) (device : s.devices[m.device]? = some d)
    (mounted : (s.mount? c).isSome = true) (here : m.cache.table.slots[lease.slot]? = some sl)
    (holder : sl.data.holder = some lease.thread) (u : Thread) : s.Honors name lease m d sl c u := by
  have foreign (other : c ≠ lease.cache) (op : LeaseOp) := op_foreign held mounted other op u
  have notHeld (away : u ≠ lease.thread) (op : LeaseOp) := sound.op_notHeld held there device here
    (fun mine => away (Option.some.inj (mine.symm.trans holder))) op
  have ends := sound.drop_ends held there device here holder
  have dropped := (ends []).1
  rw [carry_self there device] at dropped
  obtain ⟨told, released⟩ := sound.release_drops held there device mounted here u
  exact
    { foreign := fun other op => ⟨_, (foreign other op).1, rfl⟩
      notHeld := by
        rintro rfl away op
        exact ⟨_, (notHeld away op).1, rfl⟩
      passes := by
        rintro rfl rfl op stop stopped
        exact sound.passes held there device here holder stopped
      denied := by
        intro away op keeps
        by_cases own : c = lease.cache
        · subst own
          exact (notHeld (fun same => away ⟨rfl, same⟩) op).2 keeps
        · exact congrArg unlogged ((foreign own op).2 keeps)
      unpinned := by
        rintro rfl rfl none
        exact sound.op_unpinned held there device here holder none
      unwritten := by
        rintro rfl rfl failure failed
        exact (sound.write_does held there device here holder).1 failure failed
      written := by
        rintro rfl rfl success
        exact (sound.write_does held there device here holder).2 success
      released := (congrArg unlogged released).trans ((ends told).1.trans dropped.symm)
      dropped := dropped
      elsewhere := by
        intro op c' other
        by_cases keeps : op = .release
        · subst keeps
          exact (congrArg (·.mount? c') released).trans ((ends told).2 c' other)
        · by_cases own : c = lease.cache
          · subst own
            exact op_elsewhere held there device keeps other
          · exact congrArg (·.mount? c') ((foreign own op).2 keeps) }

end Host
open Host

/-- A lease may be used by the thread that acquired it, through the cache that it is of. Otherwise the operation is
stopped and says why, before it has changed anything; only a release ends the lease even so, as a drop does. -/
theorem lease_authority {δ : Type} [BlockDevice δ] (devices : List δ) (plans : List (Nat × Plan)) (steps : List Step)
    {name : String} {lease : Lease} {c : Nat}
    (held : ((assemble devices plans).walk steps).lease? name = some lease)
    (mounted : (((assemble devices plans).walk steps).mount? c).isSome = true) (u : Thread) :
    ∃ m d sl, ((assemble devices plans).walk steps).mount? lease.cache = some m ∧
      ((assemble devices plans).walk steps).devices[m.device]? = some d ∧
      m.cache.table.slots[lease.slot]? = some sl ∧
      ((assemble devices plans).walk steps).Honors name lease m d sl c u := by
  obtain ⟨pins, sound⟩ := walk_sound devices plans steps
  obtain ⟨m, d, sl, there, device, -, here, holder⟩ := sound.held held
  exact ⟨m, d, sl, there, device, here, sound.honors held there device mounted here holder u⟩

theorem lease_authority_of_stranger :
    let read : List Act := [.start 0 "a" 0 ⟨⟨0, 3⟩, .block, true⟩, .turn 0, .turn 0, .turn 0, .answer 0]
    let disk := Disk.make (RamDisk.empty 4 none) none []
    let host := (assemble [disk] [(0, ⟨1, 1, 4, .stop⟩), (0, ⟨1, 1, 4, .stop⟩)]).walk (read.map .act)
    ∃ m d sl, host.mount? 0 = some m ∧ host.devices[m.device]? = some d ∧ m.cache.table.slots[0]? = some sl ∧
      host.Honors "a" ⟨0, 0, 0⟩ m d sl 1 1 := by
  intro read disk host
  have held : host.lease? "a" = some ⟨0, 0, 0⟩ := by decide +kernel
  have mounted : (host.mount? 1).isSome = true := by decide +kernel
  exact lease_authority _ _ _ held mounted 1

end BlockCache
