import BlockCache.Device.Disk
import BlockCache.Proofs.Cache.Spoilt
import BlockCache.Proofs.Counters
import BlockCache.Proofs.Host.Alone

/-!
# Reads that fail

A read that fails comes to the same as a lease that is taken and dropped, apart from the bytes of the slot: the slot
retains its block but not the content, so that the next reading of the block goes to the device again:
`failed_reads_dropped`.
-/

namespace BlockCache

namespace Cache

/-- Slot `i` has had the block since before the deeds, and has its content only if one of them has transferred it. -/
def Retains (c : Cache) (i : Nat) (key : Key) (deeds : List Deed) : Prop :=
  ∃ s, c.table.slots[i]? = some s ∧ s.key = key ∧ s.assigned = true ∧
    (s.valid = true → .loaded key i ∈ deeds ∨ .stored key i ∈ deeds)

variable {c c' : Cache} {i : Nat} {key : Key} {deeds : List Deed} {deed : Option Deed}

theorem Retains.mono {more : List Deed} (retains : c.Retains i key deeds) (within : deeds ⊆ more) :
    c.Retains i key more := by
  obtain ⟨s, here, same, assigned, valid⟩ := retains
  exact ⟨s, here, same, assigned, fun read => (valid read).imp (within ·) (within ·)⟩

theorem Retains.has (retains : c.Retains i key deeds) : c.table.layout.Has i key := by
  obtain ⟨s, here, same, assigned, -⟩ := retains
  exact ⟨s, here, assigned, same⟩

theorem Moved.retains {move : Move} (moved : c.Moved move c') (idle : i = move.slot → move.isIdle = true)
    (retains : c.Retains i key deeds) : c'.Retains i key deeds := by
  obtain ⟨s, here, same, assigned, valid⟩ := retains
  by_cases mine : i = move.slot
  · have still := idle mine
    subst mine
    refine ⟨_, moved.same here, ?_⟩
    cases move with
    | hit | assign | load | keep => cases still
    | _ => exact ⟨same, assigned, valid⟩
  · exact ⟨s, (moved.other mine).trans here, same, assigned, valid⟩

theorem Moves.retains {moves : List Move} (moved : c.Moves moves c') (idle : ∀ move ∈ moves, move.isIdle = true)
    (retains : c.Retains i key deeds) : c'.Retains i key deeds := by
  induction moved with
  | nil => exact retains
  | cons moved rest ih =>
      exact ih (fun move member => idle move (.tail _ member)) (moved.retains (fun _ => idle _ (.head _)) retains)

theorem Does.retains (does : c.Does deed c') (spared : ∀ d ∈ deed, d.reassigns i = false)
    (retains : c.Retains i key deeds) : c'.Retains i key (deeds ++ deed.toList) := by
  -- A transfer of the slot is one of its block, and makes the slot valid.
  have transferred {j : Nat} {s : Slot} {move : Move} (here : c.table.slots[j]? = some s) (place : move.slot = j)
      (moved : c.Moved move c') (kept : (move.change s).key = s.key ∧ (move.change s).assigned = s.assigned)
      (told : ∀ key, s.key = key → j = i → .loaded key i ∈ deed.toList ∨ .stored key i ∈ deed.toList) :
      c'.Retains i key (deeds ++ deed.toList) := by
    subst place
    by_cases mine : i = move.slot
    · subst mine
      obtain ⟨s', here', same, assigned, -⟩ := retains
      obtain rfl : s' = s := Option.some.inj (here'.symm.trans here)
      refine ⟨_, moved.same here, kept.1.trans same, kept.2.trans assigned, fun _ => ?_⟩
      exact (told key same rfl).imp (List.mem_append_right _) (List.mem_append_right _)
    · exact (moved.retains (fun same => absurd same mine) retains).mono (List.subset_append_left _ _)
  cases does with
  | @found key' found c' gains =>
      refine Retains.mono ?_ (List.subset_append_left _ _)
      obtain ⟨s, here, same, assigned, valid⟩ := retains
      by_cases mine : i = (found.move key').slot
      · subst mine
        refine ⟨_, gains.moved.same here, ?_⟩
        cases found with
        | hit i => exact ⟨same, assigned, valid⟩
        | evicted i old | stolen i b => simp [Deed.reassigns, Found.move, Move.slot] at spared
      · exact ⟨s, (gains.moved.other mine).trans here, same, assigned, valid⟩
  | @loaded j s bytes c' here invalid moved =>
      exact transferred here rfl moved ⟨rfl, rfl⟩ fun key same mine => .inl (by simp [same, mine])
  | @stored j s c' here moved =>
      exact transferred here rfl moved ⟨rfl, rfl⟩ fun key same mine => .inr (by simp [same, mine])
  | idle idle moved => exact (moved.retains idle retains).mono (List.subset_append_left _ _)

theorem Gains.hit_of_has {found : Found} (gains : c.Gains key found c') (sound : c.table.Sound)
    (has : c.table.layout.Has i key) : found = .hit i := by
  obtain ⟨s, -, ready⟩ := gains.moved.allowed
  cases found with
  | hit j => rw [sound.consistent.unique has gains.suits]
  | evicted j old | stolen j b => exact absurd has (ready.1 i)

end Cache

def Pending.lent (p : Pending) (name : String) (i : Nat) : Pending :=
  { p with name, call := { p.call with loads := false }, stage := .granted i }

namespace Host

variable {δ : Type} [BlockDevice δ] {s s' : Host δ} {pins : Nat → Nat → Nat} {t : Thread} {name : String} {c i : Nat}
  {m : Mount} {d : δ} {p : Pending} {sl : Slot} {key : Key} {steps : List Step}

/-! ## What is read again -/

structure ReadsNext (s : Host δ) (t : Thread) (p : Pending) (m : Mount) (d : δ) (i : Nat) : Prop where
  events : (s.turn t).events = (BlockDevice.read d p.call.key (m.cache.bytes i)).events
  device : (s.turn t).host.devices[m.device]? = some (BlockDevice.read d p.call.key (m.cache.bytes i)).device
  stage : ∃ p', (s.turn t).host.pending? t = some p' ∧ p'.stage =
    (BlockDevice.read d p.call.key (m.cache.bytes i)).failure.elim (.granted i) (.failed ∘ TransferFailure.toFailure)

/-- Slot `i` of cache `c` has the block but not the content. Until the slot is given to another block, lookups of the
block find it, and a call that reads the block reads it from the device as long as the slot is not valid. It becomes
valid only by a transfer of the block. -/
structure Unread (s : Host δ) (c i : Nat) (key : Key) : Prop where
  slot : ∃ sl, s.slot? c i = some sl ∧ sl.key = key ∧ sl.assigned = true ∧ sl.valid = false ∧
    sl.data.isLocked = false
  found : ∀ {more : List Step}, (∀ e ∈ s.deeds c more, e.reassigns i = false) →
    ∀ {step found}, (s.walk more).deedIn c step = some (.found key found) → found = .hit i
  again : ∀ {more : List Step}, (∀ e ∈ s.deeds c more, e.reassigns i = false) →
    ∀ {t p m d j}, (s.walk more).pending? t = some p → p.cache = c → p.call.key = key → p.stage = .loading j →
      (s.walk more).mount? c = some m → (s.walk more).devices[m.device]? = some d →
      j = i ∧ ((s.walk more).ReadsNext t p m d i ∨ m.cache.table.slots[i]?.any Slot.valid = true ∧
        (.loaded key i ∈ s.deeds c more ∨ .stored key i ∈ s.deeds c more))

omit [BlockDevice δ] in
theorem Sound.loading_slot (sound : s.Sound pins) (pending : s.pending? t = some p) (loading : p.stage = .loading i)
    (there : s.mount? p.cache = some m) : ∃ sl, m.cache.table.slots[i]? = some sl ∧ sl.key = p.call.key ∧
      sl.assigned = true ∧ sl.data.isLocked = true := by
  have called := mem_of_lookup pending
  have based := sound.based called there
  rw [loading] at based
  obtain ⟨sl, here, locked⟩ := based
  obtain ⟨sl', here', key, -⟩ := (sound.called _ called).slot (i := i) (by rw [loading]; rfl)
  obtain rfl : sl' = sl := Option.some.inj (here'.symm.trans ((slot?_eq there i).trans here))
  have consistent := (sound.tables there).consistent
  exact ⟨sl', here, key, consistent.assigned_of_referenced here (consistent.referenced_of_locked here locked), locked⟩

theorem Sound.turn_reads (sound : s.Sound pins) (pending : s.pending? t = some p) (loading : p.stage = .loading i)
    (there : s.mount? p.cache = some m) (device : s.devices[m.device]? = some d)
    (invalid : m.cache.table.slots[i]?.any Slot.valid = false) : s.ReadsNext t p m d i := by
  obtain ⟨sl, here, key, -, locked⟩ := sound.loading_slot pending loading there
  have bytes : m.cache.bytes i = sl.data.value := by simp [Cache.bytes, here]
  rw [here, Option.any_some] at invalid
  obtain ⟨device', events, result⟩ := Call.load_reads (sound.tables there) here locked invalid d
  rw [key, ← bytes] at device' events result
  have done := turn_carry pending there device
  rw [loading, Call.turn] at done
  refine ⟨?_, ?_, ?_⟩
  · rw [done, ← events]
  · rw [done, ← device']
    exact Array.getElem?_setIfInBounds_self_of_lt (Array.getElem?_eq_some_iff.mp device).1
  · rw [done, ← result]
    exact ⟨_, lookup_replace_same pending _, rfl⟩

theorem Sound.unread (sound : s.Sound pins) (here : s.slot? c i = some sl) (same : sl.key = key)
    (assigned : sl.assigned = true) (invalid : sl.valid = false) (unlocked : sl.data.isLocked = false) :
    s.Unread c i key := by
  have retains {more : List Step} (spared : ∀ e ∈ s.deeds c more, e.reassigns i = false) {m : Mount}
      (after : (s.walk more).mount? c = some m) : m.cache.Retains i key (s.deeds c more) := by
    refine sound.walk_deeds (P := fun m deeds => (∀ e ∈ deeds, e.reassigns i = false) → m.cache.Retains i key deeds)
      (fun {m m' told deed before} _ retains _ does _ spared => ?_) (fun m there _ => ?_) more after spared
    · have earlier := retains fun e member => spared e (List.mem_append_left _ member)
      exact does.retains (fun e did => spared e (List.mem_append_right _ (Option.mem_toList.mpr did))) earlier
    · exact ⟨sl, (slot?_eq there i).symm.trans here, same, assigned, fun valid => by cases valid.symm.trans invalid⟩
  refine
    { slot := ⟨sl, here, same, assigned, invalid, unlocked⟩
      found := fun {more} spared {step found} deed => ?_
      again := fun {more} spared {t p m d j} pending cache key' loading there device => ?_ }
  · obtain ⟨pins', sound'⟩ := sound.walk more
    obtain ⟨m, there, -⟩ := Option.bind_eq_some_iff.mp here
    obtain ⟨m', there', -⟩ := sound.walk_mounted there more
    obtain ⟨m₁, -, gains⟩ := sound'.gains_of_deed there' deed
    exact gains.hit_of_has (sound'.tables there') (retains spared there').has
  · obtain ⟨pins', sound'⟩ := sound.walk more
    obtain ⟨sl', here', mine, assigned', -⟩ := sound'.loading_slot pending loading (cache ▸ there)
    have kept := retains spared there
    obtain rfl : i = j := (sound'.tables there).consistent.unique kept.has ⟨sl', here', assigned', mine.trans key'⟩
    refine ⟨rfl, ?_⟩
    obtain ⟨sl₁, here₁, -, -, transferred⟩ := kept
    cases valid : sl₁.valid with
    | true => exact .inr ⟨by rw [here₁, Option.any_some, valid], transferred valid⟩
    | false =>
        refine .inl (sound'.turn_reads pending loading (cache ▸ there) device ?_)
        rw [here₁, Option.any_some, valid]

/-! ## What a failure leaves -/

/-- Host `s'` is host `s` after a transfer over device `k` that failed on slot `i` of cache `c`. -/
def Spoils (s : Host δ) (c i k : Nat) (tr : Transfer δ) (s' : Host δ) : Prop :=
  s'.unlogged = ((s.onCache c (Cache.withBytes i tr.buffer)).setDevice k tr.device).unlogged

def reads? (s : Host δ) (c : Nat) : Option Nat := (s.mount? c).map fun m => m.cache.usage.reads

/-- From host `s` a read of slot `i` fails in the transfer `tr` where a lease of the slot is acquired without it. All
that the read leaves is what is left once the lease is dropped, but for the bytes of the slot. -/
structure FailsAs (s : Host δ) (acquired read : Performed δ) (t : Thread) (name : String) (c i k : Nat)
    (tr : Transfer δ) (failure : TransferFailure) : Prop where
  reply : read.reply = .failed failure.toFailure
  events : read.events = acquired.events ++ tr.events
  dropped : (acquired.host.finish t name .dropped).host.Spoils c i k tr read.host
  reads : read.host.reads? c = s.reads? c

structure Lends (s : Host δ) (t : Thread) (name : String) (c : Nat) (m : Mount) (d : δ) (key : Key)
    (patience : Patience) (v : Cache.View) : Prop where
  untouched : (s.lease t name c ⟨key, patience, false⟩).host.devices = s.devices
  valid : v.valid = true → s.lease t name c ⟨key, patience, true⟩ = s.lease t name c ⟨key, patience, false⟩
  failed : v.valid = false → ∀ bytes, (s.lease t name c ⟨key, patience, false⟩).host.bytes ⟨c, v.slot, t⟩ = bytes →
    ∀ failure, (BlockDevice.read d key bytes).failure = some failure →
      s.FailsAs (s.lease t name c ⟨key, patience, false⟩) (s.lease t name c ⟨key, patience, true⟩) t name c v.slot
          m.device (BlockDevice.read d key bytes) failure ∧
        (s.lease t name c ⟨key, patience, true⟩).host.Unread c v.slot key

/-- What comes of the read of the call `p` of thread `t`, which has the lock of slot `i`, whatever others do. -/
structure Loads (s : Host δ) (t : Thread) (p : Pending) (i : Nat) (m : Mount) (d : δ) (sl : Slot) : Prop where
  valid : sl.valid = true → s.turn t = ⟨s.setPending t { p with stage := .granted i }, .done, []⟩
  failed : sl.valid = false → ∀ failure, (BlockDevice.read d sl.key sl.data.value).failure = some failure →
    (s.turn t).host.Unread p.cache i sl.key ∧ ∀ name, s.lease? name = none →
      (∃ v, ((s.setPending t (p.lent name i)).answer t).reply = .lease v ∧ v.slot = i) ∧
        s.FailsAs ((s.setPending t (p.lent name i)).answer t) ((s.turn t).host.answer t) t name p.cache i m.device
          (BlockDevice.read d sl.key sl.data.value) failure

omit [BlockDevice δ] in
theorem drop_taken (free : s.lease? name = none) (there : s.mount? c = some m) (device : s.devices[m.device]? = some d)
    {cache : Cache} (ended : Cache.endLease i m.cache = .ok () cache) (t : Thread) :
    (({ s with leases := s.leases ++ [(name, ⟨c, i, t⟩)] } : Host δ).drop name).host =
      s.carry c m cache d [] := by
  have held : ({ s with leases := s.leases ++ [(name, ⟨c, i, t⟩)] } : Host δ).lease? name = some ⟨c, i, t⟩ := by
    rw [lease?, List.lookup_append, show s.leases.lookup name = none from free]
    exact List.lookup_cons_self
  have others : s.leases.filter (fun entry => entry.1 ≠ name) = s.leases := by
    refine List.filter_eq_self.mpr fun entry member => decide_eq_true fun same => ?_
    simpa [same] using List.lookup_eq_none_iff.mp free entry member
  have there' : ({ s with leases := s.leases ++ [(name, ⟨c, i, t⟩)] } : Host δ).mount? c = some m := there
  rw [drop_does held there' device ended]
  simp only [forget, carry, List.filter_append, others]
  simp

theorem Sound.unread_dropped (sound : s.Sound pins) {cache dropped : Cache} (moved : cache.Moved (.finish i) dropped)
    (table : cache.table.Sound) (here : cache.table.slots[i]? = some sl) (same : sl.key = key)
    (locked : sl.data.isLocked = true) (invalid : sl.valid = false) {bytes : Bytes} {history : List Event} {k : Nat}
    (there : s.mount? c = some ⟨dropped.withBytes i bytes, k, history⟩) : s.Unread c i key := by
  have assigned := table.consistent.assigned_of_referenced here (table.consistent.referenced_of_locked here locked)
  have after : s.slot? c i = some (({ sl with data := sl.data.unlock }.give).withBytes bytes) :=
    (slot?_eq there i).trans (Layout.change_same (L := dropped.table.layout) (moved.same here) _)
  exact sound.unread after same assigned invalid rfl

omit [BlockDevice δ] in
theorem answer_lent (pending : s.pending? t = some p) (there : s.mount? p.cache = some m)
    (here : m.cache.table.slots[i]? = some sl) (free : s.lease? name = none) :
    ∃ v, v.slot = i ∧ (s.setPending t (p.lent name i)).answer t =
      ⟨{ s.removePending t with leases := s.leases ++ [(name, ⟨p.cache, i, t⟩)] }, .lease v, p.events⟩ := by
  have asked : (s.setPending t (p.lent name i)).pending? t = some (p.lent name i) := lookup_replace_same pending _
  have none : (s.removePending t).lease? name = none := free
  have kept : ((s.removePending t).drop name).host = s.removePending t := by
    simp [drop, onLease, none, refuse]
  have view : (s.removePending t).view ⟨p.cache, i, t⟩ = .lease _ := view_eq ((slot?_eq there i).trans here)
  refine ⟨⟨sl.key, i, sl.valid, sl.refcount, sl.data.value.length⟩, rfl, ?_⟩
  rw [answer, asked]
  simp only [Pending.lent, setPending_removePending, kept, view]
  rfl

omit [BlockDevice δ] in
theorem answer_failed (pending : s.pending? t = some p) (why : Failure) (events : List Event) :
    (s.setPending t { p with stage := .failed why, events }).answer t = ⟨s.removePending t, .failed why, events⟩ := by
  have failed : (s.setPending t { p with stage := .failed why, events }).pending? t = _ :=
    lookup_replace_same pending _
  rw [answer, failed]
  simp only [setPending_removePending]

omit [BlockDevice δ] in
theorem failsAs_of_carry {s₀ : Host δ} {tr : Transfer δ} {failure : TransferFailure} {cache dropped : Cache}
    {acquired read : Performed δ} {events events' : List Event} (there : s.mount? c = some m)
    (moved : cache.Moved (.finish i) dropped) (counted : s₀.reads? c = some cache.usage.reads)
    (finished : (acquired.host.finish t name .dropped).host = s.carry c m dropped d events')
    (failed : read = ⟨s.carry c m (dropped.withBytes i tr.buffer) tr.device events, .failed failure.toFailure,
      acquired.events ++ tr.events⟩) : s₀.FailsAs acquired read t name c i m.device tr failure := by
  subst failed
  refine ⟨rfl, rfl, ?_, ?_⟩
  · rw [Spoils, finished]
    exact carry_unlogged_again there (Cache.withBytes i tr.buffer) events' d
  · have after : (s.carry c m (dropped.withBytes i tr.buffer) tr.device events).mount? c = some _ := carry_same there
    rw [counted, reads?, after]
    exact congrArg (some ∘ Usage.reads) moved.usage

theorem Sound.loads (sound : s.Sound pins) (pending : s.pending? t = some p) (loading : p.stage = .loading i)
    (there : s.mount? p.cache = some m) (device : s.devices[m.device]? = some d)
    (here : m.cache.table.slots[i]? = some sl) (locked : sl.data.isLocked = true) : s.Loads t p i m d sl := by
  have table := sound.tables there
  have done := turn_carry pending there device
  rw [loading, Call.turn] at done
  constructor
  · intro valid
    rw [Call.load_valid here valid] at done
    rw [done]
    simp only [carry_self there device, List.append_nil]
  · intro invalid failure broken
    obtain ⟨dropped, ended, moved, load⟩ := Call.load_failed table here locked invalid broken
    obtain ⟨pins', sound', -⟩ := sound.did (sound.turn_did t)
    rw [load] at done
    rw [done] at sound' ⊢
    clear done load broken
    generalize BlockDevice.read d sl.key sl.data.value = tr at sound' ⊢
    have after : (s.carry p.cache m (dropped.withBytes i tr.buffer) tr.device tr.events).mount? p.cache = some _ :=
      carry_same there
    refine ⟨sound'.unread_dropped moved table here rfl locked invalid after, fun name free => ?_⟩
    obtain ⟨v, slot, lent⟩ := answer_lent (i := i) pending there here free
    refine ⟨⟨v, by rw [lent], slot⟩, ?_⟩
    have failed := answer_failed (s := s.carry p.cache m (dropped.withBytes i tr.buffer) tr.device tr.events) pending
      failure.toFailure (p.events ++ tr.events)
    have finished := drop_taken (s := s.removePending t) free there device ended t
    have counted : s.reads? p.cache = some m.cache.usage.reads := by rw [reads?, there]; rfl
    rw [lent]
    exact failsAs_of_carry (s := s.removePending t) there moved counted finished failed

theorem Sound.lease_sound (sound : s.Sound pins) (t : Thread) (name : String) (c : Nat) (call : Call) :
    ∃ pins', (s.lease t name c call).host.Sound pins' := by
  obtain ⟨pins₁, sound₁, -⟩ := sound.did (start_did s t name c call)
  obtain ⟨pins₂, sound₂⟩ := sound₁.run (List.replicate 4 (.turn t))
  obtain ⟨pins₃, sound₃, -⟩ := sound₂.did (sound₂.answer_did t)
  rw [lease]
  split
  · exact ⟨pins₁, sound₁⟩
  · exact ⟨pins₃, sound₃⟩

theorem Sound.lease_served (sound : s.Sound pins) (idle : s.pending? t = none) (there : s.mount? c = some m)
    (device : s.devices[m.device]? = some d) (free : s.lease? name = none) {patience : Patience} {v : Cache.View}
    (lent : (s.lease t name c ⟨key, patience, false⟩).reply = .lease v) :
    ∃ (found : Found) (cache : Cache) (sl : Slot), cache.table.Sound ∧ cache.table.slots[found.slot]? = some sl ∧
      sl.key = key ∧ sl.data.isLocked = true ∧ cache.usage.reads = m.cache.usage.reads ∧ v.slot = found.slot ∧
      v.valid = sl.valid ∧ ∀ loads, Call.turns ⟨key, patience, loads⟩ t s.isCancelled 4 .looking m.cache d =
        Call.serve ⟨key, patience, loads⟩ found cache d := by
  have table := sound.tables there
  obtain ⟨granted, failed, waits⟩ := sound.lease_eq idle there device free ⟨key, patience, false⟩
  have outcome := Call.turns_outcome table ⟨key, patience, false⟩ t s.isCancelled d
  generalize Call.turns ⟨key, patience, false⟩ t s.isCancelled 4 .looking m.cache d = turn
    at granted failed waits outcome
  cases outcome with
  | queued | starved =>
      rw [waits (by simp) (by simp)] at lent
      cases lent
  | contended | stopped | unserved =>
      rw [failed _ rfl] at lent
      cases lent
  | @served found c₁ cache _ _ gains looked unlocked locked moved =>
      obtain ⟨sl, here, -, mine⟩ := gains.has
      have here : c₁.table.slots[found.slot]? = some sl := here
      have after : cache.table.slots[found.slot]? = some { sl with data := sl.data.grant t } := moved.same here
      have mounted : (s.carry c m cache d (found.events key)).mount? c = some _ := carry_same there
      have view : (s.carry c m cache d (found.events key)).view ⟨c, found.slot, t⟩ = .lease _ :=
        view_eq ((slot?_eq mounted _).trans after)
      rw [granted _ rfl] at lent
      obtain rfl := Reply.lease.inj (view.symm.trans lent)
      have reads : cache.usage.reads = m.cache.usage.reads := by
        rw [moved.usage, gains.moved.usage]
        cases found <;> rfl
      rw [here, Option.any_some] at unlocked
      exact ⟨found, cache, _, moved.sound (gains.moved.sound table), after, mine, rfl, reads, rfl, rfl,
        fun loads => Call.turns_served looked here unlocked locked⟩

theorem Sound.lends (sound : s.Sound pins) (idle : s.pending? t = none) (there : s.mount? c = some m)
    (device : s.devices[m.device]? = some d) (free : s.lease? name = none) {patience : Patience} {v : Cache.View}
    (lent : (s.lease t name c ⟨key, patience, false⟩).reply = .lease v) : s.Lends t name c m d key patience v := by
  obtain ⟨found, cache, sl, table, here, rfl, locked, counted, slot, valid, served⟩ :=
    sound.lease_served idle there device free lent
  obtain ⟨granted, -, -⟩ := sound.lease_eq idle there device free ⟨sl.key, patience, false⟩
  obtain ⟨granted', failed', -⟩ := sound.lease_eq idle there device free ⟨sl.key, patience, true⟩
  have acquired : Call.serve ⟨sl.key, patience, false⟩ found cache d =
      ⟨cache, d, found.events sl.key, .granted found.slot⟩ := rfl
  rw [served, acquired] at granted
  rw [served] at granted' failed'
  have acquired : s.lease t name c ⟨sl.key, patience, false⟩ =
      ⟨{ s.carry c m cache d (found.events sl.key) with leases := s.leases ++ [(name, ⟨c, found.slot, t⟩)] },
        (s.carry c m cache d (found.events sl.key)).view ⟨c, found.slot, t⟩, found.events sl.key⟩ := granted _ rfl
  have mounted : (s.carry c m cache d (found.events sl.key)).mount? c = some _ := carry_same there
  constructor
  · have same : (s.setDevice m.device d).devices = s.devices := congrArg Host.devices (setDevice_self device)
    rw [acquired]
    exact same
  · intro readable
    have read : Call.serve ⟨sl.key, patience, true⟩ found cache d =
        ⟨cache, d, found.events sl.key, .granted found.slot⟩ := by
      simp [Call.serve, Call.load_valid here (valid ▸ readable)]
    rw [read] at granted'
    rw [acquired, granted' _ rfl]
  · intro invalid bytes content failure broken
    obtain rfl : bytes = sl.data.value := by
      rw [← content, acquired, slot]
      show (((s.carry c m cache d (found.events sl.key)).mount? c).map fun m => m.cache.bytes found.slot).getD [] = _
      simp [mounted, Cache.bytes, here]
    obtain ⟨dropped, ended, moved, load⟩ := Call.load_failed table here locked (valid ▸ invalid) broken
    clear broken
    generalize BlockDevice.read d sl.key sl.data.value = tr at load ⊢
    have read : Call.serve ⟨sl.key, patience, true⟩ found cache d =
        ⟨dropped.withBytes found.slot tr.buffer, tr.device, found.events sl.key ++ tr.events,
          .failed failure.toFailure⟩ := by
      simp [Call.serve, load]
    rw [read] at failed'
    have failed := failed' _ rfl
    -- The lease that was acquired is dropped in the cache that the read has failed in.
    have finished := drop_taken (s := s.carry c m cache d (found.events sl.key)) free mounted
      (carry_device device _ _ _) ended t
    rw [carry_carry] at finished
    have counted : s.reads? c = some cache.usage.reads := by
      rw [reads?, there, counted]
      rfl
    rw [slot, acquired]
    refine ⟨failsAs_of_carry there moved counted finished failed, ?_⟩
    obtain ⟨pins', sound'⟩ := sound.lease_sound t name c ⟨sl.key, patience, true⟩
    rw [failed] at sound' ⊢
    exact sound'.unread_dropped moved table here rfl locked (valid ▸ invalid) (carry_same there)

end Host
open Host

/-- A read that fails once it has the lease leaves what is left when the lease is acquired and dropped, but for the
bytes of the slot, and its failure is that of the device. The block stays in its slot without its content, so that the
next reading goes to the device again. A slot that is valid is not read. This holds of calls that are left alone and of
those that have others between their steps, which may wait for the slot. -/
theorem failed_reads_dropped {δ : Type} [BlockDevice δ] (devices : List δ) (plans : List (Nat × Plan))
    (steps : List Step) {c : Nat} {m : Mount} {d : δ}
    (there : ((assemble devices plans).walk steps).mount? c = some m)
    (device : ((assemble devices plans).walk steps).devices[m.device]? = some d) :
    let s := (assemble devices plans).walk steps
    (∀ {t name key patience v}, s.pending? t = none → s.lease? name = none →
      (s.lease t name c ⟨key, patience, false⟩).reply = .lease v → s.Lends t name c m d key patience v) ∧
    ∀ {t p i}, s.pending? t = some p → p.cache = c → p.stage = .loading i →
      ∃ sl, m.cache.table.slots[i]? = some sl ∧ sl.key = p.call.key ∧ s.Loads t p i m d sl := by
  intro s
  obtain ⟨pins, sound⟩ := walk_sound devices plans steps
  refine ⟨fun idle free lent => sound.lends idle there device free lent, fun pending mine loading => ?_⟩
  subst mine
  obtain ⟨sl, here, key, -, locked⟩ := sound.loading_slot pending loading there
  exact ⟨sl, here, key, sound.loads pending loading there device here locked⟩

theorem failed_reads_dropped_past_end :
    let acts : List Act := [.start 0 "a" 0 ⟨⟨0, 3⟩, .block, true⟩, .turn 0, .turn 0,
      .start 1 "b" 0 ⟨⟨0, 3⟩, .block, true⟩, .turn 1]
    let disk := RamDisk.empty 4 (some 2)
    let host := (assemble [disk] [(0, ⟨2, 1, 4, .stop⟩)]).walk (acts.map .act)
    ((host.turn 0).host.Unread 0 0 ⟨0, 3⟩ ∧
        ((host.turn 0).host.answer 0).reply = .failed (.error (.io (.bare .unexpectedEof)))) ∧
      (host.lease 2 "c" 0 ⟨⟨0, 5⟩, .block, true⟩).host.Unread 0 1 ⟨0, 5⟩ := by
  intro acts disk host
  have mounted : (host.mount? 0).any (fun m => m.device = 0 ∧ m.cache.table.slots[0]?.any fun sl =>
      sl.valid = false ∧ sl.key = ⟨0, 3⟩ ∧ sl.data.value = [0, 0, 0, 0]) = true := by decide +kernel
  have loading : (host.pending? 0).any (fun p => p.cache = 0 ∧ p.stage = .loading 0) = true := by decide +kernel
  obtain ⟨m, there, facts⟩ := (Option.any_eq_true _ _).mp mounted
  obtain ⟨p, pending, called⟩ := (Option.any_eq_true _ _).mp loading
  obtain ⟨zero, slot⟩ := of_decide_eq_true facts
  obtain ⟨sl₀, here₀, slot⟩ := (Option.any_eq_true _ _).mp slot
  obtain ⟨invalid, key, content⟩ := of_decide_eq_true slot
  obtain ⟨cache, stage⟩ := of_decide_eq_true called
  have device : host.devices[m.device]? = some disk := by
    rw [zero]
    decide +kernel
  have refused (block : UInt32) (past : 2 ≤ block) : (BlockDevice.read disk ⟨0, block⟩ [0, 0, 0, 0]).failure =
      some (.error (.io (.bare .unexpectedEof))) := by
    simp [disk, BlockDevice.read, RamDisk.read, RamDisk.refusal, RamDisk.empty, past]
  obtain ⟨alone, company⟩ := failed_reads_dropped _ _ _ there device
  obtain ⟨sl, here, -, loads⟩ := company pending cache stage
  obtain rfl : sl₀ = sl := Option.some.inj (here₀.symm.trans here)
  refine ⟨?_, ?_⟩
  · have broken := refused 3 (by decide)
    rw [← key, ← content] at broken
    obtain ⟨unread, fails⟩ := loads.failed invalid _ broken
    obtain ⟨-, failed⟩ := fails "c" (by decide +kernel)
    rw [cache, key] at unread
    exact ⟨unread, failed.reply⟩
  · have lent : (host.lease 2 "c" 0 ⟨⟨0, 5⟩, .block, false⟩).reply = .lease ⟨⟨0, 5⟩, 1, false, 1, 4⟩ := by
      decide +kernel
    have content : (host.lease 2 "c" 0 ⟨⟨0, 5⟩, .block, false⟩).host.bytes ⟨0, 1, 2⟩ = [0, 0, 0, 0] := by
      decide +kernel
    have lends := alone (by decide +kernel) (by decide +kernel) lent
    exact (lends.failed rfl _ content _ (refused 5 (by decide))).2

end BlockCache
