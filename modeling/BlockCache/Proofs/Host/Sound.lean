import BlockCache.Host.Assembly
import BlockCache.Proofs.Cache.Fresh
import BlockCache.Proofs.Cache.Turned
import BlockCache.Proofs.Host.Entries

/-!
# Sound hosts

In a sound host the tables of all caches are sound and their slots agree with the ledger of the host. A call that has
found its slot has the slot of its block. `Sound.moved` says that a move of one cache keeps a host sound if it is
entered in the ledger.
-/

namespace BlockCache

def Stage.slot? : Stage → Option Nat
  | .queued i | .loading i | .granted i => some i
  | _ => none

namespace Pending

variable {p : Pending} {i : Nat}

theorem claims_nothing (looking : p.stage.slot? = none) (t : Thread) : p.lease? t = none ∧ p.awaited? = none := by
  cases stage : p.stage with
  | queued i | loading i | granted i => simp [stage, Stage.slot?] at looking
  | _ => simp [lease?, awaited?, stage]

theorem claims_turn (queued : p.stage = .queued i) (t : Thread) :
    p.lease? t = none ∧ p.awaited? = some (p.cache, i) := by
  simp [lease?, awaited?, queued]

theorem claims_lock (locked : p.stage = .loading i ∨ p.stage = .granted i) (t : Thread) :
    p.lease? t = some ⟨p.cache, i, t⟩ ∧ p.awaited? = none := by
  rcases locked with stage | stage <;> simp [lease?, awaited?, stage]

end Pending

namespace Host

variable {δ : Type}

def slot? (s : Host δ) (c i : Nat) : Option Slot := (s.mount? c).bind fun m => m.cache.table.slots[i]?

structure Supports (s : Host δ) (p : Pending) : Prop where
  mounted : (s.mount? p.cache).isSome = true
  slot : ∀ {i : Nat}, p.stage.slot? = some i → ∃ sl, s.slot? p.cache i = some sl ∧ sl.key = p.call.key ∧
    (p.stage = .granted i → p.call.loads = true → sl.valid = true)

/-- The host is in order, `pins c i` being the number of pins on slot `i` of cache `c`. -/
structure Sound (s : Host δ) (pins : Nat → Nat → Nat) : Prop where
  names : (s.leases.map Prod.fst).Nodup
  threads : (s.calls.map Prod.fst).Nodup
  devices : ∀ {c : Nat} {m : Mount}, s.mount? c = some m → m.device < s.devices.size
  tables : ∀ {c : Nat} {m : Mount}, s.mount? c = some m → m.cache.table.Sound
  accounted : ∀ {c i : Nat} {sl : Slot}, s.slot? c i = some sl → sl.Accounted (s.ledger pins) c i
  leased : ∀ entry ∈ s.leases, (s.slot? entry.2.cache entry.2.slot).isSome = true
  called : ∀ entry ∈ s.calls, s.Supports entry.2
  parted : ∀ entry ∈ s.parting, (s.slot? entry.1 entry.2).isSome = true

/-- The mounts of `s'` are those of `s` but for a move of cache `c`. -/
structure MovedAt (s : Host δ) (c : Nat) (move : Move) (s' : Host δ) : Prop where
  mount : ∃ m m', s.mount? c = some m ∧ s'.mount? c = some m' ∧ m'.device = m.device ∧ m.cache.Moved move m'.cache
  others : ∀ c' ≠ c, s'.mount? c' = s.mount? c'
  devices : s'.devices.size = s.devices.size

structure Alike (s s' : Host δ) : Prop where
  caches : ∀ c, (s'.mount? c).map (fun m => (m.cache, m.device)) = (s.mount? c).map fun m => (m.cache, m.device)
  devices : s'.devices.size = s.devices.size

section
variable {s s' : Host δ} {c c' i j : Nat} {move : Move} {sl : Slot} {pins pins' : Nat → Nat → Nat} {p : Pending}
  {m : Mount} {t : Thread} {lease : Lease}

theorem slot?_eq (there : s.mount? c = some m) (i : Nat) : s.slot? c i = m.cache.table.slots[i]? := by
  simp [slot?, there]

theorem view_eq (here : s.slot? lease.cache lease.slot = some sl) :
    s.view lease = .lease ⟨sl.key, lease.slot, sl.valid, sl.refcount, sl.data.value.length⟩ := by
  obtain ⟨m, there, inTable⟩ := Option.bind_eq_some_iff.mp here
  simp [view, there, Cache.view?, inTable]

theorem view_ne_failed (s : Host δ) (lease : Lease) (why : Failure) : s.view lease ≠ .failed why := by
  rw [view]
  split <;> simp

theorem Sound.agrees (sound : s.Sound pins) (here : s.slot? c i = some sl) : sl.data.Agrees := by
  obtain ⟨m, there, inTable⟩ := Option.bind_eq_some_iff.mp here
  exact ((sound.tables there).consistent.proper inTable).agrees

theorem Sound.holder_of_live (sound : s.Sound pins) (live : lease ∈ s.live)
    (here : s.slot? lease.cache lease.slot = some sl) : sl.data.holder = some lease.thread := by
  have member : lease.thread ∈ (s.ledger pins).holders lease.cache lease.slot :=
    List.mem_map_of_mem (List.mem_filter.mpr ⟨live, by simp⟩)
  simpa using (sound.accounted here).holders.mem_iff.mp member

theorem Sound.referenced_of_holder (sound : s.Sound pins) (here : s.slot? c i = some sl)
    (holder : sl.data.holder = some t) : (s.ledger pins).bareOn c i + 1 + pins c i = sl.refcount := by
  have accounted := sound.accounted here
  have length : ((s.ledger pins).holders c i).length = 1 := by simp [accounted.holders.length_eq, holder]
  have refcount := accounted.refcount
  simp only [ledger] at refcount length ⊢
  omega

theorem Sound.referenced_of_bare (sound : s.Sound pins) (bare : (c, i) ∈ s.bare)
    (here : s.slot? c i = some sl) : sl.refcount ≠ 0 ∧ (sl.refcount = 1 → sl.data.holder = none) := by
  have accounted := sound.accounted here
  have counted : 0 < (s.ledger pins).bareOn c i := List.count_pos_iff.mpr bare
  have refcount := accounted.refcount
  refine ⟨by omega, fun single => ?_⟩
  cases holder : sl.data.holder with
  | none => rfl
  | some t =>
      have count := sound.referenced_of_holder here holder
      omega

theorem lease?_mem_live (called : (t, p) ∈ s.calls) (claim : p.lease? t = some lease) : lease ∈ s.live :=
  List.mem_append_right _ (List.mem_filterMap.mpr ⟨(t, p), called, claim⟩)

theorem awaited?_mem_bare (called : (t, p) ∈ s.calls) (claim : p.awaited? = some (c, i)) : (c, i) ∈ s.bare :=
  List.mem_append_left _ (List.mem_filterMap.mpr ⟨(t, p), called, claim⟩)

theorem Sound.referenced_of_called (sound : s.Sound pins) (called : (t, p) ∈ s.calls)
    (slot : p.stage.slot? = some i) (here : s.slot? p.cache i = some sl) : sl.refcount ≠ 0 := by
  have held (claim : p.lease? t = some ⟨p.cache, i, t⟩) : sl.refcount ≠ 0 := by
    have count := sound.referenced_of_holder here (sound.holder_of_live (lease?_mem_live called claim) here)
    omega
  cases stage : p.stage with
  | queued k =>
      obtain rfl : k = i := by simpa [stage, Stage.slot?] using slot
      exact (sound.referenced_of_bare (awaited?_mem_bare called (Pending.claims_turn stage t).2) here).1
  | loading k =>
      obtain rfl : k = i := by simpa [stage, Stage.slot?] using slot
      exact held (Pending.claims_lock (.inl stage) t).1
  | granted k =>
      obtain rfl : k = i := by simpa [stage, Stage.slot?] using slot
      exact held (Pending.claims_lock (.inr stage) t).1
  | _ => simp [stage, Stage.slot?] at slot

theorem MovedAt.slot_same (moved : s.MovedAt c move s') (here : s.slot? c move.slot = some sl) :
    s'.slot? c move.slot = some (move.change sl) := by
  obtain ⟨m, m', there, there', -, step⟩ := moved.mount
  rw [slot?_eq there']
  exact step.same ((slot?_eq there _).symm.trans here)

theorem MovedAt.slot_other (moved : s.MovedAt c move s') (other : (c', j) ≠ (c, move.slot)) :
    s'.slot? c' j = s.slot? c' j := by
  by_cases same : c' = c
  · subst same
    obtain ⟨m, m', there, there', -, step⟩ := moved.mount
    rw [slot?_eq there', slot?_eq there]
    exact step.other fun same => other (by rw [same])
  · rw [slot?, slot?, moved.others c' same]

theorem MovedAt.ready (moved : s.MovedAt c move s') :
    ∃ m sl, s.mount? c = some m ∧ s.slot? c move.slot = some sl ∧ m.cache.table.slots[move.slot]? = some sl ∧
      m.cache.table.layout.Ready sl move := by
  obtain ⟨m, m', there, -, -, step⟩ := moved.mount
  obtain ⟨sl, here, ready⟩ := step.allowed
  exact ⟨m, sl, there, (slot?_eq there _).trans here, here, ready⟩

theorem MovedAt.slot_isSome (moved : s.MovedAt c move s') (here : (s.slot? c' j).isSome = true) :
    (s'.slot? c' j).isSome = true := by
  by_cases same : (c', j) = (c, move.slot)
  · obtain ⟨rfl, rfl⟩ := Prod.mk.inj same
    obtain ⟨m, sl, -, there, -, -⟩ := moved.ready
    rw [moved.slot_same there]
    rfl
  · rwa [moved.slot_other same]

theorem MovedAt.mounted (moved : s.MovedAt c move s') (mounted : (s.mount? c').isSome = true) :
    (s'.mount? c').isSome = true := by
  by_cases same : c' = c
  · subst same
    obtain ⟨m, m', -, there', -, -⟩ := moved.mount
    rw [there']
    rfl
  · rwa [moved.others c' same]

theorem Sound.supports_moved (sound : s.Sound pins) (moved : s.MovedAt c move s') (called : (t, p) ∈ s.calls) :
    s'.Supports p := by
  have supports := sound.called (t, p) called
  refine ⟨moved.mounted supports.mounted, fun {i} refers => ?_⟩
  obtain ⟨sl, here, key, valid⟩ := supports.slot refers
  by_cases same : (p.cache, i) = (c, move.slot)
  · obtain ⟨rfl, rfl⟩ := Prod.mk.inj same
    obtain ⟨m, sl', there, here', inTable, ready⟩ := moved.ready
    obtain rfl : sl = sl' := Option.some.inj (here.symm.trans here')
    have referenced := sound.referenced_of_called called refers here
    have keeps := Layout.change_of_referenced (sound.tables there).consistent inTable ready referenced
    exact ⟨_, moved.slot_same here, keeps.1.trans key, fun granted loads => keeps.2 (valid granted loads)⟩
  · exact ⟨sl, (moved.slot_other same).trans here, key, valid⟩

theorem Sound.moved (sound : s.Sound pins) (moved : s.MovedAt c move s')
    (entered : Ledger.Entered c (s.ledger pins) (s'.ledger pins') move) (names : (s'.leases.map Prod.fst).Nodup)
    (threads : (s'.calls.map Prod.fst).Nodup) (leased : ∀ entry ∈ s'.leases, entry ∈ s.leases)
    (called : ∀ entry ∈ s'.calls, entry ∈ s.calls ∨ s'.Supports entry.2)
    (parted : ∀ entry ∈ s'.parting, entry ∈ s.parting ∨ entry = (c, move.slot)) : s'.Sound pins' where
  names := names
  threads := threads
  devices {c' m''} there := by
    rw [moved.devices]
    by_cases same : c' = c
    · subst same
      obtain ⟨m, m', before, after, device, -⟩ := moved.mount
      obtain rfl : m' = m'' := Option.some.inj (after.symm.trans there)
      exact device ▸ sound.devices before
    · exact sound.devices ((moved.others c' same).symm.trans there)
  tables {c' m''} there := by
    by_cases same : c' = c
    · subst same
      obtain ⟨m, m', before, after, -, step⟩ := moved.mount
      obtain rfl : m' = m'' := Option.some.inj (after.symm.trans there)
      exact step.sound (sound.tables before)
    · exact sound.tables ((moved.others c' same).symm.trans there)
  accounted {c' j sl'} there := by
    by_cases same : (c', j) = (c, move.slot)
    · obtain ⟨rfl, rfl⟩ := Prod.mk.inj same
      obtain ⟨m, sl, before, here, inTable, ready⟩ := moved.ready
      obtain rfl : move.change sl = sl' := Option.some.inj ((moved.slot_same here).symm.trans there)
      exact entered.accounted (sound.tables before).consistent inTable ready (sound.accounted here)
    · exact entered.accounted_elsewhere same (sound.accounted ((moved.slot_other same).symm.trans there))
  leased entry member := moved.slot_isSome (sound.leased entry (leased entry member))
  called entry member := by
    rcases called entry member with before | supports
    · exact sound.supports_moved moved before
    · exact supports
  parted entry member := by
    rcases parted entry member with before | rfl
    · exact moved.slot_isSome (sound.parted entry before)
    · obtain ⟨-, sl, -, here, -⟩ := moved.ready
      exact moved.slot_isSome (by rw [here]; rfl)

theorem Alike.slot?_eq (alike : s.Alike s') (c i : Nat) : s'.slot? c i = s.slot? c i := by
  have caches := alike.caches c
  cases before : s.mount? c with
  | none =>
      have after : s'.mount? c = none := by simpa [before] using caches
      simp [slot?, before, after]
  | some m =>
      obtain ⟨m', after, cache, -⟩ : ∃ m', s'.mount? c = some m' ∧ m'.cache = m.cache ∧ m'.device = m.device := by
        simpa [before] using caches
      simp [slot?, before, after, cache]

theorem Alike.mount (alike : s.Alike s') {m' : Mount} (there : s'.mount? c = some m') :
    ∃ m, s.mount? c = some m ∧ m.cache = m'.cache ∧ m.device = m'.device := by
  have caches : (s.mount? c).map (fun m => (m.cache, m.device)) = some (m'.cache, m'.device) := by
    rw [← alike.caches c, there]
    rfl
  simpa using caches

theorem Alike.supports (alike : s.Alike s') (supports : s.Supports p) : s'.Supports p where
  mounted := by
    have caches := congrArg Option.isSome (alike.caches p.cache)
    simpa [supports.mounted] using caches
  slot {i} refers := by
    rw [alike.slot?_eq]
    exact supports.slot refers

theorem Sound.alike (sound : s.Sound pins) (alike : s.Alike s') (live : s'.live.Perm s.live)
    (bare : s'.bare.Perm s.bare) (names : (s'.leases.map Prod.fst).Nodup)
    (threads : (s'.calls.map Prod.fst).Nodup)
    (leased : ∀ entry ∈ s'.leases, entry ∈ s.leases ∨ (s.slot? entry.2.cache entry.2.slot).isSome = true)
    (called : ∀ entry ∈ s'.calls, entry ∈ s.calls ∨ s.Supports entry.2) (parted : s'.parting = s.parting) :
    s'.Sound pins where
  names := names
  threads := threads
  devices {c m'} there := by
    obtain ⟨m, before, -, device⟩ := alike.mount there
    rw [alike.devices, ← device]
    exact sound.devices before
  tables {c m'} there := by
    obtain ⟨m, before, cache, -⟩ := alike.mount there
    exact cache ▸ sound.tables before
  accounted {c i sl} there := by
    rw [alike.slot?_eq] at there
    have accounted := sound.accounted there
    have holders : ((s'.ledger pins).holders c i).Perm ((s.ledger pins).holders c i) :=
      Ledger.holders_perm (l := s.ledger pins) live c i
    have counted : (s'.ledger pins).bareOn c i = (s.ledger pins).bareOn c i :=
      Ledger.bareOn_eq (l := s.ledger pins) bare c i
    exact ⟨holders.trans accounted.holders, by rw [holders.length_eq, counted]; exact accounted.refcount,
      accounted.pins⟩
  leased entry member := by
    rw [alike.slot?_eq]
    exact (leased entry member).elim (sound.leased entry) id
  called entry member := alike.supports ((called entry member).elim (sound.called entry) id)
  parted entry member := by
    rw [alike.slot?_eq]
    exact sound.parted entry (parted ▸ member)

end
end Host
end BlockCache
