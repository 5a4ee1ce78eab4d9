import Mathlib.Data.List.Nodup
import BlockCache.Proofs.Device.Reads
import BlockCache.Proofs.Exclusion
import BlockCache.Proofs.Host.Clean
import BlockCache.Proofs.Host.Referenced

/-!
# What clients see

The clients of a cache over a disk in memory see blocks: those that they have leased, with the bytes under the leases,
and all others as they were written last. `Serves` says that the host has what the clients see. Where the slots are and
what is in the other slots does not show.
-/

namespace BlockCache

/-- The bytes of each block as they were written last, and the block and the bytes under each lease. -/
structure Clients where
  saved : Key → Bytes
  held : String → Option (Key × Bytes)

def Clients.fresh (disk : RamDisk) : Clients := ⟨disk.content, fun _ => none⟩

structure Slot.Fits (sl : Slot) (disk : RamDisk) : Prop where
  length : sl.data.value.length = disk.blockSize
  readable : sl.valid = true → disk.unreadable sl.key = none

/-- Whether an act leaves alone which leases there are, what is under them, and what the devices have. -/
def Act.quiet : Act → Bool
  | answer _ | finish .. | write .. | put .. | fill .. | deviceWrite .. => false
  | _ => true

namespace Cache

variable {c c' : Cache} {move : Move} {d disk : RamDisk}

def Fits (c : Cache) (disk : RamDisk) : Prop := ∀ (i : Nat) (sl : Slot), c.table.slots[i]? = some sl → sl.Fits disk

theorem Fits.of_like (fits : c.Fits disk) (blockSize : d.blockSize = disk.blockSize)
    (unreadable : d.unreadable = disk.unreadable) : c.Fits d :=
  fun i sl here =>
    ⟨(fits i sl here).length.trans blockSize.symm, fun valid => unreadable ▸ (fits i sl here).readable valid⟩

theorem Moved.fits (moved : c.Moved move c') (fits : c.Fits disk)
    (changed : ∀ sl, c.table.slots[move.slot]? = some sl → (move.change sl).Fits disk) : c'.Fits disk := by
  intro i sl' here'
  by_cases same : i = move.slot
  · subst same
    obtain ⟨sl, here, -⟩ := moved.allowed
    obtain rfl := Option.some.inj ((moved.same here).symm.trans here')
    exact changed sl here
  · exact fits i sl' ((moved.other same).symm.trans here')

theorem Moved.fits_of_quiet (moved : c.Moved move c') (fits : c.Fits disk) (quiet : move.quiet = true) :
    c'.Fits disk := by
  refine moved.fits fits fun sl here => ?_
  obtain ⟨length, readable⟩ := fits _ sl here
  have face := Move.face_of_quiet quiet sl
  simp only [Slot.face, Prod.mk.injEq] at face
  obtain ⟨-, key, valid, bytes⟩ := face
  exact ⟨bytes ▸ length, fun same => key ▸ readable (valid ▸ same)⟩

end Cache

theorem Call.Turned.fits {call : Call} {t : Thread} {cancelled : Token → Bool} {c : Cache} {d : RamDisk} {stage : Stage}
    {turn : Turn RamDisk Stage} (turned : call.Turned t cancelled c d stage turn) (fits : c.Fits d) :
    turn.cache.Fits d := by
  cases turned with
  | @found found L' change c' finds moved =>
      cases found with
      | hit => exact moved.fits_of_quiet fits rfl
      | evicted | stolen => exact moved.fits fits fun sl here => ⟨(fits _ sl here).length, nofun⟩
  | granted moved => exact moved.fits_of_quiet fits rfl
  | refused refusal moved => exact moved.fits_of_quiet fits rfl
  | @loaded i sl c' here invalid success moved =>
      have length := (fits i sl here).length
      refine moved.fits fits fun sl' here' => ?_
      obtain rfl : sl = sl' := Option.some.inj (here.symm.trans here')
      refine ⟨(RamDisk.read_length d sl.key sl.data.value).trans length, fun _ => ?_⟩
      rw [← RamDisk.read_failure length]
      exact Option.map_eq_none_iff.mpr success
  | @unloaded i sl c₁ c' failure here invalid broken spoilt ended =>
      refine ended.fits_of_quiet (spoilt.fits fits fun sl' here' => ?_) rfl
      obtain rfl : sl = sl' := Option.some.inj (here.symm.trans here')
      exact ⟨(RamDisk.read_length d sl.key sl.data.value).trans (fits i sl here).length,
        fun valid => absurd (invalid.symm.trans valid) nofun⟩
  | _ => exact fits

theorem Call.Turned.like {call : Call} {t : Thread} {cancelled : Token → Bool} {c : Cache} {d : RamDisk} {stage : Stage}
    {turn : Turn RamDisk Stage} (turned : call.Turned t cancelled c d stage turn) : turn.device.Like d := by
  cases turned with
  | loaded | unloaded => exact RamDisk.read_like d _ _
  | _ => exact ⟨rfl, rfl, rfl⟩

namespace Host

/-- A host has a single cache, over a single disk, and has what its clients see. Of the disk with which it began only
the block size and what can be read have stayed. -/
structure Serves (s : Host RamDisk) (disk : RamDisk) (v : Clients) : Prop where
  single : ∀ {c : Nat} {m : Mount}, s.mount? c = some m → c = 0 ∧ m.device = 0 ∧ m.cache.Fits disk
  device : ∃ d, s.devices[0]? = some d ∧ d.blockSize = disk.blockSize ∧ d.unreadable = disk.unreadable ∧
    d.content = v.saved
  held : ∀ name, v.held name = (s.lease? name).bind fun lease =>
    (s.slot? lease.cache lease.slot).map fun sl => (sl.key, sl.data.value)
  leased : ∀ {name : String} {lease : Lease} {sl : Slot}, s.lease? name = some lease →
    s.slot? lease.cache lease.slot = some sl → sl.valid = true
  clean : ∀ {i : Nat} {sl : Slot}, s.slot? 0 i = some sl → sl.valid = true →
    (∀ name lease, s.lease? name = some lease → lease.slot ≠ i) → sl.data.value = v.saved sl.key

variable {s s' : Host RamDisk} {disk : RamDisk} {v : Clients} {pins : Nat → Nat → Nat} {act : Act} {name : String}
  {lease : Lease} {sl : Slot} {t : Thread} {p : Pending}

theorem Serves.cache_eq (serves : s.Serves disk v) (sound : s.Sound pins) (held : s.lease? name = some lease) :
    lease.cache = 0 := by
  obtain ⟨m, -, -, there, -⟩ := sound.held held
  exact (serves.single there).1

theorem assemble_serves {d : RamDisk} {plan : Plan} (like : d.Like disk) (blockSize : plan.blockSize = disk.blockSize) :
    (assemble [d] [(0, plan)]).Serves disk (.fresh disk) := by
  have fresh {c : Nat} {m : Mount} (there : (assemble [d] [(0, plan)]).mount? c = some m) : c = 0 ∧ m.device = 0 ∧
      ∀ (i : Nat) (sl : Slot), m.cache.table.slots[i]? = some sl → sl = Slot.fresh disk.blockSize := by
    obtain ⟨device, plan', planned, below, built, -⟩ := assemble_mount there
    obtain ⟨-, config, -, -, same, -, fresh⟩ := Plan.buildOver_ok built
    obtain ⟨zero, rfl, rfl⟩ : c = 0 ∧ 0 = device ∧ plan = plan' := by cases c <;> simp_all
    refine ⟨zero, below, fun i sl here => ?_⟩
    rw [← blockSize, ← same]
    exact Cache.slot_of_fresh (fresh ▸ here)
  refine ⟨fun {c m} there => ?_, ⟨d, rfl, like.blockSize, like.unreadable, like.content⟩, fun name => rfl, nofun,
    fun {i sl} here valid => ?_⟩
  · obtain ⟨zero, below, slots⟩ := fresh there
    exact ⟨zero, below, fun i sl here => slots i sl here ▸ ⟨List.length_replicate, nofun⟩⟩
  · obtain ⟨m, there, inTable⟩ := Option.bind_eq_some_iff.mp here
    exact absurd ((fresh there).2.2 i sl inTable ▸ valid) nofun

theorem Did.leases_of_quiet {done : Performed RamDisk} (did : s.Did act done) (quiet : act.quiet = true) :
    done.host.leases = s.leases := by
  cases did with
  | answered | denied | finished => cases quiet
  | wrote held there device flushed carried => cases quiet
  | edited which => rcases which with ⟨offset, part, rfl⟩ | ⟨byte, rfl⟩ <;> cases quiet
  | pinned held there device moved carried | unpinned held there device moved carried =>
      subst carried
      rfl
  | _ => rfl

theorem like_of_set {devices : Array RamDisk} {k j : Nat} {d d₁ d' : RamDisk} (here : devices[k]? = some d)
    (changed : devices[j]? = some d₁) (like : d'.Like d₁) :
    ∃ d₂, (devices.setIfInBounds j d')[k]? = some d₂ ∧ d₂.Like d := by
  by_cases same : j = k
  · subst same
    obtain rfl : d = d₁ := Option.some.inj (here.symm.trans changed)
    exact ⟨d', Array.getElem?_setIfInBounds_self_of_lt (Array.getElem?_eq_some_iff.mp here).1, like⟩
  · exact ⟨d, (Array.getElem?_setIfInBounds_ne same).trans here, rfl, rfl, rfl⟩

theorem Did.like_of_quiet {done : Performed RamDisk} (did : s.Did act done) (quiet : act.quiet = true) {k : Nat}
    {d : RamDisk} (here : s.devices[k]? = some d) : ∃ d', done.host.devices[k]? = some d' ∧ d'.Like d := by
  cases did with
  | turned pending there device turned => exact like_of_set here device turned.like
  | readPast device transfer reply =>
      subst transfer
      exact like_of_set here device (RamDisk.read_like _ _ _)
  | writtenPast | answered | denied | finished => cases quiet
  | wrote held there device flushed carried => cases quiet
  | pinned held there device moved carried | unpinned held there device moved carried =>
      subst carried
      exact like_of_set here device ⟨rfl, rfl, rfl⟩
  | stopped which held there device => exact like_of_set here device ⟨rfl, rfl, rfl⟩
  | edited which => rcases which with ⟨offset, part, rfl⟩ | ⟨byte, rfl⟩ <;> cases quiet
  | _ => exact ⟨d, here, rfl, rfl, rfl⟩

theorem fits_carry {c c' : Nat} {m m' : Mount} {cache : Cache} {d : RamDisk} {events : List Event}
    (fits : ∀ {c m}, s.mount? c = some m → m.cache.Fits disk) (there : s.mount? c' = some m) (after : cache.Fits disk)
    (there' : (s.carry c' m cache d events).mount? c = some m') : m'.cache.Fits disk := by
  by_cases same : c = c'
  · subst same
    obtain rfl := Option.some.inj ((carry_same there).symm.trans there')
    exact after
  · exact fits ((carry_other same).symm.trans there')

theorem Serves.fits_of_quiet (serves : s.Serves disk v) {done : Performed RamDisk} (did : s.Did act done)
    (quiet : act.quiet = true) {c : Nat} {m' : Mount} (there' : done.host.mount? c = some m') :
    m'.cache.Fits disk := by
  have fits {c : Nat} {m : Mount} (there : s.mount? c = some m) : m.cache.Fits disk := (serves.single there).2.2
  cases did with
  | @turned t p m d turn pending there device turned =>
      obtain ⟨-, zero, before⟩ := serves.single there
      obtain ⟨d₀, device₀, blockSize, unreadable, -⟩ := serves.device
      obtain rfl : d = d₀ := Option.some.inj (device.symm.trans (zero ▸ device₀))
      have after := turned.fits (before.of_like blockSize unreadable)
      exact fits_carry (d := turn.device) fits there (after.of_like blockSize.symm unreadable.symm) there'
  | writtenPast | answered | denied | finished => cases quiet
  | wrote held there device flushed carried => cases quiet
  | pinned held there device moved carried | unpinned held there device moved carried =>
      subst carried
      exact fits_carry fits there (moved.fits_of_quiet (fits there) rfl) there'
  | stopped which held there device => exact fits_carry fits there (fits there) there'
  | edited which => rcases which with ⟨offset, part, rfl⟩ | ⟨byte, rfl⟩ <;> cases quiet
  | _ => exact fits there'

theorem Sound.answered_ne_called (sound : s.Sound pins) (held : s.lease? name = some lease) (called : (t, p) ∈ s.calls)
    {lease' : Lease} (claim : p.lease? t = some lease') :
    (lease'.cache, lease'.slot) ≠ (lease.cache, lease.slot) := by
  intro same
  have distinct := sound.live_nodup
  rw [live, List.map_append, List.nodup_append] at distinct
  refine distinct.2.2 (lease.cache, lease.slot) ?_ (lease'.cache, lease'.slot) ?_ same.symm
  · exact List.mem_map_of_mem (List.mem_map_of_mem (mem_of_lookup held))
  · exact List.mem_map_of_mem (List.mem_filterMap.mpr ⟨(t, p), called, claim⟩)

theorem Sound.name_of_slot (sound : s.Sound pins) {name' : String} {lease' : Lease} (held : s.lease? name = some lease)
    (held' : s.lease? name' = some lease') (same : (lease.cache, lease.slot) = (lease'.cache, lease'.slot)) :
    name = name' := by
  have distinct := sound.live_nodup
  rw [live, List.map_append, List.map_map] at distinct
  have both :=
    List.inj_on_of_nodup_map (List.nodup_append.mp distinct).1 (mem_of_lookup held) (mem_of_lookup held') same
  exact (Prod.mk.inj both).1

theorem Sound.lease_kept (sound : s.Sound pins) (held : s.lease? name = some lease)
    (here : s.slot? lease.cache lease.slot = some sl) (quiet : act.quiet = true) :
    ∃ sl', (s.perform act).host.slot? lease.cache lease.slot = some sl' ∧ sl.Remains sl' ∧
      sl'.data.value = sl.data.value := by
  have live : lease ∈ s.live := List.mem_append_left _ (List.mem_map_of_mem (mem_of_lookup held))
  have referenced : sl.refcount ≠ 0 := by
    have count := sound.referenced_of_holder here (sound.holder_of_live live here)
    omega
  obtain ⟨sl', here', remains⟩ : ∃ sl', (s.perform act).host.slot? lease.cache lease.slot = some sl' ∧ sl.Remains sl' :=
    sound.advance_remains (.act act) here referenced
  have other : ¬ act.Through s lease := by
    cases act with
    | turn t =>
        rintro ⟨-, p, pending, cache, loading⟩
        have claim := (Pending.claims_lock (.inl loading) t).1
        exact sound.answered_ne_called held (mem_of_lookup pending) claim (by rw [cache])
    | put | fill => cases quiet
    | _ => exact id
  have bytes := sound.did_bytes (sound.perform_did act) live here other
  refine ⟨sl', here', remains, ?_⟩
  have content {s : Host RamDisk} {sl : Slot} (here : s.slot? lease.cache lease.slot = some sl) :
      s.content? lease.cache lease.slot = some sl.data.value := by
    obtain ⟨m, there, inTable⟩ := Option.bind_eq_some_iff.mp here
    simp [content?, Cache.content?, there, inTable]
  rw [content here, content here'] at bytes
  exact Option.some.inj bytes

theorem Serves.clean_after (serves : s.Serves disk v) (sound : s.Sound pins) (quiet : act.quiet = true) {i : Nat}
    {sl' : Slot} (here' : (s.perform act).host.slot? 0 i = some sl') (valid : sl'.valid = true)
    (free : ∀ name lease, (s.perform act).host.lease? name = some lease → lease.slot ≠ i) :
    sl'.data.value = v.saved sl'.key := by
  have did := sound.perform_did act
  have leases (name : String) : (s.perform act).host.lease? name = s.lease? name :=
    congrArg (List.lookup name) (did.leases_of_quiet quiet)
  obtain ⟨d, device, -, -, content⟩ := serves.device
  obtain ⟨d', device', like⟩ := did.like_of_quiet quiet device
  obtain ⟨m', there', inTable'⟩ := Option.bind_eq_some_iff.mp here'
  obtain ⟨m, there, -⟩ := did.becomes there'
  have follows : s.Follows [(0, ⟨1, 1, 1, .stop⟩)] := fun c m there => by
    obtain ⟨rfl, zero, -⟩ := serves.single there
    rw [zero]
    rfl
  have before := layers?_eq there device
  have after := layers?_eq there' device'
  have spared : act.writesPast [(0, ⟨1, 1, 1, .stop⟩)] 0 0 = false := by
    cases act with
    | write | deviceWrite => cases quiet
    | _ => rfl
  have unedited : act.edited? s (s.perform act).host ≠ some (0, i) := by
    cases act with
    | put | fill => cases quiet
    | _ => nofun
  have free (name : String) (lease : Lease) (held : s.lease? name = some lease) : lease.slot ≠ i :=
    free name lease ((leases name).trans held)
  rcases sound.did_content RamDisk.fronts follows rfl did spared before after i with ⟨rests, -⟩ | edited | mirrors
  · have face := rests.face
    rw [inTable', Option.map_some, eq_comm, Option.map_eq_some_iff] at face
    obtain ⟨sl, inTable, face⟩ := face
    simp only [Slot.face, Prod.mk.injEq] at face
    obtain ⟨-, key, valid', bytes⟩ := face
    rw [← key, ← bytes]
    exact serves.clean ((slot?_eq there i).trans inTable) (valid'.trans valid) free
  · exact absurd edited unedited
  · rw [mirrors sl' inTable' valid]
    exact congrFun (like.content.trans content) sl'.key

theorem Serves.quiet (serves : s.Serves disk v) (sound : s.Sound pins) (quiet : act.quiet = true) :
    (s.perform act).host.Serves disk v := by
  have did := sound.perform_did act
  have leases (name : String) : (s.perform act).host.lease? name = s.lease? name :=
    congrArg (List.lookup name) (did.leases_of_quiet quiet)
  obtain ⟨d, device, blockSize, unreadable, content⟩ := serves.device
  obtain ⟨d', device', like⟩ := did.like_of_quiet quiet device
  refine ⟨fun {c m'} there' => ?_, ?_, fun name => ?_, fun {name lease sl'} held here' => ?_,
    serves.clean_after sound quiet⟩
  · obtain ⟨m, there, becomes⟩ := did.becomes there'
    obtain ⟨rfl, zero, -⟩ := serves.single there
    exact ⟨rfl, becomes.device.trans zero, serves.fits_of_quiet did quiet there'⟩
  · exact ⟨d', device', like.blockSize.trans blockSize, like.unreadable.trans unreadable, like.content.trans content⟩
  · rw [serves.held, leases]
    cases held : s.lease? name with
    | none => rfl
    | some lease =>
        obtain ⟨sl, here⟩ := Option.isSome_iff_exists.mp (sound.leased _ (mem_of_lookup held))
        obtain ⟨sl', here', remains, bytes⟩ := sound.lease_kept held here quiet
        simp [here, here', remains.key, bytes]
  · have held : s.lease? name = some lease := (leases name).symm.trans held
    obtain ⟨sl, here⟩ := Option.isSome_iff_exists.mp (sound.leased _ (mem_of_lookup held))
    obtain ⟨sl₁, here₁, remains, -⟩ := sound.lease_kept held here quiet
    obtain rfl : sl₁ = sl' := Option.some.inj (here₁.symm.trans here')
    exact remains.valid (serves.leased held here)

end Host
end BlockCache
