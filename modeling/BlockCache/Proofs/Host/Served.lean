import BlockCache.Proofs.Host.Clients

/-!
# What clients do

What an act through a lease does to what the clients see: `Serves.edited`, `Serves.wrote`, `Serves.ended` and
`Serves.answered`.
-/

namespace BlockCache

namespace Clients

variable (v : Clients) (name : String)

def lease (key : Key) : Clients :=
  { v with held := fun other => if other = name then some (key, v.saved key) else v.held other }

def forget : Clients :=
  { v with held := fun other => if other = name then none else v.held other }

def edit (change : Bytes → Bytes) : Clients :=
  { v with held := fun other =>
      if other = name then (v.held name).map fun (key, bytes) => (key, change bytes) else v.held other }

def put (offset : Nat) (part : Bytes) : Clients :=
  match v.held name with
  | some (_, bytes) => if bytes.length < offset + part.length then v else v.edit name (Host.overwrite offset part)
  | none => v

def save : Clients :=
  match v.held name with
  | some (key, bytes) => { v with saved := fun other => if other = key then bytes else v.saved other }
  | none => v

variable {v : Clients} {name name' : String} {key : Key} {bytes : Bytes}

theorem lease_same : (v.lease name key).held name = some (key, v.saved key) := if_pos rfl

theorem lease_other (other : name' ≠ name) : (v.lease name key).held name' = v.held name' := if_neg other

theorem forget_same : (v.forget name).held name = none := if_pos rfl

theorem forget_other (other : name' ≠ name) : (v.forget name).held name' = v.held name' := if_neg other

theorem edit_same (known : v.held name = some (key, bytes)) (change : Bytes → Bytes) :
    (v.edit name change).held name = some (key, change bytes) := by
  simp [edit, known]

theorem edit_other (other : name' ≠ name) (change : Bytes → Bytes) : (v.edit name change).held name' = v.held name' :=
  if_neg other

theorem save_held (v : Clients) (name : String) : (v.save name).held = v.held := by
  unfold save
  split <;> rfl

theorem save_saved (known : v.held name = some (key, bytes)) (key' : Key) :
    (v.save name).saved key' = if key' = key then bytes else v.saved key' := by
  simp [save, known]

theorem forget_unknown (unknown : v.held name = none) : v.forget name = v := by
  have held : (v.forget name).held = v.held := by
    funext other
    by_cases same : other = name <;> simp [forget, same, unknown]
  exact congrArg (Clients.mk v.saved) held

theorem edit_unknown (unknown : v.held name = none) (change : Bytes → Bytes) : v.edit name change = v := by
  have held : (v.edit name change).held = v.held := by
    funext other
    by_cases same : other = name <;> simp [edit, same, unknown]
  exact congrArg (Clients.mk v.saved) held

end Clients

namespace Host

variable {s s' : Host RamDisk} {disk : RamDisk} {v : Clients} {pins : Nat → Nat → Nat} {name : String} {lease : Lease}
  {t : Thread} {p : Pending}

theorem mount?_congr (mounts : s'.mounts = s.mounts) (c : Nat) : s'.mount? c = s.mount? c := by
  rw [mount?, mounts, mount?]

theorem Serves.single_carry (serves : s.Serves disk v) {c : Nat} {m : Mount} (there : s.mount? c = some m)
    {cache : Cache} (after : cache.Fits disk) {d : RamDisk} {events : List Event} {c' : Nat} {m' : Mount}
    (there' : (s.carry c m cache d events).mount? c' = some m') : c' = 0 ∧ m'.device = 0 ∧ m'.cache.Fits disk := by
  have fits := fits_carry (fun there => (serves.single there).2.2) there after there'
  by_cases same : c' = c
  · subst same
    obtain ⟨zero, below, -⟩ := serves.single there
    obtain rfl := Option.some.inj ((carry_same there).symm.trans there')
    exact ⟨zero, below, fits⟩
  · obtain ⟨zero, below, -⟩ := serves.single ((carry_other same).symm.trans there')
    exact ⟨zero, below, fits⟩

theorem slots_of_moved {c i : Nat} {m : Mount} (there : s.mount? c = some m) {move : Move} {cache : Cache}
    (moved : m.cache.Moved move cache) (slot : move.slot = i) {d : RamDisk} {events : List Event}
    (mounts : s'.mounts = (s.carry c m cache d events).mounts) {sl : Slot} (here : s.slot? c i = some sl) :
    s'.slot? c i = some (move.change sl) ∧ ∀ {c' i' : Nat}, (c', i') ≠ (c, i) → s'.slot? c' i' = s.slot? c' i' := by
  subst slot
  have step := carry_movedAt there moved d events
  have slots (c' i' : Nat) : s'.slot? c' i' = (s.carry c m cache d events).slot? c' i' := by
    rw [slot?, mount?_congr mounts, slot?]
  exact ⟨(slots _ _).trans (step.slot_same here), fun away => (slots _ _).trans (step.slot_other away)⟩

theorem Serves.moved (serves : s.Serves disk v) (sound : s.Sound pins) (held : s.lease? name = some lease) {m : Mount}
    (there : s.mount? lease.cache = some m) {d d' : RamDisk} (device : s.devices[m.device]? = some d) {move : Move}
    {cache : Cache} (moved : m.cache.Moved move cache) (slot : move.slot = lease.slot) {events : List Event}
    {v' : Clients} (mounts : s'.mounts = (s.carry lease.cache m cache d' events).mounts)
    (devices : s'.devices = (s.carry lease.cache m cache d' events).devices)
    (disks : d'.blockSize = disk.blockSize ∧ d'.unreadable = disk.unreadable ∧ d'.content = v'.saved)
    (others : ∀ name' ≠ name, s'.lease? name' = s.lease? name' ∧ v'.held name' = v.held name')
    (saved : ∀ i ≠ lease.slot, ∀ sl, s.slot? 0 i = some sl → sl.valid = true → v'.saved sl.key = v.saved sl.key)
    (own : ∀ sl, s.slot? lease.cache lease.slot = some sl → (move.change sl).Fits disk ∧
      (s'.lease? name = some lease ∧ v'.held name = some ((move.change sl).key, (move.change sl).data.value) ∧
          (move.change sl).valid = true ∨
        s'.lease? name = none ∧ v'.held name = none ∧
          ((move.change sl).valid = true → (move.change sl).data.value = v'.saved (move.change sl).key))) :
    s'.Serves disk v' := by
  obtain ⟨zero, below, fits⟩ := serves.single there
  obtain ⟨sl, here⟩ := Option.isSome_iff_exists.mp (sound.leased _ (mem_of_lookup held))
  obtain ⟨fitting, own⟩ := own sl here
  have inTable : m.cache.table.slots[move.slot]? = some sl := slot ▸ (slot?_eq there _).symm.trans here
  obtain ⟨same, other⟩ := slots_of_moved there moved slot mounts here
  have elsewhere {name' : String} {lease' : Lease} (different : name' ≠ name) (held' : s.lease? name' = some lease') :
      s'.slot? lease'.cache lease'.slot = s.slot? lease'.cache lease'.slot :=
    other fun same => different (sound.name_of_slot held' held same)
  refine ⟨fun there' => ?_, ⟨d', ?_, disks⟩, fun name' => ?_, fun {name' lease' sl'} held' here' => ?_,
    fun {i sl'} here' valid free => ?_⟩
  · have changed : cache.Fits disk := moved.fits fits fun sl' here' =>
      Option.some.inj (inTable.symm.trans here') ▸ fitting
    exact serves.single_carry there changed ((mount?_congr mounts _).symm.trans there')
  · rw [devices, ← below]
    exact Array.getElem?_setIfInBounds_self_of_lt (Array.getElem?_eq_some_iff.mp device).1
  · by_cases this : name' = name
    · subst this
      rcases own with ⟨held', known, -⟩ | ⟨ended, known, -⟩
      · simp [known, held', same]
      · simp [known, ended]
    · obtain ⟨leases, known⟩ := others name' this
      rw [known, serves.held, leases]
      cases held' : s.lease? name' with
      | none => rfl
      | some lease' => simp [elsewhere this held']
  · by_cases this : name' = name
    · subst this
      rcases own with ⟨held₁, -, valid⟩ | ⟨ended, -⟩
      · obtain rfl : lease = lease' := Option.some.inj (held₁.symm.trans held')
        obtain rfl := Option.some.inj (same.symm.trans here')
        exact valid
      · exact absurd (ended.symm.trans held') (by simp)
    · have held' := (others name' this).1.symm.trans held'
      exact serves.leased held' ((elsewhere this held').symm.trans here')
  · by_cases this : i = lease.slot
    · subst this
      rcases own with ⟨held', -⟩ | ⟨-, -, kept⟩
      · exact absurd rfl (free name lease held')
      · obtain rfl := Option.some.inj (same.symm.trans (zero ▸ here'))
        exact kept valid
    · have here₀ : s.slot? 0 i = some sl' := (other (by simp [this])).symm.trans here'
      rw [saved i this sl' here₀ valid]
      refine serves.clean here₀ valid fun name' lease' held' => ?_
      by_cases own' : name' = name
      · subst own'
        obtain rfl : lease = lease' := Option.some.inj (held.symm.trans held')
        exact Ne.symm this
      · exact free name' lease' ((others name' own').1.trans held')

theorem Serves.seen (serves : s.Serves disk v) (sound : s.Sound pins) (name : String) :
    (s.lease? name = none ∧ v.held name = none) ∨ ∃ lease sl, s.lease? name = some lease ∧
      s.slot? lease.cache lease.slot = some sl ∧ s.bytes lease = sl.data.value ∧ sl.valid = true ∧
        v.held name = some (sl.key, sl.data.value) := by
  have known := serves.held name
  cases held : s.lease? name with
  | none => exact .inl ⟨rfl, by rw [known, held]; rfl⟩
  | some lease =>
      obtain ⟨sl, here⟩ := Option.isSome_iff_exists.mp (sound.leased _ (mem_of_lookup held))
      obtain ⟨m, there, inTable⟩ := Option.bind_eq_some_iff.mp here
      refine .inr ⟨lease, sl, rfl, here, ?_, serves.leased held here, ?_⟩
      · simp [bytes, there, Cache.bytes, inTable]
      · simp [known, held, here]

theorem Serves.under (serves : s.Serves disk v) (sound : s.Sound pins) {key : Key} {bytes : Bytes}
    (known : v.held name = some (key, bytes)) : ∃ lease sl, s.lease? name = some lease ∧
      s.slot? lease.cache lease.slot = some sl ∧ sl.key = key ∧ sl.data.value = bytes ∧ s.bytes lease = bytes ∧
        sl.valid = true := by
  rcases serves.seen sound name with ⟨-, unknown⟩ | ⟨lease, sl, held, here, content, valid, seen⟩
  · exact absurd (unknown.symm.trans known) nofun
  · obtain ⟨rfl, rfl⟩ : sl.key = key ∧ sl.data.value = bytes := by simpa [known, eq_comm] using seen
    exact ⟨lease, sl, held, here, rfl, rfl, content, valid⟩

theorem Serves.readable (serves : s.Serves disk v) (sound : s.Sound pins) {key : Key} {bytes : Bytes}
    (known : v.held name = some (key, bytes)) : disk.unreadable key = none := by
  obtain ⟨lease, sl, held, here, rfl, -, -, valid⟩ := serves.under sound known
  obtain ⟨m, there, inTable⟩ := Option.bind_eq_some_iff.mp here
  exact ((serves.single there).2.2 _ sl inTable).readable valid

theorem Serves.distinct (serves : s.Serves disk v) (sound : s.Sound pins) {name' : String} {key : Key}
    {bytes bytes' : Bytes} (known : v.held name = some (key, bytes)) (known' : v.held name' = some (key, bytes')) :
    name = name' := by
  obtain ⟨lease, sl, held, here, rfl, -, -, valid⟩ := serves.under sound known
  obtain ⟨lease', sl', held', here', same, -, -, valid'⟩ := serves.under sound known'
  have caches : lease.cache = lease'.cache := (serves.cache_eq sound held).trans (serves.cache_eq sound held').symm
  obtain ⟨m, there, inTable⟩ := Option.bind_eq_some_iff.mp here
  have inTable' := (slot?_eq there _).symm.trans (caches ▸ here')
  have consistent := (sound.tables there).consistent
  have slots := consistent.distinct inTable inTable' ((consistent.proper inTable).valid valid)
    ((consistent.proper inTable').valid valid') same.symm
  exact sound.name_of_slot held held' (by rw [caches, slots])

theorem Serves.unused (serves : s.Serves disk v) (sound : s.Sound pins) (free : v.held name = none) :
    s.lease? name = none := by
  rcases serves.seen sound name with ⟨unused, -⟩ | ⟨lease, sl, -, -, -, -, known⟩
  · exact unused
  · exact absurd (free.symm.trans known) nofun

theorem Serves.ended (serves : s.Serves disk v) (sound : s.Sound pins) {events : List Event}
    (ended : s.Ended name events s') (saved : ∀ key bytes, v.held name = some (key, bytes) → bytes = v.saved key) :
    s'.Serves disk (v.forget name) := by
  have free := ended.free
  obtain ⟨lease, m, d, cache, held, there, device, -, moved, rfl⟩ := ended
  obtain ⟨d₀, device₀, disks⟩ := serves.device
  obtain ⟨zero, below, fits⟩ := serves.single there
  obtain rfl : d = d₀ := Option.some.inj (device.symm.trans (below ▸ device₀))
  refine serves.moved sound held there device moved rfl rfl rfl disks (fun name' other => ⟨lookup_filter other, ?_⟩)
    (fun _ _ _ _ _ => rfl) fun sl here => ⟨?_, .inr ⟨free, ?_, fun valid => ?_⟩⟩
  · exact Clients.forget_other other
  · obtain ⟨length, readable⟩ := fits _ sl ((slot?_eq there _).symm.trans here)
    exact ⟨length, readable⟩
  · exact Clients.forget_same
  · have known : v.held name = some (sl.key, sl.data.value) := by simp [serves.held, held, here]
    exact saved _ _ known

theorem Serves.wrote (serves : s.Serves disk v) (sound : s.Sound pins) {t : Thread} {c : Nat} {view : Cache.View}
    (written : (s.write t c name).reply = .lease view) : (s.write t c name).host.Serves disk (v.save name) := by
  have did := sound.write_did t c name
  generalize s.write t c name = done at did written ⊢
  cases did with
  | refused | foreign => cases written
  | stopped which => rcases which with pin | unpin <;> contradiction
  | edited which => rcases which with ⟨offset, part, put⟩ | ⟨byte, fill⟩ <;> contradiction
  | @wrote _ _ lease m d s' turn held there device flushed carried =>
      subst carried
      cases flushed with
      | unauthorized | failed => cases written
      | @kept sl cache inTable holder success moved =>
          obtain ⟨d₀, device₀, blockSize, unreadable, content⟩ := serves.device
          obtain ⟨zero, below, fits⟩ := serves.single there
          obtain rfl : d = d₀ := Option.some.inj (device.symm.trans (below ▸ device₀))
          have here : s.slot? lease.cache lease.slot = some sl := (slot?_eq there _).trans inTable
          have known : v.held name = some (sl.key, sl.data.value) := by simp [serves.held, held, here]
          have valid := serves.leased held here
          obtain ⟨length, readable⟩ := fits _ sl inTable
          have readable : d.unreadable sl.key = none := unreadable ▸ readable valid
          have length : sl.data.value.length = d.blockSize := length.trans blockSize.symm
          have saved := Clients.save_saved known
          have kept := v.save_held name
          have disks : (d.write sl.key sl.data.value).device.content = (v.save name).saved := by
            funext key
            rw [saved, ← content]
            exact RamDisk.write_content success key
          refine serves.moved sound held there device moved rfl rfl rfl
            ⟨(RamDisk.write_limits d _ _).1.trans blockSize,
              (RamDisk.write_unreadable readable length).trans unreadable, disks⟩
            (fun name' other => ⟨rfl, by rw [kept]⟩) (fun i other sl' here' valid' => ?_) fun sl' here' => ?_
          · have consistent := (sound.tables there).consistent
            have inTable' := (slot?_eq there i).symm.trans (zero ▸ here')
            have different : sl'.key ≠ sl.key := fun same => other (consistent.distinct inTable' inTable
              ((consistent.proper inTable').valid valid') ((consistent.proper inTable).valid valid) same)
            simp [saved, different]
          · obtain rfl : sl = sl' := Option.some.inj (here.symm.trans here')
            exact ⟨⟨(fits _ sl inTable).length, fun _ => (fits _ sl inTable).readable valid⟩,
              .inl ⟨held, kept ▸ known, rfl⟩⟩

theorem Serves.edited (serves : s.Serves disk v) (sound : s.Sound pins) {key : Key} {bytes : Bytes}
    (known : v.held name = some (key, bytes)) (change : Bytes → Bytes) (length : (change bytes).length = bytes.length) :
    (s.edit name change).reply = .done ∧ (s.edit name change).host.Serves disk (v.edit name change) := by
  obtain ⟨lease, sl, held, here, rfl, rfl, -, valid⟩ := serves.under sound known
  obtain ⟨m, d, sl', there, device, table, inTable, holder⟩ := sound.held held
  obtain rfl : sl = sl' := Option.some.inj (here.symm.trans ((slot?_eq there _).trans inTable))
  have content : m.cache.bytes lease.slot = sl.data.value := by simp [Cache.bytes, inTable]
  obtain ⟨cache, changed, moved⟩ := Cache.setBytes_moved table inTable (Cache.locked_of_holder table inTable holder)
    (change (m.cache.bytes lease.slot))
  have done : s.edit name change = ⟨s.carry lease.cache m cache d [], .done, []⟩ := by
    simp [edit, onLease_carry held there device, Turn.ofUpdate_ok changed]
  obtain ⟨zero, below, fits⟩ := serves.single there
  obtain ⟨d₀, device₀, disks⟩ := serves.device
  obtain rfl : d = d₀ := Option.some.inj (device.symm.trans (below ▸ device₀))
  rw [content] at moved
  rw [done]
  refine ⟨rfl, serves.moved sound held there device moved rfl rfl rfl disks (fun name' other => ⟨rfl, ?_⟩)
    (fun _ _ _ _ _ => rfl) fun sl' here' => ?_⟩
  · exact Clients.edit_other other change
  · obtain rfl : sl = sl' := Option.some.inj (here.symm.trans here')
    obtain ⟨fitting, readable⟩ := fits _ sl inTable
    exact ⟨⟨length.trans fitting, readable⟩, .inl ⟨held, Clients.edit_same known change, valid⟩⟩

theorem Serves.put (serves : s.Serves disk v) (sound : s.Sound pins) (offset : Nat) (part : Bytes) :
    (s.put name offset part).host.Serves disk (v.put name offset part) := by
  rcases serves.seen sound name with ⟨free, unknown⟩ | ⟨lease, sl, held, -, bytes, -, known⟩
  · simpa [Host.put, free, refuse, Clients.put, unknown] using serves
  · simp only [Host.put, held, bytes, Clients.put, known]
    by_cases short : sl.data.value.length < offset + part.length
    · rw [if_pos short, if_pos short]
      exact serves
    · rw [if_neg short, if_neg short]
      refine (serves.edited sound known _ ?_).2
      simp only [overwrite, List.length_append, List.length_take, List.length_drop]
      omega

theorem Serves.fill (serves : s.Serves disk v) (sound : s.Sound pins) (byte : UInt8) :
    (s.fill name byte).host.Serves disk (v.edit name fun bytes => List.replicate bytes.length byte) := by
  rcases serves.seen sound name with ⟨free, unknown⟩ | ⟨lease, sl, held, -, bytes, -, known⟩
  · rw [Clients.edit_unknown unknown]
    simpa [Host.fill, edit, onLease, free, refuse] using serves
  · exact (serves.edited sound known _ List.length_replicate).2

theorem Serves.write_reply (serves : s.Serves disk v) (sound : s.Sound pins) (held : s.lease? name = some lease) :
    ∃ view, (s.write lease.thread 0 name).reply = .lease view := by
  obtain ⟨m, d, sl, there, device, table, inTable, holder⟩ := sound.held held
  obtain ⟨zero, below, fits⟩ := serves.single there
  obtain ⟨d₀, device₀, blockSize, unreadable, -⟩ := serves.device
  obtain rfl : d = d₀ := Option.some.inj (device.symm.trans (below ▸ device₀))
  have here : s.slot? lease.cache lease.slot = some sl := (slot?_eq there _).trans inTable
  have length : sl.data.value.length = d.blockSize := (fits _ sl inTable).length.trans blockSize.symm
  have readable : d.unreadable sl.key = none := unreadable ▸ (fits _ sl inTable).readable (serves.leased held here)
  have success := RamDisk.write_success readable length
  have flushed := Cache.flush_flushed table inTable lease.thread d
  have own : (some 0).getD lease.cache = lease.cache := zero.symm
  rw [Host.write, callOn_own held there own, onLease_carry held there device]
  dsimp only
  generalize Cache.flush lease.thread lease.slot m.cache d = turn at flushed
  cases flushed with
  | @unauthorized sl' stop inTable' denied =>
      obtain rfl : sl = sl' := Option.some.inj (inTable.symm.trans inTable')
      exact absurd holder (denied.stranger (by simp))
  | @failed sl' failure inTable' holder' broken =>
      obtain rfl : sl = sl' := Option.some.inj (inTable.symm.trans inTable')
      exact absurd (success.symm.trans broken) (by simp)
  | kept inTable' holder' success moved =>
      exact ⟨_, view_eq ((carry_movedAt there moved _ _).slot_same here)⟩

theorem Serves.write (serves : s.Serves disk v) (sound : s.Sound pins)
    (own : ∀ lease, s.lease? name = some lease → lease.thread = t) :
    (s.write t 0 name).host.Serves disk (v.save name) := by
  rcases serves.seen sound name with ⟨free, unknown⟩ | ⟨lease, -, held, -⟩
  · simpa [Host.write, callOn, free, refuse, Clients.save, unknown] using serves
  · obtain ⟨view, written⟩ := serves.write_reply sound held
    exact own lease held ▸ serves.wrote sound written

theorem answer_eq (pending : s.pending? t = some p) {i : Nat} (granted : p.stage = .granted i)
    (free : s.lease? p.name = none) : s.answer t = ⟨{ s.removePending t with
      leases := s.leases ++ [(p.name, ⟨p.cache, i, t⟩)] }, s.view ⟨p.cache, i, t⟩, p.events⟩ := by
  have free : (s.removePending t).lease? p.name = none := free
  simp only [answer, pending, granted, drop, onLease, free, refuse]
  rfl

theorem Serves.answered (serves : s.Serves disk v) (sound : s.Sound pins) (pending : s.pending? t = some p) {i : Nat}
    (granted : p.stage = .granted i) (loads : p.call.loads = true) (free : s.lease? p.name = none) :
    (∃ view, (s.answer t).reply = .lease view) ∧ (s.answer t).host.Serves disk (v.lease p.name p.call.key) := by
  have called := mem_of_lookup pending
  have supports : s.Supports p := sound.called _ called
  obtain ⟨sl, here, key, valid⟩ := supports.slot (i := i) (by rw [granted]; rfl)
  obtain ⟨m, there⟩ := Option.isSome_iff_exists.mp supports.mounted
  obtain ⟨zero, -⟩ := serves.single there
  have valid := valid granted loads
  have claim := (Pending.claims_lock (.inr granted) t).1
  have unleased (name : String) (lease : Lease) (held : s.lease? name = some lease) : lease.slot ≠ i := fun same =>
    sound.answered_ne_called held called claim (by rw [serves.cache_eq sound held, zero, same])
  have content : sl.data.value = v.saved p.call.key := key ▸ serves.clean (zero ▸ here) valid unleased
  rw [answer_eq pending granted free]
  have own : ({ s.removePending t with leases := s.leases ++ [(p.name, ⟨p.cache, i, t⟩)] } :
      Host RamDisk).lease? p.name = some ⟨p.cache, i, t⟩ := by
    have free : s.leases.lookup p.name = none := free
    simp [lease?, List.lookup_append, free]
  have others (name : String) (other : name ≠ p.name) :
      ({ s.removePending t with leases := s.leases ++ [(p.name, ⟨p.cache, i, t⟩)] } : Host RamDisk).lease? name =
        s.lease? name := by
    simp [lease?, List.lookup_append, List.lookup_cons, beq_false_of_ne other]
  refine ⟨⟨_, view_eq here⟩, serves.single, serves.device, fun name => ?_, fun {name lease sl'} held here' => ?_,
    fun {j sl'} here' valid' unleased' => ?_⟩
  · by_cases same : name = p.name
    · subst same
      rw [own]
      show (v.lease p.name p.call.key).held p.name = (s.slot? p.cache i).map fun sl => (sl.key, sl.data.value)
      simp [Clients.lease_same, here, key, content]
    · rw [others name same]
      exact (Clients.lease_other same).trans (serves.held name)
  · by_cases same : name = p.name
    · subst same
      obtain rfl := Option.some.inj (own.symm.trans held)
      exact Option.some.inj (here.symm.trans here') ▸ valid
    · exact serves.leased ((others name same).symm.trans held) here'
  · refine serves.clean here' valid' fun name lease held => ?_
    by_cases same : name = p.name
    · exact absurd (same ▸ held) (by simp [free])
    · exact unleased' name lease ((others name same).trans held)

end Host
end BlockCache
