import BlockCache.Proofs.Host.Walks

/-!
# What is asked of devices

A cache has its device read or write a block for one of its slots, and others may use the device past its caches.
`Sound.advance_devices` says that nothing else happens to the devices in a step, whatever a device makes of a transfer:
even one that does nothing but keep a list of what it was asked for has been asked for these transfers only.
-/

namespace BlockCache

inductive Access
  | read (key : Key) (buffer : Bytes)
  | write (key : Key) (bytes : Bytes)
deriving DecidableEq

def Access.carryOut {δ : Type} [BlockDevice δ] (d : δ) : Access → Transfer δ
  | read key buffer => BlockDevice.read d key buffer
  | write key bytes => BlockDevice.write d key bytes

structure Use where
  cache : Nat
  slot : Nat
  access : Access
deriving DecidableEq

def Use.reads (use : Use) (c : Nat) (key : Key) : Bool :=
  match use.access with
  | .read key' _ => use.cache = c ∧ key' = key
  | .write .. => false

def Step.past? : Step → Option (Nat × Access)
  | act (.deviceRead k key length) => some (k, .read key (List.replicate length 0))
  | act (.deviceWrite k key bytes) => some (k, .write key bytes)
  | _ => none

theorem Call.Turned.device_eq {δ : Type} [BlockDevice δ] {call : Call} {t : Thread} {cancelled : Token → Bool}
    {c : Cache} {d : δ} {stage : Stage} {turn : Turn δ Stage} (turned : call.Turned t cancelled c d stage turn) :
    (∃ i sl, stage = .loading i ∧ c.table.slots[i]? = some sl ∧ sl.valid = false ∧
        turn.device = (BlockDevice.read d sl.key sl.data.value).device) ∨
      turn.device = d ∧ ∀ i sl, stage = .loading i → c.table.slots[i]? = some sl → sl.valid = true := by
  cases turned with
  | loaded here invalid | unloaded here invalid => exact .inl ⟨_, _, rfl, here, invalid, rfl⟩
  | valid here valid =>
      refine .inr ⟨rfl, fun i sl same here' => ?_⟩
      cases same
      exact Option.some.inj (here.symm.trans here') ▸ valid
  | settled done => rcases done with ⟨_, rfl⟩ | ⟨_, rfl⟩ <;> exact .inr ⟨rfl, nofun⟩
  | _ => exact .inr ⟨rfl, nofun⟩

namespace Host

variable {δ : Type}

def reading? (s : Host δ) (t : Thread) : Option Use :=
  (s.pending? t).bind fun p =>
    match p.stage with
    | .loading i => (s.slot? p.cache i).bind fun sl =>
        if sl.valid then none else some ⟨p.cache, i, .read sl.key sl.data.value⟩
    | _ => none

variable [BlockDevice δ]

/-- What a step makes a cache ask of its device. One that is refused makes it ask nothing. -/
def use? (s : Host δ) (step : Step) : Option Use :=
  if (s.advance step).reply.isRefused then none
  else
    match step with
    | .act (.turn t) | .spoil t => s.reading? t
    | .act (.write t c name) => (s.lease? name).bind fun lease => (s.slot? c lease.slot).bind fun sl =>
        if c = lease.cache ∧ sl.data.holder = some t then some ⟨c, lease.slot, .write sl.key sl.data.value⟩ else none
    | _ => none

def asked? (s : Host δ) (step : Step) : Option (Nat × Access) :=
  if (s.advance step).reply.isRefused then none
  else step.past? <|> (s.use? step).bind fun use => (s.mount? use.cache).map fun m => (m.device, use.access)

/-- The devices after a step: one of them has done what it was asked for. -/
def devicesAfter (s : Host δ) (step : Step) : Array δ :=
  (s.asked? step).elim s.devices fun (k, access) => s.devices.modify k fun d => (access.carryOut d).device

variable {s : Host δ} {pins : Nat → Nat → Nat} {c i : Nat} {m : Mount} {d : δ} {events : List Event} {t : Thread}
  {p : Pending} {step : Step} {done : Performed δ}

omit [BlockDevice δ] in
theorem setIfInBounds_eq_modify {xs : Array δ} {k : Nat} (here : xs[k]? = some d) (f : δ → δ) :
    xs.setIfInBounds k (f d) = xs.modify k f := by
  refine Array.ext_getElem? fun j => ?_
  rw [Array.getElem?_modify]
  by_cases same : k = j
  · subst same
    rw [Array.getElem?_setIfInBounds_self_of_lt (Array.getElem?_eq_some_iff.mp here).1, if_pos rfl, here, Option.map_some]
  · rw [Array.getElem?_setIfInBounds_ne same, if_neg same]

omit [BlockDevice δ] in
theorem Ended.devices_eq {name : String} {s' : Host δ} (ended : s.Ended name events s') : s'.devices = s.devices := by
  obtain ⟨lease, m, d, cache, -, -, device, -, -, rfl⟩ := ended
  exact setIfInBounds_self device

omit [BlockDevice δ] in
theorem reading?_eq_some {use : Use} (reading : s.reading? t = some use) :
    ∃ p sl, s.pending? t = some p ∧ p.stage = .loading use.slot ∧ p.cache = use.cache ∧
      s.slot? use.cache use.slot = some sl ∧ sl.valid = false ∧ use.access = .read sl.key sl.data.value := by
  obtain ⟨p, pending, reads⟩ := Option.bind_eq_some_iff.mp reading
  split at reads
  · rename_i i stage
    obtain ⟨sl, here, reads⟩ := Option.bind_eq_some_iff.mp reads
    split at reads
    · cases reads
    · rename_i invalid
      cases reads
      exact ⟨p, sl, pending, stage, rfl, here, by simpa using invalid, rfl⟩
  · cases reads

omit [BlockDevice δ] in
theorem reading?_of_loading (pending : s.pending? t = some p) (loading : p.stage = .loading i)
    (there : s.mount? p.cache = some m) {sl : Slot} (here : m.cache.table.slots[i]? = some sl)
    (invalid : sl.valid = false) : s.reading? t = some ⟨p.cache, i, .read sl.key sl.data.value⟩ := by
  simp [reading?, pending, loading, slot?_eq there, here, invalid]

theorem use?_of_refused (refused : (s.advance step).reply.isRefused = true) : s.use? step = none := if_pos refused

theorem use?_cases {use : Use} (used : s.use? step = some use) :
    (∃ t, s.reading? t = some use) ∨ ∃ key bytes, use.access = .write key bytes := by
  have answered : ¬ (s.advance step).reply.isRefused = true := fun refused => by
    simp [use?_of_refused refused] at used
  cases step with
  | act act =>
      cases act with
      | turn t => exact .inl ⟨t, by simpa [use?, answered] using used⟩
      | write t c name =>
          simp only [use?, if_neg answered, Option.bind_eq_some_iff] at used
          obtain ⟨lease, -, sl, -, used⟩ := used
          split at used
          · cases used
            exact .inr ⟨_, _, rfl⟩
          · cases used
      | _ => simp [use?] at used
  | spoil t => exact .inl ⟨t, by simpa [use?, answered] using used⟩
  | _ => simp [use?] at used

theorem past?_of_use {use : Use} (used : s.use? step = some use) : step.past? = none := by
  cases step with
  | act act => cases act <;> simp [use?] at used <;> rfl
  | _ => rfl

theorem devicesAfter_of_refused (refused : (s.advance step).reply.isRefused = true) : s.devicesAfter step = s.devices := by
  simp [devicesAfter, asked?, refused]

theorem devicesAfter_of_unused (unused : s.use? step = none) (within : step.past? = none) :
    s.devicesAfter step = s.devices := by
  simp [devicesAfter, asked?, unused, within]

theorem devicesAfter_of_past {k : Nat} {access : Access} (past : step.past? = some (k, access))
    (answered : (s.advance step).reply.isRefused = false) (device : s.devices[k]? = some d) :
    s.devices.setIfInBounds k (access.carryOut d).device = s.devicesAfter step := by
  simp [devicesAfter, asked?, answered, past, setIfInBounds_eq_modify device fun d => (access.carryOut d).device]

theorem devicesAfter_of_use {use : Use} (used : s.use? step = some use) (there : s.mount? use.cache = some m)
    (device : s.devices[m.device]? = some d) :
    s.devices.setIfInBounds m.device (use.access.carryOut d).device = s.devicesAfter step := by
  have answered : (s.advance step).reply.isRefused = false := by
    by_contra refused
    simp [use?_of_refused (Bool.not_eq_false _ ▸ refused)] at used
  simp [devicesAfter, asked?, answered, past?_of_use used, used, there,
    setIfInBounds_eq_modify device fun d => (use.access.carryOut d).device]

theorem turned_devices {turn : Turn δ Stage} (pending : s.pending? t = some p)
    (there : s.mount? p.cache = some m) (device : s.devices[m.device]? = some d)
    (turned : p.call.Turned t s.isCancelled m.cache d p.stage turn)
    (answered : (s.advance (.act (.turn t))).reply.isRefused = false) :
    (s.carry p.cache m turn.cache turn.device turn.events).devices = s.devicesAfter (.act (.turn t)) := by
  have used : s.use? (.act (.turn t)) = s.reading? t := by simp [use?, answered]
  rcases turned.device_eq with ⟨i, sl, loading, here, invalid, same⟩ | ⟨same, valid⟩
  · rw [same]
    exact devicesAfter_of_use (used.trans (reading?_of_loading pending loading there here invalid)) there device
  · refine .trans ?_ (devicesAfter_of_unused ?_ rfl).symm
    · exact same ▸ setIfInBounds_self device
    rw [used]
    refine Option.eq_none_iff_forall_not_mem.mpr fun use reading => ?_
    obtain ⟨p', sl, pending', loading, cache, here, invalid, -⟩ := reading?_eq_some reading
    obtain rfl := Option.some.inj (pending.symm.trans pending')
    rw [← cache, slot?_eq there] at here
    exact absurd (invalid.symm.trans (valid _ sl loading here)) nofun

theorem use?_write {name : String} {lease : Lease} (held : s.lease? name = some lease)
    (there : s.mount? lease.cache = some m) {sl : Slot} (here : m.cache.table.slots[lease.slot]? = some sl)
    (answered : (s.advance (.act (.write t lease.cache name))).reply.isRefused = false) :
    s.use? (.act (.write t lease.cache name)) =
      if sl.data.holder = some t then some ⟨lease.cache, lease.slot, .write sl.key sl.data.value⟩ else none := by
  simp [use?, answered, held, slot?_eq there, here]

theorem Sound.wrote_answered (sound : s.Sound pins) {name : String} {lease : Lease} {turn : Turn δ (Option Failure)}
    (held : s.lease? name = some lease) (there : s.mount? lease.cache = some m)
    (flushed : m.cache.Flushed d t lease.slot turn) :
    ((turn.result.map Reply.failed).getD
      ((s.carry lease.cache m turn.cache turn.device turn.events).view lease)).isRefused = false := by
  obtain ⟨sl, here⟩ := Option.isSome_iff_exists.mp ((sound.wrote there flushed).leased _ (mem_of_lookup held))
  rw [view_eq here]
  exact Reply.answered_of_failure turn.result id rfl

theorem wrote_devices {name : String} {lease : Lease} {turn : Turn δ (Option Failure)}
    (held : s.lease? name = some lease) (there : s.mount? lease.cache = some m)
    (device : s.devices[m.device]? = some d) (flushed : m.cache.Flushed d t lease.slot turn)
    (answered : (s.advance (.act (.write t lease.cache name))).reply.isRefused = false) :
    (s.carry lease.cache m turn.cache turn.device turn.events).devices =
      s.devicesAfter (.act (.write t lease.cache name)) := by
  have used {sl : Slot} (here : m.cache.table.slots[lease.slot]? = some sl) := use?_write held there here answered
  cases flushed with
  | unauthorized here denied =>
      exact (setIfInBounds_self device).trans
        (devicesAfter_of_unused ((used here).trans (if_neg (denied.stranger nofun))) rfl).symm
  | failed here holder | kept here holder =>
      exact devicesAfter_of_use ((used here).trans (if_pos holder)) there device

theorem Sound.did_devices (sound : s.Sound pins) {act : Act} (did : s.Did act done) (same : s.advance (.act act) = done) :
    done.host.devices = s.devicesAfter (.act act) := by
  have reply : (s.advance (.act act)).reply = done.reply := congrArg Performed.reply same
  have still (plain : s.use? (.act act) = none) (within : (Step.act act).past? = none)
      (still : done.host.devices = s.devices) : done.host.devices = s.devicesAfter (.act act) :=
    still.trans (devicesAfter_of_unused plain within).symm
  cases did with
  | refused act why => exact (devicesAfter_of_refused (reply ▸ rfl)).symm
  | @readPast k d key length tr device transfer reply' answered =>
      subst transfer
      have asks : (Step.act (.deviceRead k key length)).past? = some (k, .read key (List.replicate length 0)) := rfl
      exact devicesAfter_of_past asks (by rw [reply]; exact answered) device
  | @writtenPast k d key bytes tr device transfer reply' answered =>
      subst transfer
      have asks : (Step.act (.deviceWrite k key bytes)).past? = some (k, .write key bytes) := rfl
      exact devicesAfter_of_past asks (by rw [reply]; exact answered) device
  | turned pending there device turned => exact turned_devices pending there device turned (reply ▸ rfl)
  | @wrote t name lease m d s' turn held there device flushed carried =>
      subst carried
      have answered := sound.wrote_answered held there flushed
      exact wrote_devices held there device flushed (by rw [reply]; exact answered)
  | foreign op which held other =>
      refine still ?_ ?_ rfl
      · rcases which with rfl | rfl | rfl <;> simp [use?, held, other]
      · rcases which with rfl | rfl | rfl <;> rfl
  | answered pending granted dropped =>
      refine still (by simp [use?]) rfl ?_
      rcases dropped with ⟨-, rfl⟩ | ended
      · rfl
      · exact ended.devices_eq
  | finished ended reply => exact still (by simp [use?]) rfl ended.devices_eq
  | pinned held there device moved carried | unpinned held there device moved carried =>
      subst carried
      exact still (by simp [use?]) rfl (setIfInBounds_self device)
  | stopped which held there device =>
      refine still ?_ ?_ (setIfInBounds_self device)
      · rcases which with rfl | rfl <;> simp [use?]
      · rcases which with rfl | rfl <;> rfl
  | edited which held there device moved =>
      refine still ?_ ?_ (setIfInBounds_self device)
      · rcases which with ⟨_, _, rfl⟩ | ⟨_, rfl⟩ <;> simp [use?]
      · rcases which with ⟨_, _, rfl⟩ | ⟨_, rfl⟩ <;> rfl
  | _ => exact still (by simp [use?]) rfl rfl

/-- After every step the devices are what the transfers of the step have made of them. -/
theorem Sound.advance_devices (sound : s.Sound pins) (step : Step) :
    (s.advance step).host.devices = s.devicesAfter step := by
  have took := sound.advance_took step
  generalize same : s.advance step = done at took ⊢
  cases took with
  | did did => exact sound.did_devices did same
  | refused step why =>
      show s.devices = _
      exact (devicesAfter_of_refused (same ▸ rfl)).symm
  | nothing => exact (devicesAfter_of_unused (by simp [use?]) rfl).symm
  | found pending looking there device | stopped pending looking there device | starved pending looking there device =>
      exact (setIfInBounds_self device).trans (devicesAfter_of_unused (by simp [use?]) rfl).symm
  | unlocked unlocked =>
      obtain ⟨lease, m, d, cache, -, -, device, -, -, rfl⟩ := unlocked
      exact (setIfInBounds_self device).trans (devicesAfter_of_unused (by simp [use?]) rfl).symm
  | @spoilt t p i m d sl c₁ cache tr failure pending loading there device here invalid transfer broken spoils unlocked =>
      have used : s.use? (.spoil t) = some ⟨p.cache, i, .read sl.key sl.data.value⟩ := by
        rw [use?, same]
        exact reading?_of_loading pending loading there here invalid
      subst transfer
      exact devicesAfter_of_use used there device
  | parted owed there device => exact (setIfInBounds_self device).trans (devicesAfter_of_unused (by simp [use?]) rfl).symm

end Host
end BlockCache
