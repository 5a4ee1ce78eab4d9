import BlockCache.Proofs.Host.Walks

/-!
# Faults

`Host.Panics` says which faults an operation ends with in a step, and `Host.Excuses` which of them there are reasons
for. Of a sound host there are no others: `Sound.excuses`.
-/

namespace BlockCache

def Step.op? : Step → Option (LeaseOp × Thread × Option Nat × String)
  | act (.write t c name) => some (.write, t, some c, name)
  | act (.pin t c name) => some (.pin, t, some c, name)
  | act (.unpin t c name) => some (.unpin, t, some c, name)
  | act (.finish t name (.released called)) | unlock t name (.released called) => some (.release, t, called, name)
  | _ => none

namespace Host

variable {δ : Type} [BlockDevice δ]

/-- The operation of a step has ended with a fault. One that ends a call is seen in the stage of the call. An answer
lets go of the lease that had the name of the call before; that may not end with a fault either. -/
inductive Panics (s : Host δ) : Step → Fault → Prop
  | replied {step : Step} {fault : Fault} (reply : (s.advance step).reply = .failed (.fault fault)) :
      Panics s step fault
  | called {step : Step} {fault : Fault} {t : Thread} {p : Pending}
      (after : (s.advance step).host.pending? t = some p) (failed : p.stage = .failed (.fault fault))
      (before : ∀ p₀, s.pending? t = some p₀ → p₀.stage ≠ .failed (.fault fault)) : Panics s step fault
  | replaced {fault : Fault} {t : Thread} {p : Pending} {i : Nat} (pending : s.pending? t = some p)
      (granted : p.stage = .granted i)
      (reply : ((s.removePending t).finish t p.name .dropped).reply = .failed (.fault fault)) :
      Panics s (.act (.answer t)) fault

inductive Forfeits (s : Host δ) (c : Nat) : Fault → Prop
  | exhausted {m : Mount} (there : s.mount? c = some m) (policy : m.cache.exhaustion = .stop) :
      Forfeits s c (.stop .exhausted)
  | broken (cause : Breakdown) : Forfeits s c (.device cause)

def Forfeited (s : Host δ) : Prop :=
  ∀ t p fault, s.pending? t = some p → p.stage = .failed (.fault fault) → s.Forfeits p.cache fault

/-- There is a reason for the fault: a cache that is not to wait has no free slot for a call, a lease may not be used
or has no pin, or the device has broken down. -/
inductive Excuses (s : Host δ) : Step → Fault → Prop
  | exhausted {step : Step} {t : Thread} {p : Pending} {m : Mount}
      (which : step = .act (.turn t) ∨ ∃ seen, step = .conclude t seen) (pending : s.pending? t = some p)
      (looking : p.stage = .looking) (there : s.mount? p.cache = some m) (policy : m.cache.exhaustion = .stop) :
      Excuses s step (.stop .exhausted)
  | denied {step : Step} {op : LeaseOp} {t : Thread} {called : Option Nat} {name : String} {lease : Lease} {sl : Slot}
      {stop : Stop} (asked : step.op? = some (op, t, called, name)) (held : s.lease? name = some lease)
      (here : s.slot? lease.cache lease.slot = some sl)
      (denied : Cache.Denied sl (called.getD lease.cache = lease.cache) t op stop) :
      Excuses s step (.stop stop)
  | read {step : Step} {t : Thread} {p : Pending} {i : Nat} {m : Mount} {d : δ} {sl : Slot} {cause : Breakdown}
      (which : step = .act (.turn t) ∨ step = .spoil t) (pending : s.pending? t = some p)
      (loading : p.stage = .loading i) (there : s.mount? p.cache = some m) (device : s.devices[m.device]? = some d)
      (here : m.cache.table.slots[i]? = some sl)
      (broken : (BlockDevice.read d sl.key sl.data.value).failure = some (.breakdown cause)) :
      Excuses s step (.device cause)
  | written {t : Thread} {name : String} {lease : Lease} {m : Mount} {d : δ} {sl : Slot} {cause : Breakdown}
      (held : s.lease? name = some lease) (there : s.mount? lease.cache = some m)
      (device : s.devices[m.device]? = some d) (here : m.cache.table.slots[lease.slot]? = some sl)
      (holder : sl.data.holder = some t)
      (broken : (BlockDevice.write d sl.key sl.data.value).failure = some (.breakdown cause)) :
      Excuses s (.act (.write t lease.cache name)) (.device cause)
  | readPast {k : Nat} {d : δ} {key : Key} {length : Nat} {cause : Breakdown} (device : s.devices[k]? = some d)
      (broken : (BlockDevice.read d key (List.replicate length 0)).failure = some (.breakdown cause)) :
      Excuses s (.act (.deviceRead k key length)) (.device cause)
  | writtenPast {k : Nat} {d : δ} {key : Key} {bytes : Bytes} {cause : Breakdown} (device : s.devices[k]? = some d)
      (broken : (BlockDevice.write d key bytes).failure = some (.breakdown cause)) :
      Excuses s (.act (.deviceWrite k key bytes)) (.device cause)
  | answered {t : Thread} {p : Pending} {fault : Fault} (pending : s.pending? t = some p)
      (failed : p.stage = .failed (.fault fault)) (forfeits : s.Forfeits p.cache fault) :
      Excuses s (.act (.answer t)) fault

variable {s : Host δ} {pins : Nat → Nat → Nat} {fault : Fault} {t : Thread} {c : Nat} {name : String} {step : Step}
  {p : Pending}

theorem breakdown_of_fault {failure : TransferFailure} (fails : failure.toFailure = .fault fault) :
    ∃ cause, failure = .breakdown cause ∧ fault = .device cause := by
  cases failure with
  | error cause => cases fails
  | breakdown cause => exact ⟨cause, rfl, (Failure.fault.inj fails).symm⟩

/-! ## Leases -/

omit [BlockDevice δ]

theorem Sound.callOn_failed (sound : s.Sound pins) {op : LeaseOp} {called : Option Nat}
    {operation : Nat → Cache → δ → Turn δ (Option Failure)} {reply : Host δ → Lease → Reply} {why : Failure}
    (failed : (s.callOn op name called operation reply).reply = .failed why)
    (answers : ∀ s lease, reply s lease ≠ .failed why) :
    ∃ lease m d sl, s.lease? name = some lease ∧ s.mount? lease.cache = some m ∧ s.devices[m.device]? = some d ∧
      m.cache.table.Sound ∧ m.cache.table.slots[lease.slot]? = some sl ∧ sl.data.holder = some lease.thread ∧
      (called.getD lease.cache ≠ lease.cache ∧ why = .fault (.stop (.foreignLease op)) ∨
        called.getD lease.cache = lease.cache ∧ (operation lease.slot m.cache d).result = some why) := by
  rcases sound.callOn_cases op name called operation reply with
    ⟨_, refused⟩ | ⟨lease, held, other, done⟩ | ⟨lease, m, d, sl, held, own, there, device, table, here, holder, done⟩
  · rw [refused] at failed
    cases failed
  · obtain ⟨m, d, sl, there, device, table, here, holder⟩ := sound.held held
    rw [done] at failed
    exact ⟨lease, m, d, sl, held, there, device, table, here, holder, .inl ⟨other, (Reply.failed.inj failed).symm⟩⟩
  · refine ⟨lease, m, d, sl, held, there, device, table, here, holder, .inr ⟨own, ?_⟩⟩
    rw [done] at failed
    dsimp only at failed
    generalize (operation lease.slot m.cache d).result = result at failed
    cases result with
    | none => exact absurd failed (answers _ _)
    | some why' => exact congrArg some (Reply.failed.inj failed)

theorem fault_of_error {update : Update Cache Unit} {a c' : Cache} {d : δ} {stop : Stop}
    (stopped : update a = .error (.stop stop) c')
    (failed : (Turn.ofUpdate update a d).result = some (.fault fault)) : fault = .stop stop := by
  rw [Turn.ofUpdate_error stopped] at failed
  exact (Failure.fault.inj (Option.some.inj failed)).symm

theorem no_fault_of_ok {update : Update Cache Unit} {a c' : Cache} {d : δ} (done : update a = .ok () c') :
    (Turn.ofUpdate update a d).result ≠ some (.fault fault) := by
  rw [Turn.ofUpdate_ok done]
  exact nofun

theorem Sound.dropped_reply (sound : s.Sound pins) (name : String) (why : Failure) :
    (s.drop name).reply ≠ .failed why := by
  rcases sound.drop_cases name with ⟨-, refused⟩ | ⟨s', -, done⟩
  · rw [refused]
    exact nofun
  · rw [done]
    exact nofun

theorem Sound.unlocked_reply (sound : s.Sound pins) (name : String) (why : Failure) :
    (s.unlock name).reply ≠ .failed why := by
  cases held : s.lease? name with
  | none =>
      rw [unlock, held]
      exact Reply.noConfusion
  | some lease =>
      obtain ⟨m, d, sl, there, device, table, here, holder⟩ := sound.held held
      obtain ⟨cache, unlocked, -⟩ := Cache.unlock_moved table here (Cache.locked_of_holder table here holder)
      rw [unlock_does held there device unlocked]
      exact Reply.noConfusion

theorem Sound.edit_reply (sound : s.Sound pins) (name : String) (change : Bytes → Bytes) :
    (s.edit name change).reply ≠ .failed (.fault fault) := by
  rw [edit]
  rcases sound.onLease_cases name
    (fun i c => Turn.ofUpdate (Cache.onTable (Table.setBytes i (change (c.bytes i)))) c) fun _ _ => .done with
    ⟨-, refused⟩ | ⟨lease, m, d, sl, held, there, device, table, here, holder, done⟩
  · rw [refused]
    exact Reply.noConfusion
  · obtain ⟨cache, changed, -⟩ := Cache.setBytes_moved table here (Cache.locked_of_holder table here holder)
      (change (m.cache.bytes lease.slot))
    rw [done]
    simp only [Turn.ofUpdate_ok changed]
    exact Reply.noConfusion

variable [BlockDevice δ]

theorem Sound.release_excused (sound : s.Sound pins) {called : Option Nat} (ends : Host δ → Performed δ)
    (asked : step.op? = some (.release, t, called, name))
    (failed : (s.finishBy ends t name (.released called)).reply = .failed (.fault fault)) : s.Excuses step fault := by
  rcases releaseBy_cases s t name called with ⟨why, refused⟩ | ⟨lease, held, mounted⟩
  · rw [refused] at failed
    cases failed
  · obtain ⟨m, d, sl, there, device, here, holder, done | ⟨stop, told, denied, -, done⟩⟩ :=
      sound.releaseBy_held held mounted t
    · rw [done] at failed
      cases failed
    · rw [done] at failed
      cases failed
      exact .denied asked held ((slot?_eq there _).trans here) denied

theorem Sound.write_excused (sound : s.Sound pins) (failed : (s.write t c name).reply = .failed (.fault fault)) :
    s.Excuses (.act (.write t c name)) fault := by
  obtain ⟨lease, m, d, sl, held, there, device, table, here, -, ⟨other, why⟩ | ⟨own, result⟩⟩ :=
    sound.callOn_failed failed fun _ _ => view_ne_failed _ _ _
  · cases why
    exact .denied rfl held ((slot?_eq there _).trans here) (.foreign _ (decide_eq_false other))
  · have flushed := Cache.flush_flushed table here t d
    generalize Cache.flush t lease.slot m.cache d = turn at flushed result
    cases flushed with
    | @unauthorized sl' stop here' denied =>
        obtain rfl := Failure.fault.inj (Option.some.inj result)
        exact .denied rfl held ((slot?_eq there _).trans here') (decide_eq_true own ▸ denied)
    | @failed sl' failure here' holder broken =>
        obtain ⟨cause, rfl, rfl⟩ := breakdown_of_fault (Option.some.inj result)
        obtain rfl : c = lease.cache := own
        exact .written held there device here' holder broken
    | kept => cases result

theorem Sound.pin_excused (sound : s.Sound pins) (failed : (s.pin t c name).reply = .failed (.fault fault)) :
    s.Excuses (.act (.pin t c name)) fault := by
  obtain ⟨lease, m, d, sl, held, there, device, table, here, -, ⟨other, why⟩ | ⟨own, result⟩⟩ :=
    sound.callOn_failed failed fun _ _ => view_ne_failed _ _ _
  · cases why
    exact .denied rfl held ((slot?_eq there _).trans here) (.foreign _ (decide_eq_false other))
  · rcases Cache.pin_moved table here t with ⟨cache, -, pinned, -⟩ | ⟨stop, denied, stopped⟩
    · exact absurd result (no_fault_of_ok pinned)
    · obtain rfl := fault_of_error stopped result
      exact .denied rfl held ((slot?_eq there _).trans here) (decide_eq_true own ▸ denied)

theorem Sound.unpin_excused (sound : s.Sound pins) (failed : (s.unpin t c name).reply = .failed (.fault fault)) :
    s.Excuses (.act (.unpin t c name)) fault := by
  obtain ⟨lease, m, d, sl, held, there, device, table, here, -, ⟨other, why⟩ | ⟨own, result⟩⟩ :=
    sound.callOn_failed failed fun _ _ => view_ne_failed _ _ _
  · cases why
    exact .denied rfl held ((slot?_eq there _).trans here) (.foreign _ (decide_eq_false other))
  · have enough := sound.referenced_of_pinned ((slot?_eq there _).trans here)
    rcases Cache.unpin_moved table here enough t with ⟨cache, -, -, unpinned, -⟩ | ⟨stop, denied, stopped⟩
    · exact absurd result (no_fault_of_ok unpinned)
    · obtain rfl := fault_of_error stopped result
      exact .denied rfl held ((slot?_eq there _).trans here) (decide_eq_true own ▸ denied)

/-! ## Replies -/

omit [BlockDevice δ] in
theorem onDevice_failed {k : Nat} {transfer : δ → Transfer δ} {reply : Bytes → Reply}
    (failed : (s.onDevice k transfer reply).reply = .failed (.fault fault))
    (answers : ∀ bytes, reply bytes ≠ .failed (.fault fault)) : ∃ d cause, s.devices[k]? = some d ∧
      (transfer d).failure = some (.breakdown cause) ∧ fault = .device cause := by
  rw [onDevice] at failed
  split at failed
  · cases failed
  · rename_i d device
    dsimp only at failed
    cases outcome : (transfer d).failure with
    | none =>
        rw [outcome] at failed
        exact absurd failed (answers _)
    | some failure =>
        rw [outcome] at failed
        obtain ⟨cause, rfl, same⟩ := breakdown_of_fault (Reply.failed.inj failed)
        exact ⟨d, cause, device, outcome, same⟩

omit [BlockDevice δ] in
theorem Sound.put_reply (sound : s.Sound pins) (name : String) (offset : Nat) (part : Bytes) :
    (s.put name offset part).reply ≠ .failed (.fault fault) := by
  intro failed
  rw [put] at failed
  split at failed
  · cases failed
  · split at failed
    · cases failed
    · exact sound.edit_reply name _ failed

omit [BlockDevice δ] in
theorem look_reply (name : String) (why : Failure) : (s.look name).reply ≠ .failed why := by
  intro failed
  rw [look] at failed
  split at failed
  · cases failed
  · exact view_ne_failed _ _ _ failed

omit [BlockDevice δ] in
theorem get_reply (name : String) (offset : Nat) (length : Option Nat) (why : Failure) :
    (s.get name offset length).reply ≠ .failed why := by
  intro failed
  rw [get] at failed
  split at failed
  · cases failed
  · dsimp only at failed
    split at failed <;> cases failed

omit [BlockDevice δ] in
theorem start_reply (t : Thread) (name : String) (c : Nat) (call : Call) (why : Failure) :
    (s.start t name c call).reply ≠ .failed why := by
  intro failed
  rw [start] at failed
  split at failed
  · cases failed
  · split at failed
    · cases failed
    · split at failed <;> cases failed

theorem turn_reply (t : Thread) (why : Failure) : (s.turn t).reply ≠ .failed why := by
  intro failed
  rw [turn] at failed
  split at failed
  · cases failed
  · split at failed <;> cases failed

omit [BlockDevice δ] in
/-- A call answers with the fault that it ended in. -/
theorem fault_of_answer (failed : (s.answer t).reply = .failed (.fault fault)) :
    ∃ p, s.pending? t = some p ∧ p.stage = .failed (.fault fault) := by
  rw [answer] at failed
  split at failed
  · cases failed
  · rename_i p pending
    split at failed
    · exact absurd failed (view_ne_failed _ _ _)
    · rename_i why stage
      obtain rfl := Reply.failed.inj failed
      exact ⟨p, pending, stage⟩
    · cases failed

theorem Sound.perform_excused (sound : s.Sound pins) (forfeited : s.Forfeited) {act : Act}
    (failed : (s.perform act).reply = .failed (.fault fault)) : s.Excuses (.act act) fault := by
  cases act with
  | finish t name ending =>
      cases ending with
      | released called => exact sound.release_excused (·.drop name) rfl failed
      | dropped => exact absurd failed (sound.dropped_reply name _)
  | write t c name => exact sound.write_excused failed
  | pin t c name => exact sound.pin_excused failed
  | unpin t c name => exact sound.unpin_excused failed
  | deviceRead k key length =>
      obtain ⟨d, cause, device, broken, rfl⟩ := onDevice_failed failed fun _ => Reply.noConfusion
      exact .readPast device broken
  | deviceWrite k key part =>
      obtain ⟨d, cause, device, broken, rfl⟩ := onDevice_failed failed fun _ => Reply.noConfusion
      exact .writtenPast device broken
  | answer t =>
      obtain ⟨p, pending, stage⟩ := fault_of_answer failed
      exact .answered pending stage (forfeited t p fault pending stage)
  -- the others do not fail
  | start t name c call => exact absurd failed (start_reply t name c call _)
  | turn t => exact absurd failed (turn_reply t _)
  | look name => exact absurd failed (look_reply name _)
  | get name offset length => exact absurd failed (get_reply name offset length _)
  | fill name byte =>
      rw [perform, fill] at failed
      exact absurd failed (sound.edit_reply name _)
  | put name offset part => exact absurd failed (sound.put_reply name offset part)
  | cancel token => cases failed

theorem Sound.reply_excused (sound : s.Sound pins) (forfeited : s.Forfeited)
    (failed : (s.advance step).reply = .failed (.fault fault)) : s.Excuses step fault := by
  have took := sound.advance_took step
  cases step with
  | probe | conclude | spoil | part =>
      generalize s.advance _ = done at took failed
      cases took <;> cases failed
  | unlock t name ending =>
      cases ending with
      | released called => exact sound.release_excused (·.unlock name) rfl failed
      | dropped => exact absurd failed (sound.unlocked_reply name _)
  | act act => exact sound.perform_excused forfeited failed

/-! ## Calls -/

theorem Sound.call_excused (sound : s.Sound pins) (after : (s.advance step).host.pending? t = some p)
    (failed : p.stage = .failed (.fault fault)) :
    (∃ p₀, s.pending? t = some p₀ ∧ p₀.stage = .failed (.fault fault) ∧ p₀.cache = p.cache) ∨
      s.Excuses step fault ∧ s.Forfeits p.cache fault := by
  have took := sound.advance_took step
  by_cases mine : step.caller? = some t
  -- a call changes only in the steps of its thread
  case neg => exact .inl ⟨p, (took.pending_other mine).symm.trans after, failed, rfl⟩
  generalize s.advance step = done at took after
  cases took with
  | refused | nothing => exact .inl ⟨p, after, failed, rfl⟩
  | found pending | starved pending =>
      cases mine
      obtain rfl := Option.some.inj ((lookup_replace_same pending _).symm.trans after)
      cases failed
  | stopped pending looking there device policy =>
      cases mine
      obtain rfl := Option.some.inj ((lookup_replace_same pending _).symm.trans after)
      obtain rfl := Failure.fault.inj (Stage.failed.inj failed)
      exact .inr ⟨.exhausted (.inr ⟨_, rfl⟩) pending looking there policy, .exhausted there policy⟩
  | @spoilt t p₀ i m d sl c₁ cache tr failure pending loading there device here invalid transfer broken =>
      cases mine
      obtain rfl := Option.some.inj ((lookup_replace_same pending _).symm.trans after)
      obtain ⟨cause, rfl, rfl⟩ := breakdown_of_fault (Stage.failed.inj failed)
      exact .inr ⟨.read (.inr rfl) pending loading there device here (transfer ▸ broken), .broken cause⟩
  | unlocked | parted => cases mine
  | did did =>
      rcases did.pending_cases after with same | looking | ⟨p₀, m, d, turn, rfl, pending, there, device, turned, rfl⟩
      · exact .inl ⟨p, same, failed, rfl⟩
      · rw [looking] at failed
        cases failed
      generalize stage : p₀.stage = before at turned
      cases turned with
      | stopped absent empty policy =>
          obtain rfl := Failure.fault.inj (Stage.failed.inj failed)
          exact .inr ⟨.exhausted (.inl rfl) pending stage there policy, .exhausted there policy⟩
      | unloaded here invalid broken =>
          obtain ⟨cause, rfl, rfl⟩ := breakdown_of_fault (Stage.failed.inj failed)
          exact .inr ⟨.read (.inl rfl) pending stage there device here broken, .broken cause⟩
      | settled => exact .inl ⟨p₀, pending, stage.trans failed, rfl⟩
      | granted =>
          dsimp only at failed
          split at failed <;> cases failed
      | _ => cases failed

theorem Sound.forfeits_advance (sound : s.Sound pins) (step : Step) (forfeits : s.Forfeits c fault) :
    (s.advance step).host.Forfeits c fault := by
  cases forfeits with
  | broken cause => exact .broken cause
  | @exhausted m there policy =>
      obtain ⟨m', after, calms | ⟨key, found, gains⟩⟩ := sound.advance_cases step there
      · exact .exhausted after (calms.settles.sameMeasures.exhaustion.trans policy)
      · exact .exhausted after (gains.moved.exhaustion.trans policy)

theorem Sound.forfeited_advance (sound : s.Sound pins) (forfeited : s.Forfeited) (step : Step) :
    (s.advance step).host.Forfeited := by
  intro t p fault after failed
  refine sound.forfeits_advance step ?_
  rcases sound.call_excused after failed with ⟨p₀, before, failed₀, same⟩ | ⟨-, forfeits⟩
  · exact same ▸ forfeited t p₀ fault before failed₀
  · exact forfeits

theorem Sound.forfeited_walk (sound : s.Sound pins) (forfeited : s.Forfeited) (steps : List Step) :
    (s.walk steps).Forfeited :=
  sound.walk_preserves Sound.forfeited_advance forfeited steps

theorem Sound.excuses (sound : s.Sound pins) (forfeited : s.Forfeited) (panics : s.Panics step fault) :
    s.Excuses step fault := by
  cases panics with
  | replied reply => exact sound.reply_excused forfeited reply
  | called after failed before =>
      rcases sound.call_excused after failed with ⟨p₀, pending, failed₀, -⟩ | ⟨excuses, -⟩
      · exact absurd failed₀ (before p₀ pending)
      · exact excuses
  | @replaced _ t p i pending granted reply =>
      obtain ⟨s', answer, -, answers, done⟩ := sound.drop_pending t p.name
      exact absurd ((congrArg Performed.reply done).symm.trans reply) (answers _)

end Host
end BlockCache
