import BlockCache.Proofs.Device.Reads
import BlockCache.Proofs.Host.Faults
import BlockCache.Proofs.Host.Uses

/-!
# Which faults there are

No operation ends with a fault for which the caller, the size of the cache or the device does not give a reason, and a
disk in memory gives none: `faults_excused`. That holds in every state of a run, those after a fault among them.
-/

namespace BlockCache

namespace Host

variable {δ : Type} [BlockDevice δ] {memory : δ → RamDisk} {s : Host δ} {pins : Nat → Nat → Nat} {d d' : δ} {k : Nat}

theorem regular_carryOut (fronts : Fronts memory) (regular : (memory d).Regular) (access : Access) :
    (memory (access.carryOut d).device).Regular := by
  cases access with
  | read key buffer =>
      rcases fronts.read d key buffer with blocked | passes
      · exact blocked.device ▸ regular
      · exact passes.device ▸ regular.read key buffer
  | write key bytes =>
      rcases fronts.write d key bytes with blocked | passes
      · exact blocked.device ▸ regular
      · exact passes.device ▸ regular.write key bytes

theorem Sound.device_before (sound : s.Sound pins) {step : Step} (after : (s.advance step).host.devices[k]? = some d') :
    ∃ d, s.devices[k]? = some d ∧ (d' = d ∨ ∃ access : Access, d' = (access.carryOut d).device) := by
  rw [sound.advance_devices, devicesAfter] at after
  cases asked : s.asked? step with
  | none => exact ⟨d', by simpa [asked] using after, .inl rfl⟩
  | some entry =>
      rw [asked, Option.elim_some, Array.getElem?_modify] at after
      split at after
      · obtain ⟨d, here, rfl⟩ := Option.map_eq_some_iff.mp after
        exact ⟨d, here, .inr ⟨_, rfl⟩⟩
      · exact ⟨d', after, .inl rfl⟩

theorem Sound.walk_regular (sound : s.Sound pins) (fronts : Fronts memory)
    (regular : ∀ (k : Nat) (d : δ), s.devices[k]? = some d → (memory d).Regular) (steps : List Step)
    (after : (s.walk steps).devices[k]? = some d') : (memory d').Regular := by
  let Kept (s : Host δ) : Prop := ∀ (k : Nat) (d : δ), s.devices[k]? = some d → (memory d).Regular
  refine sound.walk_preserves (P := Kept) (fun sound kept step k d here => ?_) regular steps k d' after
  obtain ⟨d₀, before, rfl | ⟨access, rfl⟩⟩ := sound.device_before here
  · exact kept k _ before
  · exact regular_carryOut fronts (kept k d₀ before) access

end Host
open Host

/-- An operation of a run ends with a fault only if there is a reason for it: a cache that is not to wait has no free
slot for a call, a lease may not be used or has no pin, or the device has broken down. The disks in memory behind the
devices never break down. -/
theorem faults_excused {δ : Type} [BlockDevice δ] (devices : List δ) (plans : List (Nat × Plan)) (steps : List Step) :
    (∀ s step, (s, step) ∈ (assemble devices plans).trail steps → ∀ fault, s.Panics step fault →
      s.Excuses step fault) ∧
    ∀ memory : δ → RamDisk, Fronts memory → (∀ d ∈ devices, (memory d).Regular) →
      ∀ s step, (s, step) ∈ (assemble devices plans).trail steps → ∀ d ∈ s.devices, ∀ key buffer cause,
        ((memory d).read key buffer).failure ≠ some (.breakdown cause) ∧
          ((memory d).write key buffer).failure ≠ some (.breakdown cause) := by
  have start := assemble_sound devices plans
  constructor
  · intro s step member fault panics
    obtain ⟨before, after, -, rfl⟩ := mem_trail.mp member
    obtain ⟨pins, sound⟩ := start.walk before
    have forfeited := start.forfeited_walk (by simp [Forfeited, assemble, pending?]) before
    exact sound.excuses forfeited panics
  · intro memory fronts regular s step member d present key buffer cause
    obtain ⟨before, after, -, rfl⟩ := mem_trail.mp member
    obtain ⟨k, here⟩ := Array.mem_iff_getElem?.mp present
    refine ⟨(start.walk_regular fronts (fun k d first => ?_) before here).unbroken key buffer cause, ?_⟩
    · rw [assemble, List.getElem?_toArray] at first
      exact regular d (List.mem_of_getElem? first)
    · rw [RamDisk.write]
      split <;> simp

theorem faults_excused_after_stop :
    let disk := Disk.make (RamDisk.empty 8 none) none [⟨.read, 0, .breakdown (.told "worn out"), []⟩]
    let call : Call := ⟨⟨0, 1⟩, .block, true⟩
    let turn : Step := .act (.turn 1)
    let full : List Step := List.map .act
      [.start 0 "a" 0 ⟨⟨0, 0⟩, .block, false⟩, .turn 0, .turn 0, .answer 0, .start 1 "b" 0 call]
    let again : List Step := List.map .act
      [.answer 1, .finish 0 "a" .dropped, .start 1 "b" 0 call, .turn 1, .turn 1]
    let host := assemble [disk] [(0, ⟨1, 1, 8, .stop⟩)]
    (host.walk full).Panics turn (.stop .exhausted) ∧ (host.walk full).Excuses turn (.stop .exhausted) ∧
      (host.walk (full ++ turn :: again)).Panics turn (.device (.told "worn out")) ∧
      (host.walk (full ++ turn :: again)).Excuses turn (.device (.told "worn out")) ∧
      ∀ d ∈ (host.walk (full ++ turn :: again)).devices, ∀ key buffer cause,
        (d.inner.inner.read key buffer).failure ≠ some (.breakdown cause) := by
  intro disk call turn full again host
  obtain ⟨excused, unbroken⟩ :=
    faults_excused [disk] [(0, ⟨1, 1, 8, .stop⟩)] (full ++ turn :: (again ++ turn :: []))
  have first : (host.walk full, turn) ∈ host.trail (full ++ turn :: (again ++ turn :: [])) :=
    mem_trail.mpr ⟨full, _, rfl, rfl⟩
  have last : (host.walk (full ++ turn :: again), turn) ∈ host.trail (full ++ turn :: (again ++ turn :: [])) :=
    mem_trail.mpr ⟨full ++ turn :: again, [], (List.append_assoc full (turn :: again) _).symm, rfl⟩
  have looking : (host.walk full).pending? 1 = some ⟨"b", 0, call, .looking, []⟩ := by decide +kernel
  have loading : (host.walk (full ++ turn :: again)).pending? 1 =
      some ⟨"b", 0, call, .loading 0, [.evicting ⟨0, 0⟩ 0 ⟨0, 1⟩, .miss ⟨0, 1⟩ 0]⟩ := by decide +kernel
  have stopped : (host.walk full).Panics turn (.stop .exhausted) := by
    have after : ((host.walk full).advance turn).host.pending? 1 =
        some ⟨"b", 0, call, .failed (.fault (.stop .exhausted)), [.stopped .exhausted]⟩ := by decide +kernel
    refine .called after rfl fun p pending => ?_
    rw [← Option.some.inj (looking.symm.trans pending)]
    exact nofun
  have broken : (host.walk (full ++ turn :: again)).Panics turn (.device (.told "worn out")) := by
    have after : ((host.walk (full ++ turn :: again)).advance turn).host.pending? 1 =
        some ⟨"b", 0, call, .failed (.fault (.device (.told "worn out"))),
          [.evicting ⟨0, 0⟩ 0 ⟨0, 1⟩, .miss ⟨0, 1⟩ 0]⟩ := by decide +kernel
    refine .called after rfl fun p pending => ?_
    rw [← Option.some.inj (loading.symm.trans pending)]
    exact nofun
  have regular : ∀ d ∈ [disk], d.inner.inner.Regular := fun d member =>
    List.mem_singleton.mp member ▸ RamDisk.empty_regular 8 none
  exact ⟨stopped, excused _ _ first _ stopped, broken, excused _ _ last _ broken, fun d present key buffer cause =>
    (unbroken _ Disk.fronts regular _ _ last d present key buffer cause).1⟩

end BlockCache
