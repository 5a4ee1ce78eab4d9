import BlockCache.Proofs.Host.Clean

/-!
# The content of caches

A slot that is valid has what the disk has of its block, unless it is dirty: `content_mirrored`.
-/

namespace BlockCache

/-- Whatever steps any threads take with a cache over a disk that nobody else writes, a valid slot has what the disk has
of its block unless it is dirty. A call that loads its block gets a valid slot. -/
theorem content_mirrored {δ : Type} [BlockDevice δ] {memory : δ → RamDisk} (fronts : Fronts memory) (devices : List δ)
    (plans : List (Nat × Plan)) (steps : List Step) {c k : Nat} {plan : Plan} (planned : plans[c]? = some (k, plan))
    (spared : ∀ step ∈ steps, step.writesPast plans c k = false) :
    let start := Host.assemble devices plans
    (∀ (i : Nat) (sl : Slot) (d : δ), (start.walk steps).slot? c i = some sl → (start.walk steps).devices[k]? = some d →
      sl.valid = true → start.dirty c i false steps = false → sl.data.value = (memory d).content sl.key) ∧
    ∀ (t : Thread) (p : Pending) (v : Cache.View), (start.walk steps).pending? t = some p → p.call.loads = true →
      ((start.walk steps).answer t).reply = .lease v → v.valid = true := by
  intro start
  have sound := Host.assemble_sound devices plans
  constructor
  · intro i sl d here device valid clean
    obtain ⟨m, there, inTable⟩ := Option.bind_eq_some_iff.mp here
    exact sound.walk_content fronts (Host.assemble_follows devices plans) (by rw [planned, Option.map_some]) spared
      (fun a b before _ => Host.assemble_mirrors before (memory b) i) (Host.layers?_eq there device) clean sl inTable
      valid
  · intro t p v pending loads answered
    obtain ⟨pins, sound⟩ := sound.walk steps
    exact (sound.answer_lease pending answered).2.1 loads

/-- A slot is read for another block after a read of it that failed half way and while the end of its lease is under way,
then filled and written. -/
theorem content_of_written_slot :
    let disk := Disk.make (RamDisk.empty 4 none) none [⟨.read, 0, .error .interrupted, [7, 7]⟩]
    let start := Host.assemble [disk] [(0, ⟨1, 2, 4, .wait⟩)]
    let before : List Step := [.act (.start 0 "a" 0 ⟨⟨0, 3⟩, .block, true⟩), .probe 0 1, .probe 0 0, .act (.turn 0),
      .act (.start 1 "b" 0 ⟨⟨0, 4⟩, .block, true⟩), .probe 1 0, .spoil 0, .probe 1 1, .conclude 1 0, .part 0 0,
      .act (.turn 1), .probe 1 0, .probe 1 1, .act (.turn 1), .act (.turn 1), .act (.answer 1), .act (.fill "b" 5)]
    let steps := before ++ [.act (.write 1 0 "b")]
    ∃ sl d, (start.walk steps).slot? 0 0 = some sl ∧ (start.walk steps).devices[0]? = some d ∧ sl.valid = true ∧
      start.dirty 0 0 false before = true ∧ sl.data.value = d.inner.inner.content sl.key := by
  intro disk start before steps
  have here : ((start.walk steps).slot? 0 0).isSome = true := by decide +kernel
  have device : (start.walk steps).devices[0]?.isSome = true := by decide +kernel
  obtain ⟨sl, here⟩ := Option.isSome_iff_exists.mp here
  obtain ⟨d, device⟩ := Option.isSome_iff_exists.mp device
  have all : ((start.walk steps).slot? 0 0).all Slot.valid = true := by decide +kernel
  have valid : sl.valid = true := by simpa [here] using all
  have clean : start.dirty 0 0 false steps = false := by decide +kernel
  have spared : ∀ step ∈ steps, step.writesPast [(0, ⟨1, 2, 4, .wait⟩)] 0 0 = false := by decide +kernel
  have mirrored := (content_mirrored Disk.fronts [disk] _ steps rfl spared).1 0 sl d here device valid clean
  exact ⟨sl, d, here, device, valid, by decide +kernel, mirrored⟩

end BlockCache
