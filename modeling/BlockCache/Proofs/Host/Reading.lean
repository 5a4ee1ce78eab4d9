import BlockCache.Host.Visits
import BlockCache.Proofs.Host.Served

/-!
# Reading a block

A call that reads a block nobody has leased, while no other call is under way, is answered after at most four steps,
unless no slot is free: `Serves.read`.
-/

namespace BlockCache

namespace Stage

def left : Stage → Nat
  | looking => 3
  | queued _ => 2
  | loading _ => 1
  | _ => 0

/-- What a call for a block that nobody has leased has come to, if it is the only one under way. It has begun when no
slot was free if `full` is true. -/
def Alone (stage : Stage) (key : Key) (c : Cache) (disk : RamDisk) (full : Prop) : Prop :=
  match stage with
  | looking => (∀ b, c.table.layout.ring b = []) → full
  | starved seen => full ∧ c.freed = seen
  | queued i => ∀ sl, c.table.slots[i]? = some sl → sl.data.isLocked = false
  | loading _ => True
  | granted _ => disk.unreadable key = none
  | failed why => disk.unreadable key = some why ∨ why = .fault (.stop .exhausted) ∧ full

end Stage

theorem Call.Turned.alone {call : Call} {t : Thread} {cancelled : Token → Bool} {c : Cache} {d : RamDisk}
    {stage : Stage} {turn : Turn RamDisk Stage} (turned : call.Turned t cancelled c d stage turn) (sound : c.table.Sound)
    (fits : c.Fits d) (patience : call.patience = .block) (loads : call.loads = true)
    (unlocked : stage = .looking → ∀ (i : Nat) (sl : Slot), c.table.slots[i]? = some sl → sl.key = call.key →
      sl.data.isLocked = false)
    (mine : ∀ (i : Nat) (sl : Slot), stage.slot? = some i → c.table.slots[i]? = some sl → sl.key = call.key)
    {full : Prop} (alone : stage.Alone call.key c d full) :
    turn.result.Alone call.key turn.cache d full ∧ turn.result.left ≤ stage.left - 1 := by
  cases turned with
  | @found found L' change c' finds moved =>
      refine ⟨fun sl' here' => ?_, Nat.le_refl 2⟩
      have slot := found.slot_move call.key
      obtain ⟨sl, here, ready⟩ := moved.allowed
      obtain rfl := Option.some.inj ((slot ▸ moved.same here).symm.trans here')
      cases finds with
      | hit has =>
          obtain ⟨sl₀, here₀, -, key⟩ := has
          obtain rfl : sl = sl₀ := Option.some.inj (here.symm.trans here₀)
          exact unlocked rfl _ sl here₀ key
      | evicted | stolen =>
          have free := Layout.refcount_of_assign sound.consistent here ready
          exact (sound.consistent.proper here).unlocked free
  | stopped absent empty policy => exact ⟨.inr ⟨rfl, alone empty⟩, Nat.zero_le _⟩
  | starved absent empty policy => exact ⟨⟨alone empty, rfl⟩, Nat.zero_le _⟩
  | awake freed => exact absurd alone.2 freed
  | asleep same patient => exact ⟨alone, Nat.zero_le _⟩
  | unserved same refusal | refused refusal moved => simp [patience, Patience.refusal] at refusal
  | granted moved => simp [loads, Stage.Alone, Stage.left]
  | busy here locked patient => exact absurd (locked.symm.trans (alone _ here)) (by simp)
  | @valid i sl here valid =>
      refine ⟨?_, Nat.zero_le _⟩
      exact mine i sl rfl here ▸ (fits i sl here).readable valid
  | @loaded i sl c' here invalid success moved =>
      refine ⟨?_, Nat.zero_le _⟩
      show d.unreadable call.key = none
      rw [← mine i sl rfl here, ← RamDisk.read_failure (fits i sl here).length]
      exact Option.map_eq_none_iff.mpr success
  | @unloaded i sl c₁ c' failure here invalid broken spoilt ended =>
      refine ⟨.inl ?_, Nat.zero_le _⟩
      rw [← mine i sl rfl here, ← RamDisk.read_failure (fits i sl here).length]
      exact congrArg (Option.map TransferFailure.toFailure) broken
  | settled done =>
      rcases done with ⟨i, rfl⟩ | ⟨why, rfl⟩
      · exact ⟨alone, Nat.zero_le _⟩
      · exact ⟨alone, Nat.zero_le _⟩

namespace Host

structure Reads (s : Host RamDisk) (disk : RamDisk) (v : Clients) (full : Prop) (leases : List (String × Lease))
    (t : Thread) (p : Pending) : Prop where
  serves : s.Serves disk v
  leases : s.leases = leases
  calls : s.calls = [(t, p)]
  cache : p.cache = 0
  patience : p.call.patience = .block
  loads : p.call.loads = true
  unleased : ∀ name bytes, v.held name ≠ some (p.call.key, bytes)
  stage : ∀ m, s.mount? 0 = some m → p.stage.Alone p.call.key m.cache disk full

variable {s : Host RamDisk} {disk : RamDisk} {v : Clients} {full : Prop} {leases : List (String × Lease)}
  {t : Thread} {p : Pending} {pins : Nat → Nat → Nat}

theorem Reads.pending (reads : s.Reads disk v full leases t p) : s.pending? t = some p := by
  simp [pending?, reads.calls]

theorem Reads.unlocked (reads : s.Reads disk v full leases t p) (sound : s.Sound pins) (looking : p.stage = .looking)
    {i : Nat} {sl : Slot} (here : s.slot? 0 i = some sl) (key : sl.key = p.call.key) : sl.data.isLocked = false := by
  by_contra locked
  obtain ⟨lease, live, cache, slot⟩ := sound.live_of_locked here (by simpa using locked)
  have own : p.lease? t = none := (Pending.claims_nothing (by rw [looking]; rfl) t).1
  obtain ⟨name, held⟩ : ∃ name, (name, lease) ∈ s.leases := by simpa [Host.live, reads.calls, own] using live
  have held : s.lease? name = some lease := lookup_of_mem sound.names held
  have known : v.held name = some (sl.key, sl.data.value) := by simp [reads.serves.held name, held, cache, slot, here]
  exact reads.unleased name _ (key ▸ known)

theorem Reads.turn (reads : s.Reads disk v full leases t p) (sound : s.Sound pins) :
    ∃ p', (s.turn t).host.Reads disk v full leases t p' ∧ p'.name = p.name ∧ p'.call = p.call ∧
      p'.stage.left ≤ p.stage.left - 1 := by
  obtain ⟨m, d, turn, there, device, turned, done⟩ := sound.turn_eq reads.pending
  have serves : (s.turn t).host.Serves disk v := reads.serves.quiet sound (show (Act.turn t).quiet = true from rfl)
  have there : s.mount? 0 = some m := reads.cache ▸ there
  obtain ⟨d₀, device₀, blockSize, unreadable, -⟩ := reads.serves.device
  obtain ⟨-, below, fits⟩ := reads.serves.single there
  obtain rfl : d = d₀ := Option.some.inj (device.symm.trans (below ▸ device₀))
  have alike (stage : Stage) (c : Cache) : stage.Alone p.call.key c d full ↔ stage.Alone p.call.key c disk full := by
    cases stage <;> simp only [Stage.Alone, unreadable]
  have mine (i : Nat) (sl : Slot) (refers : p.stage.slot? = some i) (here : m.cache.table.slots[i]? = some sl) :
      sl.key = p.call.key := by
    obtain ⟨sl', here', key, -⟩ := (sound.called _ (mem_of_lookup reads.pending)).slot refers
    rw [reads.cache, slot?_eq there, here] at here'
    exact Option.some.inj here' ▸ key
  obtain ⟨stage, left⟩ := turned.alone (sound.tables there) (fits.of_like blockSize unreadable) reads.patience
    reads.loads (fun looking i sl here key => reads.unlocked sound looking ((slot?_eq there i).trans here) key) mine
    ((alike _ _).mpr (reads.stage m there))
  have same := (sound.turn_did t).leases_of_quiet rfl
  refine ⟨{ p with stage := turn.result, events := p.events ++ turn.events },
    ⟨serves, same.trans reads.leases, ?_, reads.cache, reads.patience, reads.loads, reads.unleased, fun m' there' => ?_⟩,
    rfl, rfl, left⟩
  · rw [done]
    simp [setPending, carry, reads.calls]
  · have mount : (s.carry p.cache m turn.cache turn.device turn.events).mount? 0 = some m' := by
      rw [← there', done]
      rfl
    rw [reads.cache, carry_same there] at mount
    obtain rfl := Option.some.inj mount
    exact (alike _ _).mp stage

theorem Reads.settle (reads : s.Reads disk v full leases t p) (sound : s.Sound pins) (looking : p.stage = .looking) :
    ∃ p' pins', (s.settle t).Reads disk v full leases t p' ∧ (s.settle t).Sound pins' ∧ p'.name = p.name ∧
      p'.call = p.call ∧ p'.stage.left = 0 := by
  have turns (n : Nat) : ∃ p' pins', (s.run (List.replicate n (.turn t))).Reads disk v full leases t p' ∧
      (s.run (List.replicate n (.turn t))).Sound pins' ∧ p'.name = p.name ∧ p'.call = p.call ∧
      p'.stage.left ≤ 3 - n := by
    induction n with
    | zero => exact ⟨p, pins, reads, sound, rfl, rfl, by rw [looking]; exact Nat.le_refl 3⟩
    | succ n ih =>
        obtain ⟨p₁, pins₁, reads₁, sound₁, name₁, call₁, left₁⟩ := ih
        obtain ⟨p', reads', name', call', left'⟩ := reads₁.turn sound₁
        obtain ⟨pins', sound', -⟩ := sound₁.did (sound₁.turn_did t)
        rw [List.replicate_succ', run, List.foldl_append]
        exact ⟨p', pins', reads', sound', name'.trans name₁, call'.trans call₁, by omega⟩
  obtain ⟨p', pins', reads', sound', name, call, left⟩ := turns 4
  exact ⟨p', pins', reads', sound', name, call, Nat.le_zero.mp left⟩

/-- How a read of thread `t` was answered: with the lease, or in the way the disk has it fail, or not for want of a free
slot. -/
def ReadAnswered (disk : RamDisk) (v : Clients) (full : Prop) (leases : List (String × Lease)) (t : Thread)
    (name : String) (key : Key) (done : Performed RamDisk) : Prop :=
  (done.reply = .refused .blocked ∨ done.reply = .failed (.fault (.stop .exhausted))) ∧ full ∨
    done.host.calls = [] ∧ (∀ entry ∈ done.host.leases, entry ∈ leases ∨ entry.2.thread = t) ∧
      match disk.unreadable key with
      | some why => done.reply = .failed why ∧ done.host.Serves disk v
      | none => (∃ view, done.reply = .lease view) ∧ done.host.Serves disk (v.lease name key)

theorem Reads.answer (reads : s.Reads disk v full leases t p) (sound : s.Sound pins) (left : p.stage.left = 0)
    (free : v.held p.name = none) : ReadAnswered disk v full leases t p.name p.call.key (s.answer t) := by
  have pending := reads.pending
  obtain ⟨m, there⟩ := Option.isSome_iff_exists.mp (sound.called _ (mem_of_lookup pending)).mounted
  have alone := reads.stage m (reads.cache ▸ there)
  have calls : (s.removePending t).calls = [] := by simp [removePending, reads.calls]
  cases stage : p.stage with
  | looking | queued i | loading i => simp [stage, Stage.left] at left
  | starved seen =>
      rw [stage] at alone
      refine .inl ⟨.inl ?_, alone.1⟩
      simp [Host.answer, pending, stage, refuse]
  | granted i =>
      rw [stage] at alone
      have readable : disk.unreadable p.call.key = none := alone
      have unused := reads.serves.unused sound free
      obtain ⟨answered, serves⟩ := reads.serves.answered sound pending stage reads.loads unused
      refine .inr ⟨?_, ?_, by rw [readable]; exact ⟨answered, serves⟩⟩
      · rw [answer_eq pending stage unused]
        exact calls
      · rw [answer_eq pending stage unused]
        intro entry member
        rcases List.mem_append.mp member with old | new
        · exact .inl (reads.leases ▸ old)
        · exact .inr (by rw [List.mem_singleton.mp new])
  | failed why =>
      rw [stage] at alone
      have denied : s.answer t = ⟨s.removePending t, .failed why, p.events⟩ := by simp [Host.answer, pending, stage]
      rw [denied]
      rcases alone with unreadable | ⟨rfl, full⟩
      · refine .inr ⟨calls, fun entry member => .inl (reads.leases ▸ member), ?_⟩
        rw [unreadable]
        have serves := reads.serves
        exact ⟨rfl, serves.single, serves.device, serves.held, serves.leased, serves.clean⟩
      · exact .inl ⟨.inr rfl, full⟩

theorem lease_run (s : Host RamDisk) (t : Thread) (name : String) (c : Nat) (call : Call) :
    ∃ acts, (s.lease t name c call).host = s.run acts := by
  rw [lease]
  split
  · exact ⟨[.start t name c call], rfl⟩
  · exact ⟨.start t name c call :: List.replicate 4 (.turn t) ++ [.answer t], rfl⟩

theorem Serves.read (serves : s.Serves disk v) (sound : s.Sound pins) {m : Mount} (there : s.mount? 0 = some m)
    (idle : s.calls = []) (t : Thread) {name : String} {key : Key} (free : v.held name = none)
    (unleased : ∀ name bytes, v.held name ≠ some (key, bytes)) :
    ReadAnswered disk v (∀ b, m.cache.table.layout.ring b = []) s.leases t name key
      (s.lease t name 0 ⟨key, .block, true⟩) := by
  let p : Pending := ⟨name, 0, ⟨key, .block, true⟩, .looking, []⟩
  have started : s.start t name 0 ⟨key, .block, true⟩ = ⟨{ s with calls := [(t, p)] }, .done, []⟩ := by
    simp [start, pending?, idle, there, nameInUse, serves.unused sound free, p]
  obtain ⟨pins₀, sound₀, -⟩ := sound.did (start_did s t name 0 ⟨key, .block, true⟩)
  rw [started] at sound₀
  have reads : ({ s with calls := [(t, p)] } : Host RamDisk).Reads disk v (∀ b, m.cache.table.layout.ring b = [])
      s.leases t p :=
    ⟨⟨serves.single, serves.device, serves.held, serves.leased, serves.clean⟩, rfl, rfl, rfl, rfl, rfl, unleased,
      fun m' there' empty => Option.some.inj (there'.symm.trans there) ▸ empty⟩
  obtain ⟨p', pins', reads', sound', name', call', left⟩ := reads.settle sound₀ rfl
  have answered := reads'.answer sound' left (by rw [name']; exact free)
  rw [name', call'] at answered
  simpa only [Host.lease, started] using answered

end Host
end BlockCache
