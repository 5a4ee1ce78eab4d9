import BlockCache.Device.RamDisk
import BlockCache.Proofs.Cache.Resident
import BlockCache.Proofs.Host.Calls
import BlockCache.Proofs.Host.Freed

/-!
# Calls that wait for a free slot

A cache may let its callers wait for a free slot. Such a call remembers how many slots had become free when it looked,
and looks again once there are more. None sleeps while a slot is free, and one whose block has come in the meantime
finds it: `no_wakeup_lost`.
-/

namespace BlockCache

theorem Call.Turned.of_starved {δ : Type} [BlockDevice δ] {call : Call} {t : Thread} {cancelled : Token → Bool}
    {c : Cache} {d : δ} {stage : Stage} {turn : Turn δ Stage} {seen : Nat}
    (turned : call.Turned t cancelled c d stage turn) (starved : turn.result = .starved seen) :
    stage = .starved seen ∨ stage = .looking ∧ c.freed = seen ∧ ∀ b, c.table.layout.ring b = [] := by
  cases turned with
  | starved absent empty policy => exact .inr ⟨rfl, Stage.starved.inj starved, empty⟩
  | asleep => exact .inl starved
  | settled => exact .inl starved
  | granted =>
      dsimp only at starved
      split at starved <;> cases starved
  | _ => cases starved

namespace Host

variable {δ : Type} {s : Host δ} {pins : Nat → Nat → Nat} {t : Thread} {p : Pending} {seen : Nat}

/-- The call of thread `t` that becomes `p` looks for its block, but no slot of its cache is free, `seen` having become
free before. -/
structure Misses (s : Host δ) (t : Thread) (p : Pending) (seen : Nat) : Prop where
  looking : ∃ p₀, s.pending? t = some p₀ ∧ p₀.stage = .looking ∧ p₀.Continues p
  full : ∃ m, s.mount? p.cache = some m ∧ m.cache.freed = seen ∧ ∀ i, s.isFree p.cache i = false

variable [BlockDevice δ]

theorem Sound.starved_since (sound : s.Sound pins) (acts : List Act) (after : (s.run acts).pending? t = some p)
    (starved : p.stage = .starved seen) :
    (∃ p₀, s.pending? t = some p₀ ∧ p₀.stage = .starved seen ∧ p₀.Continues p) ∨
      ∃ before rest, acts = before ++ .turn t :: rest ∧ (s.run before).Misses t p seen := by
  induction acts generalizing s pins with
  | nil => exact .inl ⟨p, after, starved, .rfl⟩
  | cons act acts ih =>
      have did := sound.perform_did act
      obtain ⟨pins₁, sound₁, -⟩ := sound.did did
      rcases ih sound₁ after with ⟨p₁, pending₁, starved₁, onward⟩ | ⟨before, rest, rfl, misses⟩
      · -- the call waits after the first act: it did before, or the act is the turn in which it looked
        rcases did.pending_cases pending₁ with
          same | looking | ⟨p₀, m, d, turn, rfl, pending, there, device, turned, rfl⟩
        · exact .inl ⟨p₁, same, starved₁, onward⟩
        · rw [looking] at starved₁
          cases starved₁
        · have continues : p₀.Continues p := ⟨onward.name, onward.cache, onward.call⟩
          rcases turned.of_starved starved₁ with starved₀ | ⟨looking, same, empty⟩
          · exact .inl ⟨p₀, pending, starved₀, continues⟩
          · refine .inr ⟨[], acts, rfl, ⟨p₀, pending, looking, continues⟩, m, ?_, same, ?_⟩
            · rw [continues.cache]
              exact there
            · intro i
              show s.isFree p.cache i = false
              rw [continues.cache, isFree_eq_layout there]
              exact (sound.tables there).rings_eq_nil_iff.mp empty i
      · exact .inr ⟨act :: before, rest, rfl, misses⟩

theorem Sound.turn_awake (sound : s.Sound pins) (pending : s.pending? t = some p) (starved : p.stage = .starved seen)
    {m : Mount} (there : s.mount? p.cache = some m) (more : m.cache.freed ≠ seen) :
    (s.turn t).host.pending? t = some { p with stage := .looking } := by
  obtain ⟨m', d, turn, there', -, turned, done⟩ := sound.turn_eq pending
  obtain rfl : m = m' := Option.some.inj (there.symm.trans there')
  rw [starved] at turned
  rw [done]
  cases turned with
  | awake =>
      simp only [List.append_nil]
      exact lookup_replace_same pending _
  | asleep same | unserved same => exact absurd same more
  | settled ended => rcases ended with ⟨i, settled⟩ | ⟨why, settled⟩ <;> cases settled

theorem Sound.turn_hit (sound : s.Sound pins) (pending : s.pending? t = some p) (looking : p.stage = .looking) {i : Nat}
    {sl : Slot} (here : s.slot? p.cache i = some sl) (assigned : sl.assigned = true) (key : sl.key = p.call.key) :
    (s.turn t).host.pending? t =
        some { p with stage := .queued i, events := p.events ++ [.hit p.call.key i] } ∧
      (s.turn t).host.slot? p.cache i = some sl.take ∧
      ∀ j sl', (s.turn t).host.slot? p.cache j = some sl' → sl'.assigned = true → sl'.key = p.call.key → j = i := by
  obtain ⟨m, d, turn, there, -, turned, done⟩ := sound.turn_eq pending
  have table := sound.tables there
  have has : m.cache.table.layout.Has i p.call.key := ⟨sl, (slot?_eq there i).symm.trans here, assigned, key⟩
  rw [looking] at turned
  rw [done]
  cases turned with
  | stopped absent | starved absent => exact absurd has (absent i)
  | settled ended => rcases ended with ⟨i, settled⟩ | ⟨why, settled⟩ <;> cases settled
  | @found found L' change c' finds moved =>
      cases finds with
      | evicted absent | stolen absent => exact absurd has (absent i)
      | @hit k has' =>
          obtain rfl := table.consistent.unique has' has
          have after : (s.carry p.cache m c' d [.hit p.call.key k]).mount? p.cache = some _ := carry_same there
          have kept : c'.table.slots[k]? = some sl.take := moved.same ((slot?_eq there k).symm.trans here)
          refine ⟨lookup_replace_same pending _, (slot?_eq after k).trans kept, ?_⟩
          intro j sl' here' assigned' key'
          have inTable : c'.table.slots[j]? = some sl' := (slot?_eq after j).symm.trans here'
          exact (moved.sound table).consistent.distinct inTable kept assigned' assigned (key'.trans key.symm)

section
variable {devices : List δ} {plans : List (Nat × Plan)} {acts : List Act} {c device : Nat} {plan : Plan} {m : Mount}
  (planned : plans[c]? = some (device, plan)) (policy : plan.exhaustion = .wait)
  (there : ((assemble devices plans).run acts).mount? c = some m)
include planned policy there

theorem freed_eq_freeCount : m.cache.freed = (assemble devices plans).freeCount acts c := by
  obtain ⟨m₀, there₀, -⟩ := (assemble_sound devices plans).becomes acts there
  obtain ⟨-, -, -, -, exhaustion⟩ := measures_of_becomes there₀ .rfl planned
  obtain ⟨config, fresh, -⟩ := assemble_fresh there₀
  obtain ⟨m', there', count, -⟩ :=
    (assemble_sound devices plans).run_freed acts there₀ (exhaustion.trans policy)
  obtain rfl : m = m' := Option.some.inj (there.symm.trans there')
  have zero : m₀.cache.freed = 0 := fresh ▸ rfl
  omega

theorem starved_counted (pending : ((assemble devices plans).run acts).pending? t = some p) (same : p.cache = c)
    (starved : p.stage = .starved seen) : ∃ before rest, acts = before ++ .turn t :: rest ∧
      ((assemble devices plans).run before).Misses t p seen ∧
      m.cache.freed = seen + ((assemble devices plans).run before).freeCount (.turn t :: rest) c ∧
      (m.cache.freed = seen → ∀ i, m.cache.table.layout.isFree i = false) := by
  subst same
  rcases (assemble_sound devices plans).starved_since acts pending starved with ⟨p₀, none, -⟩ | ⟨before, rest, rfl, misses⟩
  · cases none
  · obtain ⟨pins, sound⟩ := run_sound devices plans before
    obtain ⟨m₁, there₁, rfl, full⟩ := misses.full
    obtain ⟨-, -, -, -, exhaustion⟩ := run_measures there₁ planned
    obtain ⟨m', there', count, still⟩ := sound.run_freed (.turn t :: rest) there₁ (exhaustion.trans policy)
    rw [run, List.foldl_append] at there
    obtain rfl : m = m' := Option.some.inj (there.symm.trans there')
    refine ⟨before, rest, rfl, misses, count, fun same => still (fun i => ?_) (by omega)⟩
    rw [← isFree_eq_layout there₁]
    exact full i

end

end Host
open Host

/-- A cache whose callers wait counts how often a slot has become free. A call that waits looked when no slot was free,
and sleeps only as long as none has become free since: then none is free. Once one has, it looks again, and if its
block has a slot by then it takes that one. -/
theorem no_wakeup_lost {δ : Type} [BlockDevice δ] (devices : List δ) (plans : List (Nat × Plan)) (acts : List Act)
    {c device : Nat} {plan : Plan} {m : Mount} (planned : plans[c]? = some (device, plan))
    (policy : plan.exhaustion = .wait) (there : ((assemble devices plans).run acts).mount? c = some m) :
    let start := assemble devices plans
    let s := start.run acts
    m.cache.freed = start.freeCount acts c ∧
    ∀ t p, s.pending? t = some p → p.cache = c →
      (∀ seen, p.stage = .starved seen →
        (∃ before rest, acts = before ++ .turn t :: rest ∧ (start.run before).Misses t p seen ∧
          m.cache.freed = seen + (start.run before).freeCount (.turn t :: rest) c) ∧
        (m.cache.freed = seen → (∀ b, m.cache.table.rings.forward b = []) ∧ ∀ i, s.isFree c i = false) ∧
        (m.cache.freed ≠ seen → (s.turn t).host.pending? t = some { p with stage := .looking })) ∧
      (p.stage = .looking → ∀ i sl, s.slot? c i = some sl → sl.assigned = true → sl.key = p.call.key →
        (s.turn t).host.pending? t =
            some { p with stage := .queued i, events := p.events ++ [.hit p.call.key i] } ∧
          (s.turn t).host.slot? c i = some sl.take ∧
          ∀ j sl', (s.turn t).host.slot? c j = some sl' → sl'.assigned = true → sl'.key = p.call.key → j = i) := by
  intro start s
  obtain ⟨pins, sound⟩ := run_sound devices plans acts
  refine ⟨freed_eq_freeCount planned policy there, fun t p pending same => ⟨fun seen starved => ?_, ?_⟩⟩
  · obtain ⟨before, rest, split, misses, count, full⟩ :=
      starved_counted planned policy there pending same starved
    subst same
    refine ⟨⟨before, rest, split, misses, count⟩, fun same => ⟨?_, fun i => ?_⟩, sound.turn_awake pending starved there⟩
    · exact (sound.tables there).rings_eq_nil_iff.mpr (full same)
    · rw [isFree_eq_layout there]
      exact full same i
  · subst same
    exact fun looking i sl => sound.turn_hit pending looking

/-- Two calls wait for the only slot. When it is let go of the second of them gets it for its block, which the first
then finds there. -/
theorem no_wakeup_lost_by_two :
    let call : Call := ⟨⟨0, 1⟩, .block, false⟩
    let wait : List Act := [.start 0 "a" 0 ⟨⟨0, 0⟩, .block, false⟩, .turn 0, .turn 0, .answer 0,
      .start 1 "b" 0 call, .turn 1, .start 2 "c" 0 call, .turn 2]
    let free : List Act := wait ++ [.finish 0 "a" .dropped, .turn 2]
    let look : List Act := free ++ [.turn 2, .turn 1]
    let start := assemble [RamDisk.empty 8 none] [(0, ⟨1, 1, 8, .wait⟩)]
    (∀ i, (start.run wait).isFree 0 i = false) ∧
      ((start.run free).turn 1).host.pending? 1 = some ⟨"b", 0, call, .looking, [.waiting]⟩ ∧
      ((start.run look).turn 1).host.pending? 1 = some ⟨"b", 0, call, .queued 0, [.waiting, .hit ⟨0, 1⟩ 0]⟩ := by
  intro call wait free look start
  have asleep : ((start.run wait).mount? 0).map (·.cache.freed) = some 0 := by decide +kernel
  have woken : ((start.run free).mount? 0).map (·.cache.freed) = some 1 := by decide +kernel
  have found : ((start.run look).mount? 0).map (·.cache.freed) = some 1 := by decide +kernel
  have waits : (start.run wait).pending? 1 = some ⟨"b", 0, call, .starved 0, [.waiting]⟩ := by decide +kernel
  have waits' : (start.run free).pending? 1 = some ⟨"b", 0, call, .starved 0, [.waiting]⟩ := by decide +kernel
  have looks : (start.run look).pending? 1 = some ⟨"b", 0, call, .looking, [.waiting]⟩ := by decide +kernel
  have slot : ((start.run look).slot? 0 0).any (fun sl => sl.assigned ∧ sl.key = ⟨0, 1⟩) = true := by decide +kernel
  obtain ⟨m, there, none⟩ := Option.map_eq_some_iff.mp asleep
  obtain ⟨m₁, there₁, one⟩ := Option.map_eq_some_iff.mp woken
  obtain ⟨m₂, there₂, -⟩ := Option.map_eq_some_iff.mp found
  obtain ⟨sl, here, has⟩ := Option.any_eq_true _ _ |>.mp slot
  obtain ⟨assigned, key⟩ := of_decide_eq_true has
  have first := (no_wakeup_lost _ _ wait rfl rfl there).2 1 _ waits rfl
  have second := (no_wakeup_lost _ _ free rfl rfl there₁).2 1 _ waits' rfl
  have third := (no_wakeup_lost _ _ look rfl rfl there₂).2 1 _ looks rfl
  refine ⟨((first.1 0 rfl).2.1 none).2, (second.1 0 rfl).2.2 (by rw [one]; decide), ?_⟩
  exact (third.2 rfl 0 sl here assigned key).1

end BlockCache
