import Mathlib.Data.List.Infix
import BlockCache.Proofs.Exclusion
import BlockCache.Proofs.Host.Referenced

/-!
# Blocks that stay

A block stays in its slot as long as somebody refers to it: a lease, a call that waits for its lock, or a pin. Whatever
else happens, lookups of it are hits there: `referenced_block_stays`.
-/

namespace BlockCache

def Step.lookup? {δ : Type} (step : Step) (s : Host δ) : Option (Nat × Key) :=
  match step with
  | .act a => a.lookup? s
  | .probe t j => (s.pending? t).bind fun p =>
      if p.stage = .looking ∧ (s.mount? p.cache).any (fun m => m.cache.reaches p.call.key j) then
        some (p.cache, p.call.key)
      else none
  | _ => none

namespace Host

variable {δ : Type} [BlockDevice δ]

/-- Slot `i` of cache `c` has the block, for which every lookup is a hit there however far it has come, and is valid if
`valid` is true. -/
structure HasAt (s : Host δ) (c i : Nat) (key : Key) (valid : Bool) : Prop where
  kept : ∃ m sl, s.mount? c = some m ∧ m.cache.Keeps i key ∧ m.cache.table.slots[i]? = some sl ∧
    (valid = true → sl.valid = true)
  hit : ∀ step : Step, step.lookup? s = some (c, key) → (s.advance step).events = [.hit key i]

/-- While the steps are taken no more pins on slot `i` of cache `c` are taken back than are set. -/
def PinStands (s : Host δ) (c i : Nat) (steps : List Step) : Prop :=
  ∀ first, first <+: steps → s.unpinCount first c i ≤ s.pinCount first c i

variable {s : Host δ} {pins : Nat → Nat → Nat} {c i : Nat} {sl : Slot} {steps : List Step} {t : Thread} {name : String}
  {v : Cache.View}

instance : Decidable (s.PinStands c i steps) :=
  decidable_of_iff (∀ first ∈ steps.inits, s.unpinCount first c i ≤ s.pinCount first c i) (by simp [PinStands])

instance : Decidable (s.Referenced c i steps) :=
  decidable_of_iff (∀ first ∈ steps.inits, ((s.walk first).slot? c i).any fun sl => sl.refcount ≠ 0)
    (by simp [Referenced, Option.any_eq_true])

theorem Sound.hits (sound : s.Sound pins) {m : Mount} (there : s.mount? c = some m) {key : Key}
    (has : m.cache.table.layout.Has i key) {step : Step} (looks : step.lookup? s = some (c, key)) :
    (s.advance step).events = [.hit key i] := by
  have table := sound.tables there
  cases step with
  | act act =>
      obtain ⟨found, m', -, -, sought, events⟩ := sound.looked there looks
      generalize m'.cache = after at sought
      cases sought with
      | nothing absent => exact absurd has (absent i)
      | found finds moved =>
          refine (events _ rfl).trans ?_
          cases finds with
          | hit has' => rw [table.consistent.unique has' has, Found.events]
          | evicted absent | stolen absent => exact absurd has (absent i)
  | probe t j =>
      obtain ⟨p, pending, looks⟩ := Option.bind_eq_some_iff.mp looks
      split at looks
      · rename_i able
        obtain ⟨rfl, rfl⟩ := Prod.mk.inj (Option.some.inj looks)
        rw [there, Option.any_some] at able
        rcases sound.probe_cases pending able.1 there able.2 with
          ⟨d, found, cache, device, gains, -, done⟩ | ⟨without, -⟩
        · rw [Host.advance, done]
          obtain ⟨sl, -, ready⟩ := gains.moved.allowed
          cases found with
          | hit k =>
              have has' : m.cache.table.layout.Has k p.call.key := gains.suits
              rw [table.consistent.unique has' has, Found.events]
          | evicted | stolen => exact absurd has (ready.1 i)
        · exact absurd has (without.absent i)
      · cases looks
  | _ => cases looks

theorem Sound.hasAt (sound : s.Sound pins) (here : s.slot? c i = some sl) (referenced : sl.refcount ≠ 0) :
    s.HasAt c i sl.key sl.valid := by
  obtain ⟨m, there, inTable⟩ := Option.bind_eq_some_iff.mp here
  have table := sound.tables there
  have has : m.cache.table.layout.Has i sl.key :=
    ⟨sl, inTable, table.consistent.assigned_of_referenced inTable referenced, rfl⟩
  exact ⟨⟨m, sl, there, table.keeps inTable referenced, inTable, id⟩, fun step looks => sound.hits there has looks⟩

theorem Sound.walk_hasAt (sound : s.Sound pins) (referenced : s.Referenced c i steps) (here : s.slot? c i = some sl) :
    (s.walk steps).HasAt c i sl.key sl.valid := by
  obtain ⟨sl', here', remains⟩ := sound.walk_remains referenced here
  obtain ⟨sl₀, here₀, busy⟩ := referenced steps (List.prefix_refl steps)
  obtain rfl : sl' = sl₀ := Option.some.inj (here'.symm.trans here₀)
  obtain ⟨pins', sound'⟩ := sound.walk steps
  obtain ⟨⟨m, sl₁, there, keeps, inTable, valid⟩, hit⟩ := sound'.hasAt here' busy
  exact remains.key ▸ ⟨⟨m, sl₁, there, keeps, inTable, valid ∘ remains.valid⟩, hit⟩

theorem Sound.pin_slot (sound : s.Sound pins) (pinned : (s.pin t c name).reply = .lease v) :
    ∃ pins' sl, (s.pin t c name).host.Sound pins' ∧ 0 < pins' c v.slot ∧
      (s.pin t c name).host.slot? c v.slot = some sl ∧ sl.key = v.key ∧ sl.valid = v.valid := by
  have did := sound.pin_did t c name
  generalize s.pin t c name = done at did pinned ⊢
  cases did with
  | refused => cases pinned
  | foreign => cases pinned
  | stopped which held there device => cases pinned
  | edited which => simp at which
  | @pinned _ _ lease m d cache s' held there device moved carried =>
      subst carried
      obtain ⟨pins', sound', count⟩ := sound.pinned held there moved t d
      have step := carry_movedAt there moved d []
      obtain ⟨-, sl, -, here, -⟩ := step.ready
      have after := step.slot_same here
      have view := view_eq after
      obtain rfl := Reply.lease.inj (view.symm.trans pinned)
      refine ⟨pins', _, sound', ?_, after, rfl, rfl⟩
      rw [count, view]
      simp [Act.pinned?, held]

theorem Sound.referenced_of_pin (sound : s.Sound pins) (pinned : 0 < pins c i) (here : (s.slot? c i).isSome = true)
    (stands : s.PinStands c i steps) : s.Referenced c i steps := by
  intro first initial
  obtain ⟨pins', sound', balance⟩ := sound.walk_balanced first
  obtain ⟨sl', here'⟩ := Option.isSome_iff_exists.mp (sound.walk_slot first here)
  refine ⟨sl', here', ?_⟩
  have refcount := (sound'.accounted here').refcount
  have balance := balance c i
  have stands := stands first initial
  simp only [ledger] at refcount
  omega

end Host

/-- A block stays in its slot as long as somebody refers to it, and the slot stays valid. The bytes under a lease change
through the lease only. A pinned block stays until its pin is taken back, and if it was valid no step reads it again:
the devices are asked for nothing but what is listed. -/
theorem referenced_block_stays {δ : Type} [BlockDevice δ] (devices : List δ) (plans : List (Nat × Plan))
    (before : List Step) :
    let s := (Host.assemble devices plans).walk before
    (∀ (c i : Nat) (sl : Slot) (steps : List Step), s.slot? c i = some sl → s.Referenced c i steps →
      (s.walk steps).HasAt c i sl.key sl.valid) ∧
    (∀ lease ∈ s.live, ∀ step : Step, ¬ step.Through s lease →
      (s.advance step).host.content? lease.cache lease.slot = s.content? lease.cache lease.slot) ∧
    (∀ step : Step, (s.advance step).host.devices = s.devicesAfter step) ∧
    ∀ (t : Thread) (c : Nat) (name : String) (v : Cache.View) (steps : List Step),
      let pinned := (s.perform (.pin t c name)).host
      (s.perform (.pin t c name)).reply = .lease v → pinned.PinStands c v.slot steps →
        (pinned.walk steps).HasAt c v.slot v.key v.valid ∧ (v.valid = true →
          ∀ entry ∈ pinned.trail steps, ∀ use, entry.1.use? entry.2 = some use → use.reads c v.key = false) := by
  intro s
  obtain ⟨pins, sound⟩ := Host.walk_sound devices plans before
  refine ⟨fun c i sl steps here referenced => sound.walk_hasAt referenced here, fun lease live step other => ?_,
    sound.advance_devices, ?_⟩
  · obtain ⟨sl, here⟩ := sound.slot_of_live live
    exact sound.took_bytes (sound.advance_took step) live here other
  · intro t c name v steps pinned reply stands
    obtain ⟨pins', sl, sound', some, here, key, valid⟩ := sound.pin_slot reply
    have referenced := sound'.referenced_of_pin some (by rw [here]; rfl) stands
    rw [← key, ← valid]
    exact ⟨sound'.walk_hasAt referenced here, sound'.walk_unread referenced here⟩

/-- A block comes into a cache while another lookup of it has passed its home bucket. It is pinned twice and unpinned
once. Meanwhile its lease ends, another block takes the slot beside it, and it is leased again: the other lookup, which
goes on last, finds it where it was. -/
theorem referenced_block_stays_pinned :
    let read (t : Thread) (name : String) (key : Key) : List Step :=
      ([.start t name 0 ⟨key, .block, true⟩, .turn t, .turn t, .turn t, .answer t] : List Act).map .act
    let before := read 2 "c" ⟨0, 2⟩ ++ [.act (.start 1 "b" 0 ⟨⟨0, 4⟩, .block, true⟩), .probe 1 0] ++ read 0 "a" ⟨0, 4⟩
    let steps := [.act (.pin 0 0 "a"), .unlock 0 "a" (.released none), .unlock 2 "c" .dropped, .part 0 1, .part 0 0] ++
      read 3 "d" ⟨0, 6⟩ ++ read 0 "a" ⟨0, 4⟩ ++ [.act (.fill "a" 7), .act (.unpin 0 0 "a"), .unlock 0 "a" .dropped]
    let s := (Host.assemble [RamDisk.empty 4 none] [(0, ⟨2, 2, 4, .wait⟩)]).walk before
    let pinned := (s.perform (.pin 0 0 "a")).host
    (∃ v : Cache.View, v.valid = true ∧ (pinned.walk steps).HasAt 0 v.slot v.key true ∧
      ((pinned.walk steps).advance (.probe 1 1)).events = [.hit ⟨0, 4⟩ 1] ∧
      ∀ entry ∈ pinned.trail steps, ∀ use, entry.1.use? entry.2 = some use → use.reads 0 v.key = false) ∧
    (∃ sl, s.slot? 0 0 = some sl ∧ (s.walk (read 0 "a" ⟨0, 4⟩)).HasAt 0 0 sl.key sl.valid) ∧
    (s.advance (.probe 1 1)).host.content? 0 1 = s.content? 0 1 := by
  intro read before steps s pinned
  have reply : (s.perform (.pin 0 0 "a")).reply = .lease ⟨⟨0, 4⟩, 1, true, 2, 4⟩ := by decide +kernel
  have stands : pinned.PinStands 0 1 steps := by decide +kernel
  have looks : (Step.probe 1 1).lookup? (pinned.walk steps) = some (0, ⟨0, 4⟩) := by decide +kernel
  have referenced : s.Referenced 0 0 (read 0 "a" ⟨0, 4⟩) := by decide +kernel
  have here : (s.slot? 0 0).isSome = true := by decide +kernel
  obtain ⟨sl, here⟩ := Option.isSome_iff_exists.mp here
  have live : (⟨0, 1, 0⟩ : Lease) ∈ s.live := by decide +kernel
  obtain ⟨stays, bytes, -, pins⟩ :=
    referenced_block_stays [RamDisk.empty 4 none] [(0, ⟨2, 2, 4, .wait⟩)] before
  obtain ⟨hasAt, unread⟩ := pins 0 0 "a" _ steps reply stands
  exact ⟨⟨_, rfl, hasAt, hasAt.hit _ looks, unread rfl⟩, ⟨sl, here, stays 0 0 sl _ here referenced⟩,
    bytes _ live _ nofun⟩

end BlockCache
