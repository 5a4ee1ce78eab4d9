import BlockCache.Device.RamDisk
import BlockCache.Proofs.Host.Freed
import BlockCache.Proofs.Host.Walks

/-!
# When a lookup finds nothing

A lookup that others get between the visits of ends with nothing only if each bucket had no free slot when it was
visited. So no slot that is free all the time is missed: `free_slot_found`. One that becomes free in a bucket that was
visited already may be missed, even though the slots that are taken meanwhile lie ahead: `free_slot_missed`.
-/

namespace BlockCache

namespace Host

variable {δ : Type} [BlockDevice δ] {s : Host δ} {pins : Nat → Nat → Nat} {t : Thread} {p : Pending} {c i j : Nat}
  {m : Mount} {sl : Slot} {steps : List Step}

theorem Sound.free_advance (sound : s.Sound pins) (step : Step) (here : s.slot? c i = some sl)
    (free : sl.refcount = 0) (still : (s.advance step).host.isFree c i = true) :
    (s.advance step).host.slot? c i = some sl := by
  obtain ⟨m, there, inTable⟩ := Option.bind_eq_some_iff.mp here
  obtain ⟨m', after, calms | ⟨key, found, gains⟩⟩ := sound.advance_cases step there
  · exact (slot?_eq after i).trans (calms.settles.free_slot (sound.tables there) inTable free)
  · rcases gains.moved.free_slot (sound.tables there) inTable free with same | ⟨-, sl', taken, single⟩
    · exact (slot?_eq after i).trans same
    · obtain ⟨sl₁, here₁, free₁⟩ := isFree_iff.mp still
      obtain rfl : sl₁ = sl' := Option.some.inj (here₁.symm.trans ((slot?_eq after i).trans taken))
      omega

theorem Sound.free_stays (sound : s.Sound pins) (here : s.slot? c i = some sl)
    (free : ∀ entry ∈ s.trail steps, entry.1.isFree c i = true) :
    ∀ entry ∈ s.trail steps, entry.1.slot? c i = some sl := by
  induction steps generalizing s pins with
  | nil => exact nofun
  | cons step steps ih =>
      obtain ⟨now, later⟩ := List.forall_mem_cons.mp free
      obtain ⟨sl', here', none⟩ := isFree_iff.mp now
      obtain rfl : sl = sl' := Option.some.inj (here.symm.trans here')
      refine List.forall_mem_cons.mpr ⟨here, ?_⟩
      cases steps with
      | nil => exact nofun
      | cons next steps =>
          obtain ⟨pins₁, sound₁⟩ := sound.advance step
          exact ih sound₁ (sound.free_advance step here none (List.forall_mem_cons.mp later).1) later

theorem Sound.queued_stays (sound : s.Sound pins) (pending : s.pending? t = some p) (queued : p.stage ≠ .looking)
    (others : ∀ step ∈ steps, step.caller? = some t → ∃ j, step = .probe t j) :
    (s.walk steps).pending? t = some p := by
  induction steps generalizing s pins with
  | nil => exact pending
  | cons step steps ih =>
      obtain ⟨own, others'⟩ := List.forall_mem_cons.mp others
      have took := sound.advance_took step
      obtain ⟨pins₁, sound₁⟩ := sound.advance step
      have pending₁ : (s.advance step).host.pending? t = some p := by
        by_cases mine : step.caller? = some t
        · obtain ⟨j, rfl⟩ := own mine
          have settled {p₀ : Pending} (pending₀ : s.pending? t = some p₀) (looking : p₀.stage = .looking) : False :=
            queued (Option.some.inj (pending.symm.trans pending₀) ▸ looking)
          generalize s.advance _ = done at took
          cases took with
          | refused => exact pending
          | found pending₀ looking | nothing pending₀ looking => exact (settled pending₀ looking).elim
        · exact (took.pending_other mine).trans pending
      exact ih sound₁ pending₁ others'

theorem Sound.searched (sound : s.Sound pins) (pending : s.pending? t = some p) (looking : p.stage = .looking)
    (others : ∀ step ∈ steps, step.caller? = some t → ∃ j, step = .probe t j)
    (reached : ∀ entry ∈ s.trail steps, ∀ j m, entry.2 = .probe t j → entry.1.mount? p.cache = some m →
      m.cache.reaches p.call.key j = true) :
    (∃ p' i, (s.walk steps).pending? t = some p' ∧ p'.stage = .queued i) ∨
      ∀ entry ∈ s.trail steps, entry.1.pending? t = some p ∧ ∀ j m, entry.2 = .probe t j →
        entry.1.mount? p.cache = some m → m.cache.Without p.call.key ∧ m.cache.table.layout.ring j = [] := by
  induction steps generalizing s pins with
  | nil => exact .inr nofun
  | cons step steps ih =>
      obtain ⟨own, others'⟩ := List.forall_mem_cons.mp others
      obtain ⟨here, later⟩ := List.forall_mem_cons.mp reached
      have took := sound.advance_took step
      obtain ⟨pins₁, sound₁⟩ := sound.advance step
      by_cases mine : step.caller? = some t
      · obtain ⟨j, rfl⟩ := own mine
        obtain ⟨m, there⟩ := Option.isSome_iff_exists.mp (sound.called _ (mem_of_lookup pending)).mounted
        rcases sound.probe_cases pending looking there (here j m rfl there) with
          ⟨d, found, cache, device, gains, -, done⟩ | ⟨without, empty, -, done⟩
        · have queued : (s.advance (.probe t j)).host.pending? t = some { p with
              stage := .queued found.slot, events := p.events ++ found.events p.call.key } := by
            rw [Host.advance, done]
            exact queuedAt_pending pending m cache d found
          exact .inl ⟨_, found.slot, sound₁.queued_stays queued (by simp) others', rfl⟩
        · -- a visit that finds nothing changes nothing, so that the call looks on
          have same : (s.advance (.probe t j)).host = s := congrArg Performed.host done
          rw [same] at later
          rw [walk_cons, same]
          refine (ih sound pending others' later).imp id fun rest => ?_
          refine List.forall_mem_cons.mpr ⟨⟨pending, ?_⟩, same.symm ▸ rest⟩
          rintro _ m' ⟨⟩ there'
          obtain rfl : m = m' := Option.some.inj (there.symm.trans there')
          exact ⟨without, empty⟩
      · have pending₁ := (took.pending_other mine).trans pending
        refine (ih sound₁ pending₁ others' later).imp id fun rest => List.forall_mem_cons.mpr ⟨⟨pending, ?_⟩, rest⟩
        rintro j m rfl
        exact absurd rfl mine

def bucket? (t : Thread) : Step → Option Nat
  | .probe t' j => if t' = t then some j else none
  | _ => none

/-- The steps are a lookup for the call `p` of thread `t`: the visits to all buckets, with steps of others in between.
While the buckets before the home bucket are visited the home bucket is locked, so that neither a free slot nor the
block comes there. -/
structure Searches (s : Host δ) (t : Thread) (p : Pending) (steps : List Step) : Prop where
  pending : s.pending? t = some p
  looking : p.stage = .looking
  route : (s.mount? p.cache).map (fun m => m.cache.route p.call.key) = some (steps.filterMap (bucket? t))
  others : ∀ step ∈ steps, step.caller? = some t → (bucket? t step).isSome = true
  locked : ∀ entry ∈ s.trail steps, ∀ j m, entry.2 = .probe t j → entry.1.mount? p.cache = some m →
    j < m.cache.home p.call.key → m.cache.table.rings.forward (m.cache.home p.call.key) = [] ∧
      ∀ i ∈ m.cache.table.chains.toList (m.cache.home p.call.key), ∀ sl, m.cache.table.slots[i]? = some sl →
        sl.key ≠ p.call.key

theorem bucket?_eq_some {step : Step} : bucket? t step = some j ↔ step = .probe t j := by
  cases step <;> simp [bucket?]

theorem entry_sound {devices : List δ} {plans : List (Nat × Plan)} {before : List Step} {entry : Host δ × Step}
    (member : entry ∈ ((assemble devices plans).walk before).trail steps) {device : Nat} {plan : Plan}
    (planned : plans[c]? = some (device, plan)) (there : entry.1.mount? c = some m) :
    m.cache.table.Sound ∧ m.cache.buckets = plan.buckets := by
  obtain ⟨first, rest, -, same⟩ := mem_trail.mp member
  rw [same, ← walk_append] at there
  obtain ⟨pins, sound⟩ := walk_sound devices plans (before ++ first)
  exact ⟨sound.tables there, (walk_measures there planned).2.2.1⟩

/-- The lookup has found nothing: each bucket had no free slot when it was visited, and nor had the home bucket. -/
structure Passed (s : Host δ) (t : Thread) (p : Pending) (steps : List Step) (buckets : Nat) : Prop where
  looking : ∀ entry ∈ s.trail steps, entry.1.isLooking t = true
  empty : ∀ j < buckets, ∃ entry ∈ s.trail steps, ∃ m, entry.1.mount? p.cache = some m ∧ m.cache.table.Sound ∧
    m.cache.table.layout.buckets = buckets ∧ m.cache.table.layout.ring (p.call.key.block.toNat % buckets) = [] ∧
    m.cache.table.layout.ring j = []

theorem Searches.found_or_passed {devices : List δ} {plans : List (Nat × Plan)} {before : List Step} {device : Nat}
    {plan : Plan} (planned : plans[p.cache]? = some (device, plan))
    (searches : ((assemble devices plans).walk before).Searches t p steps) :
    (∃ p' i, (((assemble devices plans).walk before).walk steps).pending? t = some p' ∧ p'.stage = .queued i) ∨
      ((assemble devices plans).walk before).Passed t p steps plan.buckets := by
  obtain ⟨pins, sound⟩ := walk_sound devices plans before
  obtain ⟨m₀, there₀, route⟩ := Option.map_eq_some_iff.mp searches.route
  have visited {j : Nat} : .probe t j ∈ steps ↔ j < plan.buckets := by
    rw [← (walk_measures there₀ planned).2.2.1, ← Cache.mem_route (sound.tables there₀), route, List.mem_filterMap]
    exact ⟨fun member => ⟨_, member, bucket?_eq_some.mpr rfl⟩, fun ⟨_, member, same⟩ =>
      bucket?_eq_some.mp same ▸ member⟩
  have reached : ∀ entry ∈ ((assemble devices plans).walk before).trail steps, ∀ j m, entry.2 = .probe t j →
      entry.1.mount? p.cache = some m → m.cache.reaches p.call.key j = true := by
    intro entry member j m same there
    obtain ⟨table, buckets⟩ := entry_sound member planned there
    obtain ⟨first, rest, split, -⟩ := mem_trail.mp member
    refine (Cache.reaches_iff table).mpr ⟨buckets ▸ visited.mp (by simp [split, same]), fun earlier => ?_⟩
    obtain ⟨empty, lacks⟩ := searches.locked entry member j m same there earlier
    exact .of_lacks table empty lacks
  have others : ∀ step ∈ steps, step.caller? = some t → ∃ j, step = .probe t j := fun step member mine =>
    (Option.isSome_iff_exists.mp (searches.others step member mine)).imp fun _ => bucket?_eq_some.mp
  refine (sound.searched searches.pending searches.looking others reached).imp id fun nothing => ⟨?_, ?_⟩
  · intro entry member
    simp [isLooking, (nothing entry member).1, searches.looking]
  · intro j inside
    obtain ⟨first, rest, split⟩ := List.append_of_mem (visited.mpr inside)
    have member : (((assemble devices plans).walk before).walk first, _) ∈ _ :=
      mem_trail.mpr ⟨first, rest, split, rfl⟩
    obtain ⟨pins', sound'⟩ := sound.walk first
    obtain ⟨pending', empty⟩ := nothing _ member
    obtain ⟨m, there⟩ := Option.isSome_iff_exists.mp (sound'.called _ (mem_of_lookup pending')).mounted
    obtain ⟨table, buckets⟩ := entry_sound member planned there
    obtain ⟨without, here⟩ := empty j m rfl there
    have own := without.empty
    rw [Cache.home, buckets] at own
    exact ⟨_, member, m, there, table, buckets, own, here⟩

omit [BlockDevice δ] in
theorem ring_of_free (table : m.cache.table.Sound) (there : s.mount? c = some m) (here : s.slot? c i = some sl)
    (free : sl.refcount = 0) : i ∈ m.cache.table.layout.ring (m.cache.table.layout.bucketOf i sl) :=
  (table.consistent.ringed ((slot?_eq there i).symm.trans here) _).mpr ⟨free, rfl⟩

theorem Passed.taken {buckets : Nat} (passed : s.Passed t p steps buckets) (sound : s.Sound pins) (positive : 0 < buckets)
    (i : Nat) : ∃ entry ∈ s.trail steps, entry.1.isFree p.cache i = false := by
  refine Classical.byContradiction fun never => ?_
  have free : ∀ entry ∈ s.trail steps, entry.1.isFree p.cache i = true := by
    simpa only [not_exists, not_and, Bool.not_eq_false] using never
  obtain ⟨sl, here, none⟩ : ∃ sl, s.slot? p.cache i = some sl ∧ sl.refcount = 0 := by
    cases steps with
    | nil =>
        obtain ⟨entry, member, -⟩ := passed.empty 0 positive
        cases member
    | cons step steps => exact isFree_iff.mp (free _ List.mem_cons_self)
  -- the slot stays as it is, so that all the time it is in the ring of one bucket, which is visited once
  obtain ⟨b, inside, bucket⟩ : ∃ b < buckets, ∀ L : Layout, L.buckets = buckets → L.bucketOf i sl = b := by
    refine ⟨(if sl.assigned then sl.key.block.toNat else i) % buckets, Nat.mod_lt _ positive, ?_⟩
    rintro L rfl
    rw [Layout.bucketOf, Layout.home]
    cases sl.assigned <;> rfl
  obtain ⟨entry, member, m, there, table, same, -, empty⟩ := passed.empty b inside
  have ringed := ring_of_free table there (sound.free_stays here free entry member) none
  rw [bucket _ same, empty] at ringed
  cases ringed

theorem Passed.full {buckets : Nat} (passed : s.Passed t p steps buckets) (positive : 0 < buckets) (few : buckets ≤ 2) :
    ∃ entry ∈ s.trail steps, ∀ i, entry.1.isFree p.cache i = false := by
  obtain ⟨home, home_eq⟩ : ∃ home, home = p.call.key.block.toNat % buckets := ⟨_, rfl⟩
  have inside : home < buckets := home_eq ▸ Nat.mod_lt _ positive
  -- the visit to the other bucket, if there is one, sees both
  obtain ⟨entry, member, m, there, table, same, own, other⟩ := passed.empty (buckets - 1 - home) (by omega)
  refine ⟨entry, member, fun i => Bool.eq_false_iff.mpr fun free => ?_⟩
  obtain ⟨sl, here, none⟩ := isFree_iff.mp free
  have ringed := ring_of_free table there here none
  have bound := table.consistent.bucketOf_lt i sl
  rcases (show m.cache.table.layout.bucketOf i sl = home ∨
      m.cache.table.layout.bucketOf i sl = buckets - 1 - home by omega) with first | last
  · rw [first, home_eq, own] at ringed
    cases ringed
  · rw [last, other] at ringed
    cases ringed

end Host
open Host

/-- A lookup finds a slot for its block, whatever others do between its visits, if one and the same slot is free all
the time; or, in a cache of no more than two buckets, if some slot is free all the time. Its call is not stopped. -/
theorem free_slot_found {δ : Type} [BlockDevice δ] (devices : List δ) (plans : List (Nat × Plan))
    (before steps : List Step) {t : Thread} {p : Pending} {device : Nat} {plan : Plan}
    (planned : plans[p.cache]? = some (device, plan))
    (searches : ((assemble devices plans).walk before).Searches t p steps)
    (free : (∃ i, ∀ entry ∈ ((assemble devices plans).walk before).trail steps, entry.1.isLooking t = true →
        entry.1.isFree p.cache i = true) ∨
      plan.buckets ≤ 2 ∧ ∀ entry ∈ ((assemble devices plans).walk before).trail steps,
        entry.1.isLooking t = true → ∃ i, entry.1.isFree p.cache i = true) :
    let s' := ((assemble devices plans).walk before).walk steps
    (∃ p' i, s'.pending? t = some p' ∧ p'.stage = .queued i) ∧ ∀ seen, s'.conclude t seen = s'.refuse .blocked := by
  intro s'
  obtain ⟨pins, sound⟩ := walk_sound devices plans before
  obtain ⟨m, there, -⟩ := Option.map_eq_some_iff.mp searches.route
  have positive : 0 < plan.buckets := by
    rw [← (walk_measures there planned).2.2.1]
    exact (sound.tables there).consistent.buckets_pos
  have found : ∃ p' i, s'.pending? t = some p' ∧ p'.stage = .queued i := by
    refine (searches.found_or_passed planned).resolve_right fun passed => ?_
    rcases free with ⟨i, free⟩ | ⟨few, free⟩
    · obtain ⟨entry, member, taken⟩ := passed.taken sound positive i
      rw [free entry member (passed.looking entry member)] at taken
      cases taken
    · obtain ⟨entry, member, full⟩ := passed.full positive few
      obtain ⟨i, free⟩ := free entry member (passed.looking entry member)
      rw [full i] at free
      cases free
  refine ⟨found, fun seen => ?_⟩
  obtain ⟨p', i, pending, queued⟩ := found
  simp [conclude, lookOn, pending, queued]

theorem free_slot_found_ahead :
    let take (t : Thread) (name : String) (block : UInt32) : List Act :=
      [.start t name 0 ⟨⟨0, block⟩, .block, false⟩, .turn t, .turn t, .answer t]
    let call : Call := ⟨⟨0, 4⟩, .block, false⟩
    let before : List Step := List.map .act <| take 0 "a" 0 ++ take 0 "b" 1 ++ take 1 "c" 2 ++ [.start 2 "e" 0 call]
    let steps : List Step := [.probe 2 0, .probe 2 1] ++ List.map .act (.finish 0 "b" .dropped :: take 0 "d" 5) ++
      [.probe 2 2, .probe 2 3]
    let host := (assemble [RamDisk.empty 8 none] [(0, ⟨4, 4, 8, .stop⟩)]).walk before
    (∃ p' i, (host.walk steps).pending? 2 = some p' ∧ p'.stage = .queued i) ∧
      ∀ seen, (host.walk steps).conclude 2 seen = (host.walk steps).refuse .blocked := by
  intro take call before steps host
  have searches : host.Searches 2 ⟨"e", 0, call, .looking, []⟩ steps := by
    refine ⟨by decide +kernel, rfl, by decide +kernel, by decide +kernel, fun entry member j m _ there earlier => ?_⟩
    obtain ⟨-, buckets⟩ := entry_sound member rfl there
    simp [Cache.home, buckets, call] at earlier
  exact free_slot_found _ _ before steps rfl searches (.inl ⟨3, by decide +kernel⟩)

/-- Slot 1 becomes free after bucket 1 was visited, and the only other free slot is taken before bucket 3 is. So some
slot is free all the time, but the lookup finds none and its call is stopped. -/
theorem free_slot_missed :
    let take (t : Thread) (name : String) (block : UInt32) : List Act :=
      [.start t name 0 ⟨⟨0, block⟩, .block, false⟩, .turn t, .turn t, .answer t]
    let call : Call := ⟨⟨0, 4⟩, .block, false⟩
    let before : List Step := List.map .act <| take 0 "a" 0 ++ take 0 "b" 1 ++ take 1 "c" 2 ++ [.start 2 "e" 0 call]
    let steps : List Step := [.probe 2 0, .probe 2 1] ++ List.map .act (.finish 0 "b" .dropped :: take 0 "d" 3) ++
      [.probe 2 2, .probe 2 3]
    let host := (assemble [RamDisk.empty 8 none] [(0, ⟨4, 4, 8, .stop⟩)]).walk before
    host.Searches 2 ⟨"e", 0, call, .looking, []⟩ steps ∧
      (∀ entry ∈ host.trail (steps ++ [.conclude 2 0]), ∃ i, entry.1.isFree 0 i = true) ∧
      ((host.walk (steps ++ [.conclude 2 0])).answer 2).reply = .failed (.fault (.stop .exhausted)) := by
  intro take call before steps host
  have free : ∀ entry ∈ host.trail (steps ++ [.conclude 2 0]), (List.range 4).any (entry.1.isFree 0) = true := by
    decide +kernel
  have searches : host.Searches 2 ⟨"e", 0, call, .looking, []⟩ steps := by
    refine ⟨by decide +kernel, rfl, by decide +kernel, by decide +kernel, fun entry member j m _ there earlier => ?_⟩
    obtain ⟨-, buckets⟩ := entry_sound member rfl there
    simp [Cache.home, buckets, call] at earlier
  refine ⟨searches, fun entry member => ?_, by decide +kernel⟩
  obtain ⟨i, -, free⟩ := List.any_eq_true.mp (free entry member)
  exact ⟨i, free⟩

end BlockCache
