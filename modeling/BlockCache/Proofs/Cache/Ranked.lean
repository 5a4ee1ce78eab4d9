import BlockCache.Proofs.Cache.Fresh
import BlockCache.Proofs.Cache.Probed
import BlockCache.Proofs.Cache.Resident
import BlockCache.Proofs.Host.Lookups
import BlockCache.Proofs.Recency

/-!
# Slots by recency

As long as one slot at a time is in use, the slots of a bucket stand in the order in which they were used: `Ranked`. A
lookup finds what `Recency.places` says, and what happens until the slot is let go changes nothing:
`Cache.Sought.ranked` and `Cache.Settles.ranked`.
-/

namespace BlockCache

open Recency

namespace Layout

def block? (L : Layout) (i : Nat) : Option Key := (L.slots[i]?.filter Slot.assigned).map Slot.key

/-- The slots of bucket `b`, the one used last at the end: those of its ring, and then the one in use. -/
def line (L : Layout) (busy : Option Nat) (b : Nat) : List Nat :=
  L.ring b ++ busy.toList.filter fun i => (L.block? i).any (L.home · = b)

def share (L : Layout) (b : Nat) : Nat := (List.range L.slots.size).countP (· % L.buckets = b)

/-- Slot `busy` and no other is referred to, and each bucket has the blocks of the history used last, which has the
last of them first. -/
structure Ranked (L : Layout) (busy : Option Nat) (history : List Key) : Prop where
  used : ∀ {i : Nat} {s : Slot}, L.slots[i]? = some s → (s.refcount ≠ 0 ↔ busy = some i)
  line : ∀ b < L.buckets,
    (L.line busy b).map L.block? = (places (history.filter (L.home · = b)) (L.share b)).reverse

variable {L L' : Layout} {i : Nat} {s : Slot} {key : Key} {busy : Option Nat} {history : List Key} {move : Move}
  {f : Slot → Slot}

theorem block?_eq_some : L.block? i = some key ↔ L.Has i key := by
  simp [block?, Has, Option.filter_eq_some_iff, and_assoc]

theorem Ranked.line_length (ranked : L.Ranked busy history) {b : Nat} (inside : b < L.buckets) :
    (L.line busy b).length = L.share b := by
  rw [← List.length_map, ranked.line b inside, List.length_reverse, length_places]

theorem line_none (L : Layout) (b : Nat) : L.line none b = L.ring b := List.append_nil _

theorem block?_modify (same : L'.slots = L.slots.modify i f) (here : L.slots[i]? = some s) :
    L'.block? i = if (f s).assigned then some (f s).key else none := by
  rw [block?, same, change_same here]
  cases assigned : (f s).assigned <;> simp [Option.filter, assigned]

theorem block?_other (same : L'.slots = L.slots.modify i f) {j : Nat} (other : j ≠ i) :
    L'.block? j = L.block? j := by
  rw [block?, block?, same, change_other other]

theorem after_quiet (consistent : L.Consistent) (here : L.slots[move.slot]? = some s) (ready : L.Ready s move)
    (quiet : move.seeks = false) : s.refcount ≠ 0 ∧ (move.change s).key = s.key ∧
      (move.change s).assigned = s.assigned ∧
      ∀ b, (L.after move).ring b =
        L.ring b ++ if (move.change s).refcount = 0 ∧ L.home s.key = b then [move.slot] else [] := by
  have letGo {L : Layout} {s : Slot} {i : Nat} (here : L.slots[i]? = some s) (referenced : s.refcount ≠ 0) (b : Nat) :
      (L.letGo i).ring b = L.ring b ++ if s.refcount - 1 = 0 ∧ L.home s.key = b then [i] else [] := by
    have last : s.refcount - 1 = 0 ↔ s.refcount = 1 := by omega
    simp only [Layout.letGo, here, last]
    by_cases single : s.refcount = 1 <;> by_cases home : L.home s.key = b <;>
      simp [single, home, eq_comm (a := b), addNewest, change]
  have stays (locked : s.data.isLocked = true) {n : Nat} (busy : s.refcount ≠ 0 → n ≠ 0) (b : Nat) :
      L.ring b = L.ring b ++ if n = 0 ∧ L.home s.key = b then [move.slot] else [] := by
    simp [busy (consistent.referenced_of_locked here locked)]
  have busy := consistent.referenced_of_locked here
  cases move with
  | hit | assign => simp [Move.seeks] at quiet
  | giveUp i => exact ⟨ready.1, rfl, rfl, letGo here ready.1⟩
  | finish i => exact ⟨busy ready, rfl, rfl, letGo (change_same here _) (busy ready)⟩
  | grant i t => exact ⟨ready.1, rfl, rfl, fun b => by simp [Layout.after, Layout.change, Move.change, ready.1]⟩
  | pin i => exact ⟨busy ready, rfl, rfl, stays ready fun _ => Nat.succ_ne_zero _⟩
  | unpin i =>
      have left : s.refcount - 1 ≠ 0 := by
        have enough := ready.2.2
        omega
      exact ⟨busy ready.1, rfl, rfl, stays ready.1 fun _ => left⟩
  | unlock i => exact ⟨busy ready, rfl, rfl, stays ready id⟩
  | edit i bytes => exact ⟨busy ready, rfl, rfl, stays ready id⟩
  | load i bytes => exact ⟨busy ready, rfl, rfl, stays ready id⟩
  | keep i => exact ⟨busy ready, rfl, rfl, stays ready id⟩

theorem after_block? (consistent : L.Consistent) (allowed : L.Allows move) (quiet : move.seeks = false) :
    (L.after move).block? = L.block? := by
  obtain ⟨s, here, ready⟩ := allowed
  obtain ⟨referenced, key, assigned, -⟩ := after_quiet consistent here ready quiet
  have slots := after_slots here
  have standing := consistent.assigned_of_referenced here referenced
  funext j
  by_cases same : j = move.slot
  · subst same
    rw [block?_modify slots here, key, assigned, block?, here]
    simp [Option.filter, standing]
  · exact block?_other slots same

theorem Ranked.after (ranked : L.Ranked busy history) (consistent : L.Consistent) (allowed : L.Allows move)
    (quiet : move.seeks = false) : ∃ busy', (L.after move).Ranked busy' history := by
  obtain ⟨s, here, ready⟩ := allowed
  obtain ⟨referenced, key, assigned, ring⟩ := after_quiet consistent here ready quiet
  have slots := after_slots here
  have standing := consistent.assigned_of_referenced here referenced
  obtain rfl := (ranked.used here).mp referenced
  have blocks := after_block? consistent ⟨s, here, ready⟩ quiet
  have block : L.block? move.slot = some s.key := block?_eq_some.mpr ⟨s, here, standing, rfl⟩
  have home : (L.after move).home = L.home := funext fun key => by simp [Layout.home, after_buckets]
  let busy' := if (move.change s).refcount = 0 then none else some move.slot
  have lines (b : Nat) : (L.after move).line busy' b = L.line (some move.slot) b := by
    by_cases last : (move.change s).refcount = 0 <;> by_cases mine : L.home s.key = b <;>
      simp [Layout.line, busy', last, mine, blocks, ring, home, block]
  refine ⟨busy', ?_, fun b inside => ?_⟩
  · intro j s' there
    by_cases same : j = move.slot
    · subst same
      obtain rfl := Option.some.inj ((change_same here _).symm.trans (slots ▸ there))
      by_cases last : (move.change s).refcount = 0 <;> simp [busy', last]
    · have free : s'.refcount = 0 := by
        have unused := ranked.used ((change_other same _).symm.trans (slots ▸ there))
        simpa [Ne.symm same] using unused
      by_cases last : (move.change s).refcount = 0 <;> simp [busy', last, free, Ne.symm same]
  · have share : (L.after move).share b = L.share b := by
      simp [Layout.share, slots, after_buckets]
    rw [lines, blocks, share, home]
    exact ranked.line b (after_buckets L move ▸ inside)

theorem Ranked.use (ranked : L.Ranked none history) (consistent : L.Consistent) (here : L.slots[i]? = some s)
    (slots : L'.slots = L.slots.modify i f) (buckets : L'.buckets = L.buckets)
    (ring : ∀ b, L'.ring b = (L.ring b).erase i) (oldest : i ∈ L.ring (L.home key)) (assigned : (f s).assigned = true)
    (block : (f s).key = key) (referenced : (f s).refcount ≠ 0)
    (first : places (key :: history.filter (L.home · = L.home key)) (L.share (L.home key)) =
      some key :: (((L.ring (L.home key)).erase i).map L.block?).reverse) :
    L'.Ranked (some i) (key :: history) where
  used {j s'} there := by
    by_cases same : j = i
    · subst same
      obtain rfl := Option.some.inj ((change_same here f).symm.trans (slots ▸ there))
      simpa using referenced
    · have free := ranked.used ((change_other same f).symm.trans (slots ▸ there))
      simpa [Ne.symm same] using free
  line b inside := by
    have home : L'.home = L.home := by
      funext key
      rw [Layout.home, buckets, Layout.home]
    have share : L'.share b = L.share b := by simp [Layout.share, slots, buckets]
    have mine : L'.block? i = some key := by rw [block?_modify slots here, assigned, block, if_pos rfl]
    have others : ((L.ring b).erase i).map L'.block? = ((L.ring b).erase i).map L.block? := by
      refine List.map_congr_left fun j member => block?_other slots ?_
      rintro rfl
      exact (consistent.ring_nodup b).not_mem_erase member
    rw [Layout.line, ring, List.map_append, others, home, share]
    by_cases same : L.home key = b
    · subst same
      simp [mine, first]
    · have away : i ∉ L.ring b := fun member => by
        have bucket := ((consistent.ringed here _).mp member).2
        exact same (((consistent.ringed here _).mp oldest).2.trans bucket.symm)
      have before := ranked.line b (buckets ▸ inside)
      rw [line_none] at before
      simp [mine, same, List.erase_of_not_mem away, before]

theorem Ranked.hit (ranked : L.Ranked none history) (consistent : L.Consistent) (has : L.Has i key) :
    (L.hit i).Ranked (some i) (key :: history) ∧
      some key ∈ places (history.filter (L.home · = L.home key)) (L.share (L.home key)) := by
  obtain ⟨s, here, assigned, rfl⟩ := id has
  have free : s.refcount = 0 := by simpa using ranked.used here
  have member : i ∈ L.ring (L.home s.key) := (consistent.ringed here _).mpr ⟨free, by simp [bucketOf, assigned]⟩
  have before := ranked.line _ (consistent.home_lt s.key)
  rw [line_none] at before
  have block := block?_eq_some.mpr has
  have found : some s.key ∈ places (history.filter (L.home · = L.home s.key)) (L.share (L.home s.key)) := by
    rw [← List.mem_reverse, ← before]
    exact List.mem_map.mpr ⟨i, member, block⟩
  refine ⟨ranked.use consistent here rfl rfl (fun _ => rfl) member assigned rfl (Nat.succ_ne_zero _) ?_, found⟩
  rw [places_of_mem found, (consistent.ring_nodup _).erase_eq_filter, ← List.reverse_reverse (places _ _), ← before,
    List.filter_reverse, List.filter_map]
  congr 3
  refine List.filter_congr fun j there => ?_
  have same : L.block? j = some s.key ↔ j = i :=
    ⟨fun there => consistent.unique (block?_eq_some.mp there) has, fun same => same ▸ block⟩
  by_cases this : j = i
  · simp [this, block]
  · simp [this, same]

theorem Ranked.assign (ranked : L.Ranked none history) (consistent : L.Consistent) (absent : L.Absent key)
    {rest : List Nat} (oldest : L.ring (L.home key) = i :: rest) (here : L.slots[i]? = some s) :
    (L.assign i key).Ranked (some i) (key :: history) ∧
      some key ∉ places (history.filter (L.home · = L.home key)) (L.share (L.home key)) := by
  have before := ranked.line _ (consistent.home_lt key)
  have count := ranked.line_length (consistent.home_lt key)
  rw [line_none, oldest] at before count
  have missed : some key ∉ places (history.filter (L.home · = L.home key)) (L.share (L.home key)) := by
    rw [← List.mem_reverse, ← before]
    intro member
    obtain ⟨j, -, block⟩ := List.mem_map.mp member
    exact absent j (block?_eq_some.mp block)
  have member : i ∈ L.ring (L.home key) := oldest ▸ List.mem_cons_self
  refine ⟨ranked.use (f := (·.occupy key)) consistent here rfl rfl (fun _ => rfl) member rfl rfl nofun ?_, missed⟩
  rw [places_of_notMem (by rw [← count]; exact Nat.succ_pos _) missed, oldest, List.erase_cons_head,
    ← List.reverse_reverse (places _ _), ← before, List.dropLast_reverse]
  rfl

theorem share_pos (enough : L.buckets ≤ L.slots.size) {b : Nat} (inside : b < L.buckets) : 0 < L.share b :=
  List.countP_pos_iff.mpr ⟨b, List.mem_range.mpr (by omega), by simpa using Nat.mod_eq_of_lt inside⟩

theorem Ranked.idle (ranked : L.Ranked busy history)
    (free : ∀ {i : Nat} {s : Slot}, L.slots[i]? = some s → s.refcount = 0) : L.Ranked none history where
  used here := by simpa using free here
  line b inside := by
    have unused : L.line busy b = L.ring b := by
      cases busy with
      | none => exact line_none L b
      | some i =>
          have nothing : L.block? i = none := by
            refine Option.eq_none_iff_forall_ne_some.mpr fun key block => ?_
            obtain ⟨s, here, -⟩ := block?_eq_some.mp block
            exact (ranked.used here).mpr rfl (free here)
          simp [Layout.line, nothing]
    rw [line_none, ← unused]
    exact ranked.line b inside

theorem dealt_block? (slots buckets blockSize : Nat) (given : List Nat) :
    (Layout.dealt slots buckets blockSize given).block? = fun _ => none := by
  funext i
  refine Option.eq_none_iff_forall_ne_some.mpr fun key block => ?_
  obtain ⟨s, here, assigned, -⟩ := block?_eq_some.mp block
  obtain ⟨-, rfl⟩ := Cache.dealt_slot here
  simp [Slot.fresh] at assigned

theorem dealt_ranked (slots buckets blockSize : Nat) :
    (Layout.dealt slots buckets blockSize (List.range slots)).Ranked none [] where
  used here := by
    obtain ⟨-, rfl⟩ := Cache.dealt_slot here
    simp [Slot.fresh]
  line b inside := by
    have size : (Layout.dealt slots buckets blockSize (List.range slots)).slots.size = slots := Array.size_replicate
    rw [line_none, dealt_block?, List.filter_nil, places_nil, List.reverse_replicate, List.map_const', share, size,
      List.countP_eq_length_filter]
    rfl

end Layout

namespace Cache

variable {c c' : Cache} {key : Key} {found : Option Found} {busy : Option Nat} {history : List Key}

theorem Settles.block? (settles : c.Settles c') (sound : c.table.Sound) :
    c'.table.layout.block? = c.table.layout.block? := by
  obtain ⟨moves, still, moves⟩ := settles
  induction moves with
  | nil => rfl
  | cons moved rest ih =>
      rw [ih (moved.sound sound) fun move member => still move (.tail _ member), moved.shows.layout_eq]
      exact Layout.after_block? sound.consistent moved.allowed (still _ List.mem_cons_self)

theorem Gains.block? {slot : Found} (gains : c.Gains key slot c') :
    c'.table.layout.block? = fun j => if j = slot.slot then some key else c.table.layout.block? j := by
  funext j
  by_cases same : j = slot.slot
  · rw [if_pos same, same]
    exact Layout.block?_eq_some.mpr gains.has
  · rw [if_neg same]
    exact Layout.block?_other gains.moved.slots_eq (slot.slot_move key ▸ same)

theorem Settles.ranked (settles : c.Settles c') (sound : c.table.Sound)
    (ranked : c.table.layout.Ranked busy history) : ∃ busy', c'.table.layout.Ranked busy' history := by
  obtain ⟨moves, still, moves⟩ := settles
  induction moves generalizing busy with
  | nil => exact ⟨busy, ranked⟩
  | cons moved rest ih =>
      obtain ⟨busy₁, first⟩ := ranked.after sound.consistent moved.allowed (still _ List.mem_cons_self)
      exact ih (moved.sound sound) (moved.shows.layout_eq ▸ first) fun move member => still move (.tail _ member)

theorem Sought.ranked (sought : c.Sought key found c') (sound : c.table.Sound)
    (ranked : c.table.layout.Ranked none history) (enough : c.buckets ≤ c.capacity) :
    ∃ slot, found = some slot ∧ (∀ i b, slot ≠ .stolen i b) ∧
      c'.table.layout.Ranked (some slot.slot) (key :: history) ∧ ((∃ i, slot = .hit i) ↔
        some key ∈ places (history.filter (c.home · = c.home key)) (c.table.layout.share (c.home key))) := by
  have inside := sound.consistent.home_lt key
  have dealt := ranked.line_length inside
  have dealt := dealt ▸ Layout.share_pos enough inside
  rw [Layout.line_none] at dealt
  cases sought with
  | nothing absent empty => simp [empty] at dealt
  | found finds moved =>
      rename_i slot L' change
      cases finds with
      | hit has =>
          obtain ⟨after, member⟩ := ranked.hit sound.consistent has
          exact ⟨_, rfl, nofun, moved.shows.layout_eq ▸ after, fun _ => member, fun _ => ⟨_, rfl⟩⟩
      | evicted absent oldest here =>
          obtain ⟨after, missed⟩ := ranked.assign sound.consistent absent oldest here
          exact ⟨_, rfl, nofun, moved.shows.layout_eq ▸ after, nofun, fun member => absurd member missed⟩
      | stolen absent away before empty => simp [empty] at dealt

end Cache
end BlockCache
