import BlockCache.Proofs.Cache.Contended
import BlockCache.Proofs.Cache.Ranked
import BlockCache.Proofs.Host.Freed

/-!
# Rings by age

The times at which slots become free are numbered as they come. Each ring has the slots that were never used and then
the others, by the number of the time when they became free last: `Layout.Aged`. A lookup takes slots out of the rings,
and everything else adds to them the slot that becomes free: `Cache.Gains.aged` and `Cache.Calms.aged`.
-/

namespace BlockCache

/-- The number of the last time that slot `i` became free, counted from 1 on, the slots that became free being given in
turn. -/
def lastFreed (freed : List Nat) (i : Nat) : Nat := freed.length - freed.reverse.idxOf i

theorem lastFreed_concat (freed : List Nat) (i j : Nat) :
    lastFreed (freed ++ [i]) j = if j = i then freed.length + 1 else lastFreed freed j := by
  rw [lastFreed, List.reverse_concat, List.idxOf_cons]
  by_cases same : j = i
  · simp [same]
  · have other : (i == j) = false := by simpa using Ne.symm same
    simp [same, other, lastFreed]

theorem lastFreed_le (freed : List Nat) (i : Nat) : lastFreed freed i ≤ freed.length := Nat.sub_le _ _

namespace Layout

def unused (L : Layout) (b : Nat) : List Nat :=
  (List.range L.slots.size).filter fun i => i % L.buckets = b && (L.block? i).isNone

/-- The ring of each bucket has its unused slots in increasing order, and then others in the order in which they became
free last. -/
def Aged (L : Layout) (freed : List Nat) : Prop :=
  ∀ b, ∃ used, L.ring b = L.unused b ++ used ∧ (∀ i ∈ used, (L.block? i).isSome = true ∧ i ∈ freed) ∧
    used.Pairwise fun i j => lastFreed freed i < lastFreed freed j

variable {L L' : Layout} {i : Nat} {s : Slot} {f : Slot → Slot} {move : Move} {freed : List Nat}

theorem Aged.taken (aged : L.Aged freed) (consistent : L.Consistent) (here : L.slots[i]? = some s)
    (slots : L'.slots = L.slots.modify i f) (buckets : L'.buckets = L.buckets)
    (ring : ∀ b, L'.ring b = (L.ring b).erase i) (assigned : (f s).assigned = true) : L'.Aged freed := by
  intro b
  obtain ⟨used, line, old, sorted⟩ := aged b
  have given : (L'.block? i).isSome = true := by simp [block?_modify slots here, assigned]
  have left : L'.unused b = (L.unused b).filter (· != i) := by
    have size : L'.slots.size = L.slots.size := by simp [slots]
    rw [unused, unused, List.filter_filter, size, buckets]
    refine List.filter_congr fun j _ => ?_
    by_cases same : j = i
    · subst same
      obtain ⟨key, block⟩ := Option.isSome_iff_exists.mp given
      simp [block]
    · simp [block?_other slots same, same]
  refine ⟨used.filter (· != i), ?_, fun j member => ?_, sorted.filter _⟩
  · rw [ring, (consistent.ring_nodup b).erase_eq_filter, line, List.filter_append, left]
  · obtain ⟨member, away⟩ := List.mem_filter.mp member
    rw [block?_other slots (by simpa using away)]
    exact old j member

theorem Aged.quiet (aged : L.Aged freed) (consistent : L.Consistent) (here : L.slots[move.slot]? = some s)
    (ready : L.Ready s move) (quiet : move.seeks = false) :
    (L.after move).Aged (freed ++ if (move.change s).refcount = 0 then [move.slot] else []) := by
  obtain ⟨referenced, -, -, ring⟩ := after_quiet consistent here ready quiet
  have standing := consistent.assigned_of_referenced here referenced
  have same := after_block? consistent ⟨s, here, ready⟩ quiet
  intro b
  have left : (L.after move).unused b = L.unused b := by simp [unused, same, after_slots here, after_buckets]
  obtain ⟨used, line, old, sorted⟩ := aged b
  have away : ∀ j ∈ used, j ≠ move.slot := by
    rintro j member rfl
    exact referenced ((consistent.ringed here b).mp (line ▸ List.mem_append_right _ member)).1
  rw [ring, left, same]
  by_cases free : (move.change s).refcount = 0
  · have kept : ∀ j ∈ used, lastFreed (freed ++ [move.slot]) j = lastFreed freed j := fun j member => by
      rw [lastFreed_concat, if_neg (away j member)]
    have sorted' : used.Pairwise fun i j =>
        lastFreed (freed ++ [move.slot]) i < lastFreed (freed ++ [move.slot]) j :=
      sorted.imp_of_mem fun {i j} first second earlier => by rwa [kept i first, kept j second]
    have old' : ∀ j ∈ used, (L.block? j).isSome = true ∧ j ∈ freed ++ [move.slot] := fun j member =>
      ⟨(old j member).1, List.mem_append_left _ (old j member).2⟩
    rw [if_pos free]
    by_cases mine : L.home s.key = b
    · refine ⟨used ++ [move.slot], ?_, ?_, ?_⟩
      · rw [if_pos ⟨free, mine⟩, line, List.append_assoc]
      · intro j member
        rcases List.mem_append.mp member with member | last
        · exact old' j member
        · rw [List.mem_singleton.mp last]
          have block : L.block? move.slot = some s.key := block?_eq_some.mpr ⟨s, here, standing, rfl⟩
          exact ⟨by simp [block], by simp⟩
      · refine List.pairwise_append.mpr ⟨sorted', List.pairwise_singleton _ _, fun j member k last => ?_⟩
        rw [List.mem_singleton.mp last, kept j member, lastFreed_concat, if_pos rfl]
        exact Nat.lt_succ_of_le (lastFreed_le freed j)
    · refine ⟨used, ?_, old', sorted'⟩
      rw [if_neg fun both => mine both.2, List.append_nil, line]
  · refine ⟨used, ?_, ?_, ?_⟩
    · rw [if_neg fun both => free both.1, List.append_nil, line]
    · rwa [if_neg free, List.append_nil]
    · rwa [if_neg free, List.append_nil]

theorem dealt_aged (slots buckets blockSize : Nat) :
    (Layout.dealt slots buckets blockSize (List.range slots)).Aged [] := by
  intro b
  refine ⟨[], ?_, by simp, .nil⟩
  have size : (Layout.dealt slots buckets blockSize (List.range slots)).slots.size = slots := Array.size_replicate
  rw [List.append_nil, unused, size]
  simp only [dealt_block?, Option.isNone_none, Bool.and_true]
  rfl

end Layout

namespace Cache

variable {c c' : Cache} {key : Key} {found : Found} {freed : List Nat} {move : Move}

theorem Gains.aged (gains : c.Gains key found c') (sound : c.table.Sound) (aged : c.table.layout.Aged freed) :
    c'.table.layout.Aged freed ∧ c.table.layout.freedIn c'.table.layout = [] := by
  obtain ⟨s, here, ready⟩ := gains.moved.allowed
  have slots := gains.moved.slots_eq
  have buckets : c'.table.layout.buckets = c.table.layout.buckets := gains.moved.sameMeasures.buckets
  have ring (b : Nat) : c'.table.layout.ring b = (c.table.layout.ring b).erase (found.move key).slot := by
    rw [gains.moved.shows.layout_eq]
    cases found <;> rfl
  have taken : ((found.move key).change s).assigned = true ∧ ((found.move key).change s).refcount ≠ 0 := by
    cases found with
    | hit i => exact ⟨ready, Nat.succ_ne_zero _⟩
    | evicted i old | stolen i j => exact ⟨rfl, Nat.one_ne_zero⟩
  refine ⟨aged.taken sound.consistent here slots buckets ring taken.1, ?_⟩
  rw [Layout.freedIn_of_change here slots, if_neg fun both => taken.2 both.2]

theorem Moved.aged (moved : c.Moved move c') (sound : c.table.Sound) (still : move.seeks = false)
    (aged : c.table.layout.Aged freed) :
    c'.table.layout.Aged (freed ++ c.table.layout.freedIn c'.table.layout) ∧
      ∃ s, c.table.slots[move.slot]? = some s ∧ c.table.layout.freedIn c'.table.layout =
        if (move.change s).refcount = 0 then [move.slot] else [] := by
  obtain ⟨s, here, ready⟩ := moved.allowed
  obtain ⟨referenced, -⟩ := Layout.after_quiet sound.consistent here ready still
  have drops : c.table.layout.freedIn c'.table.layout = if (move.change s).refcount = 0 then [move.slot] else [] := by
    rw [Layout.freedIn_of_change here moved.slots_eq]
    simp [referenced]
  refine ⟨?_, s, here, drops⟩
  rw [drops, moved.shows.layout_eq]
  exact aged.quiet sound.consistent here ready still

theorem Calms.aged (calms : c.Calms c') (sound : c.table.Sound) (aged : c.table.layout.Aged freed) :
    c'.table.layout.Aged (freed ++ c.table.layout.freedIn c'.table.layout) ∧
      (c.table.layout.freedIn c'.table.layout).length ≤ 1 := by
  cases calms with
  | rest => simpa [Layout.freedIn_self] using aged
  | moved moved still =>
      obtain ⟨aged', s, -, drops⟩ := moved.aged sound still aged
      refine ⟨aged', ?_⟩
      rw [drops]
      split <;> simp
  | @spoilt i bytes move c₁ c' spoils ended ends =>
      have still : move.seeks = false := by rcases ends with rfl | rfl <;> rfl
      obtain ⟨s, here, locked⟩ := spoils.allowed
      have here : c.table.layout.slots[i]? = some s := here
      have referenced := sound.consistent.referenced_of_locked here locked
      have kept : c.table.layout.freedIn c₁.table.layout = [] := by
        rw [Layout.freedIn_of_change here spoils.slots_eq]
        exact if_neg fun both => referenced both.2
      -- the bytes say nothing of references, so what becomes free does so at the end of the lease
      have same : c.table.layout.isFree = c₁.table.layout.isFree := by
        funext j
        by_cases this : j = i
        · subst this
          rw [Layout.isFree, Layout.isFree, here, show c₁.table.layout.slots[j]? = _ from spoils.same here]
          rfl
        · rw [Layout.isFree, Layout.isFree, show c₁.table.layout.slots[j]? = _ from spoils.other this]
          rfl
      have size : c₁.table.layout.slots.size = c.table.layout.slots.size := spoils.sameMeasures.capacity
      have drops : c.table.layout.freedIn c'.table.layout = c₁.table.layout.freedIn c'.table.layout := by
        rw [Layout.freedIn, Layout.freedIn, same, size]
      obtain ⟨aged₁, -⟩ := spoils.aged sound rfl aged
      rw [kept, List.append_nil] at aged₁
      obtain ⟨aged', s₁, -, drops'⟩ := ended.aged (spoils.sound sound) still aged₁
      rw [drops]
      refine ⟨aged', ?_⟩
      rw [drops']
      split <;> simp

theorem rings_eq_of_ring (sound : c.table.Sound) (sound' : c'.table.Sound) (measures : c.SameMeasures c')
    (ring : c'.table.layout.ring = c.table.layout.ring) : c'.table.rings = c.table.rings := by
  have holds := sound'.shows.rings
  have size : c'.table.layout.slots.size = c.table.layout.slots.size := measures.capacity
  have buckets : c'.table.layout.buckets = c.table.layout.buckets := measures.buckets
  rw [ring, size, buckets] at holds
  exact holds.unique sound.shows.rings

theorem Moved.rings_eq (moved : c.Moved move c') (sound : c.table.Sound) (still : move.seeks = false)
    (busy : c'.table.layout.isFree move.slot = false) : c'.table.rings = c.table.rings := by
  obtain ⟨s, here, ready⟩ := moved.allowed
  obtain ⟨-, -, -, ring⟩ := Layout.after_quiet sound.consistent here ready still
  have referenced : (move.change s).refcount ≠ 0 := by
    rw [Layout.isFree, show c'.table.layout.slots[move.slot]? = _ from moved.same here] at busy
    simpa using busy
  refine rings_eq_of_ring sound (moved.sound sound) moved.sameMeasures ?_
  funext b
  rw [moved.shows.layout_eq, ring, if_neg fun both => referenced both.1, List.append_nil]

theorem Moved.rings_eq_of_pin (moved : c.Moved move c') (sound : c.table.Sound) {i : Nat}
    (which : move = .pin i ∨ move = .unpin i) : c'.table.rings = c.table.rings := by
  obtain ⟨s, here, ready⟩ := moved.allowed
  have after : c'.table.layout.slots[move.slot]? = some (move.change s) := moved.same here
  refine moved.rings_eq sound (by rcases which with rfl | rfl <;> rfl) ?_
  rw [Layout.isFree, after]
  rcases which with rfl | rfl
  · simp [Move.change, Slot.take]
  · have enough := ready.2.2
    simp [Move.change, Slot.give]
    omega

theorem isFree_of_locked {i : Nat} {s : Slot} (sound : c.table.Sound) (here : c.table.slots[i]? = some s)
    (locked : s.data.isLocked = true) : c.table.layout.isFree i = false := by
  have referenced := sound.consistent.referenced_of_locked here locked
  rw [Layout.isFree, show c.table.layout.slots[i]? = some s from here]
  simpa using referenced

theorem Calms.rings_eq (calms : c.Calms c') (sound : c.table.Sound)
    (same : ∀ i, c'.table.layout.isFree i = c.table.layout.isFree i) : c'.table.rings = c.table.rings := by
  cases calms with
  | rest => rfl
  | @moved move c' moved still =>
      obtain ⟨s, here, ready⟩ := moved.allowed
      obtain ⟨referenced, -⟩ := Layout.after_quiet sound.consistent here ready still
      refine moved.rings_eq sound still ?_
      rw [same, Layout.isFree, here]
      simpa using referenced
  | @spoilt i bytes move c₁ c' spoils ended ends =>
      obtain ⟨s, here, locked⟩ := spoils.allowed
      have sound₁ := spoils.sound sound
      have busy := isFree_of_locked sound here locked
      have busy₁ := isFree_of_locked sound₁ (spoils.same here) locked
      refine Eq.trans ?_ (spoils.rings_eq sound rfl busy₁)
      rcases ends with rfl | rfl <;> exact ended.rings_eq sound₁ rfl ((same i).trans busy)

theorem Gains.rings_eq (gains : c.Gains key found c') (sound : c.table.Sound)
    (same : ∀ i, c'.table.layout.isFree i = c.table.layout.isFree i) : c'.table.rings = c.table.rings := by
  obtain ⟨s, here, ready⟩ := gains.moved.allowed
  have here : c.table.layout.slots[(found.move key).slot]? = some s := here
  have after : c'.table.layout.slots[(found.move key).slot]? = some ((found.move key).change s) :=
    gains.moved.same here
  -- the lookup has a reference to the slot, so somebody had one before
  have referenced : s.refcount ≠ 0 := by
    have unfree := same (found.move key).slot
    rw [Layout.isFree, Layout.isFree, after, here] at unfree
    cases found with
    | hit i => simpa [Found.move, Move.change, Slot.take] using unfree
    | evicted i old | stolen i j => simpa [Found.move, Move.change, Slot.occupy] using unfree
  cases found with
  | hit i => rw [gains.moved.joined sound here referenced]; rfl
  | evicted i old | stolen i j => exact absurd (Layout.refcount_of_assign sound.consistent here ready) referenced

end Cache
end BlockCache
