import BlockCache.Proofs.Accounting
import Mathlib.Algebra.Group.Nat.Defs

/-!
# New caches

A plan is refused if its slots would have more bytes than there are addresses. Else it makes a cache without any block,
and the ring of bucket `b` of `B` has the slots `b`, `b + B`, `b + 2 * B` and so on: `new_caches_idle`.
-/

namespace BlockCache

def StepsBelow (n j m : Nat) (l : List Nat) : Prop :=
  ∀ k, l[k]? = if j + k * m < n then some (j + k * m) else none

namespace StepsBelow

variable {n j m : Nat} {l : List Nat}

theorem length_le_iff (steps : StepsBelow n j m l) (k : Nat) : l.length ≤ k ↔ n ≤ j + k * m := by
  rw [← List.getElem?_eq_none_iff, steps k]
  split <;> simp <;> omega

theorem next_eq (steps : StepsBelow n j m l) (inside : j < m) (last : n % m = j) : j + l.length * m = n := by
  have whole : j + n / m * m = n := last ▸ Nat.mod_add_div' n m
  have reached : n ≤ j + l.length * m := (steps.length_le_iff l.length).mp (Nat.le_refl _)
  have above : n / m * m ≤ l.length * m := by omega
  have length : l.length = n / m :=
    Nat.le_antisymm ((steps.length_le_iff _).mpr (Nat.le_of_eq whole.symm))
      (Nat.le_of_mul_le_mul_right above (Nat.zero_lt_of_lt inside))
  rw [length, whole]

theorem concat (steps : StepsBelow n j m l) (positive : 0 < m) (next : j + l.length * m = n) :
    StepsBelow (n + 1) j m (l ++ [n]) := by
  intro k
  rcases Nat.lt_trichotomy k l.length with before | rfl | after
  · have early : j + k * m < n := Nat.not_le.mp ((steps.length_le_iff k).not.mp (Nat.not_le.mpr before))
    rw [List.getElem?_append_left before, steps k, if_pos early, if_pos (Nat.lt_succ_of_lt early)]
  · rw [List.getElem?_concat_length, next, if_pos (Nat.lt_succ_self n)]
  · have grown : (l.length + 1) * m ≤ k * m := Nat.mul_le_mul_right m after
    rw [Nat.succ_mul] at grown
    rw [if_neg (by omega)]
    refine List.getElem?_eq_none ?_
    rw [List.length_append, List.length_singleton]
    exact after

theorem skip (steps : StepsBelow n j m l) (other : ∀ k, j + k * m ≠ n) : StepsBelow (n + 1) j m l := by
  intro k
  have same : j + k * m < n + 1 ↔ j + k * m < n := by
    have := other k
    omega
  rw [steps k]
  simp only [same]

theorem residues (inside : j < m) (n : Nat) : StepsBelow n j m ((List.range n).filter fun i => i % m = j) := by
  -- the entries so far tell how many there are, and so which comes next
  induction n with
  | zero => exact fun _ => rfl
  | succ n ih =>
      rw [List.range_succ, List.filter_append]
      by_cases last : n % m = j
      · rw [List.filter_cons_of_pos (by simpa using last), List.filter_nil]
        exact ih.concat (Nat.zero_lt_of_lt inside) (ih.next_eq inside last)
      · rw [List.filter_cons_of_neg (by simpa using last), List.filter_nil, List.append_nil]
        refine ih.skip fun k same => last ?_
        rw [← same, Nat.add_mul_mod_self_right, Nat.mod_eq_of_lt inside]

end StepsBelow

structure Slot.Idle (s : Slot) (blockSize : Nat) : Prop where
  unassigned : s.assigned = false
  invalid : s.valid = false
  unreferenced : s.refcount = 0
  unpinned : s.pins = 0
  unlocked : s.data.isLocked = false
  zeros : s.data.value = List.replicate blockSize 0

/-- Nothing has happened to a cache yet. What is `free` is the sum of the lengths of the rings. -/
structure Cache.Idle (c : Cache) (p : Plan) : Prop where
  capacity : c.capacity = p.capacity
  buckets : c.buckets = p.buckets
  blockSize : c.blockSize = p.blockSize
  exhaustion : c.exhaustion = p.exhaustion
  dealt : deal p.capacity p.buckets (Table.empty p.capacity p.buckets p.blockSize) = .ok () c.table
  slots : ∀ i < p.capacity, ∃ s, c.table.slots[i]? = some s ∧ s.Idle p.blockSize
  chains : ∀ b < p.buckets, c.table.chains.heads[b]? = some none ∧ c.table.chains.toList b = []
  ring : ∀ b < p.buckets, StepsBelow p.capacity b p.buckets (c.table.rings.forward b)
  reversed : ∀ b, c.table.rings.backward b = (c.table.rings.forward b).reverse
  ends : ∀ b < p.buckets, c.table.rings.rings[b]? = some
    ⟨(c.table.rings.forward b).head?, (c.table.rings.forward b).getLast?, (c.table.rings.forward b).length⟩
  free : c.free = p.capacity
  freed : c.freed = 0
  usage : c.usage = ⟨0, 0, 0, 0, 0, 0⟩

namespace Config

theorem slotMemory?_eq_none (config : Config) :
    config.slotMemory? = none ↔ 2 ^ 63 - 1 < config.capacity * config.blockSize := by
  have address : addressSpace = 2 ^ 63 - 1 := by decide
  have words : UInt64.size = 2 ^ 64 := by decide
  unfold slotMemory? wordProduct?
  split
  · rw [Option.filter_eq_none_iff]
    simp [address]
  · rw [Option.filter_none, eq_self, true_iff]
    omega

theorem ofMeasures_eq (config : Config) :
    ofMeasures config.capacity config.buckets config.blockSize config.exhaustion = .ok config := by
  rw [ofMeasures, dif_neg (Nat.ne_of_gt config.capacity_pos), dif_neg (Nat.ne_of_gt config.buckets_pos),
    dif_neg (Nat.ne_of_gt config.blockSize_pos)]

def plan (config : Config) : Plan := ⟨config.capacity, config.buckets, config.blockSize, config.exhaustion⟩

theorem build_plan (config : Config) : config.plan.build =
    if 2 ^ 63 - 1 < config.capacity * config.blockSize then
      .error (.refused (.invalidConfig "slot memory overflows the address space"))
    else .ok (Cache.fresh config) := by
  rw [plan, Plan.build, ofMeasures_eq]
  dsimp only
  rw [Cache.build]
  cases memory : config.slotMemory? with
  | none => rw [if_pos (config.slotMemory?_eq_none.mp memory)]
  | some bytes => rw [if_neg (config.slotMemory?_eq_none.not.mp (by simp [memory]))]

end Config

namespace Cache

theorem fresh_slot (config : Config) {i : Nat} (inside : i < config.capacity) :
    (fresh config).table.slots[i]? = some (Slot.fresh config.blockSize) := by
  rw [(fresh_shows config).slots]
  simp [Layout.dealt, Layout.empty, inside]

theorem fresh_free (config : Config) : (fresh config).free = config.capacity := by
  have sum := (fresh_sound config).free_add
  have taken : (List.range (fresh config).table.slots.size).countP
      (fun i => ¬ (fresh config).table.layout.isFree i) = 0 := by
    refine List.countP_eq_zero.mpr fun i member => ?_
    have inside : i < config.capacity := fresh_capacity config ▸ List.mem_range.mp member
    have here : (fresh config).table.layout.slots[i]? = some (Slot.fresh config.blockSize) := fresh_slot config inside
    simp [Layout.isFree, here, Slot.fresh]
  rw [taken, Nat.add_zero] at sum
  exact sum.trans (fresh_capacity config)

theorem fresh_idle (config : Config) : (fresh config).Idle config.plan where
  capacity := fresh_capacity config
  buckets := (fresh_shows config).chains.size_heads
  blockSize := rfl
  exhaustion := rfl
  dealt := (fresh_dealt config).1
  slots _ inside := ⟨_, fresh_slot config inside, rfl, rfl, rfl, rfl, rfl, rfl⟩
  chains b inside := ⟨(fresh_shows config).chains.heads b inside, (fresh_shows config).chains.toList_eq b⟩
  ring b inside := by
    rw [(fresh_shows config).rings.forward_eq]
    exact .residues inside config.capacity
  reversed b := by rw [(fresh_shows config).rings.backward_eq, (fresh_shows config).rings.forward_eq]
  ends b inside := by
    rw [(fresh_shows config).rings.forward_eq]
    exact (fresh_shows config).rings.ends b inside
  free := fresh_free config
  freed := rfl
  usage := rfl

end Cache

/-- A plan of words that are not zero is refused if the exact product of its capacity and its block size is more than
there are addresses, even if the word of that product is not, and else makes a cache in which nothing has happened. -/
theorem new_caches_idle (capacity buckets blockSize : UInt64) (exhaustion : Exhaustion) (some_slots : capacity ≠ 0)
    (some_buckets : buckets ≠ 0) (some_bytes : blockSize ≠ 0) :
    let plan : Plan := ⟨capacity.toNat, buckets.toNat, blockSize.toNat, exhaustion⟩
    let refused := plan.build = .error (.refused (.invalidConfig "slot memory overflows the address space"))
    (refused ↔ 2 ^ 63 - 1 < capacity.toNat * blockSize.toNat) ∧
      ((capacity * blockSize).toNat ≠ capacity.toNat * blockSize.toNat → refused) ∧
      (capacity.toNat * blockSize.toNat ≤ 2 ^ 63 - 1 → ∃ c, plan.build = .ok c ∧ c.Idle plan) := by
  intro plan refused
  have positive {v : UInt64} (nonzero : v ≠ 0) : 0 < v.toNat :=
    Nat.pos_of_ne_zero fun zero => nonzero (UInt64.toNat_inj.mp zero)
  let config : Config :=
    ⟨capacity.toNat, buckets.toNat, blockSize.toNat, exhaustion, positive some_slots, positive some_buckets,
      positive some_bytes⟩
  have built : plan.build = if 2 ^ 63 - 1 < capacity.toNat * blockSize.toNat then
      .error (.refused (.invalidConfig "slot memory overflows the address space"))
      else .ok (Cache.fresh config) := config.build_plan
  have boundary : refused ↔ 2 ^ 63 - 1 < capacity.toNat * blockSize.toNat := by
    unfold refused
    rw [built]
    split
    · simpa
    · simpa using Nat.not_lt.mp ‹_›
  refine ⟨boundary, fun wrapped => boundary.mpr ?_, fun small => ?_⟩
  · rw [UInt64.toNat_mul] at wrapped
    by_contra small
    exact wrapped (Nat.mod_eq_of_lt (by omega))
  · rw [if_neg (Nat.not_lt.mpr small)] at built
    exact ⟨_, built, Cache.fresh_idle config⟩

theorem new_caches_idle_of_five :
    (∃ c, Plan.build ⟨5, 2, 3, .stop⟩ = .ok c ∧ (c.table.rings.forward 0)[2]? = some 4 ∧
      (c.table.rings.forward 0)[3]? = none ∧ c.free = 5) ∧
    (6148914691236517206 * 3 : UInt64) = 2 ∧ Plan.build ⟨6148914691236517206, 2, 3, .stop⟩ =
      .error (.refused (.invalidConfig "slot memory overflows the address space")) := by
  obtain ⟨-, -, made⟩ := new_caches_idle 5 2 3 .stop (by decide) (by decide) (by decide)
  obtain ⟨c, built, idle⟩ := made (by decide)
  obtain ⟨-, refused, -⟩ := new_caches_idle 6148914691236517206 2 3 .stop (by decide) (by decide) (by decide)
  exact ⟨⟨c, built, idle.ring 0 (by decide) 2, idle.ring 0 (by decide) 3, idle.free⟩, by decide, refused (by decide)⟩

end BlockCache
