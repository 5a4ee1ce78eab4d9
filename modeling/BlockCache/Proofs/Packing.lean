import BlockCache.Table
import Mathlib.Algebra.Group.Nat.Defs

/-!
# Packed keys

A word holds both numbers of a key, and words are ordered as their keys are: `packing_keeps_order`. So whatever
compares, sorts or looks for keys may do so with words.
-/

namespace BlockCache

namespace Key

theorem toNat_pack (k : Key) : k.pack.toNat = k.dev.toNat * 2 ^ 32 + k.block.toNat := by
  have low : k.block.toNat < 2 ^ 32 := k.block.toNat_lt
  have high : k.dev.toNat <<< 32 < 2 ^ 64 := by
    have := k.dev.toNat_lt
    rw [Nat.shiftLeft_eq]
    omega
  have shifted : (k.dev.toUInt64 <<< 32).toNat = k.dev.toNat <<< 32 := by
    simpa using Nat.mod_eq_of_lt high
  -- the block fits into the bits that the shift has cleared
  rw [pack, UInt64.toNat_or, shifted, UInt32.toNat_toUInt64, ← Nat.shiftLeft_add_eq_or_of_lt low, Nat.shiftLeft_eq]

theorem toNat_unpack_dev (v : UInt64) : (unpack v).dev.toNat = v.toNat / 2 ^ 32 := by
  have word := v.toNat_lt
  have upper : v.toNat >>> 32 < 2 ^ 32 := by
    rw [Nat.shiftRight_eq_div_pow]
    omega
  simpa [unpack, Nat.shiftRight_eq_div_pow] using Nat.mod_eq_of_lt upper

theorem toNat_unpack_block (v : UInt64) : (unpack v).block.toNat = v.toNat % 2 ^ 32 := by
  simp [unpack]

theorem ext_toNat {k k' : Key} (dev : k.dev.toNat = k'.dev.toNat) (block : k.block.toNat = k'.block.toNat) :
    k = k' := by
  obtain ⟨d, b⟩ := k
  obtain ⟨d', b'⟩ := k'
  obtain rfl : d = d' := UInt32.toNat_inj.mp dev
  obtain rfl : b = b' := UInt32.toNat_inj.mp block
  rfl

theorem unpack_pack (k : Key) : unpack k.pack = k := by
  have low : k.block.toNat < 2 ^ 32 := k.block.toNat_lt
  apply ext_toNat
  · rw [toNat_unpack_dev, toNat_pack]
    omega
  · rw [toNat_unpack_block, toNat_pack]
    omega

theorem pack_unpack (v : UInt64) : (unpack v).pack = v := by
  apply UInt64.toNat_inj.mp
  rw [toNat_pack, toNat_unpack_dev, toNat_unpack_block]
  omega

theorem lt_iff (k k' : Key) :
    k < k' ↔ k.dev.toNat < k'.dev.toNat ∨ k.dev.toNat = k'.dev.toNat ∧ k.block.toNat < k'.block.toNat := by
  simp only [← UInt32.lt_iff_toNat_lt, UInt32.toNat_inj]
  rfl

theorem pack_lt_pack (k k' : Key) : k.pack < k'.pack ↔ k < k' := by
  have low : k.block.toNat < 2 ^ 32 := k.block.toNat_lt
  have low' : k'.block.toNat < 2 ^ 32 := k'.block.toNat_lt
  rw [UInt64.lt_iff_toNat_lt, toNat_pack, toNat_pack, lt_iff]
  omega

theorem pack_inj {k k' : Key} : k.pack = k'.pack ↔ k = k' := by
  constructor
  · intro same
    rw [← unpack_pack k, same, unpack_pack]
  · rintro rfl
    rfl

theorem pack_le_pack (k k' : Key) : k.pack ≤ k'.pack ↔ k ≤ k' := by
  rw [UInt64.le_iff_lt_or_eq, pack_lt_pack, pack_inj]
  rfl

theorem map_pack_sort (keys : List Key) : (sort keys).map pack = (keys.map pack).mergeSort := by
  apply List.map_mergeSort
  intro k _ k' _
  exact decide_eq_decide.mpr (pack_le_pack k k').symm

end Key

def Table.findPacked (b : Nat) (word : UInt64) : Update Table (Option Nat) := do
  let slots := (← get).slots
  onChains <| Chains.find b fun i => slots[i]?.any fun s => s.key.pack = word

theorem Table.findPacked_pack (b : Nat) (key : Key) : findPacked b key.pack = find b key := by
  simp only [findPacked, find, Key.pack_inj]

/-- Keys and words stand for each other, in the same order. Slots with the same word have the same block, and a search
or a sort that goes by words does what one by keys does. -/
theorem packing_keeps_order :
    (∀ k : Key, Key.unpack k.pack = k) ∧ (∀ v : UInt64, (Key.unpack v).pack = v) ∧
    (∀ k k' : Key, k < k' ↔ k.pack < k'.pack) ∧
    (∀ s s' : Slot, s.key.pack = s'.key.pack → s.key.dev = s'.key.dev ∧ s.key.block = s'.key.block) ∧
    (∀ (b : Nat) (key : Key), Table.find b key = Table.findPacked b key.pack) ∧
    ∀ keys : List Key, (Key.sort keys).map Key.pack = (keys.map Key.pack).mergeSort := by
  refine ⟨Key.unpack_pack, Key.pack_unpack, fun k k' => (Key.pack_lt_pack k k').symm, ?_,
    fun b key => (Table.findPacked_pack b key).symm, Key.map_pack_sort⟩
  intro s s' same
  have keys : s.key = s'.key := Key.pack_inj.mp same
  exact ⟨congrArg Key.dev keys, congrArg Key.block keys⟩

end BlockCache
