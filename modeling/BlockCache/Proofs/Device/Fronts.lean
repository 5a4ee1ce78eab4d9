import BlockCache.Device.Disk
import BlockCache.Proofs.Names

/-!
# Devices in front of a disk

A device may stand in front of a disk in memory: it passes transfers on, and may fail instead. Whatever it does, the
disk has of a block what was last written to it, and a read that succeeds brings just that.
-/

namespace BlockCache

namespace RamDisk

def content (d : RamDisk) (key : Key) : Bytes := (d.block key).getD (List.replicate d.blockSize 0)

variable {d : RamDisk} {key : Key} {buffer : Bytes}

theorem length_of_allowed {length : Nat} (allowed : d.refusal key length = none) : length = d.blockSize := by
  by_cases same : length = d.blockSize
  · exact same
  · simp [refusal, same] at allowed

theorem read_device (d : RamDisk) (key : Key) (buffer : Bytes) :
    (d.read key buffer).device = d ∨ (d.read key buffer).device = { d with reads := d.reads + 1 } := by
  rw [read]
  split
  · exact .inl rfl
  · dsimp only
    split
    · split <;> exact .inr rfl
    · exact .inr rfl

theorem read_content (d : RamDisk) (key : Key) (buffer : Bytes) : (d.read key buffer).device.content = d.content := by
  rcases read_device d key buffer with same | counted
  · rw [same]
  · rw [counted]
    rfl

theorem read_buffer (success : (d.read key buffer).failure = none) : (d.read key buffer).buffer = d.content key := by
  cases allowed : d.refusal key buffer.length with
  | some cause => simp [read, allowed] at success
  | none =>
      cases written : d.block key with
      | none =>
          rw [content, written, Option.getD_none, ← length_of_allowed allowed]
          simp [read, allowed, written]
      | some bytes =>
          by_cases length : bytes.length = buffer.length
          · simp [read, content, allowed, written, length]
          · simp [read, allowed, written, length] at success

theorem write_failed (failed : (d.write key buffer).failure ≠ none) : (d.write key buffer).device = d := by
  cases allowed : d.refusal key buffer.length with
  | some cause => simp [write, allowed]
  | none => simp [write, allowed] at failed

theorem block_put (d : RamDisk) (key : Key) (bytes : Bytes) (key' : Key) :
    (d.put key bytes).block key' = if key' = key then some bytes else d.block key' := by
  rw [put, block]
  by_cases same : key' = key
  · simp [same]
  · rw [List.lookup_cons, beq_false_of_ne same, lookup_filter same, if_neg same, block]

theorem write_eq (allowed : d.refusal key buffer.length = none) :
    d.write key buffer = ⟨{ d.put key buffer with writes := d.writes + 1 }, buffer, [], none⟩ := by
  rw [write, allowed]

theorem write_content (success : (d.write key buffer).failure = none) (key' : Key) :
    (d.write key buffer).device.content key' = if key' = key then buffer else d.content key' := by
  cases allowed : d.refusal key buffer.length with
  | some cause => simp [write, allowed] at success
  | none =>
      have put : (d.write key buffer).device.block key' = if key' = key then some buffer else d.block key' := by
        rw [write_eq allowed]
        exact block_put d key buffer key'
      rw [content, put, write_eq allowed]
      split <;> rfl

end RamDisk

structure Transfer.Passes {δ : Type} (t : Transfer δ) (memory : δ → RamDisk) (own : Transfer RamDisk) : Prop where
  device : memory t.device = own.device
  buffer : t.buffer = own.buffer
  failure : t.failure = own.failure

structure Transfer.Blocked {δ : Type} (t : Transfer δ) (memory : δ → RamDisk) (disk : RamDisk) : Prop where
  device : memory t.device = disk
  failure : t.failure ≠ none

/-- The devices stand in front of disks. They may leave anything in the buffer of a read that they let fail. -/
structure Fronts {δ : Type} [BlockDevice δ] (memory : δ → RamDisk) : Prop where
  read : ∀ (d : δ) (key : Key) (buffer : Bytes),
    (BlockDevice.read d key buffer).Blocked memory (memory d) ∨
      (BlockDevice.read d key buffer).Passes memory ((memory d).read key buffer)
  write : ∀ (d : δ) (key : Key) (buffer : Bytes),
    (BlockDevice.write d key buffer).Blocked memory (memory d) ∨
      (BlockDevice.write d key buffer).Passes memory ((memory d).write key buffer)

namespace Fronts

variable {δ : Type} [BlockDevice δ] {memory : δ → RamDisk} {d : δ} {key : Key} {buffer : Bytes}

theorem read_content (fronts : Fronts memory) (d : δ) (key : Key) (buffer : Bytes) :
    (memory (BlockDevice.read d key buffer).device).content = (memory d).content := by
  rcases fronts.read d key buffer with blocked | passes
  · rw [blocked.device]
  · rw [passes.device, RamDisk.read_content]

theorem read_buffer (fronts : Fronts memory) (success : (BlockDevice.read d key buffer).failure = none) :
    (BlockDevice.read d key buffer).buffer = (memory d).content key := by
  rcases fronts.read d key buffer with blocked | passes
  · exact absurd success blocked.failure
  · rw [passes.buffer, RamDisk.read_buffer (passes.failure ▸ success)]

theorem write_failed (fronts : Fronts memory) (failed : (BlockDevice.write d key buffer).failure ≠ none) :
    memory (BlockDevice.write d key buffer).device = memory d := by
  rcases fronts.write d key buffer with blocked | passes
  · exact blocked.device
  · rw [passes.device, RamDisk.write_failed (passes.failure ▸ failed)]

theorem write_content (fronts : Fronts memory) (success : (BlockDevice.write d key buffer).failure = none)
    (key' : Key) : (memory (BlockDevice.write d key buffer).device).content key' =
      if key' = key then buffer else (memory d).content key' := by
  rcases fronts.write d key buffer with blocked | passes
  · exact absurd success blocked.failure
  · rw [passes.device, RamDisk.write_content (passes.failure ▸ success)]

end Fronts

theorem Disk.fronts : Fronts fun d : Disk => d.inner.inner where
  read d key buffer := by
    cases planned : d.planned? .read d.reads with
    | some p => exact .inl ⟨by simp [BlockDevice.read, planned], by simp [BlockDevice.read, planned]⟩
    | none =>
        refine .inr ⟨?_, ?_, ?_⟩ <;>
          simp [BlockDevice.read, planned, Transfer.map, Announced.announce]
  write d key buffer := by
    cases planned : d.planned? .write d.writes with
    | some p => exact .inl ⟨by simp [BlockDevice.write, planned], by simp [BlockDevice.write, planned]⟩
    | none =>
        refine .inr ⟨?_, ?_, ?_⟩ <;>
          simp [BlockDevice.write, planned, Transfer.map, Announced.announce]

end BlockCache
