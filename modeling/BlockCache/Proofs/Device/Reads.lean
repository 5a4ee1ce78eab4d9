import BlockCache.Proofs.Device.Fronts

/-!
# Which blocks can be read

Whether a block of a disk in memory can be read depends on the limit of the disk and on the length of what it has of the
block: `RamDisk.unreadable`. No transfer of a block that can be read changes that. On a regular disk it depends on the
limit alone.
-/

namespace BlockCache.RamDisk

def unreadable (d : RamDisk) (key : Key) : Option Failure :=
  (d.read key (List.replicate d.blockSize 0)).failure.map TransferFailure.toFailure

variable {d d' : RamDisk} {key : Key} {buffer : Bytes}

theorem fronts : Fronts (id : RamDisk → RamDisk) where
  read _ _ _ := .inr ⟨rfl, rfl, rfl⟩
  write _ _ _ := .inr ⟨rfl, rfl, rfl⟩

theorem read_failure_eq (length : buffer.length = d.blockSize) : (d.read key buffer).failure =
    match d.refusal key d.blockSize with
    | some cause => some (.error (.io cause))
    | none =>
        if (d.content key).length = d.blockSize then none
        else some (.breakdown (.lengthMismatch (d.content key).length d.blockSize)) := by
  rw [read, length, content]
  cases d.refusal key d.blockSize with
  | some cause => rfl
  | none =>
      cases d.block key with
      | none => simp
      | some bytes => by_cases same : bytes.length = d.blockSize <;> simp [same]

theorem read_failure (length : buffer.length = d.blockSize) :
    (d.read key buffer).failure.map TransferFailure.toFailure = d.unreadable key := by
  rw [unreadable, read_failure_eq length, read_failure_eq List.length_replicate]

theorem unreadable_congr (blockSize : d'.blockSize = d.blockSize) (limit : d'.limit = d.limit)
    (content : (d'.content key).length = (d.content key).length) : d'.unreadable key = d.unreadable key := by
  rw [unreadable, unreadable, read_failure_eq List.length_replicate, read_failure_eq List.length_replicate, refusal,
    refusal, blockSize, limit, content]

theorem readable_iff : d.unreadable key = none ↔
    d.refusal key d.blockSize = none ∧ (d.content key).length = d.blockSize := by
  rw [unreadable, read_failure_eq List.length_replicate]
  cases d.refusal key d.blockSize with
  | some cause => simp
  | none => by_cases same : (d.content key).length = d.blockSize <;> simp [same]

structure Like (d disk : RamDisk) : Prop where
  blockSize : d.blockSize = disk.blockSize
  unreadable : d.unreadable = disk.unreadable
  content : d.content = disk.content

theorem read_limits (d : RamDisk) (key : Key) (buffer : Bytes) :
    (d.read key buffer).device.blockSize = d.blockSize ∧ (d.read key buffer).device.limit = d.limit := by
  rcases read_device d key buffer with same | counted
  · rw [same]
    exact ⟨rfl, rfl⟩
  · rw [counted]
    exact ⟨rfl, rfl⟩

theorem read_like (d : RamDisk) (key : Key) (buffer : Bytes) : (d.read key buffer).device.Like d := by
  obtain ⟨blockSize, limit⟩ := read_limits d key buffer
  have content := read_content d key buffer
  exact ⟨blockSize, funext fun key' => unreadable_congr blockSize limit (by rw [content]), content⟩

theorem read_length (d : RamDisk) (key : Key) (buffer : Bytes) : (d.read key buffer).buffer.length = buffer.length := by
  rw [read]
  split
  · rfl
  · dsimp only
    split
    · split
      · assumption
      · rfl
    · exact List.length_replicate

theorem write_limits (d : RamDisk) (key : Key) (buffer : Bytes) :
    (d.write key buffer).device.blockSize = d.blockSize ∧ (d.write key buffer).device.limit = d.limit := by
  rw [write]
  split <;> exact ⟨rfl, rfl⟩

theorem write_success (readable : d.unreadable key = none) (length : buffer.length = d.blockSize) :
    (d.write key buffer).failure = none := by
  simp [write, length, (readable_iff.mp readable).1]

theorem write_unreadable (readable : d.unreadable key = none) (length : buffer.length = d.blockSize) :
    (d.write key buffer).device.unreadable = d.unreadable := by
  obtain ⟨blockSize, limit⟩ := write_limits d key buffer
  funext key'
  refine unreadable_congr blockSize limit ?_
  rw [write_content (write_success readable length)]
  split
  · rename_i same
    rw [same, (readable_iff.mp readable).2, length]
  · rfl

def Regular (d : RamDisk) : Prop := ∀ entry ∈ d.blocks, entry.2.length = d.blockSize

theorem empty_regular (blockSize : Nat) (limit : Option UInt32) : (empty blockSize limit).Regular := nofun

theorem Regular.read (regular : d.Regular) (key : Key) (buffer : Bytes) : (d.read key buffer).device.Regular := by
  rcases read_device d key buffer with same | counted
  · rwa [same]
  · rw [counted]
    exact regular

theorem Regular.put (regular : d.Regular) (key : Key) {bytes : Bytes} (length : bytes.length = d.blockSize) :
    (d.put key bytes).Regular := by
  intro entry member
  rcases List.mem_cons.mp member with rfl | old
  · exact length
  · exact regular entry (List.mem_filter.mp old).1

theorem Regular.write (regular : d.Regular) (key : Key) (buffer : Bytes) : (d.write key buffer).device.Regular := by
  cases allowed : d.refusal key buffer.length with
  | some cause =>
      rw [RamDisk.write, allowed]
      exact regular
  | none =>
      rw [write_eq allowed]
      exact regular.put key (length_of_allowed allowed)

theorem Regular.read_eq (regular : d.Regular) (allowed : d.refusal key buffer.length = none) :
    d.read key buffer = ⟨{ d with reads := d.reads + 1 }, d.content key, [], none⟩ := by
  cases written : d.block key with
  | none => simp [RamDisk.read, content, allowed, written, ← length_of_allowed allowed]
  | some bytes =>
      have length : bytes.length = buffer.length :=
        (regular _ (mem_of_lookup written)).trans (length_of_allowed allowed).symm
      simp [RamDisk.read, content, allowed, written, length]

theorem Regular.unbroken (regular : d.Regular) (key : Key) (buffer : Bytes) (cause : Breakdown) :
    (d.read key buffer).failure ≠ some (.breakdown cause) := by
  cases allowed : d.refusal key buffer.length with
  | some _ => simp [RamDisk.read, allowed]
  | none => simp [regular.read_eq allowed]

end BlockCache.RamDisk
