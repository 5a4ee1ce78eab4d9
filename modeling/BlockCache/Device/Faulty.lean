import BlockCache.Device.Basic

namespace BlockCache

inductive Direction
  | read
  | write
deriving DecidableEq

/-- A transfer that is going to fail: the `call`-th in its direction, counted from 0. A read leaves `spill` at
the start of the buffer. -/
structure PlannedFailure where
  direction : Direction
  call : Nat
  failure : TransferFailure
  spill : Bytes
deriving DecidableEq

structure Faulty (δ : Type) where
  plan : List PlannedFailure
  reads : Nat
  writes : Nat
  inner : δ
deriving DecidableEq

namespace Faulty

variable {δ : Type}

/-- The failure planned for a call; of two for the same call the first counts. -/
def planned? (d : Faulty δ) (direction : Direction) (call : Nat) : Option PlannedFailure :=
  d.plan.find? fun p => p.direction = direction && p.call = call

def spillOver (spill buffer : Bytes) : Bytes :=
  spill.take buffer.length ++ buffer.drop spill.length

instance [BlockDevice δ] : BlockDevice (Faulty δ) where
  read d key buffer :=
    let d' := { d with reads := d.reads + 1 }
    match d.planned? .read d.reads with
    | some p => ⟨d', spillOver p.spill buffer, [], some p.failure⟩
    | none => (BlockDevice.read d.inner key buffer).map fun inner => { d' with inner }
  write d key buffer :=
    let d' := { d with writes := d.writes + 1 }
    match d.planned? .write d.writes with
    | some p => ⟨d', buffer, [], some p.failure⟩
    | none => (BlockDevice.write d.inner key buffer).map fun inner => { d' with inner }

end Faulty
end BlockCache
