import BlockCache.Key
import BlockCache.Lock.Basic

namespace BlockCache

abbrev Bytes := List UInt8

structure Slot where
  key : Key
  /-- The slot stands for its key and is chained in the bucket of that key. -/
  assigned : Bool
  /-- The content is what the device has, or what the holder makes of it. -/
  valid : Bool
  /-- A count that no run of less than 2^64 steps brings to 2^64, as any in a cache: see `counts_bounded`. -/
  refcount : Nat
  pins : UInt64
  data : Lock Bytes
deriving DecidableEq

namespace Slot

def fresh (blockSize : Nat) : Slot where
  key := ⟨0, 0⟩
  assigned := false
  valid := false
  refcount := 0
  pins := 0
  data := .free (List.replicate blockSize 0)

/-- Gives the slot a new identity with a single reference. The bytes stay, but are valid no longer. -/
def occupy (s : Slot) (key : Key) : Slot :=
  { s with key, assigned := true, valid := false, refcount := 1 }

def validate (s : Slot) : Slot := { s with valid := true }

def withBytes (s : Slot) (bytes : Bytes) : Slot := { s with data := s.data.set bytes }

end Slot
end BlockCache
