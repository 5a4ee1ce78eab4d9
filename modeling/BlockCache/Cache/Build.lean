import BlockCache.Cache.Basic

namespace BlockCache

structure Config where
  capacity : Nat
  buckets : Nat
  blockSize : Nat
  exhaustion : Exhaustion
  capacity_pos : 0 < capacity
  buckets_pos : 0 < buckets
  blockSize_pos : 0 < blockSize

namespace Config

def defaultCapacity : Nat := 30

def defaultBuckets : Nat := 13

def defaultBlockSize : Nat := 1024

def standard : Config where
  capacity := defaultCapacity
  buckets := defaultBuckets
  blockSize := defaultBlockSize
  exhaustion := .stop
  capacity_pos := by decide
  buckets_pos := by decide
  blockSize_pos := by decide

inductive Measure
  | capacity
  | buckets
  | blockSize
deriving DecidableEq

def Measure.name : Measure → String
  | capacity => "capacity"
  | buckets => "buckets"
  | blockSize => "block_size"

def ofMeasures (capacity buckets blockSize : Nat) (exhaustion : Exhaustion) : Except Measure Config :=
  if hc : capacity = 0 then .error .capacity
  else if hb : buckets = 0 then .error .buckets
  else if hs : blockSize = 0 then .error .blockSize
  else .ok ⟨capacity, buckets, blockSize, exhaustion, by omega, by omega, by omega⟩

def addressSpace : Nat := Nat.pow 2 63 - 1

/-- The product of two words, unless it is larger than any word. -/
def wordProduct? (a b : Nat) : Option Nat :=
  if a * b < UInt64.size then some (a * b) else none

def slotMemory? (config : Config) : Option Nat :=
  (wordProduct? config.capacity config.blockSize).filter (· ≤ addressSpace)

end Config

namespace Cache

/-- Slots dealt out to the rings of the buckets in turn, from slot 0 on. -/
def deal (capacity buckets : Nat) : Update Table Unit :=
  (List.range capacity).forM fun i => Table.addNewest (i % buckets) i

def fresh (config : Config) : Cache where
  table := stateAfter (deal config.capacity config.buckets)
    (Table.empty config.capacity config.buckets config.blockSize)
  blockSize := config.blockSize
  exhaustion := config.exhaustion
  freed := 0
  usage := .zero

def build (config : Config) : Except Error Cache :=
  match config.slotMemory? with
  | some _ => .ok (fresh config)
  | none => .error (.invalidConfig "slot memory overflows the address space")

end Cache
end BlockCache
