import BlockCache.Event
import BlockCache.Table

namespace BlockCache

inductive Exhaustion
  | stop
  | wait
deriving DecidableEq

/-- Counts of 64 bits, which no run of less than 2^64 steps brings to 2^64: see `counts_bounded`. -/
structure Usage where
  hits : Nat
  misses : Nat
  evictions : Nat
  steals : Nat
  reads : Nat
  writes : Nat
deriving DecidableEq

namespace Usage

def zero : Usage := ⟨0, 0, 0, 0, 0, 0⟩

def describe (c : Usage) : String :=
  Text.record "CacheStats" [("hits", toString c.hits), ("misses", toString c.misses),
    ("evictions", toString c.evictions), ("steals", toString c.steals), ("reads", toString c.reads),
    ("writes", toString c.writes)]

end Usage

structure Cache where
  table : Table
  blockSize : Nat
  exhaustion : Exhaustion
  /-- How many times a slot was let go, also less than 2^64 in a run of less steps. Kept only by a cache whose callers
  wait for it. -/
  freed : Nat
  usage : Usage
deriving DecidableEq

namespace Cache

def capacity (c : Cache) : Nat := c.table.slots.size

def buckets (c : Cache) : Nat := c.table.chains.heads.size

def free (c : Cache) : Nat := c.table.free

def home (c : Cache) (key : Key) : Nat := key.block.toNat % c.buckets

def describe (c : Cache) : String :=
  Text.openRecord "BufferCache" [("capacity", toString c.capacity), ("buckets", toString c.buckets),
    ("block_size", toString c.blockSize), ("free", toString c.free)]

def onTable {α : Type} (update : Update Table α) : Update Cache α :=
  fun ⟨table, blockSize, exhaustion, freed, usage⟩ =>
    match update table with
    | .ok a table => .ok a ⟨table, blockSize, exhaustion, freed, usage⟩
    | .error fault table => .error fault ⟨table, blockSize, exhaustion, freed, usage⟩

def count (change : Usage → Usage) : Update Cache Unit :=
  modify fun c => { c with usage := change c.usage }

end Cache
end BlockCache
