import BlockCache.Text.Record

namespace BlockCache

structure Key where
  dev : UInt32
  block : UInt32
deriving DecidableEq

namespace Key

instance : LT Key where
  lt a b := a.dev < b.dev ∨ a.dev = b.dev ∧ a.block < b.block

instance : LE Key where
  le a b := a < b ∨ a = b

instance (a b : Key) : Decidable (a < b) :=
  inferInstanceAs (Decidable (a.dev < b.dev ∨ a.dev = b.dev ∧ a.block < b.block))

instance (a b : Key) : Decidable (a ≤ b) :=
  inferInstanceAs (Decidable (a < b ∨ a = b))

/-- One word for both numbers, the device in its upper half. -/
def pack (k : Key) : UInt64 :=
  k.dev.toUInt64 <<< 32 ||| k.block.toUInt64

def unpack (v : UInt64) : Key where
  dev := (v >>> 32).toUInt32
  block := v.toUInt32

def sort (keys : List Key) : List Key :=
  keys.mergeSort fun a b => decide (a ≤ b)

def text (k : Key) : String :=
  toString k.dev ++ ":" ++ toString k.block

def describe (k : Key) : String :=
  Text.record "BlockKey" [("dev", toString k.dev), ("block", toString k.block)]

end Key
end BlockCache
