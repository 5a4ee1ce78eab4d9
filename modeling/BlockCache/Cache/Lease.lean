import BlockCache.Cache.Basic

/-!
# Leases

A lease is one reference to a slot together with the slot's lock.
-/

namespace BlockCache.Cache

/-- Gives a reference back. A slot that nobody refers to any more is the newest of its bucket's ring. -/
def letGo (i : Nat) : Update Cache Unit := do
  let s ← onTable (Table.slot i)
  let left ← onTable (Table.give i)
  if left = 0 then
    onTable (Table.addNewest ((← get).home s.key) i)
    if (← get).exhaustion = .wait then modify fun c => { c with freed := c.freed + 1 }

/-- Ends the lease on a slot: its lock is released before its reference, so that a waiter can proceed. -/
def endLease (i : Nat) : Update Cache Unit := do
  onTable (Table.unlock i)
  letGo i

def authorize (op : LeaseOp) (t : Thread) (i : Nat) : Update Cache Unit := do
  let s ← onTable (Table.slot i)
  if !s.data.heldBy t then throw (.stop (.notHeld op))

def pin (t : Thread) (i : Nat) : Update Cache Unit := do
  authorize .pin t i
  onTable (Table.pin i)
  let _ ← onTable (Table.take i)

/-- Takes one pin back. The lease has a reference of its own, so the slot does not become free. -/
def unpin (t : Thread) (i : Nat) : Update Cache Unit := do
  authorize .unpin t i
  let s ← onTable (Table.slot i)
  if s.pins = 0 then throw (.stop (.notPinned s.key))
  onTable (Table.unpin i)
  let _ ← onTable (Table.give i)

structure View where
  key : Key
  slot : Nat
  valid : Bool
  references : Nat
  length : Nat
deriving DecidableEq

def view? (c : Cache) (i : Nat) : Option View :=
  c.table.slots[i]?.map fun s => ⟨s.key, i, s.valid, s.refcount, s.data.value.length⟩

def View.describe (v : View) : String :=
  Text.openRecord "Buf" [("key", v.key.describe), ("slot", toString v.slot),
    ("valid", if v.valid then "true" else "false")]

def bytes (c : Cache) (i : Nat) : Bytes :=
  (c.table.slots[i]?.map fun s => s.data.value).getD []

end BlockCache.Cache
