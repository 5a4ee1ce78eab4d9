import BlockCache.Chains
import BlockCache.Rings
import BlockCache.Slot

/-!
# The slot table

The slots and the buckets over them. Each bucket has a chain of the slots that stand for its blocks and a ring
of the slots that nobody refers to, the one that was let go first at its head.
-/

namespace BlockCache

structure Table where
  slots : Array Slot
  chains : Chains
  rings : Rings
deriving DecidableEq

namespace Table

def empty (slots buckets blockSize : Nat) : Table where
  slots := Array.replicate slots (Slot.fresh blockSize)
  chains := Chains.empty slots buckets
  rings := Rings.empty slots buckets

def onChains {α : Type} (update : Update Chains α) : Update Table α := fun ⟨slots, chains, rings⟩ =>
  match update chains with
  | .ok a chains => .ok a ⟨slots, chains, rings⟩
  | .error fault chains => .error fault ⟨slots, chains, rings⟩

def onRings {α : Type} (update : Update Rings α) : Update Table α := fun ⟨slots, chains, rings⟩ =>
  match update rings with
  | .ok a rings => .ok a ⟨slots, chains, rings⟩
  | .error fault rings => .error fault ⟨slots, chains, rings⟩

def slot (i : Nat) : Update Table Slot := do
  elementAt (← get).slots i

def setSlot (i : Nat) (s : Slot) : Update Table Unit :=
  modify fun t => { t with slots := t.slots.setIfInBounds i s }

def update (i : Nat) (change : Slot → Slot) : Update Table Slot := do
  let s ← slot i
  setSlot i (change s)
  return s

def find (b : Nat) (key : Key) : Update Table (Option Nat) := do
  let slots := (← get).slots
  onChains <| Chains.find b fun i => slots[i]?.any fun s => s.key = key

def chain (b i : Nat) : Update Table Unit := onChains <| Chains.insert b i

def unchain (b i : Nat) : Update Table Unit := onChains <| Chains.remove b i

def takeOldest (b : Nat) : Update Table (Option Nat) := onRings <| Rings.pop b

def addNewest (b i : Nat) : Update Table Unit := onRings <| Rings.push b i

def withdraw (b i : Nat) : Update Table Unit := onRings <| Rings.remove b i

def free (t : Table) : Nat := t.rings.rings.foldl (fun n ring => n + ring.len) 0

def occupy (i : Nat) (key : Key) : Update Table Unit := do
  let _ ← update i (·.occupy key)

def validate (i : Nat) : Update Table Unit := do
  let _ ← update i Slot.validate

def take (i : Nat) : Update Table Nat := do
  let before ← update i fun s => { s with refcount := s.refcount + 1 }
  return before.refcount

def give (i : Nat) : Update Table Nat := do
  let s ← slot i
  if s.refcount = 0 then throw (.stop (.underflow s.key))
  setSlot i { s with refcount := s.refcount - 1 }
  return s.refcount - 1

def pin (i : Nat) : Update Table Unit := do
  let _ ← update i fun s => { s with pins := s.pins + 1 }

def unpin (i : Nat) : Update Table Unit := do
  let _ ← update i fun s => { s with pins := s.pins - 1 }

def lock (i : Nat) (t : Thread) : Update Table Unit := do
  let _ ← update i fun s => { s with data := s.data.grant t }

def unlock (i : Nat) : Update Table Unit := do
  let s ← slot i
  if s.data.isLocked then setSlot i { s with data := s.data.unlock } else throw .notLocked

def setBytes (i : Nat) (bytes : Bytes) : Update Table Unit := do
  let _ ← update i (·.withBytes bytes)

end Table
end BlockCache
