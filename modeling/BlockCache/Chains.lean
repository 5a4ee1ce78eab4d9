import BlockCache.Fault

/-!
# Hash chains

Singly linked lists threaded through one array of slots by index, one for each bucket. A walk along a chain
meets no slot twice, so it is over after as many slots as there are; one that is not has run into a circle.
-/

namespace BlockCache

structure Chains where
  next : Array (Option Nat)
  heads : Array (Option Nat)
deriving DecidableEq

namespace Chains

def empty (slots buckets : Nat) : Chains where
  next := Array.replicate slots none
  heads := Array.replicate buckets none

def seek (p : Nat → Bool) : Nat → Option Nat → Update Chains (Option Nat)
  | _, none => return none
  | 0, some _ => throw .endless
  | fuel + 1, some i => do
    let next ← elementAt (← get).next i
    if p i then return some i else seek p fuel next

def find (b : Nat) (p : Nat → Bool) : Update Chains (Option Nat) := do
  let head ← elementAt (← get).heads b
  seek p (← get).next.size head

def setNext (i : Nat) (next : Option Nat) : Update Chains Unit := do
  let _ ← elementAt (← get).next i
  modify fun t => { t with next := t.next.setIfInBounds i next }

def setHead (b : Nat) (head : Option Nat) : Update Chains Unit :=
  modify fun t => { t with heads := t.heads.setIfInBounds b head }

def insert (b i : Nat) : Update Chains Unit := do
  let head ← elementAt (← get).heads b
  match ← seek (· = i) (← get).next.size head with
  | some _ => throw (.chained i)
  | none =>
    setNext i head
    setHead b (some i)

/-- Takes slot `i` out of the chain of bucket `b`, of which the slots from `cur` on are left to search. -/
def unlink (b i : Nat) : Nat → Option Nat → Option Nat → Update Chains Unit
  | _, _, none => throw (.stop (.unchained i))
  | 0, _, some _ => throw .endless
  | fuel + 1, prev, some cur => do
    let next ← elementAt (← get).next cur
    if cur = i then
      match prev with
      | some p => setNext p next
      | none => setHead b next
      setNext i none
    else unlink b i fuel (some cur) next

def remove (b i : Nat) : Update Chains Unit := do
  let head ← elementAt (← get).heads b
  unlink b i (← get).next.size none head

def walk (next : Array (Option Nat)) : Nat → Option Nat → List Nat
  | 0, _ => []
  | _, none => []
  | fuel + 1, some i => i :: walk next fuel (next[i]?.join)

/-- The slots of the chain of bucket `b`. A walk that meets one more than there are has run into a circle. -/
def toList (t : Chains) (b : Nat) : List Nat :=
  walk t.next (t.next.size + 1) t.heads[b]?.join

end Chains
end BlockCache
