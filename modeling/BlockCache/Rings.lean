import BlockCache.Fault

/-!
# Rings of nodes

Doubly linked lists threaded through one array of nodes by index. The links live in the nodes, so several
rings share the array as long as a node is in at most one of them at a time.
-/

namespace BlockCache

structure Link where
  prev : Option Nat
  next : Option Nat
deriving DecidableEq

def Link.none : Link := ⟨.none, .none⟩

structure Ring where
  head : Option Nat
  tail : Option Nat
  len : Nat
deriving DecidableEq

def Ring.empty : Ring := ⟨none, none, 0⟩

structure Rings where
  links : Array Link
  rings : Array Ring
deriving DecidableEq

namespace Rings

def empty (nodes count : Nat) : Rings where
  links := Array.replicate nodes Link.none
  rings := Array.replicate count Ring.empty

def relink (i : Nat) (change : Link → Link) : Update Rings Unit := do
  let link ← elementAt (← get).links i
  modify fun t => { t with links := t.links.setIfInBounds i (change link) }

def setRing (b : Nat) (ring : Ring) : Update Rings Unit :=
  modify fun t => { t with rings := t.rings.setIfInBounds b ring }

def push (b i : Nat) : Update Rings Unit := do
  let ring ← elementAt (← get).rings b
  relink i fun _ => ⟨ring.tail, none⟩
  match ring.tail with
  | some last => relink last fun link => { link with next := some i }
  | none => pure ()
  let head := if ring.tail.isSome then ring.head else some i
  setRing b ⟨head, some i, ring.len + 1⟩

def remove (b i : Nat) : Update Rings Unit := do
  let ring ← elementAt (← get).rings b
  let link ← elementAt (← get).links i
  match link.next with
  | some next => relink next fun l => { l with prev := link.prev }
  | none => pure ()
  match link.prev with
  | some prev => relink prev fun l => { l with next := link.next }
  | none => pure ()
  relink i fun _ => Link.none
  let head := if link.prev.isSome then ring.head else link.next
  let tail := if link.next.isSome then ring.tail else link.prev
  setRing b ⟨head, tail, ring.len - 1⟩
  if ring.len = 0 then throw .emptyRing

def pop (b : Nat) : Update Rings (Option Nat) := do
  let ring ← elementAt (← get).rings b
  match ring.head with
  | some i =>
    remove b i
    return some i
  | none => return none

def walk (step : Nat → Option Nat) : Nat → Option Nat → List Nat
  | 0, _ => []
  | _, none => []
  | fuel + 1, some i => i :: walk step fuel (step i)

/-- The nodes of ring `b` from its head on. A ring has no more nodes than there are: a walk that meets one more
has run into a circle, and ends there. -/
def forward (t : Rings) (b : Nat) : List Nat :=
  walk (fun i => t.links[i]? >>= Link.next) (t.links.size + 1) (t.rings[b]? >>= Ring.head)

def backward (t : Rings) (b : Nat) : List Nat :=
  walk (fun i => t.links[i]? >>= Link.prev) (t.links.size + 1) (t.rings[b]? >>= Ring.tail)

end Rings
end BlockCache
