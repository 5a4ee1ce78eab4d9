import BlockCache.Error
import BlockCache.Key

namespace BlockCache

inductive LeaseOp
  | write
  | release
  | pin
  | unpin
deriving DecidableEq

def LeaseOp.name : LeaseOp → String
  | write => "write"
  | release => "release"
  | pin => "pin"
  | unpin => "unpin"

/-- Reasons to stop on purpose. Each of them is announced before it ends the operation. -/
inductive Stop
  | exhausted
  | notPinned (key : Key)
  | foreignLease (op : LeaseOp)
  | notHeld (op : LeaseOp)
  | underflow (key : Key)
  | referenced (slot references : Nat)
  | unchained (slot : Nat)
deriving DecidableEq

def Stop.message : Stop → String
  | exhausted => "no free buffers in any bucket"
  | notPinned key => "unpin: block " ++ key.text ++ " is not pinned"
  | foreignLease op => op.name ++ ": buffer belongs to another cache"
  | notHeld op => op.name ++ ": buffer lock not held"
  | underflow key => "refcount underflow on block " ++ key.text
  | referenced slot references =>
      "slot " ++ toString slot ++ " was evictable with " ++ toString references ++ " references"
  | unchained slot => "slot " ++ toString slot ++ " is missing from its hash chain"

inductive Breakdown
  | lengthMismatch (source target : Nat)
  | told (text : String)
deriving DecidableEq

def Breakdown.message : Breakdown → String
  | lengthMismatch source target =>
      "copy_from_slice: source slice length (" ++ toString source ++
        ") does not match destination slice length (" ++ toString target ++ ")"
  | told text => text

/-- What ends an operation where it stands. What it had changed stays changed. -/
inductive Fault
  | stop (reason : Stop)
  /-- A slot was to be chained in a bucket whose chain has it. -/
  | chained (slot : Nat)
  | outOfRange (size index : Nat)
  | emptyRing
  /-- A slot was to change its identity under a held lock. -/
  | lockedSlot
  /-- A slot was taken from a bucket that its block does not belong to. -/
  | strayed (home bucket : Nat)
  | notLocked
  | endless
  | device (cause : Breakdown)
deriving DecidableEq

namespace Fault

def message : Fault → String
  | stop reason => reason.message
  | chained slot => "slot " ++ toString slot ++ " is already chained"
  | outOfRange size index =>
      "index out of bounds: the len is " ++ toString size ++ " but the index is " ++ toString index
  | emptyRing => "attempt to subtract with overflow"
  | lockedSlot => "assertion failed: !slot.data.is_locked()"
  | strayed home bucket =>
      "assertion `left == right` failed\n  left: " ++ toString home ++ "\n right: " ++ toString bucket
  | notLocked => "assertion failed: state.locked"
  | endless => "a chain runs in a circle"
  | device cause => cause.message

end Fault

inductive Failure
  | error (cause : Error)
  | fault (cause : Fault)
deriving DecidableEq

/-- A change of a state that a fault ends without undoing what was done. -/
abbrev Update (σ α : Type) := EStateM Fault σ α

def stateAfter {σ α : Type} (update : Update σ α) (s : σ) : σ :=
  match update s with
  | .ok _ s' => s'
  | .error _ s' => s'

def elementAt {σ α : Type} (xs : Array α) (i : Nat) : Update σ α :=
  match xs[i]? with
  | some x => pure x
  | none => throw (.outOfRange xs.size i)

end BlockCache
