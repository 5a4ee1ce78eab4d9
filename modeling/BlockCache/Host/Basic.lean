import BlockCache.Cache.Build
import BlockCache.Cache.Call

/-!
# Hosts

A host runs caches over devices. It knows the leases on their slots by name, and the threads whose calls have
not been answered. A device may be under several caches. Every act is atomic, so a run is a list of acts in the
order of their effects; a call takes one act for each of its steps, and other threads may act between two of
them.
-/

namespace BlockCache

structure Mount where
  cache : Cache
  device : Nat
  /-- What was reported, the last of it first. -/
  history : List Event
deriving DecidableEq

def Mount.log (m : Mount) : List Event := m.history.reverse

structure Lease where
  cache : Nat
  slot : Nat
  thread : Thread
deriving DecidableEq

structure Pending where
  name : String
  cache : Nat
  call : Call
  stage : Stage
  events : List Event
deriving DecidableEq

structure Host (δ : Type) where
  devices : Array δ
  /-- The caches. One whose configuration was refused is not there, but has its number. -/
  mounts : Array (Option Mount)
  leases : List (String × Lease)
  cancelled : List Token
  calls : List (Thread × Pending)
  /-- The caches and slots of leases that have given back their lock, but not yet their reference. -/
  parting : List (Nat × Nat)
deriving DecidableEq

inductive Refusal
  | noLease
  | nameInUse
  | noCache
  | noDevice
  | threadBusy
  | notPending
  | outOfBounds
  | blocked
  | unknown
deriving DecidableEq

inductive Reply
  | done
  | lease (view : Cache.View)
  | bytes (bytes : Bytes)
  | failed (why : Failure)
  | refused (why : Refusal)
deriving DecidableEq

structure Performed (δ : Type) where
  host : Host δ
  reply : Reply
  events : List Event

namespace Host

variable {δ : Type}

def mount? (s : Host δ) (c : Nat) : Option Mount := s.mounts[c]?.join

def lease? (s : Host δ) (name : String) : Option Lease := s.leases.lookup name

def pending? (s : Host δ) (t : Thread) : Option Pending := s.calls.lookup t

/-- Whether a lease has the name. A call that has not been answered does not keep others from using its name. -/
def nameInUse (s : Host δ) (name : String) : Bool := (s.lease? name).isSome

def isCancelled (s : Host δ) (token : Token) : Bool := s.cancelled.contains token

def bytes (s : Host δ) (lease : Lease) : Bytes :=
  ((s.mount? lease.cache).map fun m => m.cache.bytes lease.slot).getD []

def view (s : Host δ) (lease : Lease) : Reply :=
  match (s.mount? lease.cache).bind fun m => m.cache.view? lease.slot with
  | some view => .lease view
  | none => .refused .noLease

def forget (s : Host δ) (name : String) : Host δ :=
  { s with leases := s.leases.filter fun entry => entry.1 ≠ name }

def operate {α : Type} (s : Host δ) (c : Nat) (operation : Cache → δ → Turn δ α) :
    Option (Host δ × List Event × α) := do
  let m ← s.mount? c
  let d ← s.devices[m.device]?
  let turn := operation m.cache d
  let m' := { m with cache := turn.cache, history := turn.events.reverse ++ m.history }
  return ({ s with
    mounts := s.mounts.setIfInBounds c (some m')
    devices := s.devices.setIfInBounds m.device turn.device }, turn.events, turn.result)

end Host
end BlockCache
