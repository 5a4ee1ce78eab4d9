import BlockCache.Lock.Basic

/-!
# Locks and the threads that want them

A set of locks, the guards on them by name, and the callers that have not been answered. A guard may be given
up by any thread. Every act is atomic, and a caller that finds a lock held may ask again after any acts of
others.
-/

namespace BlockCache

structure Guard where
  lock : Nat
  thread : Thread
deriving DecidableEq

structure Waiter where
  name : String
  lock : Nat
  patience : Patience
deriving DecidableEq

structure LockSet (α : Type) where
  locks : Array (Lock α)
  guards : List (String × Guard)
  cancelled : List Token
  waiters : List (Thread × Waiter)
deriving DecidableEq

namespace LockSet

inductive Act (α : Type)
  | ask (thread : Thread) (name : String) (lock : Nat) (patience : Patience)
  | attempt (thread : Thread)
  | get (name : String)
  | set (name : String) (value : α)
  | unlock (name : String)
  | cancel (token : Token)
deriving DecidableEq

inductive Refusal
  | noLock
  | noGuard
  | nameInUse
  | threadBusy
  | notPending
  | blocked
  | unknown
deriving DecidableEq

inductive Reply (α : Type)
  | done
  | granted (value : α)
  | failed (cause : Error)
  | value (value : α)
  | refused (why : Refusal)
deriving DecidableEq

variable {α : Type}

def ofValues (values : List α) : LockSet α :=
  ⟨(values.map Lock.free).toArray, [], [], []⟩

def guard? (s : LockSet α) (name : String) : Option Guard := s.guards.lookup name

def waiter? (s : LockSet α) (t : Thread) : Option Waiter := s.waiters.lookup t

def isCancelled (s : LockSet α) (token : Token) : Bool := s.cancelled.contains token

def nameInUse (s : LockSet α) (name : String) : Bool := (s.guard? name).isSome

def guarded? (s : LockSet α) (name : String) : Option (Nat × Lock α) := do
  let guard ← s.guard? name
  let lock ← s.locks[guard.lock]?
  return (guard.lock, lock)

def setLock (s : LockSet α) (i : Nat) (lock : Lock α) : LockSet α :=
  { s with locks := s.locks.setIfInBounds i lock }

def dismiss (s : LockSet α) (t : Thread) : LockSet α :=
  { s with waiters := s.waiters.filter fun entry => entry.1 ≠ t }

def ask (s : LockSet α) (t : Thread) (name : String) (i : Nat) (patience : Patience) : LockSet α × Reply α :=
  if (s.waiter? t).isSome then (s, .refused .threadBusy)
  else if s.locks[i]?.isNone then (s, .refused .noLock)
  else if s.nameInUse name then (s, .refused .nameInUse)
  else ({ s with waiters := s.waiters ++ [(t, ⟨name, i, patience⟩)] }, .done)

def get (s : LockSet α) (name : String) : LockSet α × Reply α :=
  match s.guarded? name with
  | none => (s, .refused .noGuard)
  | some (_, lock) => (s, .value lock.value)

def set (s : LockSet α) (name : String) (value : α) : LockSet α × Reply α :=
  match s.guarded? name with
  | none => (s, .refused .noGuard)
  | some (i, lock) => (s.setLock i (lock.set value), .value value)

def unlock (s : LockSet α) (name : String) : LockSet α × Reply α :=
  match s.guarded? name with
  | none => (s, .refused .noGuard)
  | some (i, lock) =>
      let s' := s.setLock i lock.unlock
      ({ s' with guards := s'.guards.filter fun entry => entry.1 ≠ name }, .done)

/-- A waiting thread is answered if the lock can be granted or the thread gives up. A name stands for the guard
that it was given to last: one that had it before is given up. -/
def attempt (s : LockSet α) (t : Thread) : LockSet α × Reply α :=
  match s.waiter? t with
  | none => (s, .refused .notPending)
  | some w =>
      match s.locks[w.lock]? with
      | none => (s, .refused .noLock)
      | some lock =>
          match lock.attempt s.isCancelled w.patience with
          | .busy => (s, .refused .blocked)
          | .refused cause => (s.dismiss t, .failed cause)
          | .granted =>
              let s' := ((s.dismiss t).unlock w.name).1.setLock w.lock (lock.grant t)
              ({ s' with guards := s'.guards ++ [(w.name, ⟨w.lock, t⟩)] }, .granted lock.value)

def cancel (s : LockSet α) (token : Token) : LockSet α × Reply α :=
  ({ s with cancelled := if s.isCancelled token then s.cancelled else token :: s.cancelled }, .done)

def perform (s : LockSet α) : Act α → LockSet α × Reply α
  | .ask t name i patience => s.ask t name i patience
  | .attempt t => s.attempt t
  | .get name => s.get name
  | .set name value => s.set name value
  | .unlock name => s.unlock name
  | .cancel token => s.cancel token

def run (s : LockSet α) (acts : List (Act α)) : LockSet α :=
  acts.foldl (fun s act => (s.perform act).1) s

end LockSet
end BlockCache
