import BlockCache.Lock.LockSet

/-!
# Sessions on locks

Requests of several threads to a set of locks, one after another. A request is addressed to a lock, which has to
be there even if the request is about a guard or a token. A request may be put off, and is then answered when its
thread joins it.
-/

namespace BlockCache

namespace LockSet

inductive Request (α : Type)
  | take (name : String) (patience : Patience)
  | act (act : Act α)
  | holding
  | isLocked
  | describe
  | guardHolding (name : String)
  | contend (threads rounds : Nat) (change : α → α)
  | unknown

inductive Answer (α : Type)
  | reply (reply : Reply α)
  | pending
  | flag (holds : Bool)
  | text (text : String)

variable {α : Type}

def refused (s : LockSet α) (why : Refusal) : LockSet α × Answer α := (s, .reply (.refused why))

def replied (outcome : LockSet α × Reply α) : LockSet α × Answer α := (outcome.1, .reply outcome.2)

def take (s : LockSet α) (t : Thread) (name : String) (i : Nat) (patience : Patience) : LockSet α × Answer α :=
  match s.ask t name i patience with
  | (s', .done) => replied (s'.attempt t)
  | outcome => replied outcome

def changeUnder (s : LockSet α) (t : Thread) (name : String) (i : Nat) (change : α → α) : LockSet α :=
  let s := s.run [.ask t name i .block, .attempt t]
  match s.guarded? name with
  | none => s
  | some (_, lock) => s.run [.set name (change lock.value), .unlock name]

/-- The threads that contend are none of those that wait, and their guards have a name that no other guard has: it
is longer than all of theirs. -/
def contend (s : LockSet α) (i threads rounds : Nat) (change : α → α) : LockSet α :=
  let name := String.join ("contender" :: s.guards.map Prod.fst)
  let first := (s.waiters.map fun entry => entry.1 + 1).foldl max 0
  let turns := (List.range threads).flatMap fun t => List.replicate rounds (first + t)
  turns.foldl (fun s t => s.changeUnder t name i change) s

def request (s : LockSet α) (t : Thread) (i : Nat) (r : Request α) : LockSet α × Answer α :=
  match s.locks[i]? with
  | none => s.refused .noLock
  | some lock =>
      match r with
      | .take name patience => s.take t name i patience
      | .act act => replied (s.perform act)
      | .holding => (s, .flag (lock.heldBy t))
      | .isLocked => (s, .flag lock.isLocked)
      | .describe => (s, .text lock.describe)
      | .guardHolding name =>
          match s.guarded? name with
          | none => s.refused .noGuard
          | some (_, lock) => (s, .flag (lock.heldBy t))
      | .contend threads rounds change =>
          let s' := s.contend i threads rounds change
          match s'.locks[i]? with
          | none => s'.refused .noLock
          | some lock => (s', .reply (.value lock.value))
      | .unknown => s.refused .unknown

end LockSet

inductive DeferredRequest (α : Type)
  | request (lock : Nat) (request : LockSet.Request α)
  | answer (answer : LockSet.Answer α)

structure LockSession (α : Type) where
  locks : LockSet α
  deferred : List (Thread × DeferredRequest α)

namespace LockSession

variable {α : Type}

def ofValues (values : List α) : LockSession α := ⟨.ofValues values, []⟩

def isIdle (s : LockSession α) : Bool := s.locks.waiters.isEmpty && s.deferred.isEmpty

def isBusy (s : LockSession α) (t : Thread) : Bool :=
  (s.locks.waiter? t).isSome || (s.deferred.lookup t).isSome

def defer (s : LockSession α) (t : Thread) (left : DeferredRequest α) : LockSession α × LockSet.Answer α :=
  ({ s with deferred := s.deferred ++ [(t, left)] }, .pending)

def after (s : LockSession α) (outcome : LockSet α × LockSet.Answer α) : LockSession α × LockSet.Answer α :=
  ({ s with locks := outcome.1 }, outcome.2)

def putOff (s : LockSession α) (t : Thread) (i : Nat) : LockSet.Request α → LockSession α × LockSet.Answer α
  | .take name patience =>
      match s.locks.ask t name i patience with
      | (locks, .done) => ({ s with locks }, .pending)
      | (_, reply) => s.defer t (.answer (.reply reply))
  | r => s.defer t (.request i r)

/-- Answers a request of thread `t`, or puts it off. A thread whose request was put off can only join it. -/
def step (s : LockSession α) (t : Thread) (i : Nat) (r : LockSet.Request α) (later : Bool) :
    LockSession α × LockSet.Answer α :=
  if s.isBusy t then s.after (s.locks.refused .threadBusy)
  else if later then s.putOff t i r
  else s.after (s.locks.request t i r)

def join (s : LockSession α) (t : Thread) : LockSession α × LockSet.Answer α :=
  let s' := { s with deferred := s.deferred.filter fun entry => entry.1 ≠ t }
  match s.deferred.lookup t with
  | some (.request i r) => s'.after (s.locks.request t i r)
  | some (.answer answer) => (s', answer)
  | none => s.after (LockSet.replied (s.locks.attempt t))

end LockSession
end BlockCache
