import BlockCache.Error
import BlockCache.Text.Record

namespace BlockCache

abbrev Thread := Nat

abbrev Token := String

inductive Patience
  | block
  | interruptible (token : Token)
  | never
deriving DecidableEq

/-- A value that one thread at a time may have, under a lock that knows its holder. -/
structure Lock (α : Type) where
  locked : Bool
  holder : Option Thread
  value : α
deriving DecidableEq

namespace Lock

variable {α : Type}

def free (value : α) : Lock α := ⟨false, none, value⟩

def isLocked (l : Lock α) : Bool := l.locked

def heldBy (l : Lock α) (t : Thread) : Bool := l.locked && l.holder = some t

def grant (l : Lock α) (t : Thread) : Lock α := { l with locked := true, holder := some t }

def unlock (l : Lock α) : Lock α := { l with locked := false, holder := none }

def set (l : Lock α) (value : α) : Lock α := { l with value }

inductive Attempt
  | granted
  | busy
  | refused (cause : Error)
deriving DecidableEq

/-- A free lock is granted to whoever asks, even if the caller's token is cancelled: the token is only
consulted while the lock is held. -/
def attempt (l : Lock α) (cancelled : Token → Bool) : Patience → Attempt
  | .block => if l.isLocked then .busy else .granted
  | .interruptible token =>
      if l.isLocked then (if cancelled token then .refused .interrupted else .busy) else .granted
  | .never => if l.isLocked then .refused .lockContended else .granted

def describe (l : Lock α) : String :=
  let holder := if l.holder.isSome then "Some(ThreadId(#))" else "None"
  let locked := if l.isLocked then "true" else "false"
  Text.openRecord "SleepLock" [("state", Text.record "State" [("locked", locked), ("holder", holder)])]

end Lock
end BlockCache
