import BlockCache.Text.Record

namespace BlockCache

/-- Requests to give up and the handles on them. A clone is one more handle on the same request; a handle that
was dropped stays in its place. -/
structure Cancellation where
  cancelled : List Bool
  handles : List (Option Nat)
deriving DecidableEq

namespace Cancellation

def empty : Cancellation := ⟨[], []⟩

def request? (ts : Cancellation) (i : Nat) : Option Nat := ts.handles[i]?.join

def create (ts : Cancellation) : Cancellation where
  cancelled := ts.cancelled ++ [false]
  handles := ts.handles ++ [some ts.cancelled.length]

def clone (i : Nat) (ts : Cancellation) : Cancellation :=
  { ts with handles := ts.handles ++ [ts.request? i] }

def cancel (i : Nat) (ts : Cancellation) : Cancellation :=
  match ts.request? i with
  | some request => { ts with cancelled := ts.cancelled.set request true }
  | none => ts

def drop (i : Nat) (ts : Cancellation) : Cancellation :=
  { ts with handles := ts.handles.set i none }

def states (ts : Cancellation) : List (Option Bool) :=
  ts.handles.map fun handle => handle.map fun request => ts.cancelled.getD request false

def describe (cancelled : Bool) : String :=
  Text.record "CancelToken" [("cancelled", if cancelled then "true" else "false")]

end Cancellation
end BlockCache
