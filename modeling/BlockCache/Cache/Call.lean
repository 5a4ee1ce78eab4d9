import BlockCache.Cache.Lookup
import BlockCache.Cache.Transfer

/-!
# Calls for a lease

A call for a lease goes through stages. Between two of them other threads may run, so that a stage begins in
whatever state they left. A call that has to wait stays in its stage.
-/

namespace BlockCache

structure Call where
  key : Key
  patience : Patience
  loads : Bool
deriving DecidableEq

inductive Stage
  | looking
  /-- No slot was free when `seen` slots had been let go. -/
  | starved (seen : Nat)
  | queued (slot : Nat)
  | loading (slot : Nat)
  | granted (slot : Nat)
  | failed (why : Failure)
deriving DecidableEq

def Turn.toStage {δ : Type} (turn : Turn δ (Option Failure)) (stage : Stage) : Turn δ Stage :=
  { turn with result := (turn.result.map Stage.failed).getD stage }

namespace Call

variable {δ : Type}

def look (call : Call) (c : Cache) (d : δ) : Turn δ Stage :=
  match c.lookup call.key with
  | .error fault c' => ⟨c', d, fault.events, .failed (.fault fault)⟩
  | .ok (some found) c' => ⟨c', d, found.events call.key, .queued found.slot⟩
  | .ok none c' =>
      match c.exhaustion with
      | .stop => ⟨c', d, Fault.events (.stop .exhausted), .failed (.fault (.stop .exhausted))⟩
      | .wait => ⟨c', d, [.waiting], .starved c.freed⟩

def starve (call : Call) (cancelled : Token → Bool) (seen : Nat) (c : Cache) (d : δ) : Turn δ Stage :=
  if c.freed ≠ seen then ⟨c, d, [], .looking⟩
  else
    match call.patience with
    | .block => ⟨c, d, [], .starved seen⟩
    | .interruptible token =>
        ⟨c, d, [], if cancelled token then .failed (.error .interrupted) else .starved seen⟩
    | .never => ⟨c, d, [], .failed (.error .lockContended)⟩

def queue (call : Call) (t : Thread) (cancelled : Token → Bool) (i : Nat) (c : Cache) (d : δ) : Turn δ Stage :=
  match c.table.slots[i]? with
  | none => (Turn.ofUpdate (Cache.onTable (Table.slot i)) c d).toStage (.queued i)
  | some s =>
      match s.data.attempt cancelled call.patience with
      | .granted =>
          (Turn.ofUpdate (Cache.onTable (Table.lock i t)) c d).toStage
            (if call.loads then .loading i else .granted i)
      | .busy => ⟨c, d, [], .queued i⟩
      | .refused cause => (Turn.ofUpdate (Cache.letGo i) c d).toStage (.failed (.error cause))

/-- Reads the block if the slot is not valid. After a failure `ends` is done to end the lease. -/
def loadOr [BlockDevice δ] (ends : Update Cache Unit) (i : Nat) (c : Cache) (d : δ) : Turn δ Stage :=
  if c.table.slots[i]?.any Slot.valid then ⟨c, d, [], .granted i⟩
  else
    let turn := c.fetch i d
    match turn.result with
    | none => turn.toStage (.granted i)
    | some failure =>
        let ended := (Turn.ofUpdate ends turn.cache turn.device).toStage (.failed failure)
        { ended with events := turn.events ++ ended.events }

def load [BlockDevice δ] (i : Nat) (c : Cache) (d : δ) : Turn δ Stage := loadOr (Cache.endLease i) i c d

def turn [BlockDevice δ] (call : Call) (t : Thread) (cancelled : Token → Bool) (stage : Stage) (c : Cache)
    (d : δ) : Turn δ Stage :=
  match stage with
  | .looking => call.look c d
  | .starved seen => call.starve cancelled seen c d
  | .queued i => call.queue t cancelled i c d
  | .loading i => load i c d
  | .granted i => ⟨c, d, [], .granted i⟩
  | .failed why => ⟨c, d, [], .failed why⟩

end Call
end BlockCache
