import BlockCache.Host.Basic

namespace BlockCache

inductive Ending
  /-- Handed to a cache, to the lease's own if none is named. -/
  | released (cache : Option Nat)
  | dropped
deriving DecidableEq

inductive Act
  | start (thread : Thread) (name : String) (cache : Nat) (call : Call)
  | turn (thread : Thread)
  | answer (thread : Thread)
  | finish (thread : Thread) (name : String) (ending : Ending)
  | write (thread : Thread) (cache : Nat) (name : String)
  | pin (thread : Thread) (cache : Nat) (name : String)
  | unpin (thread : Thread) (cache : Nat) (name : String)
  | look (name : String)
  | get (name : String) (offset : Nat) (length : Option Nat)
  | put (name : String) (offset : Nat) (bytes : Bytes)
  | fill (name : String) (byte : UInt8)
  | cancel (token : Token)
  | deviceRead (device : Nat) (key : Key) (length : Nat)
  | deviceWrite (device : Nat) (key : Key) (bytes : Bytes)
deriving DecidableEq

namespace Host

variable {δ : Type}

def refuse (s : Host δ) (why : Refusal) : Performed δ := ⟨s, .refused why, []⟩

def start (s : Host δ) (t : Thread) (name : String) (c : Nat) (call : Call) : Performed δ :=
  if (s.pending? t).isSome then s.refuse .threadBusy
  else if (s.mount? c).isNone then s.refuse .noCache
  else if s.nameInUse name then s.refuse .nameInUse
  else ⟨{ s with calls := s.calls ++ [(t, ⟨name, c, call, .looking, []⟩)] }, .done, []⟩

def setPending (s : Host δ) (t : Thread) (p : Pending) : Host δ :=
  { s with calls := s.calls.map fun entry => if entry.1 = t then (t, p) else entry }

def removePending (s : Host δ) (t : Thread) : Host δ :=
  { s with calls := s.calls.filter fun entry => entry.1 ≠ t }

def turn [BlockDevice δ] (s : Host δ) (t : Thread) : Performed δ :=
  match s.pending? t with
  | none => s.refuse .notPending
  | some p =>
      match s.operate p.cache (p.call.turn t s.isCancelled p.stage) with
      | none => s.refuse .noCache
      | some (s', events, stage) =>
          ⟨s'.setPending t { p with stage, events := p.events ++ events }, .done, events⟩

def onSlot (s : Host δ) (c : Nat) (lease : Lease) (operation : Nat → Cache → δ → Turn δ (Option Failure))
    (reply : Host δ → Lease → Reply) : Performed δ :=
  match s.operate c (operation lease.slot) with
  | none => s.refuse .noCache
  | some (s', events, failure) => ⟨s', (failure.map Reply.failed).getD (reply s' lease), events⟩

def onLease (s : Host δ) (name : String) (operation : Nat → Cache → δ → Turn δ (Option Failure))
    (reply : Host δ → Lease → Reply) : Performed δ :=
  match s.lease? name with
  | none => s.refuse .noLease
  | some lease => s.onSlot lease.cache lease operation reply

/-- Has a cache carry out an operation on a lease, which must be one of its own. If no cache is named it is. -/
def callOn (s : Host δ) (op : LeaseOp) (name : String) (called : Option Nat)
    (operation : Nat → Cache → δ → Turn δ (Option Failure)) (reply : Host δ → Lease → Reply) : Performed δ :=
  match s.lease? name with
  | none => s.refuse .noLease
  | some lease =>
      let c := called.getD lease.cache
      if (s.mount? c).isNone then s.refuse .noCache
      else if c ≠ lease.cache then
        ⟨s, .failed (.fault (.stop (.foreignLease op))), [.stopped (.foreignLease op)]⟩
      else s.onSlot c lease operation reply

def drop (s : Host δ) (name : String) : Performed δ :=
  let ended := s.onLease name (fun i => Turn.ofUpdate (Cache.endLease i)) fun _ _ => .done
  match ended.reply with
  | .refused _ => ended
  | _ => { ended with host := ended.host.forget name }

/-- Ends a lease by doing `ends`, after a check if the lease is handed to a cache. If it may not be released it is let
go of all the same. -/
def finishBy (s : Host δ) (ends : Host δ → Performed δ) (t : Thread) (name : String) : Ending → Performed δ
  | .dropped => ends s
  | .released called =>
      let checked :=
        s.callOn .release name called (fun i => Turn.ofUpdate (Cache.authorize .release t i)) fun _ _ => .done
      match checked.reply with
      | .refused _ => checked
      | _ => { checked with host := (ends checked.host).host }

def finish (s : Host δ) (t : Thread) (name : String) (ending : Ending) : Performed δ :=
  s.finishBy (·.drop name) t name ending

def write [BlockDevice δ] (s : Host δ) (t : Thread) (c : Nat) (name : String) : Performed δ :=
  s.callOn .write name (some c) (fun i => Cache.flush t i) view

def pin (s : Host δ) (t : Thread) (c : Nat) (name : String) : Performed δ :=
  s.callOn .pin name (some c) (fun i => Turn.ofUpdate (Cache.pin t i)) view

def unpin (s : Host δ) (t : Thread) (c : Nat) (name : String) : Performed δ :=
  s.callOn .unpin name (some c) (fun i => Turn.ofUpdate (Cache.unpin t i)) view

def look (s : Host δ) (name : String) : Performed δ :=
  match s.lease? name with
  | none => s.refuse .noLease
  | some lease => ⟨s, s.view lease, []⟩

/-- A call is answered once it has a lease or has failed. The answer comes with all that the call reported. A
name stands for the lease that it was given to last: one that had it before is let go of. -/
def answer (s : Host δ) (t : Thread) : Performed δ :=
  match s.pending? t with
  | none => s.refuse .notPending
  | some p =>
      match p.stage with
      | .granted i =>
          let lease : Lease := ⟨p.cache, i, t⟩
          let s' := ((s.removePending t).drop p.name).host
          ⟨{ s' with leases := s'.leases ++ [(p.name, lease)] }, s'.view lease, p.events⟩
      | .failed why => ⟨s.removePending t, .failed why, p.events⟩
      | _ => s.refuse .blocked

def get (s : Host δ) (name : String) (offset : Nat) (length : Option Nat) : Performed δ :=
  match s.lease? name with
  | none => s.refuse .noLease
  | some lease =>
      let bytes := s.bytes lease
      let length := length.getD (bytes.length - offset)
      if bytes.length < offset + length then s.refuse .outOfBounds
      else ⟨s, .bytes ((bytes.drop offset).take length), []⟩

def edit (s : Host δ) (name : String) (change : Bytes → Bytes) : Performed δ :=
  s.onLease name (fun i c => Turn.ofUpdate (Cache.onTable (Table.setBytes i (change (c.bytes i)))) c)
    fun _ _ => .done

def overwrite (offset : Nat) (part whole : Bytes) : Bytes :=
  whole.take offset ++ part ++ whole.drop (offset + part.length)

def put (s : Host δ) (name : String) (offset : Nat) (part : Bytes) : Performed δ :=
  match s.lease? name with
  | none => s.refuse .noLease
  | some lease =>
      if (s.bytes lease).length < offset + part.length then s.refuse .outOfBounds
      else s.edit name (overwrite offset part)

def fill (s : Host δ) (name : String) (byte : UInt8) : Performed δ :=
  s.edit name fun bytes => List.replicate bytes.length byte

def onDevice (s : Host δ) (d : Nat) (transfer : δ → Transfer δ) (reply : Bytes → Reply) : Performed δ :=
  match s.devices[d]? with
  | none => s.refuse .noDevice
  | some device =>
      let t := transfer device
      ⟨{ s with devices := s.devices.setIfInBounds d t.device },
        (t.failure.map fun f => .failed f.toFailure).getD (reply t.buffer), t.events⟩

def cancel (s : Host δ) (token : Token) : Performed δ :=
  ⟨{ s with cancelled := if s.isCancelled token then s.cancelled else token :: s.cancelled }, .done, []⟩

def perform [BlockDevice δ] (s : Host δ) : Act → Performed δ
  | .start t name c call => s.start t name c call
  | .turn t => s.turn t
  | .answer t => s.answer t
  | .finish t name ending => s.finish t name ending
  | .write t c name => s.write t c name
  | .pin t c name => s.pin t c name
  | .unpin t c name => s.unpin t c name
  | .look name => s.look name
  | .get name offset length => s.get name offset length
  | .put name offset part => s.put name offset part
  | .fill name byte => s.fill name byte
  | .cancel token => s.cancel token
  | .deviceRead d key length =>
      s.onDevice d (BlockDevice.read · key (List.replicate length 0)) .bytes
  | .deviceWrite d key part => s.onDevice d (BlockDevice.write · key part) fun _ => .done

def run [BlockDevice δ] (s : Host δ) (acts : List Act) : Host δ :=
  acts.foldl (fun s act => (s.perform act).host) s

end Host
end BlockCache
