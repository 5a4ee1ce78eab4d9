import BlockCache.Host.Act

/-!
# Lookups and endings in company

The act of a call that looks for its block is a whole lookup. Here a lookup is a step for each bucket that it visits,
and other threads may act between two of them. While it goes on to the buckets before its home bucket it keeps the
home bucket locked. A lease likewise ends in two steps: its lock is released, and then its reference is given back.
-/

namespace BlockCache

namespace Cache

def route (c : Cache) (key : Key) : List Nat := c.home key :: c.others (c.home key)

def probe (home : Nat) (key : Key) (j : Nat) : Update Cache (Option Found) :=
  if j = home then atHome home key else visit home key j

/-- Whether a lookup may have come to a bucket: to one before its home bucket only if neither the block nor a free
slot is there, since it has looked and nobody else has been there. -/
def reaches (c : Cache) (key : Key) (j : Nat) : Bool :=
  j < c.buckets && (c.home key ≤ j ||
    match atHome (c.home key) key c with
    | .ok none _ => true
    | _ => false)

end Cache

namespace Call

variable {δ : Type}

def probe (call : Call) (j : Nat) (c : Cache) (d : δ) : Turn δ Stage :=
  match Cache.probe (c.home call.key) call.key j c with
  | .error fault c' => ⟨c', d, fault.events, .failed (.fault fault)⟩
  | .ok (some found) c' => ⟨c', d, found.events call.key, .queued found.slot⟩
  | .ok none c' => ⟨c', d, [], .looking⟩

def conclude (seen : Nat) (c : Cache) (d : δ) : Turn δ Stage :=
  match c.exhaustion with
  | .stop => ⟨c, d, Fault.events (.stop .exhausted), .failed (.fault (.stop .exhausted))⟩
  | .wait => ⟨c, d, [.waiting], .starved seen⟩

end Call

/-- A step of a run in which lookups and the ends of leases are not taken as a whole. -/
inductive Step
  | act (act : Act)
  | probe (thread : Thread) (bucket : Nat)
  | conclude (thread : Thread) (seen : Nat)
  | unlock (thread : Thread) (name : String) (ending : Ending)
  /-- The read of a call fails, and the first half of the end of its lease follows. -/
  | spoil (thread : Thread)
  | part (cache slot : Nat)
deriving DecidableEq

namespace Host

variable {δ : Type}

def lookOn (s : Host δ) (t : Thread) (ready : Call → Cache → Bool) (step : Call → Cache → δ → Turn δ Stage) :
    Performed δ :=
  match s.pending? t with
  | none => s.refuse .notPending
  | some p =>
      if p.stage = .looking ∧ (s.mount? p.cache).any (fun m => ready p.call m.cache) then
        match s.operate p.cache (step p.call) with
        | none => s.refuse .noCache
        | some (s', events, stage) =>
            ⟨s'.setPending t { p with stage, events := p.events ++ events }, .done, events⟩
      else s.refuse .blocked

def probe (s : Host δ) (t : Thread) (j : Nat) : Performed δ :=
  s.lookOn t (fun call c => c.reaches call.key j) fun call => call.probe j

def conclude (s : Host δ) (t : Thread) (seen : Nat) : Performed δ :=
  s.lookOn t (fun _ _ => true) fun _ => Call.conclude seen

def owe (s : Host δ) (c i : Nat) : Host δ := { s with parting := (c, i) :: s.parting }

def repay (s : Host δ) (c i : Nat) : Host δ := { s with parting := s.parting.erase (c, i) }

/-- Releases the lock of a lease, whose reference is to be given back. -/
def unlock (s : Host δ) (name : String) : Performed δ :=
  match s.lease? name with
  | none => s.refuse .noLease
  | some lease =>
      let unlocked := s.onSlot lease.cache lease (fun i => Turn.ofUpdate (Cache.onTable (Table.unlock i))) fun _ _ => .done
      match unlocked.reply with
      | .refused _ => unlocked
      | _ => { unlocked with host := (unlocked.host.forget name).owe lease.cache lease.slot }

def part (s : Host δ) (c i : Nat) : Performed δ :=
  if (c, i) ∈ s.parting then
    match s.operate c (Turn.ofUpdate (Cache.letGo i)) with
    | none => s.refuse .noCache
    | some (s', events, failure) =>
        ⟨s'.repay c i, (failure.map Reply.failed).getD .done, events⟩
  else s.refuse .noLease

def spoil [BlockDevice δ] (s : Host δ) (t : Thread) : Performed δ :=
  match s.pending? t with
  | none => s.refuse .notPending
  | some p =>
      match p.stage with
      | .loading i =>
          match s.operate p.cache (Call.loadOr (Cache.onTable (Table.unlock i)) i) with
          | some (s', events, .failed why) =>
              let p := { p with stage := .failed why, events := p.events ++ events }
              ⟨(s'.setPending t p).owe p.cache i, .done, events⟩
          | _ => s.refuse .blocked
      | _ => s.refuse .blocked

def advance [BlockDevice δ] (s : Host δ) : Step → Performed δ
  | .act act => s.perform act
  | .probe t j => s.probe t j
  | .conclude t seen => s.conclude t seen
  | .unlock t name ending => s.finishBy (·.unlock name) t name ending
  | .spoil t => s.spoil t
  | .part c i => s.part c i

def walk [BlockDevice δ] (s : Host δ) (steps : List Step) : Host δ :=
  steps.foldl (fun s step => (s.advance step).host) s

def isLooking (s : Host δ) (t : Thread) : Bool := (s.pending? t).any fun p => p.stage = .looking

structure Search where
  seen : Nat
  left : List Nat

def search? (s : Host δ) (t : Thread) : Option Search := do
  let p ← s.pending? t
  let m ← s.mount? p.cache
  return ⟨m.cache.freed, m.cache.route p.call.key⟩

/-- Carries the lookup of thread `t` on until it has found something or comes to a bucket that is locked. -/
def roam (s : Host δ) (t : Thread) (locked : Nat → Bool) (seen : Nat) : List Nat → Host δ × Option Search
  | [] => ((s.conclude t seen).host, none)
  | j :: left =>
      if locked j then (s, some ⟨seen, j :: left⟩)
      else
        let s' := (s.probe t j).host
        if s'.isLooking t then s'.roam t locked seen left else (s', none)

end Host
end BlockCache
