import BlockCache.Host.Act

/-!
# Visits

A visit to a block reads it, adds one to its first byte, writes it and releases it.
-/

namespace BlockCache.Host

variable {δ : Type} [BlockDevice δ]

/-- Carries the call of a thread on until it is answered or has to wait: no call takes more than four steps on
end. -/
def settle (s : Host δ) (t : Thread) : Host δ :=
  s.run (List.replicate 4 (.turn t))

def lease (s : Host δ) (t : Thread) (name : String) (c : Nat) (call : Call) : Performed δ :=
  let started := s.start t name c call
  match started.reply with
  | .refused _ => started
  | _ => (started.host.settle t).answer t

def firstByte? (s : Host δ) (name : String) : Option UInt8 :=
  (s.lease? name).bind fun lease => (s.bytes lease).head?

def visit (s : Host δ) (c : Nat) (name : String) (t : Thread) (key : Key) : Host δ :=
  let s := (s.lease t name c ⟨key, .block, true⟩).host
  match s.firstByte? name with
  | some b => s.run [.put name 0 [b + 1], .write t c name, .finish t name (.released (some c))]
  | none => s

def peek (s : Host δ) (c : Nat) (name : String) (t : Thread) (key : Key) : Host δ × UInt8 :=
  let s := (s.lease t name c ⟨key, .block, true⟩).host
  (s.run [.finish t name (.released (some c))], (s.firstByte? name).getD 0)

def usage (s : Host δ) (c : Nat) : Usage :=
  ((s.mount? c).map fun m => m.cache.usage).getD .zero

/-- A name that no lease has: it is longer than all of theirs. -/
def freshName (s : Host δ) : String :=
  String.join ("visit" :: s.leases.map Prod.fst)

def freshThread (s : Host δ) : Thread :=
  (s.calls.map fun entry => entry.1 + 1).foldl max 0

structure Tally where
  lookups : Nat
  writes : Nat
  firstBytes : List UInt8

def itinerary (blocks t i : Nat) : Key := ⟨0, ((t * 7 + i * (2 * t + 1)) % blocks).toUInt32⟩

/-- Each of some threads makes a number of visits to the first blocks of device 0, and then each of the blocks is
read once. They are threads of their own, whose visits follow one another; in what order they are made does not
show. -/
def visits (s : Host δ) (c threads rounds blocks : Nat) : Host δ × Tally :=
  let name := s.freshName
  let first := s.freshThread
  let stops := (List.range threads).flatMap fun t => (List.range rounds).map fun i => (t, itinerary blocks t i)
  let visited := stops.foldl (fun s stop => s.visit c name (first + stop.1) stop.2) s
  let before := s.usage c
  let after := visited.usage c
  let (s, bytes) := (List.range blocks).foldl (fun (s, bytes) block =>
    let (s, byte) := s.peek c name first ⟨0, block.toUInt32⟩
    (s, byte :: bytes)) (visited, [])
  (s, ⟨after.hits + after.misses - before.hits - before.misses, after.writes - before.writes, bytes.reverse⟩)

end BlockCache.Host
