import BlockCache.Device.Disk
import BlockCache.Host.Assembly
import BlockCache.Host.Search
import BlockCache.Host.Visits

/-!
# Sessions

Requests of several threads to a host whose caches are over disks, one after another. A request is addressed to
a cache, and is carried out at once, or is left in the background until its thread joins it. A thread may be kept in
the bucket where it found its block; lookups that come to this bucket go on when it is joined.
-/

namespace BlockCache

inductive Mode
  | complete
  | background
  /-- In the background, with its thread kept in the bucket in which its lookup has found the block. -/
  | kept
  /-- Not at all: it is carried out when its thread joins it. A lookup begins all the same, and gets as far as the
  first bucket in which a thread is kept. -/
  | deferred
deriving DecidableEq

inductive Request
  | lease (name : String) (call : Call)
  | act (act : Act)
  | describeCache
  | describeLease (name : String)
  | diskBlock (disk : Nat) (key : Key)
  | diskCounts (disk : Nat)
  | visits (threads rounds blocks : Nat)
  | unknown

def Request.needsCache : Request → Bool
  | .act (.cancel _) => false
  | .act (.deviceRead _ _ _) => false
  | .act (.deviceWrite _ _ _) => false
  | .diskBlock _ _ => false
  | .diskCounts _ => false
  | _ => true

inductive Answer
  | reply (reply : Reply)
  | pending
  | cacheText (cache usage : String)
  | leaseText (text : String)
  | diskBlock (bytes : Option Bytes)
  | diskCounts (counts : Option (Nat × Nat))
  | visited (tally : Host.Tally)

structure Exchange where
  answer : Answer
  cache : Nat
  events : List Event

/-- What is left of a request until its thread joins it, other than a call for a lease. -/
inductive Deferred
  | request (cache : Nat) (request : Request)
  | exchange (exchange : Exchange)

namespace Host

variable (s : Host Disk)

def told (c : Nat) (answer : Answer) : Host Disk × Exchange := (s, ⟨answer, c, []⟩)

def refused (c : Nat) (why : Refusal) : Host Disk × Exchange := s.told c (.reply (.refused why))

def exchange (c : Nat) (p : Performed Disk) : Host Disk × Exchange :=
  (p.host, ⟨.reply p.reply, c, p.events⟩)

def request (t : Thread) (c : Nat) (r : Request) : Host Disk × Exchange :=
  if r.needsCache && (s.mount? c).isNone then s.refused c .noCache
  else
    match r with
    | .lease name call => exchange c (s.lease t name c call)
    | .act act => exchange c (s.perform act)
    | .describeCache =>
        match s.mount? c with
        | some m => s.told c (.cacheText m.cache.describe m.cache.usage.describe)
        | none => s.refused c .noCache
    | .describeLease name =>
        match (s.look name).reply with
        | .lease view => s.told c (.leaseText view.describe)
        | reply => s.told c (.reply reply)
    | .diskBlock d key =>
        match s.devices[d]? with
        | some disk => s.told c (.diskBlock (disk.memory?.bind (·.block key)))
        | none => s.refused c .noDevice
    | .diskCounts d =>
        match s.devices[d]? with
        | some disk => s.told c (.diskCounts (disk.memory?.map fun m => (m.reads, m.writes)))
        | none => s.refused c .noDevice
    | .visits threads rounds blocks =>
        let (s', tally) := s.visits c threads rounds blocks
        s'.told c (.visited tally)
    | .unknown => s.refused c .unknown

def close : Host Disk :=
  s.run ((s.leases.map Prod.fst).mergeSort (fun a b => decide (a ≤ b)) |>.map fun name =>
    .finish 0 name .dropped)

def statistics (c : Nat) : Option (List Nat) :=
  (s.mount? c).map fun m =>
    let n := m.cache.usage
    [n.hits, n.misses, n.evictions, n.steals, n.reads, n.writes, m.cache.free]

end Host

structure Session where
  host : Host Disk
  deferred : List (Thread × Deferred)
  kept : List (Thread × Nat × Nat)
  searches : List (Thread × Host.Search)

namespace Session

def start (host : Host Disk) : Session := ⟨host, [], [], []⟩

def isIdle (s : Session) : Bool := s.host.calls.isEmpty && s.deferred.isEmpty

def isBusy (s : Session) (t : Thread) : Bool :=
  (s.host.pending? t).isSome || (s.deferred.lookup t).isSome

def defer (s : Session) (t : Thread) (c : Nat) (left : Deferred) : Session × Exchange :=
  ({ s with deferred := s.deferred ++ [(t, left)] }, ⟨.pending, c, []⟩)

def after (s : Session) (outcome : Host Disk × Exchange) : Session × Exchange :=
  ({ s with host := outcome.1 }, outcome.2)

def home? (s : Session) (t : Thread) : Option (Nat × Nat) := do
  let p ← s.host.pending? t
  let m ← s.host.mount? p.cache
  return (p.cache, m.cache.home p.call.key)

/-- Whether the lookup of thread `t` cannot go to bucket `j`. It needs its home bucket too, which it has already
while it goes to the buckets before. -/
def isLocked (s : Session) (t : Thread) (j : Nat) : Bool :=
  match s.home? t with
  | some (c, home) => s.kept.any fun (_, c', b) => c' = c && (b = j || home ≤ j && b = home)
  | none => false

def carryOn (s : Session) (t : Thread) (search : Host.Search) (locked : Nat → Bool) : Session :=
  let (host, left) := s.host.roam t locked search.seen search.left
  { s with
    host := if left.isSome then host else host.settle t
    searches := (s.searches.filter fun entry => entry.1 ≠ t) ++ left.toList.map fun search => (t, search) }

/-- Keeps thread `t` in the bucket in which its lookup has found the block, if it has. -/
def keep (s : Session) (t : Thread) : Session :=
  let found := (s.host.pending? t).any fun p => p.events.any fun
    | .hit _ _ => true
    | _ => false
  match s.home? t with
  | some place => if found then { s with kept := (t, place) :: s.kept } else s
  | none => s

def letGo (s : Session) (t : Thread) : Session :=
  s.searches.foldl (fun s (t', search) => s.carryOn t' search (s.isLocked t'))
    { s with kept := s.kept.filter fun entry => entry.1 ≠ t }

def call (s : Session) (t : Thread) (c : Nat) (name : String) (call : Call) (mode : Mode) : Session × Exchange :=
  let made := s.host.start t name c call
  match made.reply with
  | .refused why => s.defer t c (.exchange ⟨.reply (.refused why), c, []⟩)
  | _ =>
      let settled : Session := { s with host := made.host.settle t }
      let called := match mode with
        | .complete | .background => settled
        | .kept => settled.keep t
        | .deferred =>
            match made.host.search? t with
            | some search => carryOn { s with host := made.host } t search (isLocked { s with host := made.host } t)
            | none => settled
      (called, ⟨.pending, c, []⟩)

/-- Takes a request of thread `t` to cache `c`. A thread with a request in the background can only join it. -/
def step (s : Session) (t : Thread) (c : Nat) (mode : Mode) (r : Request) : Session × Exchange :=
  if s.isBusy t then s.after (s.host.refused c .threadBusy)
  else
    match mode, r with
    | .complete, r => s.after (s.host.request t c r)
    | mode, .lease name call => s.call t c name call mode
    | .deferred, r => s.defer t c (.request c r)
    | _, r =>
        let (host, exchange) := s.host.request t c r
        defer { s with host } t c (.exchange exchange)

def join (s : Session) (t : Thread) (c : Nat) : Session × Exchange :=
  let s' := { s with deferred := s.deferred.filter fun entry => entry.1 ≠ t }
  match s.deferred.lookup t, s.host.pending? t with
  | some (.request c r), _ => s'.after (s.host.request t c r)
  | some (.exchange exchange), _ => (s', exchange)
  | none, some p =>
      let s := match s.searches.lookup t with
        | some search => s.carryOn t search fun _ => false
        | none => s
      let (s, exchange) := s.after (Host.exchange p.cache ((s.host.settle t).answer t))
      (s.letGo t, exchange)
  | none, none => s.after (s.host.refused c .notPending)

end Session
end BlockCache
