import BlockCache.Cache.Basic

/-!
# Finding or making room for a block

A lookup prefers a slot that has the block, then the slot of the home bucket that was let go first, and then
the first such slot that another bucket has. The visits to the other buckets are steps of their own: to reach
a bucket behind the home bucket the home bucket is left for a moment, so it is looked at again.
-/

namespace BlockCache

inductive Found
  | hit (slot : Nat)
  | evicted (slot : Nat) (old : Option Key)
  | stolen (slot bucket : Nat)
deriving DecidableEq

namespace Found

def slot : Found → Nat
  | hit slot => slot
  | evicted slot _ => slot
  | stolen slot _ => slot

def events (key : Key) : Found → List Event
  | hit slot => [.hit key slot]
  | evicted slot none => [.miss key slot]
  | evicted slot (some old) => [.evicting old slot key, .miss key slot]
  | stolen slot bucket => [.miss key slot, .stealing slot bucket key]

end Found

namespace Cache

def takeResident (home : Nat) (key : Key) : Update Cache (Option Found) := do
  match ← onTable (Table.find home key) with
  | none => return none
  | some i =>
    let before ← onTable (Table.take i)
    if before = 0 then onTable (Table.withdraw home i)
    count fun n => { n with hits := n.hits + 1 }
    return some (.hit i)

def occupy (home i : Nat) (key : Key) : Update Cache Unit := do
  let s ← onTable (Table.slot i)
  if s.refcount ≠ 0 then throw (.stop (.referenced i s.refcount))
  if s.data.isLocked then throw .lockedSlot
  onTable (Table.occupy i key)
  onTable (Table.chain home i)
  count fun n => { n with misses := n.misses + 1 }

def recycle (home : Nat) (key : Key) : Update Cache (Option Found) := do
  match ← onTable (Table.takeOldest home) with
  | none => return none
  | some i =>
    let s ← onTable (Table.slot i)
    if s.assigned then onTable (Table.unchain home i)
    occupy home i key
    count fun n => { n with evictions := n.evictions + 1 }
    return some (.evicted i (if s.assigned then some s.key else none))

def atHome (home : Nat) (key : Key) : Update Cache (Option Found) := do
  match ← takeResident home key with
  | some found => return some found
  | none => recycle home key

def steal (home : Nat) (key : Key) (j : Nat) : Update Cache (Option Found) := do
  match ← onTable (Table.takeOldest j) with
  | none => return none
  | some i =>
    let s ← onTable (Table.slot i)
    if s.assigned then
      let origin := (← get).home s.key
      if origin ≠ j then throw (.strayed origin j)
      onTable (Table.unchain j i)
    occupy home i key
    count fun n => { n with steals := n.steals + 1 }
    return some (.stolen i j)

/-- One visit of the scan. The home bucket is kept while a bucket before it is visited, and is looked at again
when it had to be left to reach one behind it. -/
def visit (home : Nat) (key : Key) (j : Nat) : Update Cache (Option Found) := do
  if j < home then steal home key j
  else
    match ← atHome home key with
    | some found => return some found
    | none => steal home key j

def scan (home : Nat) (key : Key) : List Nat → Update Cache (Option Found)
  | [] => return none
  | j :: rest => do
    match ← visit home key j with
    | some found => return some found
    | none => scan home key rest

def others (c : Cache) (home : Nat) : List Nat :=
  (List.range c.buckets).filter (· ≠ home)

def lookup (key : Key) : Update Cache (Option Found) := do
  let c ← get
  match ← atHome (c.home key) key with
  | some found => return some found
  | none => scan (c.home key) key (c.others (c.home key))

end Cache
end BlockCache
