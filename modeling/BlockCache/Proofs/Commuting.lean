import BlockCache.Device.RamDisk
import BlockCache.Proofs.Host.Alone
import BlockCache.Proofs.Host.Runs
import BlockCache.Proofs.Layout.Effects

/-!
# Operations in different buckets

A call that gets a lease at once, and the end of a lease, have to do with the slots of one home bucket only. Two of them
with different home buckets may come in either order: `errands_commute`. Each comes to the same, and leaves the same
cache.
-/

namespace BlockCache

inductive Errand
  | lease (thread : Thread) (key : Key) (patience : Patience)
  | drop (slot : Nat)
  | release (thread : Thread) (slot : Nat)

namespace Errand

inductive Answer
  | leased (stage : Stage)
  | ended (failure : Option Failure)
deriving DecidableEq

/-- An operation of which no part is left to later. A lease is had without reading the block. -/
def perform {δ : Type} [BlockDevice δ] (cancelled : Token → Bool) (c : Cache) (d : δ) : Errand → Turn δ Answer
  | lease t key patience =>
      let turn := Call.turns ⟨key, patience, false⟩ t cancelled 4 .looking c d
      { turn with result := .leased turn.result }
  | drop i =>
      let turn := Turn.ofUpdate (Cache.endLease i) c d
      { turn with result := .ended turn.result }
  | release t i =>
      let checked := Turn.ofUpdate (Cache.authorize .release t i) c d
      let turn := Turn.ofUpdate (Cache.endLease i) checked.cache checked.device
      { turn with events := checked.events ++ turn.events, result := .ended (checked.result <|> turn.result) }

/-- The operation is about the block, and can be done at once: it ends a lease on it, or asks for one when its slot is
not locked, or when it has none but its home bucket has a free slot. -/
def Ready (c : Cache) (key : Key) : Errand → Prop
  | lease _ wanted _ =>
      wanted = key ∧
        ((∃ (i : Nat) (s : Slot), c.table.slots[i]? = some s ∧ s.assigned = true ∧ s.key = key ∧ s.data.isLocked = false) ∨
          c.table.layout.Absent key ∧ c.table.rings.forward (c.home key) ≠ [])
  | drop i => ∃ s, c.table.slots[i]? = some s ∧ s.key = key ∧ s.data.isLocked = true
  | release t i => ∃ s, c.table.slots[i]? = some s ∧ s.key = key ∧ s.data.holder = some t

/-- The slot that the answer is about has the block, and its lock is the caller's, or nobody's after the lease. -/
def Served (c : Cache) (key : Key) : Errand → Answer → Prop
  | lease t _ _, .leased (.granted i) =>
      ∃ s, c.table.slots[i]? = some s ∧ s.assigned = true ∧ s.key = key ∧ s.data.holder = some t
  | drop i, .ended none | release _ i, .ended none =>
      ∃ s, c.table.slots[i]? = some s ∧ s.key = key ∧ s.data.holder = none
  | _, _ => False

structure Upshot extends Effect where
  frees : Bool
  hits : Nat
  evictions : Nat
  events : List Event
  answer : Answer

namespace Upshot

def hit (key : Key) (i : Nat) (t : Thread) : Upshot where
  slot := i
  change s := { s.take with data := s.data.grant t }
  chain := .keep
  ring := .out
  frees := false
  hits := 1
  evictions := 0
  events := Found.events key (.hit i)
  answer := .leased (.granted i)

def evicted (home : Nat) (key : Key) (old : Option Key) (i : Nat) (t : Thread) : Upshot where
  slot := i
  change s := { s.occupy key with data := s.data.grant t }
  chain := .first home
  ring := .out
  frees := false
  hits := 0
  evictions := 1
  events := Found.events key (.evicted i old)
  answer := .leased (.granted i)

def ended (home i : Nat) (last : Bool) : Upshot where
  slot := i
  change s := { s with data := s.data.unlock }.give
  chain := .keep
  ring := if last then .last home else .keep
  frees := last
  hits := 0
  evictions := 0
  events := []
  answer := .ended none

def count (u : Upshot) (n : Usage) : Usage :=
  { n with hits := n.hits + u.hits, misses := n.misses + u.evictions, evictions := n.evictions + u.evictions }

end Upshot

inductive Comes (L : Layout) (key : Key) : Errand → Upshot → Prop
  | hit {t : Thread} {patience : Patience} {i : Nat} {s : Slot} (here : L.slots[i]? = some s)
      (assigned : s.assigned = true) (mine : s.key = key) (unlocked : s.data.holder = none) :
      Comes L key (.lease t key patience) (.hit key i t)
  | evicted {t : Thread} {patience : Patience} {i : Nat} {s : Slot} {rest : List Nat} (absent : L.Absent key)
      (oldest : L.ring (L.home key) = i :: rest) (here : L.slots[i]? = some s) :
      Comes L key (.lease t key patience)
        (.evicted (L.home key) key (if s.assigned then some s.key else none) i t)
  | dropped {i : Nat} {s : Slot} (here : L.slots[i]? = some s) (mine : s.key = key)
      (locked : s.data.isLocked = true) :
      Comes L key (.drop i) (.ended (L.home key) i (s.refcount = 1))
  | released {t : Thread} {i : Nat} {s : Slot} (here : L.slots[i]? = some s) (mine : s.key = key)
      (holder : s.data.holder = some t) :
      Comes L key (.release t i) (.ended (L.home key) i (s.refcount = 1))

end Errand

open Errand

structure Cache.Undergoes (c : Cache) (u : Upshot) (c' : Cache) : Prop where
  shows : c'.table.Shows (c.table.layout.under u.toEffect)
  blockSize : c'.blockSize = c.blockSize
  exhaustion : c'.exhaustion = c.exhaustion
  freed : c'.freed = c.freed + if c.exhaustion = .wait ∧ u.frees then 1 else 0
  usage : c'.usage = u.count c.usage

namespace Errand

section
variable {L : Layout} {key : Key} {errand : Errand} {u : Upshot} {e : Effect} {home : Nat}

theorem Comes.within (comes : errand.Comes L key u) (consistent : L.Consistent) :
    L.Within u.toEffect (L.home key) := by
  have leased {i : Nat} {s : Slot} (here : L.slots[i]? = some s) (mine : s.key = key)
      (locked : s.data.isLocked = true) : L.Within (Upshot.ended (L.home key) i (s.refcount = 1)).toEffect (L.home key) := by
    have assigned := consistent.assigned_of_referenced here (consistent.referenced_of_locked here locked)
    refine ⟨⟨s, here, by simp [Layout.bucketOf, assigned, mine], congrArg L.home mine⟩, trivial, ?_⟩
    by_cases last : s.refcount = 1 <;> simp [Upshot.ended, last, Relisting.Into]
  cases comes with
  | hit here assigned mine unlocked =>
      exact ⟨⟨_, here, by simp [Layout.bucketOf, assigned, mine], congrArg L.home mine⟩, trivial, trivial⟩
  | evicted absent oldest here =>
      obtain ⟨-, bucket⟩ := (consistent.ringed here _).mp (oldest ▸ List.mem_cons_self)
      exact ⟨⟨_, here, bucket.symm, rfl⟩, rfl, trivial⟩
  | dropped here mine locked => exact leased here mine locked
  | released here mine holder => exact leased here mine ((consistent.proper here).agrees.locked_of_holder holder)

theorem Comes.after (comes : errand.Comes L key u) (consistent : L.Consistent) (within : L.Within e home)
    (homes : L.home key ≠ home) : errand.Comes (L.under e) key u := by
  have apart := (comes.within consistent).apart within homes
  have same {s : Slot} (here : L.slots[u.slot]? = some s) : (L.under e).slots[u.slot]? = some s :=
    (Layout.change_other apart e.change).trans here
  cases comes with
  | hit here assigned mine unlocked => exact .hit (same here) assigned mine unlocked
  | evicted absent oldest here =>
      exact .evicted (L := L.under e) (within.absent absent homes) ((within.ring_eq consistent homes).trans oldest)
        (same here)
  | dropped here mine locked => exact .dropped (L := L.under e) (same here) mine locked
  | released here mine holder => exact .released (L := L.under e) (same here) mine holder

end

section
variable {δ : Type} [BlockDevice δ] {c c₁ c₂ c' : Cache} {d : δ} {key : Key} {errand : Errand} {u : Upshot}
  {cancelled : Token → Bool} {t : Thread} {patience : Patience} {i : Nat} {s : Slot} {found : Found} {move : Move}

/-! ## One operation -/

theorem lease_granted (sound : c.table.Sound) (looked : Cache.lookup key c = .ok (some found) c₁)
    (moved : c.Moved (found.move key) c₁) (here : c₁.table.slots[found.slot]? = some s) (referenced : s.refcount ≠ 0)
    (unlocked : s.data.holder = none) (d : δ) :
    ∃ c₂, (lease t key patience).perform cancelled c d =
        ⟨c₂, d, found.events key, .leased (.granted found.slot)⟩ ∧
      c₁.Moved (.grant found.slot t) c₂ := by
  obtain ⟨c₂, granted, taken⟩ := Cache.lock_moved (moved.sound sound) here referenced unlocked t
  have free : s.data.isLocked = false :=
    ((moved.sound sound).consistent.proper here).agrees.isLocked_eq_false_iff.mpr unlocked
  have served : Call.turns ⟨key, patience, false⟩ t cancelled 4 .looking c d =
      ⟨c₂, d, found.events key, .granted found.slot⟩ :=
    Call.turns_served looked here free granted
  exact ⟨c₂, by rw [perform, served], taken⟩

theorem lease_undergoes (moved : c.Moved move c₁) (taken : c₁.Moved (.grant i t) c₂)
    (keeps : c.table.layout.frees move = false) (frees : u.frees = false) (usage : move.count c.usage = u.count c.usage)
    (same : (c.table.layout.after move).change i (fun s => { s with data := s.data.grant t }) =
      c.table.layout.under u.toEffect) : c.Undergoes u c₂ where
  shows := by
    have shows := taken.shows
    rw [moved.shows.layout_eq] at shows
    exact same ▸ shows
  blockSize := taken.blockSize.trans moved.blockSize
  exhaustion := taken.exhaustion.trans moved.exhaustion
  freed := by
    have still : c₂.freed = c₁.freed := by simpa [Layout.frees] using taken.freed
    rw [still, moved.freed]
    simp [keeps, frees]
  usage := by rw [taken.usage, ← usage, ← moved.usage]; rfl

theorem lease_hit (sound : c.table.Sound) (here : c.table.slots[i]? = some s) (assigned : s.assigned = true)
    (mine : s.key = key) (unlocked : s.data.holder = none) (d : δ) :
    ∃ c', (lease t key patience).perform cancelled c d =
        ⟨c', d, (Upshot.hit key i t).events, (Upshot.hit key i t).answer⟩ ∧
      c.Undergoes (.hit key i t) c' ∧ c'.table.Sound := by
  have has : c.table.layout.Has i key := ⟨s, here, assigned, mine⟩
  rcases Cache.lookup_moved sound key with ⟨found, L', change, c₁, finds, looked, moved⟩ | ⟨-, absent, -⟩
  · cases finds with
    | hit has' =>
        obtain rfl := sound.consistent.unique has has'
        have referenced : s.take.refcount ≠ 0 := Nat.succ_ne_zero s.refcount
        obtain ⟨c₂, done, taken⟩ := lease_granted sound looked moved (moved.same here) referenced unlocked d
        have same := c.table.layout.hit_change i fun s => { s with data := s.data.grant t }
        exact ⟨c₂, done, lease_undergoes moved taken rfl rfl rfl same, taken.sound (moved.sound sound)⟩
    | evicted absent | stolen absent => exact absurd has (absent i)
  · exact absurd has (absent i)

theorem lease_evicted (sound : c.table.Sound) (absent : c.table.layout.Absent key) {rest : List Nat}
    (oldest : c.table.layout.ring (c.table.layout.home key) = i :: rest) (here : c.table.slots[i]? = some s) (d : δ) :
    let u := Upshot.evicted (c.table.layout.home key) key (if s.assigned then some s.key else none) i t
    ∃ c', (lease t key patience).perform cancelled c d = ⟨c', d, u.events, u.answer⟩ ∧
      c.Undergoes u c' ∧ c'.table.Sound := by
  intro u
  rcases Cache.lookup_moved sound key with ⟨found, L', change, c₁, finds, looked, moved⟩ | ⟨-, -, empty⟩
  · cases finds with
    | hit has => exact absurd has (absent _)
    | @evicted j rest' s' _ oldest' here' =>
        obtain rfl : i = j := (List.cons_eq_cons.mp (oldest.symm.trans oldest')).1
        obtain rfl : s = s' := Option.some.inj (here.symm.trans here')
        have free := ((sound.consistent.ringed here _).mp (oldest ▸ List.mem_cons_self)).1
        have unlocked : (s.occupy key).data.holder = none := (sound.consistent.proper here).free free
        obtain ⟨c₂, done, taken⟩ := lease_granted sound looked moved (moved.same here) Nat.one_ne_zero unlocked d
        have same := c.table.layout.assign_change i key fun s => { s with data := s.data.grant t }
        exact ⟨c₂, done, lease_undergoes moved taken rfl rfl rfl same, taken.sound (moved.sound sound)⟩
    | stolen absent away before none => cases oldest.symm.trans none
  · cases oldest.symm.trans (empty _)

theorem endLease_undergoes (moved : c.Moved (.finish i) c') (here : c.table.slots[i]? = some s) (mine : s.key = key) :
    c.Undergoes (.ended (c.table.layout.home key) i (s.refcount = 1)) c' where
  shows := by
    have shows := moved.shows
    rw [Layout.after_finish here, mine] at shows
    simpa [Upshot.ended] using shows
  blockSize := moved.blockSize
  exhaustion := moved.exhaustion
  freed := by
    have same : c.table.layout.slots[i]? = some s := here
    simpa [Layout.frees, same, Upshot.ended] using moved.freed
  usage := moved.usage

theorem Comes.perform (comes : errand.Comes c.table.layout key u) (sound : c.table.Sound) (cancelled : Token → Bool)
    (d : δ) :
    ∃ c', errand.perform cancelled c d = ⟨c', d, u.events, u.answer⟩ ∧ c.Undergoes u c' ∧ c'.table.Sound := by
  cases comes with
  | hit here assigned mine unlocked => exact lease_hit sound here assigned mine unlocked d
  | evicted absent oldest here => exact lease_evicted sound absent oldest here d
  | dropped here mine locked =>
      obtain ⟨c', ended, moved⟩ := Cache.endLease_moved sound here locked
      refine ⟨c', ?_, endLease_undergoes moved here mine, moved.sound sound⟩
      rw [Errand.perform, Turn.ofUpdate_ok ended]
      rfl
  | @released t i s here mine holder =>
      obtain ⟨c', ended, moved⟩ := Cache.endLease_moved sound here (Cache.locked_of_holder sound here holder)
      have checked := (Cache.authorize_eq sound here .release t).trans (if_pos holder)
      refine ⟨c', ?_, endLease_undergoes moved here mine, moved.sound sound⟩
      rw [Errand.perform, Turn.ofUpdate_ok checked, Turn.ofUpdate_ok ended]
      rfl

theorem Comes.served (comes : errand.Comes c.table.layout key u) (undergoes : c.Undergoes u c') :
    errand.Served c' key u.answer := by
  have after {s : Slot} (here : c.table.slots[u.slot]? = some s) : c'.table.slots[u.slot]? = some (u.change s) := by
    rw [undergoes.shows.slots]
    exact Layout.change_same (L := c.table.layout) here u.change
  cases comes with
  | hit here assigned mine unlocked => exact ⟨_, after here, assigned, mine, rfl⟩
  | evicted absent oldest here => exact ⟨_, after here, rfl, rfl, rfl⟩
  | dropped here mine locked => exact ⟨_, after here, mine, rfl⟩
  | released here mine holder => exact ⟨_, after here, mine, rfl⟩

theorem Ready.comes (ready : errand.Ready c key) (sound : c.table.Sound) :
    ∃ u, errand.Comes c.table.layout key u := by
  cases errand with
  | lease t wanted patience =>
      obtain ⟨rfl, ⟨i, s, here, assigned, mine, unlocked⟩ | ⟨absent, free⟩⟩ := ready
      · exact ⟨_, .hit here assigned mine ((sound.consistent.proper here).agrees.isLocked_eq_false_iff.mp unlocked)⟩
      · obtain ⟨i, rest, oldest⟩ := List.exists_cons_of_ne_nil free
        obtain ⟨s, here⟩ := Cache.oldest_here sound oldest
        exact ⟨_, .evicted absent oldest here⟩
  | drop i =>
      obtain ⟨s, here, mine, locked⟩ := ready
      exact ⟨_, .dropped here mine locked⟩
  | release t i =>
      obtain ⟨s, here, mine, holder⟩ := ready
      exact ⟨_, .released here mine holder⟩

end
end Errand

/-! ## Two operations -/

theorem Cache.Undergoes.comm {c c₁ c₂ c₁₂ c₂₁ : Cache} {u u' : Upshot} {home home' : Nat}
    (first : c.Undergoes u c₁) (second : c₁.Undergoes u' c₁₂) (first' : c.Undergoes u' c₂)
    (second' : c₂.Undergoes u c₂₁) (within : c.table.layout.Within u.toEffect home)
    (within' : c.table.layout.Within u'.toEffect home') (homes : home ≠ home') : c₁₂ = c₂₁ := by
  -- The effects on the layout commute, and a table is what its layout says; the rest is a matter of sums.
  refine eq_of_fields ?_ ?_ ?_ ?_ ?_
  · have shows := second.shows
    have shows' := second'.shows
    rw [first.shows.layout_eq, Layout.under_comm within within' homes] at shows
    rw [first'.shows.layout_eq] at shows'
    exact shows.unique shows'
  · rw [second.blockSize, second'.blockSize, first.blockSize, first'.blockSize]
  · rw [second.exhaustion, second'.exhaustion, first.exhaustion, first'.exhaustion]
  · rw [second.freed, second'.freed, first.freed, first'.freed, first.exhaustion, first'.exhaustion]
    exact Nat.add_right_comm _ _ _
  · rw [second.usage, second'.usage, first.usage, first'.usage]
    simp only [Upshot.count, Nat.add_right_comm]

/-- Two operations that can be done at once, on blocks of different home buckets, get the same slots in either order and
leave the same cache. -/
theorem errands_commute {δ : Type} [BlockDevice δ] {c : Cache} (sound : c.table.Sound) {errand errand' : Errand}
    {key key' : Key} (ready : errand.Ready c key) (ready' : errand'.Ready c key') (homes : c.home key ≠ c.home key')
    (cancelled : Token → Bool) (d : δ) :
    let turn := errand.perform cancelled c d
    let turn' := errand'.perform cancelled c d
    ∃ c', c'.table.Sound ∧ errand.Served c' key turn.result ∧ errand'.Served c' key' turn'.result ∧
      errand'.perform cancelled turn.cache turn.device = ⟨c', d, turn'.events, turn'.result⟩ ∧
      errand.perform cancelled turn'.cache turn'.device = ⟨c', d, turn.events, turn.result⟩ := by
  intro turn turn'
  rw [Cache.home_layout sound, Cache.home_layout sound] at homes
  obtain ⟨u, comes⟩ := ready.comes sound
  obtain ⟨u', comes'⟩ := ready'.comes sound
  have within := comes.within sound.consistent
  have within' := comes'.within sound.consistent
  obtain ⟨c₁, done, first, sound₁⟩ := comes.perform sound cancelled d
  obtain ⟨c₂, done', first', sound₂⟩ := comes'.perform sound cancelled d
  -- each operation comes to the same once the other is done, so both orders have the same two effects
  have later : errand.Comes c₂.table.layout key u :=
    first'.shows.layout_eq ▸ comes.after sound.consistent within' homes
  have later' : errand'.Comes c₁.table.layout key' u' :=
    first.shows.layout_eq ▸ comes'.after sound.consistent within homes.symm
  obtain ⟨c₁₂, after, second, sound₁₂⟩ := later'.perform sound₁ cancelled d
  obtain ⟨c₂₁, after', second', -⟩ := later.perform sound₂ cancelled d
  obtain rfl : c₁₂ = c₂₁ := first.comm second first' second' within within' homes
  rw [show turn = _ from done, show turn' = _ from done']
  exact ⟨c₁₂, sound₁₂, later.served second', later'.served second, after, after'⟩

theorem errands_commute_release_and_lease :
    let take (t : Thread) (name : String) (block : UInt32) : List Act :=
      [.start t name 0 ⟨⟨0, block⟩, .block, false⟩, .turn t, .turn t, .answer t]
    let acts := take 0 "a" 0 ++ take 1 "b" 1 ++ [.finish 1 "b" .dropped]
    let disk := RamDisk.empty 4 none
    let release (c : Cache) (d : RamDisk) := (Errand.release 0 0).perform (fun _ => false) c d
    let lease (c : Cache) (d : RamDisk) := (Errand.lease 1 ⟨0, 4⟩ .never).perform (fun _ => false) c d
    ∃ m c', ((Host.assemble [disk] [(0, ⟨3, 3, 4, .wait⟩)]).run acts).mount? 0 = some m ∧
      let released := release m.cache disk
      let leased := lease m.cache disk
      leased.result = .leased (.granted 1) ∧
        lease released.cache released.device = ⟨c', disk, leased.events, leased.result⟩ ∧
        release leased.cache leased.device = ⟨c', disk, released.events, released.result⟩ := by
  intro take acts disk release lease
  obtain ⟨pins, sound⟩ := Host.run_sound [disk] [(0, ⟨3, 3, 4, .wait⟩)] acts
  have facts : (((Host.assemble [disk] [(0, ⟨3, 3, 4, .wait⟩)]).run acts).mount? 0).any (fun m =>
      m.cache.table.slots[0]?.any (fun s => s.key = ⟨0, 0⟩ ∧ s.data.holder = some 0) &&
        m.cache.table.slots.all (fun s => s.key ≠ ⟨0, 4⟩) && m.cache.buckets = 3 &&
        m.cache.table.rings.forward 1 = [1] && (lease m.cache disk).result = .leased (.granted 1)) = true := by
    decide +kernel
  obtain ⟨m, there, facts⟩ := (Option.any_eq_true _ _).mp facts
  simp only [Bool.and_eq_true, decide_eq_true_eq] at facts
  obtain ⟨⟨⟨⟨leased, away⟩, buckets⟩, ring⟩, granted⟩ := facts
  obtain ⟨s, here, fits⟩ := (Option.any_eq_true _ _).mp leased
  have ready : (Errand.release 0 0).Ready m.cache ⟨0, 0⟩ := ⟨s, here, of_decide_eq_true fits⟩
  have absent : m.cache.table.layout.Absent ⟨0, 4⟩ := by
    rintro i ⟨s', there, -, same⟩
    exact of_decide_eq_true (Array.all_eq_true_iff_forall_mem.mp away s' (Array.mem_of_getElem? there)) same
  have home (block : UInt32) : m.cache.home ⟨0, block⟩ = block.toNat % 3 := by rw [Cache.home, buckets]
  have free : m.cache.table.rings.forward (m.cache.home ⟨0, 4⟩) ≠ [] := by simp [home, ring]
  have ready' : (Errand.lease 1 ⟨0, 4⟩ .never).Ready m.cache ⟨0, 4⟩ := ⟨rfl, .inr ⟨absent, free⟩⟩
  obtain ⟨c', -, -, -, after, after'⟩ :=
    errands_commute (sound.tables there) ready ready' (by simp [home]) (fun _ => false) disk
  exact ⟨m, c', there, granted, after, after'⟩

end BlockCache
