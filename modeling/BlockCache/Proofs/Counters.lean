import BlockCache.Device.RamDisk
import BlockCache.Proofs.Host.Deeds
import BlockCache.Proofs.Host.Referenced

/-!
# What the counters count

The counters of a cache are the numbers of its deeds. A block is read from the device only while its slot is not valid,
and a slot stays valid until it is given to another block: `deeds_counted`.
-/

namespace BlockCache

namespace Deed

def isFound : Deed → Bool
  | found .. => true
  | _ => false

def isLoaded : Deed → Bool
  | loaded .. => true
  | _ => false

def isStored : Deed → Bool
  | stored .. => true
  | _ => false

def key : Deed → Key
  | found key _ | loaded key _ | stored key _ => key

def slot : Deed → Nat
  | found _ slot => slot.slot
  | loaded _ i | stored _ i => i

def reassigns (i : Nat) : Deed → Bool
  | found _ (.evicted j _) | found _ (.stolen j _) => j = i
  | _ => false

def loads (key : Key) : Deed → Bool
  | loaded key' _ => key' = key
  | _ => false

end Deed

def Slot.isUnread (s : Slot) : Bool := s.assigned && !s.valid

namespace Cache

def unread (c : Cache) : Nat := c.table.slots.toList.countP Slot.isUnread

structure Tallied (c : Cache) (deeds : List Deed) : Prop where
  misses : c.usage.misses = c.usage.evictions + c.usage.steals
  lookups : c.usage.hits + c.usage.misses = deeds.countP Deed.isFound
  reads : c.usage.reads = deeds.countP Deed.isLoaded
  writes : c.usage.writes = deeds.countP Deed.isStored
  unread : c.usage.reads + c.unread ≤ c.usage.misses

/-- A slot that a deed was done to stands for the block of the deed until it is reassigned, and is valid if it was read
or written. A block that is read in the meantime has been found there and was not read or written. -/
structure Resides (c : Cache) (deeds : List Deed) : Prop where
  stays : ∀ before d after, deeds = before ++ d :: after → (∀ e ∈ after, e.reassigns d.slot = false) →
    ∃ s, c.table.slots[d.slot]? = some s ∧ s.assigned = true ∧ s.key = d.key ∧ (d.isFound = false → s.valid = true)
  loads : ∀ before d mid key i after, deeds = before ++ d :: (mid ++ .loaded key i :: after) →
    (∀ e ∈ mid, e.reassigns d.slot = false) → (d.key = key ↔ d.slot = i) ∧ (d.slot = i → d.isFound = true)

variable {c c' : Cache} {move : Move} {deed : Option Deed} {deeds : List Deed} {i : Nat} {s : Slot}

/-! ## Counts -/

theorem countP_modify {α : Type} {xs : List α} {i : Nat} {a : α} (here : xs[i]? = some a) (f : α → α) (p : α → Bool) :
    (xs.modify i f).countP p + (if p a then 1 else 0) = xs.countP p + if p (f a) then 1 else 0 := by
  obtain ⟨inside, rfl⟩ := List.getElem?_eq_some_iff.mp here
  have split := congrArg (List.countP p) (List.take_append_drop i xs)
  rw [List.drop_eq_getElem_cons inside] at split
  simp only [List.modify_eq_take_cons_drop inside, List.countP_append, List.countP_cons] at split ⊢
  omega

theorem Moved.unread (moved : c.Moved move c') (here : c.table.slots[move.slot]? = some s) :
    c'.unread + (if s.isUnread then 1 else 0) = c.unread + if (move.change s).isUnread then 1 else 0 := by
  rw [Cache.unread, Cache.unread, moved.slots_eq, Array.toList_modify]
  exact countP_modify (by simpa using here) _ _

theorem Moves.unread_eq {moves : List Move} (moved : c.Moves moves c') (idle : ∀ move ∈ moves, move.isIdle = true) :
    c'.unread = c.unread := by
  induction moved with
  | nil => rfl
  | @cons c c₁ c' move moves moved rest ih =>
      obtain ⟨s, here, -⟩ := moved.allowed
      have count := moved.unread here
      have still := idle move (.head _)
      rw [ih fun move member => idle move (.tail _ member)]
      cases move with
      | hit | assign | load | keep => cases still
      | _ => exact Nat.add_right_cancel count

theorem Moved.assigned_of_locked (moved : c.Moved move c') (sound : c.table.Sound)
    (here : c.table.slots[move.slot]? = some s) (locks : c.table.layout.Ready s move → s.data.isLocked = true) :
    s.assigned = true := by
  obtain ⟨s', here', ready⟩ := moved.allowed
  obtain rfl := Option.some.inj (here.symm.trans here')
  exact sound.consistent.assigned_of_referenced here (sound.consistent.referenced_of_locked here (locks ready))

theorem Does.tallied (does : c.Does deed c') (sound : c.table.Sound) (tallied : c.Tallied deeds) :
    c'.Tallied (deeds ++ deed.toList) := by
  obtain ⟨misses, lookups, reads, writes, unread⟩ := tallied
  cases does with
  | idle idle moved =>
      have usage := moved.usage_eq idle
      have same := moved.unread_eq idle
      rw [Option.toList_none, List.append_nil]
      exact ⟨usage ▸ misses, usage ▸ lookups, usage ▸ reads, usage ▸ writes, by rw [usage, same]; exact unread⟩
  | @found key slot c' gains =>
      obtain ⟨s, here, -⟩ := gains.moved.allowed
      have count := gains.moved.unread here
      have usage := gains.moved.usage
      cases slot with
      | hit i =>
          have same : c'.unread = c.unread := Nat.add_right_cancel count
          constructor <;> simp [usage, same, Found.move, Move.count, Deed.isFound, Deed.isLoaded, Deed.isStored] <;> omega
      | evicted i old | stolen i j =>
          -- A slot that was unread before may be given to another block, so that there is one more at most.
          have more : c'.unread ≤ c.unread + 1 := by
            split at count <;> simp [Found.move, Move.change, Slot.occupy, Slot.isUnread] at count <;> omega
          constructor <;> simp [usage, Found.move, Move.count, Deed.isFound, Deed.isLoaded, Deed.isStored] <;> omega
  | @loaded i s bytes c' here invalid moved =>
      have count := moved.unread here
      have usage := moved.usage
      have assigned := moved.assigned_of_locked sound here id
      have before : s.isUnread = true := by simp [Slot.isUnread, assigned, invalid]
      have after : ((Move.load i bytes).change s).isUnread = false := by simp [Slot.isUnread, Move.change, Slot.validate]
      simp only [before, after, if_true, Bool.false_eq_true, if_false] at count
      constructor <;> simp [usage, Move.count, Deed.isFound, Deed.isLoaded, Deed.isStored] <;> omega
  | @stored i s c' here moved =>
      have count := moved.unread here
      have usage := moved.usage
      have after : ((Move.keep i).change s).isUnread = false := by simp [Slot.isUnread, Move.change, Slot.validate]
      simp only [after, Bool.false_eq_true, if_false] at count
      constructor <;> simp [usage, Move.count, Deed.isFound, Deed.isLoaded, Deed.isStored] <;> omega

/-! ## Residence -/

theorem Does.remains (does : c.Does deed c') (sound : c.table.Sound) (here : c.table.slots[i]? = some s)
    (spared : ∀ d ∈ deed, d.reassigns i = false) : ∃ s', c'.table.slots[i]? = some s' ∧ s.Remains s' := by
  cases does with
  | @found key slot c' gains =>
      have moved := gains.moved
      by_cases same : i = (slot.move key).slot
      · subst same
        refine ⟨_, moved.same here, ?_⟩
        cases slot with
        | hit i => exact ⟨rfl, id, id⟩
        | evicted i old | stolen i j => simp [Deed.reassigns, Found.move, Move.slot] at spared
      · exact ⟨s, (moved.other same).trans here, .rfl⟩
  | loaded _ _ moved => exact moved.remains sound here (by simp [Move.seeks])
  | stored _ moved => exact moved.remains sound here (by simp [Move.seeks])
  | idle idle moved => exact (moved.settles idle).remains sound here

theorem Does.stands {d : Deed} (does : c.Does (some d) c') (sound : c.table.Sound) :
    ∃ s, c'.table.slots[d.slot]? = some s ∧ s.assigned = true ∧ s.key = d.key ∧
      (d.isFound = false → s.valid = true) := by
  cases does with
  | @found key slot c' gains =>
      obtain ⟨s, here, assigned, same⟩ := gains.has
      exact ⟨s, here, assigned, same, nofun⟩
  | @loaded i s bytes c' here invalid moved =>
      have assigned := moved.assigned_of_locked sound here id
      exact ⟨_, moved.same here, assigned, rfl, fun _ => rfl⟩
  | @stored i s c' here moved =>
      have assigned := moved.assigned_of_locked sound here id
      exact ⟨_, moved.same here, assigned, rfl, fun _ => rfl⟩

theorem toList_eq_split {d : Deed} {front after : List Deed} (split : deed.toList = front ++ d :: after) :
    deed = some d ∧ front = [] ∧ after = [] := by
  cases deed with
  | none => simp at split
  | some e =>
      obtain ⟨first, rfl, last⟩ : front = [] ∧ e = d ∧ after = [] := by
        cases front <;> simp_all [Option.toList]
      exact ⟨rfl, first, last⟩

theorem Does.resides (does : c.Does deed c') (sound : c.table.Sound) (resides : c.Resides deeds) :
    c'.Resides (deeds ++ deed.toList) where
  stays before d after whole spared := by
    rcases append_eq_split whole with ⟨rest, rfl, split⟩ | ⟨front, -, last⟩
    · obtain ⟨s, here, assigned, key, valid⟩ := resides.stays before d rest split fun e member =>
        spared e (List.mem_append_left _ member)
      obtain ⟨s', after, remains⟩ := does.remains sound here fun e did =>
        spared e (List.mem_append_right _ (Option.mem_toList.mpr did))
      exact ⟨s', after, remains.assigned assigned, remains.key.trans key, fun read => remains.valid (valid read)⟩
    · obtain ⟨rfl, rfl, rfl⟩ := toList_eq_split last
      exact does.stands sound
  loads before d mid key i after whole spared := by
    rw [← List.cons_append, ← List.append_assoc] at whole
    rcases append_eq_split whole with ⟨rest, rfl, split⟩ | ⟨front, before', last⟩
    · rw [List.append_assoc, List.cons_append] at split
      exact resides.loads before d mid key i rest split spared
    · obtain ⟨rfl, rfl, rfl⟩ := toList_eq_split last
      rw [List.append_nil] at before'
      obtain ⟨s, here, assigned, key', valid⟩ := resides.stays before d mid before'.symm spared
      -- The slot that is read is not valid, so that no deed but a lookup was done to it.
      cases does with
      | @loaded i s₁ bytes c' here₁ invalid moved =>
          have assigned₁ := moved.assigned_of_locked sound here₁ id
          refine ⟨⟨fun same => ?_, fun same => ?_⟩, fun same => ?_⟩
          · exact sound.consistent.distinct here here₁ assigned assigned₁ (key'.trans same)
          · subst same
            obtain rfl := Option.some.inj (here.symm.trans here₁)
            exact key'.symm
          · subst same
            obtain rfl := Option.some.inj (here.symm.trans here₁)
            cases kind : d.isFound with
            | true => rfl
            | false => cases (valid kind).symm.trans invalid

theorem fresh_tallied (config : Config) : (fresh config).Tallied [] := by
  have unread : (fresh config).unread = 0 := by
    apply List.countP_eq_zero.mpr
    intro s member
    obtain ⟨i, here⟩ := List.getElem?_of_mem member
    obtain rfl := slot_of_fresh (Array.getElem?_toList ▸ here)
    simp [Slot.isUnread, Slot.fresh]
  exact ⟨rfl, rfl, rfl, rfl, Nat.le_of_eq ((Nat.zero_add _).trans unread)⟩

theorem Resides.start (c : Cache) : c.Resides [] := ⟨by simp, by simp⟩

/-! ## Blocks that stay -/

variable {before mid after : List Deed} {d : Deed} {key : Key}

theorem Deed.eq_of_loads (loads : d.loads key = true) : ∃ i, d = .loaded key i := by
  cases d with
  | loaded key' i =>
      obtain rfl : key' = key := of_decide_eq_true loads
      exact ⟨i, rfl⟩
  | _ => cases loads

theorem Resides.reassigned (resides : c.Resides deeds) {i j : Nat}
    (split : deeds = before ++ .loaded key i :: (mid ++ .loaded key j :: after)) : ∃ d ∈ mid, d.reassigns i = true := by
  by_cases given : ∃ d ∈ mid, d.reassigns i = true
  · exact given
  · have spared : ∀ e ∈ mid, e.reassigns i = false := by simpa using given
    obtain ⟨same, looked⟩ := resides.loads before _ mid key j after split spared
    cases looked (same.mp rfl)

theorem exists_two {α : Type} {p : α → Bool} {xs : List α} (two : 1 < xs.countP p) :
    ∃ before x mid y after, xs = before ++ x :: (mid ++ y :: after) ∧ p x = true ∧ p y = true := by
  induction xs with
  | nil => simp at two
  | cons x xs ih =>
      by_cases first : p x = true
      · rw [List.countP_cons_of_pos first] at two
        obtain ⟨y, member, second⟩ := List.countP_pos_iff.mp (Nat.lt_of_succ_lt_succ two)
        obtain ⟨mid, after, rfl⟩ := List.append_of_mem member
        exact ⟨[], x, mid, y, after, rfl, first, second⟩
      · rw [List.countP_cons_of_neg first] at two
        obtain ⟨before, a, mid, b, after, rfl, both⟩ := ih two
        exact ⟨x :: before, a, mid, b, after, rfl, both⟩

theorem Resides.loaded_once (resides : c.Resides deeds) (split : deeds = before ++ d :: (mid ++ after))
    (spared : ∀ e ∈ mid, e.reassigns d.slot = false) : (d :: mid).countP (·.loads d.key) ≤ 1 := by
  apply Nat.le_of_not_lt
  intro twice
  obtain ⟨first, x, between, y, last, two, loads, again⟩ := exists_two twice
  obtain ⟨i, rfl⟩ := Deed.eq_of_loads loads
  obtain ⟨j, rfl⟩ := Deed.eq_of_loads again
  have whole : deeds = (before ++ first) ++ .loaded d.key i :: (between ++ .loaded d.key j :: (last ++ after)) := by
    rw [split, ← List.cons_append, two]
    simp
  -- The first of two readings was of the slot that the block is in.
  have here : d.slot = i ∧ ∀ e ∈ between, e ∈ mid := by
    cases first with
    | nil =>
        obtain ⟨same, rest⟩ := List.cons.inj two
        exact ⟨congrArg Deed.slot same, fun e member => by simp [rest, member]⟩
    | cons e first =>
        obtain ⟨rfl, rest⟩ := List.cons.inj two
        refine ⟨?_, fun e member => by simp [rest, member]⟩
        refine (resides.loads before d first d.key i (between ++ .loaded d.key j :: (last ++ after)) ?_ ?_).1.mp rfl
        · rw [whole]
          simp
        · exact fun e member => spared e (by simp [rest, member])
  have still : ∀ e ∈ between, e.reassigns i = false := fun e member => here.1 ▸ spared e (here.2 e member)
  obtain ⟨same, looked⟩ := resides.loads (before ++ first) _ between d.key j (last ++ after) whole still
  cases looked (same.mp rfl)

end Cache
open Cache

/-- After any steps of any threads the counters of a cache are the numbers of its deeds. Between two readings of a
block its slot is reassigned, so that a block that stays in its slot is read once at most. A reading or a writing is a
transfer that the device has done, and no step makes a device do any but the one that is listed for it. -/
theorem deeds_counted {δ : Type} [BlockDevice δ] (devices : List δ) (plans : List (Nat × Plan)) (steps : List Step)
    {c : Nat} {m : Mount} (there : ((Host.assemble devices plans).walk steps).mount? c = some m) :
    let host := Host.assemble devices plans
    let deeds := host.deeds c steps
    let usage := m.cache.usage
    (∀ entry ∈ host.trail steps, (entry.1.advance entry.2).host.devices = entry.1.devicesAfter entry.2) ∧
      usage.misses = usage.evictions + usage.steals ∧ usage.hits + usage.misses = deeds.countP Deed.isFound ∧
      usage.reads = deeds.countP Deed.isLoaded ∧ usage.writes = deeds.countP Deed.isStored ∧
      usage.reads + m.cache.unread ≤ usage.misses ∧
      (∀ before key i mid j after, deeds = before ++ .loaded key i :: (mid ++ .loaded key j :: after) →
        ∃ d ∈ mid, d.reassigns i = true) ∧
      ∀ before d mid after, deeds = before ++ d :: (mid ++ after) → (∀ e ∈ mid, e.reassigns d.slot = false) →
        (d :: mid).countP (·.loads d.key) ≤ 1 := by
  intro host deeds usage
  have kept : m.cache.Tallied deeds ∧ m.cache.Resides deeds := by
    refine Host.Sound.walk_deeds (P := fun m deeds => m.cache.Tallied deeds ∧ m.cache.Resides deeds) ?_
      (Host.assemble_sound devices plans) ?_ steps there
    · intro m m' told deed before sound kept _ does _
      exact ⟨does.tallied sound kept.1, does.resides sound kept.2⟩
    · intro m there
      obtain ⟨config, fresh, -⟩ := Host.assemble_fresh there
      exact ⟨fresh ▸ fresh_tallied config, .start _⟩
  obtain ⟨tallied, resides⟩ := kept
  refine ⟨fun entry member => ?_, tallied.misses, tallied.lookups, tallied.reads, tallied.writes, tallied.unread, ?_, ?_⟩
  · obtain ⟨before, after, -, same⟩ := Host.mem_trail.mp member
    obtain ⟨pins, sound⟩ := Host.walk_sound devices plans before
    exact same ▸ sound.advance_devices entry.2
  · exact fun before key i mid j after split => resides.reassigned split
  · exact fun before d mid after split spared => resides.loaded_once split spared

theorem deeds_counted_of_shared_block :
    let host := Host.assemble [RamDisk.empty 4 none] [(0, ⟨2, 1, 4, .stop⟩)]
    let steps : List Step := [.act (.start 0 "a" 0 ⟨⟨0, 3⟩, .block, true⟩), .act (.turn 0), .act (.turn 0),
      .act (.start 1 "b" 0 ⟨⟨0, 3⟩, .block, true⟩), .probe 1 0, .act (.turn 0), .act (.answer 0),
      .act (.finish 0 "a" .dropped), .act (.turn 1), .act (.turn 1), .act (.answer 1)]
    ∃ m, (host.walk steps).mount? 0 = some m ∧
      host.deeds 0 steps = [.found ⟨0, 3⟩ (.evicted 0 none), .found ⟨0, 3⟩ (.hit 0), .loaded ⟨0, 3⟩ 0] ∧
      m.cache.usage.reads = 1 ∧ m.cache.usage.hits + m.cache.usage.misses = 2 := by
  intro host steps
  have mounted : ((host.walk steps).mount? 0).isSome = true := by decide +kernel
  have did : host.deeds 0 steps = [.found ⟨0, 3⟩ (.evicted 0 none), .found ⟨0, 3⟩ (.hit 0), .loaded ⟨0, 3⟩ 0] := by
    decide +kernel
  obtain ⟨m, there⟩ := Option.isSome_iff_exists.mp mounted
  obtain ⟨-, -, lookups, reads, -⟩ := deeds_counted [RamDisk.empty 4 none] [(0, ⟨2, 1, 4, .stop⟩)] steps there
  refine ⟨m, there, did, reads.trans ?_, lookups.trans ?_⟩
  · exact congrArg (List.countP Deed.isLoaded) did
  · exact congrArg (List.countP Deed.isFound) did

end BlockCache
