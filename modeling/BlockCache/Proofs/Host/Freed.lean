import BlockCache.Proofs.Host.Lookups

/-!
# Slots that become free

A slot is free while nobody refers to it, and only a lookup takes it then. A cache whose callers wait for free slots
counts how many become free, whatever makes them so: `Sound.run_freed`.
-/

namespace BlockCache

namespace Layout

variable {L : Layout} {s : Slot} {move : Move}

theorem Consistent.seeks_of_free (consistent : L.Consistent) (here : L.slots[move.slot]? = some s)
    (ready : L.Ready s move) (free : s.refcount = 0) : move.seeks = true := by
  have unlocked (locked : s.data.isLocked = true) : False := consistent.referenced_of_locked here locked free
  cases move with
  | hit | assign => rfl
  | grant | giveUp => exact absurd free ready.1
  | unpin => exact (unlocked ready.1).elim
  | _ => exact (unlocked ready).elim

def freedIn (L L' : Layout) : List Nat := (List.range L.slots.size).filter fun i => !L.isFree i && L'.isFree i

theorem freedIn_self (L : Layout) : L.freedIn L = [] := by simp [freedIn]

theorem freedIn_of_change {L' : Layout} {i : Nat} {f : Slot → Slot} (here : L.slots[i]? = some s)
    (slots : L'.slots = L.slots.modify i f) :
    L.freedIn L' = if s.refcount ≠ 0 ∧ (f s).refcount = 0 then [i] else [] := by
  have inside : i < L.slots.size := (Array.getElem?_eq_some_iff.mp here).1
  have each (j : Nat) : (!L.isFree j && L'.isFree j) =
      (j = i && decide (s.refcount ≠ 0 ∧ (f s).refcount = 0)) := by
    by_cases same : j = i
    · subst same
      rw [isFree, isFree, slots, change_same here, here]
      simp
    · rw [isFree, isFree, slots, change_other same]
      simp [same]
  rw [freedIn, funext each]
  by_cases drops : s.refcount ≠ 0 ∧ (f s).refcount = 0
  · simp [drops, List.filter_eq, List.count_range, inside]
  · simp [drops]

def newlyFree (L L' : Layout) : Nat := (List.range L.slots.size).countP fun i => !L.isFree i && L'.isFree i

theorem newlyFree_eq_length (L L' : Layout) : L.newlyFree L' = (L.freedIn L').length := List.countP_eq_length_filter

theorem newlyFree_self (L : Layout) : L.newlyFree L = 0 := by simp [newlyFree]

theorem newlyFree_add {L₁ L' : Layout} (size : L₁.slots.size = L.slots.size)
    (first : ∀ i, L.isFree i = true → L₁.isFree i = true) (last : ∀ i, L₁.isFree i = true → L'.isFree i = true) :
    L.newlyFree L' = L.newlyFree L₁ + L₁.newlyFree L' := by
  rw [newlyFree, newlyFree, newlyFree, size]
  induction List.range L.slots.size with
  | nil => rfl
  | cons i is ih =>
      have once {a b c : Bool} (first : a = true → b = true) (last : b = true → c = true) :
          (if (!a && c) = true then 1 else 0) =
            (if (!a && b) = true then 1 else 0) + if (!b && c) = true then 1 else 0 := by
        revert first last
        cases a <;> cases b <;> cases c <;> decide
      rw [List.countP_cons, List.countP_cons, List.countP_cons, ih, once (first i) (last i)]
      omega

theorem isFree_of_newlyFree {L' : Layout} (size : L'.slots.size = L.slots.size) (none : ∀ i, L.isFree i = false)
    (same : L.newlyFree L' = 0) (i : Nat) : L'.isFree i = false := by
  by_cases inside : i < L.slots.size
  · simpa [none i] using List.countP_eq_zero.mp same i (List.mem_range.mpr inside)
  · have outside : L'.slots[i]? = Option.none := Array.getElem?_eq_none (by omega)
    rw [isFree, outside, Option.any_none]

end Layout

namespace Cache

variable {c c' : Cache} {move : Move} {i : Nat} {s : Slot}

theorem Moved.free_slot (moved : c.Moved move c') (sound : c.table.Sound) (here : c.table.slots[i]? = some s)
    (free : s.refcount = 0) :
    c'.table.slots[i]? = some s ∨
      move.seeks = true ∧ ∃ s', c'.table.slots[i]? = some s' ∧ s'.refcount = 1 := by
  by_cases same : i = move.slot
  · subst same
    obtain ⟨s', here', ready⟩ := moved.allowed
    obtain rfl : s = s' := Option.some.inj (here.symm.trans here')
    have seeks := sound.consistent.seeks_of_free here' ready free
    refine .inr ⟨seeks, _, moved.same here, ?_⟩
    cases move with
    | hit i => exact congrArg (· + 1) free
    | assign i key origin => rfl
    | _ => cases seeks
  · exact .inl ((moved.other same).trans here)

theorem Settles.free_slot (settles : c.Settles c') (sound : c.table.Sound) (here : c.table.slots[i]? = some s)
    (free : s.refcount = 0) : c'.table.slots[i]? = some s := by
  obtain ⟨moves, still, moves'⟩ := settles
  induction moves' with
  | nil => exact here
  | cons moved _ ih =>
      obtain ⟨quiet, still⟩ := List.forall_mem_cons.mp still
      rcases moved.free_slot sound here free with kept | ⟨seeks, -⟩
      · exact ih (moved.sound sound) kept still
      · exact absurd (quiet.symm.trans seeks) nofun

theorem Settles.isFree (settles : c.Settles c') (sound : c.table.Sound) (free : c.table.layout.isFree i = true) :
    c'.table.layout.isFree i = true := by
  obtain ⟨s, here, none⟩ := Option.any_eq_true _ _ |>.mp free
  exact Option.any_eq_true _ _ |>.mpr ⟨s, settles.free_slot sound here (of_decide_eq_true none), none⟩

theorem Moved.newlyFree (moved : c.Moved move c') :
    c.table.layout.newlyFree c'.table.layout = if c.table.layout.frees move then 1 else 0 := by
  obtain ⟨s, here, ready⟩ := moved.allowed
  have freed : (s.refcount ≠ 0 ∧ (move.change s).refcount = 0) ↔ c.table.layout.frees move = true := by
    cases move with
    | unpin i =>
        have more : 2 ≤ s.refcount := ready.2.2
        simp [Layout.frees, Move.change, Slot.give]
        omega
    | giveUp i | finish i =>
        have here : c.table.layout.slots[i]? = some s := here
        simp [Layout.frees, Move.change, Slot.give, here]
        omega
    | _ => simp [Layout.frees, Move.change, Slot.take, Slot.occupy, Slot.withBytes, Slot.validate]
  rw [Layout.newlyFree_eq_length, Layout.freedIn_of_change here moved.slots_eq]
  simp only [freed]
  split <;> rfl

theorem Moved.freed_eq (moved : c.Moved move c') (policy : c.exhaustion = .wait) :
    c'.freed = c.freed + c.table.layout.newlyFree c'.table.layout := by
  rw [moved.freed, moved.newlyFree]
  simp [policy]

theorem Settles.freed_eq (settles : c.Settles c') (sound : c.table.Sound) (policy : c.exhaustion = .wait) :
    c'.freed = c.freed + c.table.layout.newlyFree c'.table.layout := by
  obtain ⟨moves, still, moves'⟩ := settles
  induction moves' with
  | nil => simp [Layout.newlyFree_self]
  | @cons c c₁ c' move moves moved rest ih =>
      obtain ⟨quiet, still⟩ := List.forall_mem_cons.mp still
      have sound₁ := moved.sound sound
      have size : c₁.table.layout.slots.size = c.table.layout.slots.size := moved.sameMeasures.capacity
      rw [ih sound₁ (moved.exhaustion.trans policy) still, moved.freed_eq policy, Nat.add_assoc,
        Layout.newlyFree_add (L := c.table.layout) size (fun i => (Settles.one moved quiet).isFree sound)
          fun i => Settles.isFree ⟨moves, still, rest⟩ sound₁]

theorem Sought.freed_eq {key : Key} {found : Option Found} (sought : c.Sought key found c')
    (policy : c.exhaustion = .wait) : c'.freed = c.freed + c.table.layout.newlyFree c'.table.layout := by
  cases sought with
  | found finds moved => exact moved.freed_eq policy
  | nothing => simp [Layout.newlyFree_self]

end Cache

namespace Host

variable {δ : Type} {s : Host δ} {pins : Nat → Nat → Nat} {c i : Nat} {m m' : Mount}

def isFree (s : Host δ) (c i : Nat) : Bool := (s.slot? c i).any fun sl => sl.refcount = 0

theorem isFree_iff : s.isFree c i = true ↔ ∃ sl, s.slot? c i = some sl ∧ sl.refcount = 0 := by
  simp [isFree, Option.any_eq_true]

theorem isFree_eq_layout (there : s.mount? c = some m) (i : Nat) : s.isFree c i = m.cache.table.layout.isFree i := by
  rw [isFree, slot?_eq there]
  rfl

def newlyFree (s s' : Host δ) (c : Nat) : Nat :=
  match s.mount? c, s'.mount? c with
  | some m, some m' => m.cache.table.layout.newlyFree m'.cache.table.layout
  | _, _ => 0

variable [BlockDevice δ]

def freeCount (s : Host δ) (acts : List Act) (c : Nat) : Nat :=
  match acts with
  | [] => 0
  | act :: acts => s.newlyFree (s.perform act).host c + (s.perform act).host.freeCount acts c

omit [BlockDevice δ] in
theorem newlyFree_eq {s' : Host δ} (there : s.mount? c = some m) (after : s'.mount? c = some m') :
    s.newlyFree s' c = m.cache.table.layout.newlyFree m'.cache.table.layout := by
  rw [newlyFree, there, after]

theorem Sound.perform_freed (sound : s.Sound pins) (act : Act) (there : s.mount? c = some m)
    (policy : m.cache.exhaustion = .wait) : ∃ m', (s.perform act).host.mount? c = some m' ∧
      m.cache.SameMeasures m'.cache ∧ m'.cache.freed = m.cache.freed + s.newlyFree (s.perform act).host c ∧
      s.newlyFree (s.perform act).host c = m.cache.table.layout.newlyFree m'.cache.table.layout := by
  have table := sound.tables there
  by_cases looks : ∃ key, act.lookup? s = some (c, key)
  · obtain ⟨key, looks⟩ := looks
    obtain ⟨found, m', after, -, sought, -⟩ := sound.looked there looks
    have same := newlyFree_eq there after
    exact ⟨m', after, sought.sameMeasures, same ▸ sought.freed_eq policy, same⟩
  · obtain ⟨m', after, -, calms⟩ := (sound.perform_did act).rested (fun key same => looks ⟨key, same⟩) m there
    have settles := calms.settles
    have same := newlyFree_eq there after
    exact ⟨m', after, settles.sameMeasures, same ▸ settles.freed_eq table policy, same⟩

theorem Sound.run_freed (sound : s.Sound pins) (acts : List Act) (there : s.mount? c = some m)
    (policy : m.cache.exhaustion = .wait) : ∃ m', (s.run acts).mount? c = some m' ∧
      m'.cache.freed = m.cache.freed + s.freeCount acts c ∧
      ((∀ i, m.cache.table.layout.isFree i = false) → s.freeCount acts c = 0 →
        ∀ i, m'.cache.table.layout.isFree i = false) := by
  induction acts generalizing s pins m with
  | nil => exact ⟨m, there, rfl, fun none _ => none⟩
  | cons act acts ih =>
      obtain ⟨pins₁, sound₁, -⟩ := sound.did (sound.perform_did act)
      obtain ⟨m₁, there₁, measures, first, same⟩ := sound.perform_freed act there policy
      obtain ⟨m', after, last, still⟩ := ih sound₁ there₁ (measures.exhaustion.trans policy)
      rw [freeCount]
      refine ⟨m', after, by omega, fun none quiet => still ?_ (by omega)⟩
      have size : m₁.cache.table.layout.slots.size = m.cache.table.layout.slots.size := measures.capacity
      exact Layout.isFree_of_newlyFree size none (by omega)

end Host
end BlockCache
