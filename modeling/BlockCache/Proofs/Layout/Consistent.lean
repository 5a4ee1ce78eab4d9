import BlockCache.Proofs.Layout.Basic

/-!
# Consistent layouts

In a consistent layout the lists of the buckets agree with what the slots say of themselves. The steps of a cache
keep a layout consistent: `Consistent.hit`, `Consistent.assign`, `Consistent.letGo`, and `Consistent.change` for all
that leaves the chains and rings alone.
-/

namespace BlockCache

namespace Slot

/-- Only a slot that stands for a block is valid or referenced, and only a referenced one is locked. -/
structure Proper (s : Slot) : Prop where
  valid : s.valid = true → s.assigned = true
  referenced : 0 < s.refcount → s.assigned = true
  free : s.refcount = 0 → s.data.holder = none
  agrees : s.data.Agrees

theorem Proper.unlocked {s : Slot} (proper : s.Proper) (free : s.refcount = 0) : s.data.isLocked = false :=
  proper.agrees.isLocked_eq_false_iff.mpr (proper.free free)

end Slot

namespace Layout

/-- Each slot is in the lists that its own fields say, and nowhere twice, and no block has two slots. -/
structure Consistent (L : Layout) : Prop where
  buckets_pos : 0 < L.buckets
  chained : ∀ {i : Nat} {s : Slot}, L.slots[i]? = some s → ∀ b, i ∈ L.chain b ↔ s.assigned = true ∧ b = L.home s.key
  ringed : ∀ {i : Nat} {s : Slot}, L.slots[i]? = some s → ∀ b, i ∈ L.ring b ↔ s.refcount = 0 ∧ b = L.bucketOf i s
  chain_nodup : ∀ b, (L.chain b).Nodup
  ring_nodup : ∀ b, (L.ring b).Nodup
  distinct : ∀ {i j : Nat} {s s' : Slot}, L.slots[i]? = some s → L.slots[j]? = some s' → s.assigned = true →
    s'.assigned = true → s.key = s'.key → i = j
  proper : ∀ {i : Nat} {s : Slot}, L.slots[i]? = some s → s.Proper

def Has (L : Layout) (i : Nat) (key : Key) : Prop :=
  ∃ s, L.slots[i]? = some s ∧ s.assigned = true ∧ s.key = key

def Absent (L : Layout) (key : Key) : Prop := ∀ i, ¬ L.Has i key

def hit (L : Layout) (i : Nat) : Layout := (L.change i Slot.take).withdraw i

def assign (L : Layout) (i : Nat) (key : Key) : Layout :=
  (((L.withdraw i).unchain i).change i (·.occupy key)).enchain (L.home key) i

def letGo (L : Layout) (i : Nat) : Layout :=
  match L.slots[i]? with
  | some s => if s.refcount = 1 then (L.change i Slot.give).addNewest (L.home s.key) i else L.change i Slot.give
  | none => L

section
variable {L : Layout} {i j : Nat} {s : Slot}

theorem change_same (here : L.slots[i]? = some s) (f : Slot → Slot) : (L.slots.modify i f)[i]? = some (f s) := by
  simp only [Array.getElem?_modify, if_true, here, Option.map_some]

theorem change_other (other : j ≠ i) (f : Slot → Slot) : (L.slots.modify i f)[j]? = L.slots[j]? := by
  simp only [Array.getElem?_modify, if_neg (Ne.symm other)]

theorem Consistent.home_lt (consistent : L.Consistent) (key : Key) : L.home key < L.buckets :=
  Nat.mod_lt _ consistent.buckets_pos

theorem Consistent.bucketOf_lt (consistent : L.Consistent) (i : Nat) (s : Slot) : L.bucketOf i s < L.buckets := by
  rw [bucketOf]
  split
  · exact consistent.home_lt s.key
  · exact Nat.mod_lt _ consistent.buckets_pos

theorem Consistent.replace (consistent : L.Consistent) (here : L.slots[i]? = some s) (f : Slot → Slot)
    {chain ring : Nat → List Nat} (proper : (f s).Proper)
    (chained : ∀ b, i ∈ chain b ↔ (f s).assigned = true ∧ b = L.home (f s).key)
    (ringed : ∀ b, i ∈ ring b ↔ (f s).refcount = 0 ∧ b = L.bucketOf i (f s))
    (chain_frame : ∀ b, ∀ j, j ≠ i → (j ∈ chain b ↔ j ∈ L.chain b))
    (ring_frame : ∀ b, ∀ j, j ≠ i → (j ∈ ring b ↔ j ∈ L.ring b))
    (chain_nodup : ∀ b, (chain b).Nodup) (ring_nodup : ∀ b, (ring b).Nodup)
    (distinct : ∀ {j : Nat} {s' : Slot}, j ≠ i → L.slots[j]? = some s' → s'.assigned = true → (f s).assigned = true →
      s'.key ≠ (f s).key) :
    Consistent ⟨L.slots.modify i f, L.buckets, chain, ring⟩ where
  buckets_pos := consistent.buckets_pos
  chained {j s'} there b := by
    by_cases same : j = i
    · subst same
      obtain rfl := Option.some.inj ((change_same here f).symm.trans there)
      exact chained b
    · exact (chain_frame b j same).trans (consistent.chained ((change_other same f).symm.trans there) b)
  ringed {j s'} there b := by
    by_cases same : j = i
    · subst same
      obtain rfl := Option.some.inj ((change_same here f).symm.trans there)
      exact ringed b
    · exact (ring_frame b j same).trans (consistent.ringed ((change_other same f).symm.trans there) b)
  chain_nodup := chain_nodup
  ring_nodup := ring_nodup
  distinct {j k s₁ s₂} there₁ there₂ assigned₁ assigned₂ key := by
    by_cases same₁ : j = i <;> by_cases same₂ : k = i
    · exact same₁.trans same₂.symm
    · subst same₁
      obtain rfl := Option.some.inj ((change_same here f).symm.trans there₁)
      exact absurd key.symm (distinct same₂ ((change_other same₂ f).symm.trans there₂) assigned₂ assigned₁)
    · subst same₂
      obtain rfl := Option.some.inj ((change_same here f).symm.trans there₂)
      exact absurd key (distinct same₁ ((change_other same₁ f).symm.trans there₁) assigned₁ assigned₂)
    · exact consistent.distinct ((change_other same₁ f).symm.trans there₁)
        ((change_other same₂ f).symm.trans there₂) assigned₁ assigned₂ key
  proper {j s'} there := by
    by_cases same : j = i
    · subst same
      obtain rfl := Option.some.inj ((change_same here f).symm.trans there)
      exact proper
    · exact consistent.proper ((change_other same f).symm.trans there)

theorem Consistent.change (consistent : L.Consistent) (here : L.slots[i]? = some s) {f : Slot → Slot}
    (key : (f s).key = s.key) (assigned : (f s).assigned = s.assigned)
    (free : (f s).refcount = 0 ↔ s.refcount = 0) (proper : (f s).Proper) : (L.change i f).Consistent := by
  have bucket : L.bucketOf i (f s) = L.bucketOf i s := by simp [bucketOf, key, assigned]
  refine consistent.replace here f proper ?_ ?_ (fun _ _ _ => Iff.rfl) (fun _ _ _ => Iff.rfl)
    consistent.chain_nodup consistent.ring_nodup ?_
  · rw [key, assigned]
    exact consistent.chained here
  · rw [free, bucket]
    exact consistent.ringed here
  · intro j s' other there assigned₁ assigned₂ same
    exact other (consistent.distinct there here assigned₁ (assigned ▸ assigned₂) (same.trans key))

theorem Consistent.hit (consistent : L.Consistent) (here : L.slots[i]? = some s) (assigned : s.assigned = true) :
    (L.hit i).Consistent := by
  show Consistent ⟨L.slots.modify i Slot.take, L.buckets, L.chain, fun b => (L.ring b).erase i⟩
  refine consistent.replace here Slot.take ?_ (consistent.chained (s := s) here) ?_ (fun _ _ _ => Iff.rfl) ?_
    consistent.chain_nodup (fun b => (consistent.ring_nodup b).erase i) ?_
  · exact ⟨(consistent.proper here).valid, fun _ => assigned, fun free => by simp [Slot.take] at free,
      (consistent.proper here).agrees⟩
  · intro b
    have gone : i ∉ (L.ring b).erase i := (consistent.ring_nodup b).not_mem_erase
    simpa [Slot.take] using gone
  · exact fun b j other => List.mem_erase_of_ne other
  · intro j s' other there assigned₁ assigned₂ same
    exact other (consistent.distinct there here assigned₁ assigned₂ same)

theorem Consistent.assign (consistent : L.Consistent) (here : L.slots[i]? = some s) {key : Key}
    (absent : L.Absent key) : (L.assign i key).Consistent := by
  have gone : ∀ b, i ∉ (L.chain b).erase i := fun b => (consistent.chain_nodup b).not_mem_erase
  show Consistent ⟨L.slots.modify i (·.occupy key), L.buckets,
    fun b => if b = L.home key then i :: (L.chain b).erase i else (L.chain b).erase i, fun b => (L.ring b).erase i⟩
  refine consistent.replace here (·.occupy key) ?_ ?_ ?_ ?_ ?_ ?_ (fun b => (consistent.ring_nodup b).erase i) ?_
  · exact ⟨fun valid => by simp [Slot.occupy] at valid, fun _ => rfl, fun none => by simp [Slot.occupy] at none,
      (consistent.proper here).agrees⟩
  · intro b
    by_cases same : b = L.home key
    · simp [Slot.occupy, same]
    · simpa [Slot.occupy, same] using gone b
  · intro b
    have gone : i ∉ (L.ring b).erase i := (consistent.ring_nodup b).not_mem_erase
    simpa [Slot.occupy] using gone
  · intro b j other
    split
    · simp [other, List.mem_erase_of_ne other]
    · exact List.mem_erase_of_ne other
  · exact fun b j other => List.mem_erase_of_ne other
  · intro b
    split
    · exact List.nodup_cons.mpr ⟨gone b, (consistent.chain_nodup b).erase i⟩
    · exact (consistent.chain_nodup b).erase i
  · exact fun _ there assigned _ same => absent _ ⟨_, there, assigned, same⟩

theorem Consistent.letGo (consistent : L.Consistent) (here : L.slots[i]? = some s) (referenced : s.refcount ≠ 0)
    (last : s.refcount = 1 → s.data.holder = none) : (L.letGo i).Consistent := by
  have assigned : s.assigned = true := (consistent.proper here).referenced (by omega)
  -- Whoever has the lock has a reference of its own, so the slot is not locked if this is the last.
  have proper : s.give.Proper :=
    ⟨(consistent.proper here).valid, fun _ => assigned, fun free => last (by simp [Slot.give] at free; omega),
      (consistent.proper here).agrees⟩
  simp only [Layout.letGo, here]
  split
  · rename_i single
    have away : ∀ b, i ∉ L.ring b := fun b member => referenced ((consistent.ringed here b).mp member).1
    show Consistent ⟨L.slots.modify i Slot.give, L.buckets, L.chain,
      fun b => if b = L.home s.key then L.ring b ++ [i] else L.ring b⟩
    refine consistent.replace here Slot.give proper (consistent.chained (s := s) here) ?_ (fun _ _ _ => Iff.rfl) ?_
      consistent.chain_nodup ?_ ?_
    · intro b
      have bucket : L.bucketOf i s.give = L.home s.key := by simp [bucketOf, Slot.give, assigned]
      rw [bucket]
      by_cases same : b = L.home s.key
      · simp [same, Slot.give, single]
      · simp [same, away b]
    · intro b j other
      split <;> simp [other]
    · intro b
      split
      · simpa [List.nodup_append, consistent.ring_nodup b] using fun j member (same : j = i) => away b (same ▸ member)
      · exact consistent.ring_nodup b
    · intro j s' other there assigned₁ assigned₂ same
      exact other (consistent.distinct there here assigned₁ assigned₂ same)
  · refine consistent.change here rfl rfl ?_ proper
    simp only [Slot.give]
    omega

end
end Layout

namespace Table

/-- The links of a table are in order, and agree with the slots. -/
structure Sound (t : Table) : Prop where
  shows : t.Shows t.layout
  consistent : t.layout.Consistent

theorem Sound.of_shows {t : Table} {L : Layout} (shows : t.Shows L) (consistent : L.Consistent) : t.Sound :=
  ⟨shows.of_layout, shows.layout_eq.symm ▸ consistent⟩

end Table
end BlockCache
