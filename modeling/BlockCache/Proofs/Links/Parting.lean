/-!
# Taking a member out of a list

The chains and the rings of all buckets are lists without a common member. A member is taken out of the one that has it
by parting that list at the member.
-/

namespace BlockCache

/-- The list `l` has `i` once, between `before` and `after`. -/
structure Parting (l : List Nat) (i : Nat) (before after : List Nat) : Prop where
  split : l = before ++ i :: after
  before_nodup : before.Nodup
  after_nodup : after.Nodup
  not_before : i ∉ before
  not_after : i ∉ after
  apart : ∀ j ∈ before, j ∉ after

variable {l before after : List Nat} {i j : Nat}

theorem exists_parting (nodup : l.Nodup) (member : i ∈ l) : ∃ before after, Parting l i before after := by
  obtain ⟨before, after, rfl⟩ := List.append_of_mem member
  obtain ⟨before_nodup, rest_nodup, parted⟩ := List.nodup_append.mp nodup
  obtain ⟨not_after, after_nodup⟩ := List.nodup_cons.mp rest_nodup
  refine ⟨before, after, rfl, before_nodup, after_nodup, ?_, not_after, ?_⟩
  · exact fun here => parted i here i List.mem_cons_self rfl
  · exact fun j here there => parted j here j (List.mem_cons_of_mem i there) rfl

theorem length_le_of_lt {n : Nat} (nodup : l.Nodup) (within : ∀ i ∈ l, i < n) : l.length ≤ n := by
  have subset : l ⊆ List.range n := fun i member => List.mem_range.mpr (within i member)
  simpa using nodup.length_le_of_subset subset

theorem erase_alone {lists : Nat → List Nat} {b : Nat} (alone : ∀ b', i ∈ lists b' → b' = b) :
    (fun b' => if b' = b then (lists b').erase i else lists b') = fun b' => (lists b').erase i := by
  funext b'
  split
  · rfl
  · rename_i other
    rw [List.erase_of_not_mem (mt (alone b') other)]

theorem erase_absent {lists : Nat → List Nat} {b : Nat} (absent : i ∉ lists b) :
    (fun b' => if b' = b then (lists b').erase i else lists b') = lists := by
  funext b'
  split
  · rename_i same
    rw [same, List.erase_of_not_mem absent]
  · rfl

namespace Parting

theorem nodup (parting : Parting l i before after) : (before ++ after).Nodup := by
  refine List.nodup_append.mpr ⟨parting.before_nodup, parting.after_nodup, ?_⟩
  rintro j here k there rfl
  exact parting.apart j here there

theorem mem_of_left (parting : Parting l i before after) (left : j ∈ before ++ after) : j ∈ l := by
  rw [parting.split]
  exact List.mem_append.mpr ((List.mem_append.mp left).imp_right (List.mem_cons_of_mem i))

theorem eq_of_gone (parting : Parting l i before after) (old : j ∈ l) (gone : j ∉ before ++ after) : j = i := by
  rw [parting.split] at old
  rcases List.mem_append.mp old with here | there
  · exact absurd (List.mem_append_left _ here) gone
  · rcases List.mem_cons.mp there with same | there
    · exact same
    · exact absurd (List.mem_append_right _ there) gone

theorem erase_eq (parting : Parting l i before after) : l.erase i = before ++ after := by
  rw [parting.split, List.erase_append_right _ parting.not_before, List.erase_cons_head]

theorem erase_lists {lists : Nat → List Nat} {b : Nat} (parting : Parting (lists b) i before after)
    (alone : ∀ b', i ∈ lists b' → b' = b) :
    (fun b' => (lists b').erase i) = fun b' => if b' = b then before ++ after else lists b' := by
  funext b'
  by_cases same : b' = b
  · simp [same, parting.erase_eq]
  · simp [same, List.erase_of_not_mem (mt (alone b') same)]

end Parting
end BlockCache
