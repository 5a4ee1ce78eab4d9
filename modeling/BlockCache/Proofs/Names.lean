import Mathlib.Data.List.Perm.Basic
import Mathlib.Data.List.Nodup

/-!
# Named entries

Lists of entries with distinct names, in which an entry is looked up, added, replaced or removed by its name.
-/

namespace BlockCache

variable {α β : Type} {entries : List (α × β)} {a : α} {b : β}

theorem filter_names (distinct : (entries.map Prod.fst).Nodup) (keep : α × β → Bool) :
    ((entries.filter keep).map Prod.fst).Nodup :=
  distinct.sublist (List.filter_sublist.map Prod.fst)

theorem replace_names [DecidableEq α] (entries : List (α × β)) (a : α) (b : β) :
    (entries.map fun entry => if entry.1 = a then (a, b) else entry).map Prod.fst = entries.map Prod.fst := by
  rw [List.map_map]
  refine List.map_congr_left fun entry _ => ?_
  by_cases same : entry.1 = a
  · simp [same]
  · simp [same]

variable [BEq α] [LawfulBEq α]

theorem mem_of_lookup (found : entries.lookup a = some b) : (a, b) ∈ entries := by
  obtain ⟨before, after, rfl, -⟩ := List.lookup_eq_some_iff.mp found
  simp

theorem lookup_of_mem (distinct : (entries.map Prod.fst).Nodup) (member : (a, b) ∈ entries) :
    entries.lookup a = some b := by
  induction entries with
  | nil => cases member
  | cons entry rest ih =>
      obtain ⟨fresh, distinct⟩ := List.nodup_cons.mp distinct
      rcases List.mem_cons.mp member with rfl | later
      · exact List.lookup_cons_self
      · have other : a ≠ entry.1 := fun same => fresh (same ▸ List.mem_map_of_mem later)
        rw [List.lookup_cons, beq_false_of_ne other]
        exact ih distinct later

theorem lookup_filter_same [DecidableEq α] (entries : List (α × β)) (a : α) :
    (entries.filter fun entry => entry.1 ≠ a).lookup a = none := by
  refine List.lookup_eq_none_iff.mpr fun entry member => ?_
  have other : entry.1 ≠ a := of_decide_eq_true (List.mem_filter.mp member).2
  simpa using Ne.symm other

theorem lookup_filter [DecidableEq α] {a' : α} (other : a' ≠ a) :
    (entries.filter fun entry => entry.1 ≠ a).lookup a' = entries.lookup a' := by
  induction entries with
  | nil => rfl
  | cons entry rest ih =>
      obtain ⟨name, value⟩ := entry
      by_cases same : name = a
      · rw [List.filter_cons, if_neg (by simp [same]), ih, List.lookup_cons, beq_false_of_ne (same ▸ other)]
      · rw [List.filter_cons, if_pos (by simp [same]), List.lookup_cons, List.lookup_cons, ih]

theorem lookup_append_other (b : β) {a' : α} (other : a' ≠ a) :
    (entries ++ [(a, b)]).lookup a' = entries.lookup a' := by
  simp [List.lookup_append, List.lookup_cons, beq_false_of_ne other]

theorem lookup_replace_other [DecidableEq α] (b : β) {a' : α} (other : a' ≠ a) :
    (entries.map fun entry => if entry.1 = a then (a, b) else entry).lookup a' = entries.lookup a' := by
  induction entries with
  | nil => rfl
  | cons entry rest ih =>
      obtain ⟨name, value⟩ := entry
      by_cases same : name = a
      · rw [List.map_cons, if_pos same, List.lookup_cons, List.lookup_cons, same, beq_false_of_ne other, ih]
      · rw [List.map_cons, if_neg same, List.lookup_cons, List.lookup_cons, ih]

theorem lookup_replace_same [DecidableEq α] (found : entries.lookup a = some b) (b' : β) :
    (entries.map fun entry => if entry.1 = a then (a, b') else entry).lookup a = some b' := by
  induction entries with
  | nil => cases found
  | cons entry rest ih =>
      obtain ⟨name, value⟩ := entry
      by_cases same : name = a
      · rw [List.map_cons, if_pos same, List.lookup_cons_self]
      · rw [List.lookup_cons, beq_false_of_ne (Ne.symm same)] at found
        rw [List.map_cons, if_neg same, List.lookup_cons, beq_false_of_ne (Ne.symm same), ih found]

theorem append_names (distinct : (entries.map Prod.fst).Nodup) (free : entries.lookup a = none) (b : β) :
    ((entries ++ [(a, b)]).map Prod.fst).Nodup := by
  have away : a ∉ entries.map Prod.fst := by
    intro member
    obtain ⟨entry, here, rfl⟩ := List.mem_map.mp member
    simpa using List.lookup_eq_none_iff.mp free entry here
  rw [List.map_append]
  refine List.nodup_append.mpr ⟨distinct, by simp, ?_⟩
  rintro a₁ old a₂ new rfl
  obtain rfl : a₁ = a := List.mem_singleton.mp new
  exact away old

theorem lookup_split (distinct : (entries.map Prod.fst).Nodup) (found : entries.lookup a = some b) :
    ∃ before after, entries = before ++ (a, b) :: after ∧ ∀ entry ∈ before ++ after, entry.1 ≠ a := by
  obtain ⟨before, after, rfl, -⟩ := List.lookup_eq_some_iff.mp found
  refine ⟨before, after, rfl, ?_⟩
  rintro entry member rfl
  have parted := List.nodup_append.mp (by simpa using distinct)
  rcases List.mem_append.mp member with first | last
  · exact parted.2.2 _ (List.mem_map_of_mem first) _ List.mem_cons_self rfl
  · exact (List.nodup_cons.mp parted.2.1).1 (List.mem_map_of_mem last)

variable [DecidableEq α]

theorem lookup_perm (distinct : (entries.map Prod.fst).Nodup) (found : entries.lookup a = some b) :
    entries.Perm ((a, b) :: entries.filter fun entry => entry.1 ≠ a) := by
  obtain ⟨before, after, rfl, others⟩ := lookup_split distinct found
  have kept : (before ++ after).filter (fun entry => decide (entry.1 ≠ a)) = before ++ after :=
    List.filter_eq_self.mpr fun entry member => decide_eq_true (others entry member)
  have rest : (before ++ (a, b) :: after).filter (fun entry => decide (entry.1 ≠ a)) = before ++ after := by
    rw [List.filter_append, List.filter_cons, if_neg (by simp), ← List.filter_append, kept]
  rw [rest]
  exact List.perm_middle

theorem replace_perm (distinct : (entries.map Prod.fst).Nodup) (found : entries.lookup a = some b) (b' : β) :
    (entries.map fun entry => if entry.1 = a then (a, b') else entry).Perm
      ((a, b') :: entries.filter fun entry => entry.1 ≠ a) := by
  have kept : ∀ entry ∈ entries.filter fun entry => entry.1 ≠ a,
      (if entry.1 = a then (a, b') else entry) = entry := fun entry member =>
    if_neg (of_decide_eq_true (List.mem_filter.mp member).2)
  have replaced := (lookup_perm distinct found).map fun entry => if entry.1 = a then (a, b') else entry
  rwa [List.map_cons, if_pos rfl, List.map_congr_left kept, List.map_id'] at replaced

end BlockCache
