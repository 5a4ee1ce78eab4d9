import Mathlib.Data.List.Basic

/-!
# Recency

A bucket that always gives up what was used longest ago keeps the items used last. `places` says what its places hold
after a history of uses, and `mem_places` that an item is still there unless as many others were used since.
-/

namespace BlockCache.Recency

variable {α : Type} [DecidableEq α] {a k : α} {history items : List α} {n m : Nat}

/-- What `n` places hold after a history, which has its last item first. Those that were never used hold nothing. -/
def places (history : List α) (n : Nat) : List (Option α) :=
  (history.eraseDups.map some ++ List.replicate n none).take n

theorem eraseDups_filter (items : List α) (p : α → Bool) : (items.filter p).eraseDups = items.eraseDups.filter p := by
  match items with
  | [] => rfl
  | a :: items =>
      have shorter : (items.filter fun b => !b == a).length < (a :: items).length :=
        Nat.lt_succ_of_le (List.length_filter_le _ _)
      rw [List.eraseDups_cons]
      cases chosen : p a with
      | true =>
          rw [List.filter_cons_of_pos chosen, List.filter_cons_of_pos chosen, List.eraseDups_cons,
            ← eraseDups_filter (items.filter _) p, List.filter_filter, List.filter_filter]
          simp only [Bool.and_comm]
      | false =>
          have others : (items.filter fun b => !b == a).filter p = items.filter p := by
            rw [List.filter_filter]
            refine List.filter_congr fun b _ => ?_
            by_cases same : b = a <;> simp [same, chosen]
          rw [List.filter_cons_of_neg (by simp [chosen]), List.filter_cons_of_neg (by simp [chosen]),
            ← eraseDups_filter (items.filter _) p, others]
termination_by items.length
decreasing_by all_goals exact shorter

theorem eraseDups_cons_filter (a : α) (history : List α) :
    (a :: history).eraseDups = a :: history.eraseDups.filter fun b => !b == a := by
  rw [List.eraseDups_cons, eraseDups_filter]

theorem nodup_eraseDups (history : List α) : history.eraseDups.Nodup := by
  induction history with
  | nil => exact List.nodup_nil
  | cons a history ih =>
      rw [eraseDups_cons_filter]
      exact List.nodup_cons.mpr ⟨by simp, ih.filter _⟩

theorem takeWhile_filter_ne {p : α → Bool} (chosen : p k = true) (items : List α) :
    (items.filter p).takeWhile (· ≠ k) = (items.takeWhile (· ≠ k)).filter p := by
  rw [List.takeWhile_filter]
  congr
  funext b
  by_cases same : b = k <;> simp [same, chosen]

theorem eraseDups_takeWhile (history : List α) (k : α) :
    (history.takeWhile (· ≠ k)).eraseDups = history.eraseDups.takeWhile (· ≠ k) := by
  induction history with
  | nil => rfl
  | cons a history ih =>
      by_cases same : a = k
      · simp [same, eraseDups_cons_filter]
      · have other : (!k == a) = true := by simpa using Ne.symm same
        rw [List.takeWhile_cons_of_pos (by simpa using same), eraseDups_cons_filter, eraseDups_cons_filter,
          List.takeWhile_cons_of_pos (by simpa using same), ih, takeWhile_filter_ne (p := fun b => !b == a) other]

theorem mem_take_iff (items : List α) : k ∈ items.take n ↔ k ∈ items ∧ (items.takeWhile (· ≠ k)).length < n := by
  induction items generalizing n with
  | nil => simp
  | cons a items ih =>
      cases n with
      | zero => simp
      | succ n =>
          by_cases same : a = k
          · simp [same]
          · simp [same, Ne.symm same, ih]

theorem mem_places :
    some k ∈ places history n ↔ k ∈ history ∧ (history.takeWhile (· ≠ k)).eraseDups.length < n := by
  rw [eraseDups_takeWhile, ← List.mem_eraseDups (l := history), ← mem_take_iff, places, List.take_append]
  simp [← List.map_take]

theorem take_filter_of_mem {items : List α} (once : items.countP (· = a) ≤ 1) (member : a ∈ items.take (m + 1)) :
    (items.filter (· ≠ a)).take m = (items.take (m + 1)).filter (· ≠ a) := by
  induction items generalizing m with
  | nil => simp
  | cons b items ih =>
      by_cases same : b = a
      · subst same
        have others : ∀ c ∈ items, c ≠ b := by simpa using once
        have gone : b ∉ items := fun there => others b there rfl
        have rest : items.filter (· ≠ b) = items :=
          List.filter_eq_self.mpr fun c there => by simpa using fun same : c = b => gone (same ▸ there)
        have part : (items.take m).filter (· ≠ b) = items.take m :=
          List.filter_eq_self.mpr fun c there => by
            simpa using fun same : c = b => gone (same ▸ List.mem_of_mem_take there)
        simp only [List.take_succ_cons, ne_eq, not_true_eq_false, decide_false, Bool.false_eq_true, not_false_eq_true,
          List.filter_cons_of_neg]
        exact (congrArg (List.take m) rest).trans part.symm
      · have later : a ∈ items.take m := by simpa [Ne.symm same] using member
        obtain ⟨m, rfl⟩ : ∃ m', m = m' + 1 := by
          cases m with
          | zero => simp at later
          | succ m => exact ⟨m, rfl⟩
        have once : items.countP (· = a) ≤ 1 := by simpa [List.countP_cons, same] using once
        simpa [same] using ih once later

theorem take_filter_of_notMem {items : List α} (absent : a ∉ items.take m) :
    (items.filter (· ≠ a)).take m = items.take m := by
  induction items generalizing m with
  | nil => simp
  | cons b items ih =>
      cases m with
      | zero => rfl
      | succ m =>
          obtain ⟨other, absent⟩ : a ≠ b ∧ a ∉ items.take m := by simpa using absent
          simpa [Ne.symm other] using ih absent

theorem places_cons (k : α) (history : List α) (m : Nat) : places (k :: history) (m + 1) =
    some k :: ((history.eraseDups.map some ++ List.replicate (m + 1) none).filter (· ≠ some k)).take m := by
  have others : (history.eraseDups.map some).filter (· ≠ some k) =
      (history.eraseDups.filter fun b => !b == k).map some := by
    rw [List.filter_map]
    congr
    funext b
    by_cases same : b = k <;> simp [same]
  have unused : (List.replicate (m + 1) (none : Option α)).filter (· ≠ some k) = List.replicate (m + 1) none := by
    simp
  rw [places, eraseDups_cons_filter, List.map_cons, List.cons_append, List.take_succ_cons, List.filter_append, others,
    unused]

theorem places_of_mem (member : some k ∈ places history n) :
    places (k :: history) n = some k :: (places history n).filter (· ≠ some k) := by
  cases n with
  | zero => simp [places] at member
  | succ m =>
      have once : (history.eraseDups.map some ++ List.replicate (m + 1) none).countP (· = some k) ≤ 1 := by
        have single := List.nodup_iff_count.mp (nodup_eraseDups history) k
        simpa [List.countP_map, List.countP_replicate, List.count, Function.comp_def, beq_eq_decide] using single
      rw [places_cons, take_filter_of_mem once member, places]

theorem places_of_notMem (some_place : 0 < n) (absent : some k ∉ places history n) :
    places (k :: history) n = some k :: (places history n).dropLast := by
  obtain ⟨m, rfl⟩ := Nat.exists_eq_add_one.mpr some_place
  have left : (places history (m + 1)).dropLast =
      (history.eraseDups.map some ++ List.replicate (m + 1) none).take m := by
    rw [places, List.dropLast_eq_take, List.take_take]
    congr 1
    simp
  have absent : some k ∉ (history.eraseDups.map some ++ List.replicate (m + 1) none).take m :=
    fun member => absent ((List.dropLast_sublist _).subset (left ▸ member))
  rw [places_cons, take_filter_of_notMem absent, left]

theorem length_places : (places history n).length = n := by simp [places]

theorem places_nil : places ([] : List α) n = List.replicate n none := by simp [places]

end BlockCache.Recency
