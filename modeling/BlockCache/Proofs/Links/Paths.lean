import BlockCache.Proofs.Links.Chains

/-!
# Paths along links

A path is the list of slots that a chain's links lead through up to their end. The slots of a path may be in other
chains too: that there is a path is all that an insertion or a removal needs to be told apart from a walk in a circle.

* `Chained.nodup`: a path has no slot twice.
* `insert_eq`, `remove_eq` and `remove_absent`: what insertions and removals do along the path of a bucket.
-/

namespace BlockCache.Chains
open Update

variable {t : Chains} {next : Array (Option Nat)} {l l' before after : List Nat} {b i : Nat}

theorem Chained.unique (chained : Chained next l none) (chained' : Chained next l' none)
    (start : l.head? = l'.head?) : l = l' := by
  induction l generalizing l' with
  | nil => exact (List.head?_eq_none_iff.mp start.symm).symm
  | cons i rest ih =>
      obtain ⟨rest', rfl⟩ := List.head?_eq_some_iff.mp start.symm
      obtain ⟨here, chained⟩ := chained
      obtain ⟨here', chained'⟩ := chained'
      have same : rest.head? = rest'.head? := by simpa using here.symm.trans here'
      rw [ih chained chained' same]

/-- A slot that a path came back to would have two paths to the end, one longer than the other. -/
theorem Chained.nodup (chained : Chained next l none) : l.Nodup := by
  induction l with
  | nil => exact List.nodup_nil
  | cons i rest ih =>
      refine List.nodup_cons.mpr ⟨fun member => ?_, ih chained.2⟩
      obtain ⟨before, after, rfl⟩ := List.append_of_mem member
      have again : Chained next (i :: after) none := ((chained_append next (i :: before) (i :: after) none).mp chained).2
      have same := congrArg List.length (chained.unique again rfl)
      simp at same
      omega

theorem Chained.length_le (chained : Chained next l none) : l.length ≤ next.size :=
  length_le_of_lt chained.nodup fun _ => chained.lt_size

theorem setNext_beyond (beyond : t.next.size ≤ i) (after : Option Nat) :
    setNext i after t = .error (.outOfRange t.next.size i) t := by
  rw [setNext, get_bind]
  exact bind_error (elementAt_beyond beyond) _

theorem seek_state (p : Nat → Bool) (fuel : Nat) (cur : Option Nat) : stateAfter (seek p fuel cur) t = t := by
  induction fuel generalizing cur with
  | zero => cases cur <;> rfl
  | succ fuel ih =>
      cases cur with
      | none => rfl
      | some i =>
          show stateAfter (elementAt t.next i >>= fun next => if p i then return some i else seek p fuel next) t = t
          refine stateAfter_bind (stateAfter_elementAt _ _) fun next => ?_
          cases p i with
          | true => rfl
          | false => exact ih next

theorem find_state (b : Nat) (p : Nat → Bool) : stateAfter (find b p) t = t :=
  stateAfter_bind (x := get) rfl fun _ =>
    stateAfter_bind (stateAfter_elementAt _ _) fun head => stateAfter_bind (x := get) rfl fun _ => seek_state p _ head

section
variable (head : t.heads[b]? = some l.head?) (chained : Chained t.next l none)
include head chained

theorem find_eq (p : Nat → Bool) : find b p t = .ok (l.find? p) t := by
  rw [find, get_bind, bind_ok (elementAt_ok head), get_bind]
  exact chained.seek_eq chained.length_le p

theorem insert_eq (i : Nat) :
    insert b i t =
      if i ∈ l then .error (.chained i) t
      else if i < t.next.size then
        .ok () ⟨t.next.setIfInBounds i l.head?, t.heads.setIfInBounds b (some i)⟩
      else .error (.outOfRange t.next.size i) t := by
  rw [insert, get_bind, bind_ok (elementAt_ok head), get_bind, bind_ok (chained.seek_eq chained.length_le _)]
  split
  · rename_i member
    have found : l.find? (fun j => decide (j = i)) = some i := by
      have some : (l.find? fun j => decide (j = i)).isSome := List.find?_isSome.mpr ⟨i, member, by simp⟩
      obtain ⟨j, found⟩ := Option.isSome_iff_exists.mp some
      have same : j = i := by simpa using List.find?_some found
      rw [found, same]
    rw [found]
    rfl
  · rename_i away
    have absent : l.find? (fun j => decide (j = i)) = none := by
      simpa using fun j member (same : j = i) => away (same ▸ member)
    rw [absent]
    split
    · rename_i slot
      exact bind_ok (setNext_ok slot _) _
    · rename_i beyond
      exact bind_error (setNext_beyond (Nat.le_of_not_lt beyond) _) _

theorem remove_eq (parting : Parting l i before after) :
    remove b i t = (do bypass b before.getLast? after.head?; setNext i none : Update Chains Unit) t := by
  rw [remove, get_bind, bind_ok (elementAt_ok head), get_bind]
  have enough := chained.length_le
  rw [parting.split] at chained enough ⊢
  exact unlink_eq [] chained parting.not_before enough

end

theorem unlink_absent (chained : Chained t.next l none) (absent : i ∉ l) {fuel : Nat} (enough : l.length ≤ fuel)
    (prev : Option Nat) : unlink b i fuel prev l.head? t = .error (.stop (.unchained i)) t := by
  induction l generalizing fuel prev with
  | nil => cases fuel <;> rfl
  | cons j rest ih =>
      obtain ⟨here, chained⟩ := chained
      have other : j ≠ i := fun same => absent (by simp [same])
      cases fuel with
      | zero => simp at enough
      | succ fuel =>
          rw [List.head?_cons, unlink, get_bind, bind_ok (elementAt_ok here), if_neg other, Option.or_none]
          exact ih chained (fun member => absent (List.mem_cons_of_mem j member)) (by simpa using enough) (some j)

theorem remove_absent (head : t.heads[b]? = some l.head?) (chained : Chained t.next l none) (absent : i ∉ l) :
    remove b i t = .error (.stop (.unchained i)) t := by
  rw [remove, get_bind, bind_ok (elementAt_ok head), get_bind]
  exact unlink_absent chained absent chained.length_le none

end BlockCache.Chains
