import BlockCache.Proofs.Layout.Moves

/-!
# Effects on a layout

An effect changes one slot, and may change its place in the chains and rings of one bucket. `Layout.under_comm` says
that effects on slots of two buckets may come in either order, and `Within.ring_eq` and `Within.absent` that the one
bucket does not see what happens in the other.
-/

namespace BlockCache

/-- What becomes of a slot's place in the lists of the buckets. -/
inductive Relisting
  | keep
  | out
  | first (bucket : Nat)
  | last (bucket : Nat)

namespace Relisting

def on (i b : Nat) (l : List Nat) : Relisting → List Nat
  | keep => l
  | out => l.erase i
  | first b' => if b = b' then i :: l.erase i else l.erase i
  | last b' => if b = b' then l ++ [i] else l

def Into (home : Nat) : Relisting → Prop
  | keep | out => True
  | first b | last b => b = home

variable {r r' : Relisting} {i j b home home' : Nat} {l : List Nat}

theorem Into.elsewhere (into : r.Into home) (other : b ≠ home) (i : Nat) :
    (∀ l, r.on i b l = l) ∨ ∀ l, r.on i b l = l.erase i := by
  cases r with
  | keep => exact .inl fun _ => rfl
  | out => exact .inr fun _ => rfl
  | first b' =>
      obtain rfl : b' = home := into
      exact .inr fun _ => if_neg other
  | last b' =>
      obtain rfl : b' = home := into
      exact .inl fun _ => if_neg other

theorem Into.on_other (into : r.Into home) (other : b ≠ home) (absent : i ∉ l) : r.on i b l = l := by
  rcases into.elsewhere other i with kept | left
  · exact kept l
  · rw [left, List.erase_of_not_mem absent]

theorem on_erase (apart : i ≠ j) (r : Relisting) : r.on i b (l.erase j) = (r.on i b l).erase j := by
  have first : (i :: l.erase i).erase j = i :: (l.erase j).erase i := by
    rw [List.erase_cons_tail (by simpa using apart), List.erase_comm]
  have last : (l ++ [i]).erase j = l.erase j ++ [i] := by
    have alone : [i].erase j = [i] := List.erase_of_not_mem (by simpa using apart.symm)
    rw [List.erase_append]
    split
    · rfl
    · rename_i absent
      rw [alone, List.erase_of_not_mem absent]
  cases r <;> simp only [on]
  case out => exact List.erase_comm j i
  case first b' => split <;> simp [first, List.erase_comm]
  case last b' => split <;> simp [last]

theorem on_comm (apart : i ≠ j) (into : r.Into home) (into' : r'.Into home') (homes : home ≠ home') :
    r'.on j b (r.on i b l) = r.on i b (r'.on j b l) := by
  by_cases same : b = home
  · rcases into'.elsewhere (same ▸ homes) j with kept | left
    · rw [kept, kept]
    · rw [left, left, on_erase apart]
  · rcases into.elsewhere same i with kept | left
    · rw [kept, kept]
    · rw [left, left, on_erase apart.symm]

end Relisting

structure Effect where
  slot : Nat
  change : Slot → Slot
  chain : Relisting
  ring : Relisting

namespace Layout

def under (L : Layout) (e : Effect) : Layout where
  slots := L.slots.modify e.slot e.change
  buckets := L.buckets
  chain b := e.chain.on e.slot b (L.chain b)
  ring b := e.ring.on e.slot b (L.ring b)

structure Within (L : Layout) (e : Effect) (home : Nat) : Prop where
  here : ∃ s, L.slots[e.slot]? = some s ∧ L.bucketOf e.slot s = home ∧ L.home (e.change s).key = home
  chain : e.chain.Into home
  ring : e.ring.Into home

variable {L : Layout} {e e' : Effect} {home home' : Nat}

theorem Within.apart (within : L.Within e home) (within' : L.Within e' home') (homes : home ≠ home') :
    e.slot ≠ e'.slot := by
  intro same
  obtain ⟨s, here, bucket, -⟩ := within.here
  obtain ⟨s', here', bucket', -⟩ := within'.here
  rw [← same] at here' bucket'
  obtain rfl : s = s' := Option.some.inj (here.symm.trans here')
  exact homes (bucket.symm.trans bucket')

theorem under_comm (within : L.Within e home) (within' : L.Within e' home') (homes : home ≠ home') :
    (L.under e).under e' = (L.under e').under e := by
  have apart := within.apart within' homes
  have slots : (L.slots.modify e.slot e.change).modify e'.slot e'.change =
      (L.slots.modify e'.slot e'.change).modify e.slot e.change := by
    refine Array.ext_getElem? fun j => ?_
    simp only [Array.getElem?_modify]
    split <;> split <;> simp_all
  simp only [under, slots, Relisting.on_comm apart within.chain within'.chain homes,
    Relisting.on_comm apart within.ring within'.ring homes]

theorem Within.ring_eq (within : L.Within e home) (consistent : L.Consistent) {b : Nat} (other : b ≠ home) :
    (L.under e).ring b = L.ring b := by
  obtain ⟨s, here, bucket, -⟩ := within.here
  have away : e.slot ∉ L.ring b := fun member => other (((consistent.ringed here b).mp member).2.trans bucket)
  exact within.ring.on_other other away

theorem Within.absent (within : L.Within e home) {key : Key} (absent : L.Absent key) (other : L.home key ≠ home) :
    (L.under e).Absent key := by
  rintro j ⟨s', there, assigned, mine⟩
  obtain ⟨s, here, -, after⟩ := within.here
  by_cases same : j = e.slot
  · subst same
    obtain rfl : e.change s = s' := Option.some.inj ((change_same here e.change).symm.trans there)
    exact other (mine ▸ after)
  · exact absent j ⟨s', (change_other same e.change).symm.trans there, assigned, mine⟩

theorem hit_change (L : Layout) (i : Nat) (f : Slot → Slot) :
    (L.hit i).change i f = L.under ⟨i, fun s => f s.take, .keep, .out⟩ := by
  have slots := congrArg Layout.slots (change_change L i Slot.take f)
  exact congrArg (fun slots => { L.hit i with slots }) slots

theorem assign_change (L : Layout) (i : Nat) (key : Key) (f : Slot → Slot) :
    (L.assign i key).change i f = L.under ⟨i, fun s => f (s.occupy key), .first (L.home key), .out⟩ := by
  have slots := congrArg Layout.slots (change_change L i (·.occupy key) f)
  exact congrArg (fun slots => { L.assign i key with slots }) slots

theorem after_finish {i : Nat} {s : Slot} (here : L.slots[i]? = some s) :
    L.after (.finish i) = L.under
      ⟨i, fun s => { s with data := s.data.unlock }.give, .keep, if s.refcount = 1 then .last (L.home s.key) else .keep⟩ := by
  have slots := congrArg Layout.slots (change_change L i (fun s => { s with data := s.data.unlock }) Slot.give)
  have unlocked := change_same here fun s => { s with data := s.data.unlock }
  rw [after, letGo]
  simp only [show (L.change i fun s => { s with data := s.data.unlock }).slots[i]? = _ from unlocked]
  split
  · exact congrArg (fun slots => { L.addNewest (L.home s.key) i with slots }) slots
  · exact congrArg (fun slots => { L with slots }) slots

end Layout
end BlockCache
