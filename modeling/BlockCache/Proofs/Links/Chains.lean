import BlockCache.Chains
import BlockCache.Proofs.Links.Parting
import BlockCache.Proofs.Update

/-!
# Chains as lists

What the links of an array of slots say when each bucket's chain holds a list of slots, and what the operations on
chains make of these lists:

* `find_holds`: the first slot of the list that has a property is found.
* `insert_holds`: a slot of no chain becomes the first of the chain.
* `remove_holds`: a slot of a chain is taken out, and the others stay in order.
* `Holds.toList_eq`: the walk along a chain is its list.
-/

namespace BlockCache.Chains
open Update

def Chained (next : Array (Option Nat)) : List Nat → Option Nat → Prop
  | [], _ => True
  | i :: rest, last => next[i]? = some (rest.head?.or last) ∧ Chained next rest last

/-- Each chain holds the list that `chain` has for it. No slot is in two of the lists or twice in one, and a slot in
none of them has no successor. -/
structure Holds (t : Chains) (slots buckets : Nat) (chain : Nat → List Nat) : Prop where
  size_next : t.next.size = slots
  size_heads : t.heads.size = buckets
  heads : ∀ b < buckets, t.heads[b]? = some (chain b).head?
  outside : ∀ b, buckets ≤ b → chain b = []
  chained : ∀ b, Chained t.next (chain b) none
  nodup : ∀ b, (chain b).Nodup
  apart : ∀ {b b' i}, i ∈ chain b → i ∈ chain b' → b = b'
  alone : ∀ i < slots, (∀ b, i ∉ chain b) → t.next[i]? = some none

theorem chained_append (next : Array (Option Nat)) (before after : List Nat) (last : Option Nat) :
    Chained next (before ++ after) last ↔ Chained next before (after.head?.or last) ∧ Chained next after last := by
  induction before with
  | nil => simp [Chained]
  | cons i rest ih =>
      simp only [List.cons_append, Chained, List.head?_append, Option.or_assoc, ih, and_assoc]

theorem Chained.of_eq {next next' : Array (Option Nat)} {l : List Nat} {last : Option Nat}
    (chained : Chained next l last) (same : ∀ i ∈ l, next'[i]? = next[i]?) : Chained next' l last := by
  induction l with
  | nil => trivial
  | cons i rest ih =>
      obtain ⟨here, chained⟩ := chained
      refine ⟨by rw [same i (by simp), here], ih chained fun j member => ?_⟩
      exact same j (List.mem_cons_of_mem i member)

theorem Chained.lt_size {next : Array (Option Nat)} {l : List Nat} {last : Option Nat}
    (chained : Chained next l last) {i : Nat} (member : i ∈ l) : i < next.size := by
  induction l with
  | nil => simp at member
  | cons j rest ih =>
      obtain ⟨here, chained⟩ := chained
      rcases List.mem_cons.mp member with rfl | member
      · exact (Array.getElem?_eq_some_iff.mp here).1
      · exact ih chained member

theorem setNext_ok {t : Chains} {i : Nat} (here : i < t.next.size) (next : Option Nat) :
    setNext i next t = .ok () { t with next := t.next.setIfInBounds i next } := by
  rw [setNext, get_bind, bind_ok (elementAt_ok (Array.getElem?_eq_getElem here)), modify_apply]

section
variable {t : Chains} {slots buckets : Nat} {chain : Nat → List Nat}

theorem Holds.lt_slots (h : t.Holds slots buckets chain) {b i : Nat} (member : i ∈ chain b) : i < slots :=
  h.size_next ▸ (h.chained b).lt_size member

theorem Holds.lt_buckets (h : t.Holds slots buckets chain) {b i : Nat} (member : i ∈ chain b) : b < buckets := by
  rcases Nat.lt_or_ge b buckets with inside | outside
  · exact inside
  · rw [h.outside b outside] at member
    cases member

theorem Holds.length_le (h : t.Holds slots buckets chain) (b : Nat) : (chain b).length ≤ slots :=
  length_le_of_lt (h.nodup b) fun _ => h.lt_slots

theorem Holds.replace (h : t.Holds slots buckets chain) {b : Nat} (inside : b < buckets) (t' : Chains)
    {l : List Nat} (size : t'.next.size = t.next.size) (heads : t'.heads = t.heads.setIfInBounds b l.head?)
    (chained : Chained t'.next l none) (nodup : l.Nodup) (own : ∀ i ∈ l, ∀ b', i ∈ chain b' → b' = b)
    (frame : ∀ i, i ∉ chain b → i ∉ l → t'.next[i]? = t.next[i]?)
    (left : ∀ i ∈ chain b, i ∉ l → t'.next[i]? = some none) :
    t'.Holds slots buckets fun b' => if b' = b then l else chain b' where
  size_next := size.trans h.size_next
  size_heads := by simpa [heads] using h.size_heads
  heads b' inside' := by
    by_cases same : b' = b
    · subst same
      simp [heads, h.size_heads, inside]
    · simp [heads, same, Ne.symm same, h.heads b' inside']
  outside b' far := by
    have other : b' ≠ b := by omega
    simp [other, h.outside b' far]
  chained b' := by
    by_cases same : b' = b
    · simpa [same] using chained
    · simp only [same, if_false]
      refine (h.chained b').of_eq fun i member => frame i (fun here => same (h.apart member here)) ?_
      exact fun here => same (own i here b' member)
  nodup b' := by
    by_cases same : b' = b
    · simpa [same] using nodup
    · simpa [same] using h.nodup b'
  apart {b₁ b₂ i} in₁ in₂ := by
    by_cases same₁ : b₁ = b <;> by_cases same₂ : b₂ = b <;> simp only [same₁, same₂, if_true, if_false] at in₁ in₂
    · exact same₁.trans same₂.symm
    · exact absurd (own i in₁ b₂ in₂) same₂
    · exact absurd (own i in₂ b₁ in₁) same₁
    · exact h.apart in₁ in₂
  alone i slot none := by
    have fresh : i ∉ l := by simpa using none b
    by_cases here : i ∈ chain b
    · exact left i here fresh
    · rw [frame i here fresh]
      refine h.alone i slot fun b' member => ?_
      have same : b' ≠ b := fun same => here (same ▸ member)
      exact none b' (by simpa [same] using member)

theorem Chained.seek_eq {l : List Nat} (chained : Chained t.next l none) {fuel : Nat} (enough : l.length ≤ fuel)
    (p : Nat → Bool) : seek p fuel l.head? t = .ok (l.find? p) t := by
  induction l generalizing fuel with
  | nil => cases fuel <;> rfl
  | cons i rest ih =>
      obtain ⟨here, chained⟩ := chained
      cases fuel with
      | zero => simp at enough
      | succ fuel =>
          rw [List.head?_cons, seek, get_bind, bind_ok (elementAt_ok here), Option.or_none]
          cases hit : p i with
          | true => simp [hit]
          | false => simpa [hit] using ih chained (by simpa using enough)

theorem find_holds (h : t.Holds slots buckets chain) {b : Nat} (inside : b < buckets) (p : Nat → Bool) :
    find b p t = .ok ((chain b).find? p) t := by
  rw [find, get_bind, bind_ok (elementAt_ok (h.heads b inside)), get_bind]
  exact (h.chained b).seek_eq (h.size_next ▸ h.length_le b) p

theorem insert_holds (h : t.Holds slots buckets chain) {b i : Nat} (inside : b < buckets) (slot : i < slots)
    (fresh : ∀ b', i ∉ chain b') :
    ∃ t', insert b i t = .ok () t' ∧ t'.Holds slots buckets fun b' => if b' = b then i :: chain b' else chain b' := by
  have shape : (fun b' => if b' = b then i :: chain b' else chain b') =
      fun b' => if b' = b then i :: chain b else chain b' := by
    funext b'
    split <;> simp_all
  have absent : (chain b).find? (· = i) = none := by
    simpa using fun j member (same : j = i) => fresh b (same ▸ member)
  have frame : ∀ j, j ≠ i → (t.next.setIfInBounds i (chain b).head?)[j]? = t.next[j]? := fun j other => by
    simp [Ne.symm other]
  rw [shape]
  refine ⟨_, ?_, h.replace inside ⟨t.next.setIfInBounds i (chain b).head?, t.heads.setIfInBounds b (some i)⟩
    (by simp) (by simp) ⟨?_, ?_⟩ (List.nodup_cons.mpr ⟨fresh b, h.nodup b⟩) ?_ ?_ ?_⟩
  · rw [insert, get_bind, bind_ok (elementAt_ok (h.heads b inside)), get_bind,
      bind_ok ((h.chained b).seek_eq (h.size_next ▸ h.length_le b) _), absent]
    simp only
    rw [bind_ok (setNext_ok (by simpa [h.size_next] using slot) _), setHead, modify_apply]
  · simp [h.size_next, slot]
  · exact (h.chained b).of_eq fun j member => frame j fun same => fresh b (same ▸ member)
  · intro j member b' there
    rcases List.mem_cons.mp member with rfl | member
    · exact absurd there (fresh b')
    · exact h.apart there member
  · exact fun j _ other => frame j fun same => other (by simp [same])
  · exact fun j member other => absurd (List.mem_cons_of_mem i member) other

def bypass (b : Nat) (prev next : Option Nat) : Update Chains Unit :=
  match prev with
  | some p => setNext p next
  | none => setHead b next

theorem unlink_eq (before : List Nat) {between after : List Nat} {b i : Nat}
    (chained : Chained t.next (between ++ i :: after) none) (fresh : i ∉ between) {fuel : Nat}
    (enough : (between ++ i :: after).length ≤ fuel) :
    unlink b i fuel before.getLast? (between ++ i :: after).head? t =
      (do bypass b (before ++ between).getLast? after.head?; setNext i none : Update Chains Unit) t := by
  induction between generalizing before fuel with
  | nil =>
      obtain ⟨here, -⟩ := chained
      cases fuel with
      | zero => simp at enough
      | succ fuel =>
          rw [List.nil_append, List.head?_cons, unlink, get_bind, bind_ok (elementAt_ok here), Option.or_none,
            List.append_nil]
          cases before.getLast? <;> simp [bypass]
  | cons j between ih =>
      obtain ⟨here, chained⟩ := chained
      have other : j ≠ i := fun same => fresh (by simp [same])
      cases fuel with
      | zero => simp at enough
      | succ fuel =>
          have next := ih (before ++ [j]) chained (fun member => fresh (List.mem_cons_of_mem j member))
            (by simpa using enough)
          rw [List.getLast?_concat, List.append_assoc] at next
          rw [List.cons_append, List.head?_cons, unlink, get_bind, bind_ok (elementAt_ok here), Option.or_none,
            if_neg other]
          exact next

theorem bypass_ok (b : Nat) {before : List Nat} {last : Option Nat} (chained : Chained t.next before last)
    (nodup : before.Nodup) (next : Option Nat) :
    ∃ t', bypass b before.getLast? next t = .ok () t' ∧ t'.next.size = t.next.size ∧
      t'.heads = (if before = [] then t.heads.setIfInBounds b next else t.heads) ∧
      Chained t'.next before next ∧ ∀ i, i ∉ before → t'.next[i]? = t.next[i]? := by
  cases final : before.getLast? with
  | none =>
      obtain rfl := List.getLast?_eq_none_iff.mp final
      exact ⟨_, rfl, rfl, rfl, trivial, fun _ _ => rfl⟩
  | some p =>
      obtain ⟨front, rfl⟩ := List.getLast?_eq_some_iff.mp final
      obtain ⟨chained, here, -⟩ := (chained_append t.next front [p] last).mp chained
      have size := (Array.getElem?_eq_some_iff.mp here).1
      refine ⟨_, setNext_ok size next, by simp, by simp, ?_, ?_⟩
      · refine (chained_append _ front [p] next).mpr ⟨?_, ?_, trivial⟩
        · refine chained.of_eq fun j member => ?_
          have : p ≠ j := fun same => (List.nodup_append.mp nodup).2.2 j member p (by simp) same.symm
          simp [this]
        · simp [size]
      · intro j other
        have : p ≠ j := fun same => other (by simp [same])
        simp [this]

theorem remove_holds (h : t.Holds slots buckets chain) {b i : Nat} (member : i ∈ chain b) :
    ∃ t', remove b i t = .ok () t' ∧ t'.Holds slots buckets fun b' => (chain b').erase i := by
  obtain ⟨before, after, parting⟩ := exists_parting (h.nodup b) member
  have chained := h.chained b
  rw [parting.split] at chained
  have run : remove b i t = (do bypass b before.getLast? after.head?; setNext i none : Update Chains Unit) t := by
    rw [remove, get_bind, bind_ok (elementAt_ok (h.heads b (h.lt_buckets member))), get_bind, parting.split]
    exact unlink_eq [] chained parting.not_before (by rw [← parting.split, h.size_next]; exact h.length_le b)
  obtain ⟨chainedBefore, here, chainedAfter⟩ := (chained_append t.next before (i :: after) none).mp chained
  obtain ⟨t', bypassed, size, heads, chained', frame⟩ := bypass_ok b chainedBefore parting.before_nodup after.head?
  have slot : i < t'.next.size := by
    rw [size]
    exact (Array.getElem?_eq_some_iff.mp here).1
  have others : ∀ j, j ≠ i → (t'.next.setIfInBounds i none)[j]? = t'.next[j]? := fun j other => by
    simp [Ne.symm other]
  rw [parting.erase_lists fun b' there => h.apart there member, run]
  refine ⟨_, (bind_ok bypassed _).trans (setNext_ok slot none),
    h.replace (h.lt_buckets member) _ ?_ ?_ ?_ parting.nodup ?_ ?_ ?_⟩
  · simp [size]
  · rw [heads]
    cases before with
    | nil => rfl
    | cons first rest =>
        have same : t.heads[b]? = some (some first) := by
          rw [h.heads b (h.lt_buckets member), parting.split, List.cons_append, List.head?_cons]
        refine Array.ext_getElem? fun j => ?_
        by_cases atHead : b = j
        · subst atHead
          simpa [(Array.getElem?_eq_some_iff.mp same).1] using same
        · simp [atHead]
  · refine (chained_append _ before after none).mpr ⟨?_, ?_⟩
    · rw [Option.or_none]
      exact chained'.of_eq fun j here => others j fun same => parting.not_before (same ▸ here)
    · refine chainedAfter.of_eq fun j here => ?_
      rw [others j fun same => parting.not_after (same ▸ here), frame j fun there => parting.apart j there here]
  · exact fun j here b' there => h.apart there (parting.mem_of_left here)
  · intro j old new
    rw [others j fun same => old (same ▸ member), frame j fun here => new (List.mem_append_left _ here)]
  · intro j old new
    simp [parting.eq_of_gone old new, slot]

theorem Chained.walk_eq {next : Array (Option Nat)} {l : List Nat} (chained : Chained next l none) {fuel : Nat}
    (enough : l.length ≤ fuel) : walk next fuel l.head? = l := by
  induction l generalizing fuel with
  | nil => cases fuel <;> rfl
  | cons i rest ih =>
      obtain ⟨here, chained⟩ := chained
      cases fuel with
      | zero => simp at enough
      | succ fuel =>
          have step : next[i]?.join = rest.head? := by simp [here]
          rw [List.head?_cons, walk, step, ih chained (by simpa using enough)]

theorem Holds.toList_eq (h : t.Holds slots buckets chain) (b : Nat) : t.toList b = chain b := by
  rw [toList]
  rcases Nat.lt_or_ge b buckets with inside | outside
  · have length := h.length_le b
    simpa [h.heads b inside, h.size_next] using (h.chained b).walk_eq (show (chain b).length ≤ slots + 1 by omega)
  · have none : t.heads[b]? = none := Array.getElem?_eq_none (by rw [h.size_heads]; exact outside)
    simp [none, h.outside b outside, walk]

theorem Chained.next_eq {next next' : Array (Option Nat)} {l : List Nat} {last : Option Nat}
    (chained : Chained next l last) (chained' : Chained next' l last) {i : Nat} (member : i ∈ l) :
    next[i]? = next'[i]? := by
  induction l with
  | nil => cases member
  | cons j rest ih =>
      rcases List.mem_cons.mp member with rfl | member
      · exact chained.1.trans chained'.1.symm
      · exact ih chained.2 chained'.2 member

theorem Holds.unique {t' : Chains} (h : t.Holds slots buckets chain) (h' : t'.Holds slots buckets chain) : t = t' := by
  have next : t.next = t'.next := by
    refine Array.ext_getElem? fun i => ?_
    rcases Nat.lt_or_ge i slots with slot | beyond
    · by_cases held : ∃ b, i ∈ chain b
      · obtain ⟨b, member⟩ := held
        exact (h.chained b).next_eq (h'.chained b) member
      · have free : ∀ b, i ∉ chain b := fun b member => held ⟨b, member⟩
        exact (h.alone i slot free).trans (h'.alone i slot free).symm
    · rw [Array.getElem?_eq_none (h.size_next ▸ beyond), Array.getElem?_eq_none (h'.size_next ▸ beyond)]
  have heads : t.heads = t'.heads := by
    refine Array.ext_getElem? fun b => ?_
    rcases Nat.lt_or_ge b buckets with inside | outside
    · exact (h.heads b inside).trans (h'.heads b inside).symm
    · rw [Array.getElem?_eq_none (h.size_heads ▸ outside), Array.getElem?_eq_none (h'.size_heads ▸ outside)]
  cases t
  cases t'
  exact congr (congrArg Chains.mk next) heads

theorem empty_holds (slots buckets : Nat) : (empty slots buckets).Holds slots buckets fun _ => [] where
  size_next := by simp [empty]
  size_heads := by simp [empty]
  heads b inside := by simp [empty, inside]
  outside _ _ := rfl
  chained _ := trivial
  nodup _ := List.nodup_nil
  apart member := by simp at member
  alone i slot _ := by simp [empty, slot]

end

end BlockCache.Chains
