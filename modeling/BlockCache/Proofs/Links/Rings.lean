import BlockCache.Proofs.Links.Parting
import BlockCache.Proofs.Update
import BlockCache.Rings

/-!
# Rings as lists

What the links of an array of nodes say when each ring holds a list of nodes, and what the operations on rings
make of these lists:

* `push_holds`: a node of no ring becomes the last of the ring.
* `remove_holds`: a node of a ring is taken out, and the others stay in order.
* `pop_holds`: the first node is taken out.
* `Holds.forward_eq`: the walk along a ring is its list, and the walk back is that list reversed.
-/

namespace BlockCache.Rings
open Update

def Linked (links : Array Link) : Option Nat → List Nat → Option Nat → Prop
  | _, [], _ => True
  | prev, i :: rest, next =>
      links[i]? = some ⟨prev, rest.head?.or next⟩ ∧ Linked links (some i) rest next

/-- Each ring holds the list that `ring` has for it. No node is in two of the lists or twice in one, and a node in
none of them has no neighbours. -/
structure Holds (t : Rings) (nodes count : Nat) (ring : Nat → List Nat) : Prop where
  size_links : t.links.size = nodes
  size_rings : t.rings.size = count
  ends : ∀ b < count, t.rings[b]? = some ⟨(ring b).head?, (ring b).getLast?, (ring b).length⟩
  outside : ∀ b, count ≤ b → ring b = []
  linked : ∀ b, Linked t.links none (ring b) none
  nodup : ∀ b, (ring b).Nodup
  apart : ∀ {b b' i}, i ∈ ring b → i ∈ ring b' → b = b'
  alone : ∀ i < nodes, (∀ b, i ∉ ring b) → t.links[i]? = some Link.none

/-! ## Links -/

theorem linked_append (links : Array Link) (prev : Option Nat) (before after : List Nat) (next : Option Nat) :
    Linked links prev (before ++ after) next ↔
      Linked links prev before (after.head?.or next) ∧ Linked links (before.getLast?.or prev) after next := by
  induction before generalizing prev with
  | nil => simp [Linked]
  | cons i rest ih =>
      have last : (i :: rest).getLast?.or prev = rest.getLast?.or (some i) := by
        rw [List.getLast?_cons]
        cases rest.getLast? <;> rfl
      simp only [List.cons_append, Linked, List.head?_append, Option.or_assoc, ih, last, and_assoc]

theorem Linked.of_eq {links links' : Array Link} {prev next : Option Nat} {l : List Nat}
    (linked : Linked links prev l next) (same : ∀ i ∈ l, links'[i]? = links[i]?) : Linked links' prev l next := by
  induction l generalizing prev with
  | nil => trivial
  | cons i rest ih =>
      obtain ⟨here, linked⟩ := linked
      refine ⟨by rw [same i (by simp), here], ih linked fun j member => ?_⟩
      exact same j (List.mem_cons_of_mem i member)

theorem Linked.lt_size {links : Array Link} {prev next : Option Nat} {l : List Nat}
    (linked : Linked links prev l next) {i : Nat} (member : i ∈ l) : i < links.size := by
  induction l generalizing prev with
  | nil => simp at member
  | cons j rest ih =>
      obtain ⟨here, linked⟩ := linked
      rcases List.mem_cons.mp member with rfl | member
      · exact (Array.getElem?_eq_some_iff.mp here).1
      · exact ih linked member

theorem Holds.lt_nodes {t : Rings} {nodes count : Nat} {ring : Nat → List Nat} (h : t.Holds nodes count ring)
    {b i : Nat} (member : i ∈ ring b) : i < nodes :=
  h.size_links ▸ (h.linked b).lt_size member

theorem Holds.lt_count {t : Rings} {nodes count : Nat} {ring : Nat → List Nat} (h : t.Holds nodes count ring)
    {b i : Nat} (member : i ∈ ring b) : b < count := by
  rcases Nat.lt_or_ge b count with inside | outside
  · exact inside
  · rw [h.outside b outside] at member
    cases member

theorem relink_ok {t : Rings} {i : Nat} {link : Link} (here : t.links[i]? = some link) (change : Link → Link) :
    relink i change t = .ok () { t with links := t.links.setIfInBounds i (change link) } := by
  rw [relink, get_bind, bind_ok (elementAt_ok here)]
  rfl

theorem Holds.replace {t : Rings} {nodes count : Nat} {ring : Nat → List Nat} (h : t.Holds nodes count ring)
    {b : Nat} (inside : b < count) (links : Array Link) {l : List Nat} (size : links.size = t.links.size)
    (linked : Linked links none l none) (nodup : l.Nodup) (own : ∀ i ∈ l, ∀ b', i ∈ ring b' → b' = b)
    (frame : ∀ i, i ∉ ring b → i ∉ l → links[i]? = t.links[i]?)
    (left : ∀ i ∈ ring b, i ∉ l → links[i]? = some Link.none) :
    Holds ⟨links, t.rings.setIfInBounds b ⟨l.head?, l.getLast?, l.length⟩⟩ nodes count
      (fun b' => if b' = b then l else ring b') where
  size_links := size.trans h.size_links
  size_rings := by simpa using h.size_rings
  ends b' inside' := by
    by_cases same : b' = b
    · subst same
      simp [h.size_rings, inside]
    · simp [same, Ne.symm same, h.ends b' inside']
  outside b' far := by
    have other : b' ≠ b := by omega
    simp [other, h.outside b' far]
  linked b' := by
    by_cases same : b' = b
    · simpa [same] using linked
    · simp only [same, if_false]
      refine (h.linked b').of_eq fun i member => frame i (fun here => same (h.apart member here)) ?_
      exact fun here => same (own i here b' member)
  nodup b' := by
    by_cases same : b' = b
    · simpa [same] using nodup
    · simpa [same] using h.nodup b'
  apart {b₁ b₂ i} in₁ in₂ := by
    by_cases same₁ : b₁ = b <;> by_cases same₂ : b₂ = b <;> simp only [same₁, same₂, if_true, if_false] at in₁ in₂
    · exact same₁.trans same₂.symm
    · exact absurd (own i in₁ b₂ in₂) same₂
    · exact absurd (own i in₂ b₁ in₁) same₁
    · exact h.apart in₁ in₂
  alone i node none := by
    have fresh : i ∉ l := by simpa using none b
    by_cases here : i ∈ ring b
    · exact left i here fresh
    · rw [frame i here fresh]
      refine h.alone i node fun b' member => ?_
      have same : b' ≠ b := fun same => here (same ▸ member)
      exact none b' (by simpa [same] using member)

/-! ## Operations -/

section
variable {t : Rings} {nodes count : Nat} {ring : Nat → List Nat}

def relinkAt (neighbour : Option Nat) (change : Link → Link) : Update Rings Unit :=
  match neighbour with
  | some i => relink i change
  | none => pure ()

theorem push_eq (b i : Nat) :
    push b i = (do
      let ring ← elementAt (← get).rings b
      relink i fun _ => ⟨ring.tail, none⟩
      relinkAt ring.tail fun link => { link with next := some i }
      setRing b ⟨if ring.tail.isSome then ring.head else some i, some i, ring.len + 1⟩) := by
  unfold push relinkAt
  congr
  funext t
  congr
  funext ring
  cases ring.tail <;> rfl

theorem remove_eq (b i : Nat) :
    remove b i = (do
      let ring ← elementAt (← get).rings b
      let link ← elementAt (← get).links i
      relinkAt link.next fun l => { l with prev := link.prev }
      relinkAt link.prev fun l => { l with next := link.next }
      relink i fun _ => Link.none
      setRing b ⟨if link.prev.isSome then ring.head else link.next,
        if link.next.isSome then ring.tail else link.prev, ring.len - 1⟩
      if ring.len = 0 then throw .emptyRing) := by
  unfold remove relinkAt
  congr
  funext t
  congr
  funext ring
  congr
  funext t
  congr
  funext link
  cases link.next <;> cases link.prev <;> rfl

theorem relinkAt_head {links : Array Link} (rings : Array Ring) {prev next : Option Nat} {l : List Nat}
    (linked : Linked links prev l next) (nodup : l.Nodup) (prev' : Option Nat) :
    ∃ links', relinkAt l.head? (fun link => { link with prev := prev' }) ⟨links, rings⟩ = .ok () ⟨links', rings⟩ ∧
      links'.size = links.size ∧ Linked links' prev' l next ∧ ∀ i, i ∉ l → links'[i]? = links[i]? := by
  cases l with
  | nil => exact ⟨links, rfl, rfl, trivial, fun _ _ => rfl⟩
  | cons i rest =>
      obtain ⟨here, linked⟩ := linked
      have size := (Array.getElem?_eq_some_iff.mp here).1
      refine ⟨links.setIfInBounds i ⟨prev', rest.head?.or next⟩, relink_ok (t := ⟨links, rings⟩) here _, by simp,
        ⟨?_, ?_⟩, ?_⟩
      · simp [size]
      · refine linked.of_eq fun j member => ?_
        have : i ≠ j := fun same => (List.nodup_cons.mp nodup).1 (same ▸ member)
        simp [this]
      · intro j other
        have : i ≠ j := fun same => other (by simp [same])
        simp [this]

theorem relinkAt_last {links : Array Link} (rings : Array Ring) {prev next : Option Nat} {l : List Nat}
    (linked : Linked links prev l next) (nodup : l.Nodup) (next' : Option Nat) :
    ∃ links', relinkAt l.getLast? (fun link => { link with next := next' }) ⟨links, rings⟩ = .ok () ⟨links', rings⟩ ∧
      links'.size = links.size ∧ Linked links' prev l next' ∧ ∀ i, i ∉ l → links'[i]? = links[i]? := by
  cases last : l.getLast? with
  | none =>
      obtain rfl := List.getLast?_eq_none_iff.mp last
      exact ⟨links, rfl, rfl, trivial, fun _ _ => rfl⟩
  | some i =>
    obtain ⟨front, rfl⟩ := List.getLast?_eq_some_iff.mp last
    obtain ⟨linked, here, -⟩ := (linked_append links prev front [i] next).mp linked
    have size := (Array.getElem?_eq_some_iff.mp here).1
    refine ⟨links.setIfInBounds i ⟨front.getLast?.or prev, next'⟩, relink_ok (t := ⟨links, rings⟩) here _, by simp,
      ?_, ?_⟩
    · refine (linked_append _ prev front [i] next').mpr ⟨?_, ?_, trivial⟩
      · refine linked.of_eq fun j member => ?_
        have : i ≠ j := fun same => (List.nodup_append.mp nodup).2.2 j member i (by simp) same.symm
        simp [this]
      · simp [size]
    · intro j other
      have : i ≠ j := fun same => other (by simp [same])
      simp [this]

theorem push_holds (h : t.Holds nodes count ring) {b i : Nat} (inside : b < count) (node : i < nodes)
    (fresh : ∀ b', i ∉ ring b') :
    ∃ t', push b i t = .ok () t' ∧
      t'.Holds nodes count fun b' => if b' = b then ring b' ++ [i] else ring b' := by
  have shape : (fun b' => if b' = b then ring b' ++ [i] else ring b') =
      fun b' => if b' = b then ring b ++ [i] else ring b' := by
    funext b'
    split <;> simp_all
  have nodup : (ring b ++ [i]).Nodup := by
    simpa [List.nodup_append, h.nodup b] using fun j member (same : j = i) => fresh b (same ▸ member)
  have own : ∀ j ∈ ring b ++ [i], ∀ b', j ∈ ring b' → b' = b := by
    intro j member b' here
    rcases List.mem_append.mp member with member | member
    · exact h.apart here member
    · exact absurd (List.mem_singleton.mp member ▸ here) (fresh b')
  -- The new node is linked first, which leaves the nodes of the ring as they are.
  let links₁ := t.links.setIfInBounds i ⟨(ring b).getLast?, none⟩
  have linked₁ : Linked links₁ none (ring b) none := (h.linked b).of_eq fun j member => by
    have : i ≠ j := fun same => fresh b (same ▸ member)
    simp [links₁, this]
  obtain ⟨links, relinked, size, linked, frame⟩ := relinkAt_last t.rings linked₁ (h.nodup b) (some i)
  rw [shape]
  refine ⟨_, ?_, h.replace inside links (by simpa [links₁] using size) ?_ nodup own ?_ ?_⟩
  · rw [push_eq, get_bind, bind_ok (elementAt_ok (h.ends b inside)),
      bind_ok (relink_ok (h.alone i node fresh) _), bind_ok relinked, setRing, modify_apply]
    simp
    cases ring b <;> simp
  · refine (linked_append links none (ring b) [i] none).mpr ⟨linked, ?_, trivial⟩
    rw [frame i (fresh b)]
    simp [links₁, h.size_links, node]
  · intro j old other
    have : i ≠ j := fun same => other (by simp [same])
    rw [frame j old]
    simp [links₁, this]
  · intro j member other
    exact absurd (List.mem_append_left _ member) other

private theorem ends_without (before after : List Nat) (i : Nat) :
    Ring.mk (if before.getLast?.isSome then (before ++ i :: after).head? else after.head?)
      (if after.head?.isSome then (before ++ i :: after).getLast? else before.getLast?)
      ((before ++ i :: after).length - 1) =
    ⟨(before ++ after).head?, (before ++ after).getLast?, (before ++ after).length⟩ := by
  cases before <;> cases after <;> simp [List.getLast?_append, List.getLast?_cons, Nat.add_assoc]

theorem remove_holds (h : t.Holds nodes count ring) {b i : Nat} (member : i ∈ ring b) :
    ∃ t', remove b i t = .ok () t' ∧ t'.Holds nodes count fun b' => (ring b').erase i := by
  obtain ⟨before, after, parting⟩ := exists_parting (h.nodup b) member
  -- The two neighbours are linked to each other: first the one behind, then the one in front.
  have linked := h.linked b
  rw [parting.split] at linked
  obtain ⟨linkedBefore, here, linkedAfter⟩ := (linked_append t.links none before (i :: after) none).mp linked
  simp only [Option.or_none, List.head?_cons] at here linkedBefore linkedAfter
  obtain ⟨links₁, relinked₁, size₁, after₁, frame₁⟩ :=
    relinkAt_head t.rings linkedAfter parting.after_nodup before.getLast?
  have before₁ : Linked links₁ none before (some i) := linkedBefore.of_eq fun j here => frame₁ j (parting.apart j here)
  obtain ⟨links₂, relinked₂, size₂, before₂, frame₂⟩ :=
    relinkAt_last t.rings before₁ parting.before_nodup after.head?
  have after₂ : Linked links₂ before.getLast? after none := after₁.of_eq fun j here =>
    frame₂ j fun there => parting.apart j there here
  have here₂ : links₂[i]? = some ⟨before.getLast?, after.head?⟩ := by
    rw [frame₂ i parting.not_before, frame₁ i parting.not_after, here]
  have others : ∀ j, j ≠ i → (links₂.setIfInBounds i Link.none)[j]? = links₂[j]? := fun j other => by
    simp [Ne.symm other]
  rw [parting.erase_lists fun b' there => h.apart there member]
  refine ⟨_, ?_, h.replace (h.lt_count member) (links₂.setIfInBounds i Link.none) ?_ ?_ parting.nodup ?_ ?_ ?_⟩
  · rw [remove_eq, get_bind, bind_ok (elementAt_ok (h.ends b (h.lt_count member))), get_bind,
      bind_ok (elementAt_ok here), bind_ok relinked₁, bind_ok relinked₂,
      bind_ok (relink_ok (t := ⟨links₂, t.rings⟩) here₂ _), setRing, modify_bind]
    rw [parting.split, ends_without before after i]
    simp
  · simp [size₁, size₂]
  · refine (linked_append _ none before after none).mpr ⟨?_, ?_⟩
    · rw [Option.or_none]
      exact before₂.of_eq fun j here => others j fun same => parting.not_before (same ▸ here)
    · rw [Option.or_none]
      exact after₂.of_eq fun j here => others j fun same => parting.not_after (same ▸ here)
  · exact fun j here b' there => h.apart there (parting.mem_of_left here)
  · intro j old new
    rw [others j fun same => old (same ▸ member), frame₂ j fun here => new (List.mem_append_left _ here),
      frame₁ j fun here => new (List.mem_append_right _ here)]
  · intro j old new
    have inside := (Array.getElem?_eq_some_iff.mp here₂).1
    simp [parting.eq_of_gone old new, inside]

theorem pop_holds_nil (h : t.Holds nodes count ring) {b : Nat} (inside : b < count) (empty : ring b = []) :
    pop b t = .ok none t := by
  rw [pop, get_bind, bind_ok (elementAt_ok (h.ends b inside))]
  simp [empty]

theorem pop_holds (h : t.Holds nodes count ring) {b i : Nat} {rest : List Nat} (first : ring b = i :: rest) :
    ∃ t', pop b t = .ok (some i) t' ∧ t'.Holds nodes count fun b' => (ring b').erase i := by
  have member : i ∈ ring b := by simp [first]
  obtain ⟨t', removed, holds⟩ := remove_holds h member
  refine ⟨t', ?_, holds⟩
  rw [pop, get_bind, bind_ok (elementAt_ok (h.ends b (h.lt_count member)))]
  simp only [first, List.head?_cons]
  rw [bind_ok removed, pure_apply]

/-! ## Walks -/

theorem Linked.walk_eq {links : Array Link} {prev : Option Nat} {l : List Nat} (linked : Linked links prev l none)
    {fuel : Nat} (enough : l.length ≤ fuel) : walk (fun i => links[i]? >>= Link.next) fuel l.head? = l := by
  induction l generalizing prev fuel with
  | nil => cases fuel <;> rfl
  | cons i rest ih =>
      obtain ⟨here, linked⟩ := linked
      cases fuel with
      | zero => simp at enough
      | succ fuel =>
          have step : (links[i]? >>= Link.next) = rest.head? := by simp [here]
          rw [List.head?_cons, walk, step, ih linked (by simpa using enough)]

theorem Holds.length_le (h : t.Holds nodes count ring) (b : Nat) : (ring b).length ≤ nodes :=
  length_le_of_lt (h.nodup b) fun _ => h.lt_nodes

theorem Holds.forward_eq (h : t.Holds nodes count ring) (b : Nat) : t.forward b = ring b := by
  rw [forward]
  rcases Nat.lt_or_ge b count with inside | outside
  · have length := h.length_le b
    simpa [h.ends b inside, h.size_links] using (h.linked b).walk_eq (show (ring b).length ≤ nodes + 1 by omega)
  · have none : t.rings[b]? = none := Array.getElem?_eq_none (by rw [h.size_rings]; exact outside)
    simp [none, h.outside b outside, walk]

theorem Linked.walk_back_eq {links : Array Link} {next : Option Nat} {l : List Nat} (linked : Linked links none l next)
    {fuel : Nat} (enough : l.length ≤ fuel) :
    walk (fun i => links[i]? >>= Link.prev) fuel l.getLast? = l.reverse := by
  induction fuel generalizing l next with
  | zero => simp [List.length_eq_zero_iff.mp (Nat.le_zero.mp enough), walk]
  | succ fuel ih =>
      cases last : l.getLast? with
      | none => simp [List.getLast?_eq_none_iff.mp last, walk]
      | some i =>
          obtain ⟨front, rfl⟩ := List.getLast?_eq_some_iff.mp last
          obtain ⟨linked, here, -⟩ := (linked_append links none front [i] next).mp linked
          have step : (links[i]? >>= Link.prev) = front.getLast? := by simp [here]
          rw [walk, step, ih linked (by simpa using enough), List.reverse_concat]

theorem Holds.backward_eq (h : t.Holds nodes count ring) (b : Nat) : t.backward b = (ring b).reverse := by
  rw [backward]
  rcases Nat.lt_or_ge b count with inside | outside
  · have length := h.length_le b
    simpa [h.ends b inside, h.size_links] using (h.linked b).walk_back_eq (show (ring b).length ≤ nodes + 1 by omega)
  · have none : t.rings[b]? = none := Array.getElem?_eq_none (by rw [h.size_rings]; exact outside)
    simp [none, h.outside b outside, walk]

theorem Linked.link_eq {links links' : Array Link} {prev next : Option Nat} {l : List Nat}
    (linked : Linked links prev l next) (linked' : Linked links' prev l next) {i : Nat} (member : i ∈ l) :
    links[i]? = links'[i]? := by
  induction l generalizing prev with
  | nil => cases member
  | cons j rest ih =>
      rcases List.mem_cons.mp member with rfl | member
      · exact linked.1.trans linked'.1.symm
      · exact ih linked.2 linked'.2 member

theorem Holds.unique {t' : Rings} (h : t.Holds nodes count ring) (h' : t'.Holds nodes count ring) : t = t' := by
  have links : t.links = t'.links := by
    refine Array.ext_getElem? fun i => ?_
    rcases Nat.lt_or_ge i nodes with node | beyond
    · by_cases held : ∃ b, i ∈ ring b
      · obtain ⟨b, member⟩ := held
        exact (h.linked b).link_eq (h'.linked b) member
      · have free : ∀ b, i ∉ ring b := fun b member => held ⟨b, member⟩
        exact (h.alone i node free).trans (h'.alone i node free).symm
    · rw [Array.getElem?_eq_none (h.size_links ▸ beyond), Array.getElem?_eq_none (h'.size_links ▸ beyond)]
  have rings : t.rings = t'.rings := by
    refine Array.ext_getElem? fun b => ?_
    rcases Nat.lt_or_ge b count with inside | outside
    · exact (h.ends b inside).trans (h'.ends b inside).symm
    · rw [Array.getElem?_eq_none (h.size_rings ▸ outside), Array.getElem?_eq_none (h'.size_rings ▸ outside)]
  cases t
  cases t'
  exact congr (congrArg Rings.mk links) rings

theorem empty_holds (nodes count : Nat) : (empty nodes count).Holds nodes count fun _ => [] where
  size_links := by simp [empty]
  size_rings := by simp [empty]
  ends b inside := by simp [empty, inside, Ring.empty]
  outside _ _ := rfl
  linked _ := trivial
  nodup _ := List.nodup_nil
  apart member := by simp at member
  alone i node _ := by simp [empty, node]

end

end BlockCache.Rings
