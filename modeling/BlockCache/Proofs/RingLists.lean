import BlockCache.Proofs.Links.Rings

/-!
# Rings hold lists

Any rings over one array of nodes behave as lists without a common node, whatever pushes, removals and pops are made in
whatever order: `rings_hold_lists`. `Rings.Reads` says how the lists are read off the links, `Command.next` what a
command makes of the lists, and `Command.reply` what it answers.
-/

namespace BlockCache

namespace Rings
open Update

inductive Command
  | push (ring node : Nat)
  | remove (ring node : Nat)
  | pop (ring : Nat)

namespace Command

def ring : Command → Nat
  | push b _ | remove b _ | pop b => b

def perform : Command → Update Rings (Option Nat)
  | push b i => do
      let _ ← Rings.push b i
      return none
  | remove b i => do
      let _ ← Rings.remove b i
      return none
  | pop b => Rings.pop b

/-- A command is meant for a ring that there is. A node is pushed if it is in no ring, and removed from the ring that
has it; one beyond the array may be tried. -/
def Fits (nodes count : Nat) (lists : Nat → List Nat) : Command → Prop
  | push b i => b < count ∧ ∀ b' < count, i ∉ lists b'
  | remove b i => b < count ∧ (i < nodes → i ∈ lists b)
  | pop b => b < count

instance (nodes count : Nat) (lists : Nat → List Nat) (command : Command) :
    Decidable (command.Fits nodes count lists) := by
  cases command <;> unfold Fits <;> infer_instance

def next (nodes : Nat) (lists : Nat → List Nat) (command : Command) (b' : Nat) : List Nat :=
  match command with
  | push b i => if b' = b ∧ i < nodes then lists b' ++ [i] else lists b'
  | remove b i => if b' = b then (lists b').erase i else lists b'
  | pop b => if b' = b then (lists b').tail else lists b'

def reply (nodes : Nat) (lists : Nat → List Nat) : Command → Except Fault (Option Nat)
  | push _ i | remove _ i => if i < nodes then .ok none else .error (.outOfRange nodes i)
  | pop b => .ok (lists b).head?

end Command

structure Reads (t : Rings) (nodes count : Nat) (lists : Nat → List Nat) : Prop where
  forward : ∀ b, t.forward b = lists b
  backward : ∀ b, t.backward b = (lists b).reverse
  ends : ∀ b < count, t.rings[b]? = some ⟨(lists b).head?, (lists b).getLast?, (lists b).length⟩
  loose : ∀ i < nodes, (∀ b < count, i ∉ lists b) → t.links[i]? = some ⟨none, none⟩
  inside : ∀ b, ∀ i ∈ lists b, b < count ∧ i < nodes
  nodup : ∀ b, (lists b).Nodup
  apart : ∀ {b b' i}, i ∈ lists b → i ∈ lists b' → b = b'

/-- A command is answered as the lists say and makes of the rings what it makes of the lists. The other rings are as
they were, and a fault leaves everything as it was. -/
structure Obeys (t : Rings) (nodes count : Nat) (lists : Nat → List Nat) (command : Command) (t' : Rings) : Prop where
  answered : command.perform t = outcome (command.reply nodes lists) t'
  reads : t'.Reads nodes count (command.next nodes lists)
  others : ∀ b, b ≠ command.ring →
    t'.forward b = t.forward b ∧ t'.backward b = t.backward b ∧ t'.rings[b]? = t.rings[b]?
  refused : ∀ fault, command.reply nodes lists = .error fault → t' = t

variable {t : Rings} {nodes count : Nat} {lists : Nat → List Nat} {command : Command} {b i : Nat}

theorem Holds.reads (h : t.Holds nodes count lists) : t.Reads nodes count lists where
  forward := h.forward_eq
  backward := h.backward_eq
  ends := h.ends
  loose i node away := h.alone i node fun b member => away b (h.lt_count member) member
  inside _ _ member := ⟨h.lt_count member, h.lt_nodes member⟩
  nodup := h.nodup
  apart := h.apart

theorem relink_beyond (size : t.links.size = nodes) (beyond : nodes ≤ i) (change : Link → Link) :
    relink i change t = .error (.outOfRange nodes i) t := by
  subst size
  rw [relink, get_bind]
  exact bind_error (elementAt_beyond beyond) _

theorem push_beyond (h : t.Holds nodes count lists) (inside : b < count) (beyond : nodes ≤ i) :
    push b i t = .error (.outOfRange nodes i) t := by
  rw [push_eq, get_bind, bind_ok (elementAt_ok (h.ends b inside))]
  exact bind_error (relink_beyond h.size_links beyond _) _

theorem remove_beyond (h : t.Holds nodes count lists) (inside : b < count) (beyond : nodes ≤ i) :
    remove b i t = .error (.outOfRange nodes i) t := by
  obtain rfl := h.size_links
  rw [remove_eq, get_bind, bind_ok (elementAt_ok (h.ends b inside)), get_bind]
  exact bind_error (elementAt_beyond beyond) _

theorem next_push (node : i < nodes) :
    (Command.push b i).next nodes lists = fun b' => if b' = b then lists b' ++ [i] else lists b' := by
  funext b'
  simp only [Command.next, node, and_true]

theorem next_push_beyond (beyond : ¬ i < nodes) : (Command.push b i).next nodes lists = lists := by
  funext b'
  simp only [Command.next, beyond, and_false, if_false]

theorem next_remove (h : t.Holds nodes count lists) (member : i ∈ lists b) :
    (Command.remove b i).next nodes lists = fun b' => (lists b').erase i :=
  erase_alone fun _ there => h.apart there member

theorem next_remove_absent (absent : i ∉ lists b) : (Command.remove b i).next nodes lists = lists :=
  erase_absent absent

theorem next_pop_nil (empty : lists b = []) : (Command.pop b).next nodes lists = lists := by
  funext b'
  rw [Command.next]
  split
  · rename_i same
    rw [same, empty, List.tail_nil]
  · rfl

theorem next_pop {rest : List Nat} (first : lists b = i :: rest) :
    (Command.pop b).next nodes lists = (Command.remove b i).next nodes lists := by
  funext b'
  rw [Command.next, Command.next]
  split
  · rename_i same
    rw [same, first, List.tail_cons, List.erase_cons_head]
  · rfl

theorem Holds.step (h : t.Holds nodes count lists) (fits : command.Fits nodes count lists) :
    ∃ t', command.perform t = outcome (command.reply nodes lists) t' ∧
      t'.Holds nodes count (command.next nodes lists) ∧
      ∀ fault, command.reply nodes lists = .error fault → t' = t := by
  cases command with
  | push b i =>
      obtain ⟨inside, away⟩ := fits
      by_cases node : i < nodes
      · have fresh : ∀ b', i ∉ lists b' := fun b' member => away b' (h.lt_count member) member
        obtain ⟨t', pushed, holds⟩ := push_holds h inside node fresh
        rw [Command.reply, if_pos node, next_push node]
        exact ⟨t', bind_ok pushed _, holds, by simp⟩
      · rw [Command.reply, if_neg node, next_push_beyond node]
        exact ⟨t, bind_error (push_beyond h inside (Nat.le_of_not_lt node)) _, h, fun _ _ => rfl⟩
  | remove b i =>
      obtain ⟨inside, there⟩ := fits
      by_cases node : i < nodes
      · obtain ⟨t', removed, holds⟩ := remove_holds h (there node)
        rw [Command.reply, if_pos node, next_remove h (there node)]
        exact ⟨t', bind_ok removed _, holds, by simp⟩
      · have absent : i ∉ lists b := fun member => node (h.lt_nodes member)
        rw [Command.reply, if_neg node, next_remove_absent absent]
        exact ⟨t, bind_error (remove_beyond h inside (Nat.le_of_not_lt node)) _, h, fun _ _ => rfl⟩
  | pop b =>
      cases first : lists b with
      | nil =>
          rw [Command.reply, first, next_pop_nil first]
          exact ⟨t, pop_holds_nil h fits first, h, fun _ _ => rfl⟩
      | cons i rest =>
          obtain ⟨t', popped, holds⟩ := pop_holds h first
          rw [Command.reply, first, next_pop first, next_remove h (by simp [first])]
          exact ⟨t', popped, holds, by simp⟩

theorem next_other {b' : Nat} (other : b' ≠ command.ring) : command.next nodes lists b' = lists b' := by
  cases command with
  | push b i => exact if_neg fun both => other both.1
  | remove b i => exact if_neg other
  | pop b => exact if_neg other

theorem Holds.obeys (h : t.Holds nodes count lists) (fits : command.Fits nodes count lists) :
    ∃ t', t.Obeys nodes count lists command t' := by
  obtain ⟨t', answered, holds, refused⟩ := h.step fits
  refine ⟨t', answered, holds.reads, fun b other => ?_, refused⟩
  have same : command.next nodes lists b = lists b := next_other other
  refine ⟨?_, ?_, ?_⟩
  · rw [holds.forward_eq, h.forward_eq, same]
  · rw [holds.backward_eq, h.backward_eq, same]
  · rcases Nat.lt_or_ge b count with inside | outside
    · rw [holds.ends b inside, h.ends b inside, same]
    · rw [Array.getElem?_eq_none (holds.size_rings ▸ outside), Array.getElem?_eq_none (h.size_rings ▸ outside)]

end Rings

/-- After any commands that fit, the rings read as the lists that the commands make, and carry out what is next. -/
theorem rings_hold_lists (nodes count : Nat) (commands : List Rings.Command)
    (admits : Update.Admits (fun lists command => command.Fits nodes count lists)
      (fun lists command => command.next nodes lists) (fun _ => []) commands) :
    let t := Update.runAll Rings.Command.perform commands (Rings.empty nodes count)
    let lists := commands.foldl (fun lists command => command.next nodes lists) fun _ => []
    t.Reads nodes count lists ∧
      ∀ command, command.Fits nodes count lists → ∃ t', t.Obeys nodes count lists command t' := by
  intro t lists
  have holds : t.Holds nodes count lists := by
    refine Update.runAll_simulates (R := fun t lists => Rings.Holds t nodes count lists) ?_
      (Rings.empty_holds nodes count) admits
    intro t lists command h fits
    obtain ⟨t', answered, holds, -⟩ := h.step fits
    rwa [Update.stateAfter_outcome answered]
  exact ⟨holds.reads, fun command fits => holds.obeys fits⟩

theorem rings_hold_lists_of_two :
    let commands : List Rings.Command :=
      [.push 0 3, .push 0 1, .push 1 0, .push 0 2, .remove 0 1, .push 1 1, .push 1 7, .remove 1 7, .pop 0]
    let t := Update.runAll Rings.Command.perform commands (Rings.empty 4 2)
    t.forward 0 = [2] ∧ t.backward 1 = [1, 0] ∧ ∃ t', Rings.pop 1 t = .ok (some 0) t' ∧ t'.forward 1 = [1] := by
  intro commands t
  obtain ⟨reads, obeys⟩ := rings_hold_lists 4 2 commands (by decide)
  obtain ⟨t', obeyed⟩ := obeys (.pop 1) (by decide)
  exact ⟨reads.forward 0, reads.backward 1, t', obeyed.answered, obeyed.reads.forward 1⟩

end BlockCache
