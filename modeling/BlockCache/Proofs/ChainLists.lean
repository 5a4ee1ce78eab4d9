import BlockCache.Proofs.Layout.Basic
import BlockCache.Proofs.Links.Paths

/-!
# Chains hold lists

The chains of the buckets behave as lists without a common slot, whatever insertions, removals and searches are made
among changes of identity and operations on the rings: `chains_hold_lists`. `Chains.Reads` says how the lists are read
off the links, and `Table.Follows` what each operation does to them.
-/

namespace BlockCache

namespace Table
open Update

inductive Command
  | insert (bucket slot : Nat)
  | remove (bucket slot : Nat)
  | find (bucket : Nat) (key : Key)
  | assign (slot : Nat) (key : Key)
  | push (bucket slot : Nat)
  | pop (bucket : Nat)
  | withdraw (bucket slot : Nat)

namespace Command

def perform : Command → Update Table (Option Nat)
  | insert b i => do
      let _ ← Table.chain b i
      return none
  | remove b i => do
      let _ ← Table.unchain b i
      return none
  | find b key => Table.find b key
  | assign i key => do
      let _ ← Table.occupy i key
      return none
  | push b i => do
      let _ ← Table.addNewest b i
      return none
  | pop b => Table.takeOldest b
  | withdraw b i => do
      let _ ← Table.withdraw b i
      return none

def onChains : Command → Chains → Chains
  | insert b i => stateAfter (Chains.insert b i)
  | remove b i => stateAfter (Chains.remove b i)
  | _ => id

def Fits (buckets : Nat) (chain : Nat → List Nat) : Command → Prop
  | insert b i => b < buckets ∧ ∀ b' < buckets, i ∈ chain b' → b' = b
  | remove b _ | find b _ => b < buckets
  | _ => True

instance (buckets : Nat) (chain : Nat → List Nat) (command : Command) : Decidable (command.Fits buckets chain) := by
  cases command <;> unfold Fits <;> infer_instance

def next (slots : Nat) (chain : Nat → List Nat) (command : Command) (b' : Nat) : List Nat :=
  match command with
  | insert b i => if b' = b ∧ i < slots ∧ i ∉ chain b then i :: chain b' else chain b'
  | remove b i => if b' = b then (chain b').erase i else chain b'
  | _ => chain b'

end Command
end Table

/-- The walks along the chains are the lists, which have no slot in common, and a slot of none of them leads nowhere. -/
structure Chains.Reads (t : Chains) (slots buckets : Nat) (chain : Nat → List Nat) : Prop where
  walks : ∀ b, t.toList b = chain b
  heads : ∀ b < buckets, t.heads[b]? = some (chain b).head?
  loose : ∀ i < slots, (∀ b < buckets, i ∉ chain b) → t.next[i]? = some none
  inside : ∀ b, ∀ i ∈ chain b, b < buckets ∧ i < slots
  nodup : ∀ b, (chain b).Nodup
  apart : ∀ {b b' i}, i ∈ chain b → i ∈ chain b' → b = b'

/-- The chains of the table hold the lists, and each operation does to them what it does to lists. A fault leaves
everything as it was. -/
structure Table.Follows (t : Table) (slots buckets : Nat) (chain : Nat → List Nat) : Prop where
  reads : t.chains.Reads slots buckets chain
  inserted : ∀ b < buckets, ∀ i < slots, (∀ b' < buckets, i ∉ chain b') → ∃ chains,
    Table.chain b i t = .ok () { t with chains } ∧
      chains.Reads slots buckets fun b' => if b' = b then i :: chain b' else chain b'
  removed : ∀ b, ∀ i ∈ chain b, ∃ chains,
    Table.unchain b i t = .ok () { t with chains } ∧ chains.next[i]? = some none ∧
      chains.Reads slots buckets fun b' => if b' = b then (chain b').erase i else chain b'
  found : ∀ b < buckets, ∀ key,
    Table.find b key t = .ok ((chain b).find? fun i => t.slots[i]?.any fun s => s.key = key) t
  missing : ∀ b < buckets, ∀ i, i ∉ chain b → Table.unchain b i t = .error (.stop (.unchained i)) t
  again : ∀ b, ∀ i ∈ chain b, Table.chain b i t = .error (.chained i) t
  beyond : ∀ b < buckets, ∀ i ≥ slots, Table.chain b i t = .error (.outOfRange slots i) t
  assigned : ∀ i key, (stateAfter (Table.occupy i key) t).chains = t.chains
  ringed : ∀ b i, (stateAfter (Table.addNewest b i) t).chains = t.chains ∧
    (stateAfter (Table.takeOldest b) t).chains = t.chains ∧ (stateAfter (Table.withdraw b i) t).chains = t.chains

open Update

namespace Table

variable {t : Table} {α : Type}

theorem stateAfter_onChains (update : Update Chains α) :
    stateAfter (onChains update) t = { t with chains := stateAfter update t.chains } := by
  obtain ⟨slots, chains, rings⟩ := t
  cases outcome : update chains <;> simp [stateAfter, onChains, outcome]

theorem stateAfter_onRings (update : Update Rings α) :
    stateAfter (onRings update) t = { t with rings := stateAfter update t.rings } := by
  obtain ⟨slots, chains, rings⟩ := t
  cases outcome : update rings <;> simp [stateAfter, onRings, outcome]

theorem onChains_error {update : Update Chains α} {fault : Fault} (broken : update t.chains = .error fault t.chains) :
    onChains update t = .error fault t := by
  obtain ⟨slots, chains, rings⟩ := t
  simp only [onChains, broken]

theorem occupy_chains (i : Nat) (key : Key) : (stateAfter (occupy i key) t).chains = t.chains := by
  rw [occupy, stateAfter_then, Table.update]
  cases here : t.slots[i]? with
  | none =>
      have read : slot i t = .error (.outOfRange t.slots.size i) t :=
        elementAt_beyond (Array.getElem?_eq_none_iff.mp here)
      rw [stateAfter, bind_error read]
  | some s =>
      have read : slot i t = .ok s t := elementAt_ok here
      rw [stateAfter, bind_ok read]
      rfl

theorem find_chains (b : Nat) (key : Key) : (stateAfter (Table.find b key) t).chains = t.chains := by
  have kept := stateAfter_onChains (t := t) (Chains.find b fun i => t.slots[i]?.any fun s => s.key = key)
  rw [Chains.find_state] at kept
  exact congrArg Table.chains kept

theorem onRings_chains (update : Update Rings α) : (stateAfter (onRings update) t).chains = t.chains := by
  rw [stateAfter_onRings]

theorem Command.chains_after (command : Command) :
    (stateAfter command.perform t).chains = command.onChains t.chains := by
  cases command with
  | insert b i | remove b i => rw [perform, stateAfter_then]; exact congrArg Table.chains (stateAfter_onChains _)
  | find b key => exact find_chains b key
  | assign i key => rw [perform, stateAfter_then]; exact occupy_chains i key
  | push b i | withdraw b i => rw [perform, stateAfter_then]; exact onRings_chains _
  | pop b => exact onRings_chains _

end Table

namespace Chains

variable {t : Chains} {slots buckets : Nat} {chain : Nat → List Nat} {b i : Nat}

theorem Holds.reads (h : t.Holds slots buckets chain) : t.Reads slots buckets chain where
  walks := h.toList_eq
  heads := h.heads
  loose i slot away := h.alone i slot fun b member => away b (h.lt_buckets member) member
  inside _ _ member := ⟨h.lt_buckets member, h.lt_slots member⟩
  nodup := h.nodup
  apart := h.apart

theorem Holds.insert_again (h : t.Holds slots buckets chain) (member : i ∈ chain b) :
    insert b i t = .error (.chained i) t := by
  rw [insert_eq (h.heads b (h.lt_buckets member)) (h.chained b), if_pos member]

theorem Holds.insert_beyond (h : t.Holds slots buckets chain) (inside : b < buckets) (beyond : slots ≤ i) :
    insert b i t = .error (.outOfRange slots i) t := by
  have away : i ∉ chain b := fun member => Nat.not_lt.mpr beyond (h.lt_slots member)
  rw [insert_eq (h.heads b inside) (h.chained b), if_neg away, h.size_next, if_neg (Nat.not_lt.mpr beyond)]

theorem Holds.remove_missing (h : t.Holds slots buckets chain) (inside : b < buckets) (absent : i ∉ chain b) :
    remove b i t = .error (.stop (.unchained i)) t :=
  remove_absent (h.heads b inside) (h.chained b) absent

theorem next_insert (fresh : i < slots ∧ i ∉ chain b) :
    (Table.Command.insert b i).next slots chain = fun b' => if b' = b then i :: chain b' else chain b' := by
  funext b'
  simp only [Table.Command.next, fresh, not_false_eq_true, and_true]

theorem next_insert_refused (refused : ¬ (i < slots ∧ i ∉ chain b)) :
    (Table.Command.insert b i).next slots chain = chain := by
  funext b'
  exact if_neg fun all => refused all.2

theorem next_remove (h : t.Holds slots buckets chain) (member : i ∈ chain b) :
    (Table.Command.remove b i).next slots chain = fun b' => (chain b').erase i :=
  erase_alone fun _ there => h.apart there member

theorem next_remove_absent (absent : i ∉ chain b) : (Table.Command.remove b i).next slots chain = chain :=
  erase_absent absent

theorem Holds.onChains (h : t.Holds slots buckets chain) {command : Table.Command} (fits : command.Fits buckets chain) :
    (command.onChains t).Holds slots buckets (command.next slots chain) := by
  cases command with
  | insert b i =>
      obtain ⟨inside, own⟩ := fits
      by_cases fresh : i < slots ∧ i ∉ chain b
      · have away : ∀ b', i ∉ chain b' := fun b' member => fresh.2 (own b' (h.lt_buckets member) member ▸ member)
        obtain ⟨t', inserted, holds⟩ := insert_holds h inside fresh.1 away
        rw [Table.Command.onChains, stateAfter, inserted, next_insert fresh]
        exact holds
      · have unchanged : stateAfter (insert b i) t = t := by
          rw [stateAfter, insert_eq (h.heads b inside) (h.chained b), h.size_next]
          by_cases member : i ∈ chain b
          · rw [if_pos member]
          · rw [if_neg member, if_neg fun slot => fresh ⟨slot, member⟩]
        rw [Table.Command.onChains, unchanged, next_insert_refused fresh]
        exact h
  | remove b i =>
      by_cases member : i ∈ chain b
      · obtain ⟨t', removed, holds⟩ := remove_holds h member
        rw [Table.Command.onChains, stateAfter, removed, next_remove h member]
        exact holds
      · rw [Table.Command.onChains, stateAfter, h.remove_missing fits member, next_remove_absent member]
        exact h
  | _ => exact h

theorem Holds.follows {t : Table} (h : t.chains.Holds slots buckets chain) : t.Follows slots buckets chain where
  reads := h.reads
  inserted b inside i slot away := by
    have fresh : ∀ b', i ∉ chain b' := fun b' member => away b' (h.lt_buckets member) member
    obtain ⟨chains, inserted, holds⟩ := insert_holds h inside slot fresh
    exact ⟨chains, Table.onChains_ok inserted, holds.reads⟩
  removed b i member := by
    obtain ⟨chains, removed, holds⟩ := remove_holds h member
    have gone : ∀ b', i ∉ (chain b').erase i := fun b' => (h.nodup b').not_mem_erase
    refine ⟨chains, Table.onChains_ok removed, holds.alone i (h.lt_slots member) gone, ?_⟩
    rw [erase_alone fun _ there => h.apart there member]
    exact holds.reads
  found b inside key := Table.onChains_ok (find_holds h inside _)
  missing b inside i absent := Table.onChains_error (h.remove_missing inside absent)
  again b i member := Table.onChains_error (h.insert_again member)
  beyond b inside i outside := Table.onChains_error (h.insert_beyond inside outside)
  assigned := Table.occupy_chains
  ringed _ _ := ⟨Table.onRings_chains _, Table.onRings_chains _, Table.onRings_chains _⟩

end Chains

/-- After any commands that fit, the chains hold the lists that the commands make, and each operation follows them. A
slot that is not where it is to be removed from is told with its number. -/
theorem chains_hold_lists (slots buckets blockSize : Nat) (commands : List Table.Command)
    (admits : Update.Admits (fun chain command => command.Fits buckets chain)
      (fun chain command => command.next slots chain) (fun _ => []) commands) :
    let t := Update.runAll Table.Command.perform commands (Table.empty slots buckets blockSize)
    let chain := commands.foldl (fun chain command => command.next slots chain) fun _ => []
    t.Follows slots buckets chain ∧
      ∀ i, (Fault.stop (.unchained i)).message = "slot " ++ toString i ++ " is missing from its hash chain" := by
  intro t chain
  have holds : t.chains.Holds slots buckets chain := by
    refine Update.runAll_simulates (R := fun t chain => (Table.chains t).Holds slots buckets chain) ?_
      (Chains.empty_holds slots buckets) admits
    intro t chain command h fits
    rw [command.chains_after]
    exact h.onChains fits
  exact ⟨holds.follows, fun _ => rfl⟩

/-- Two buckets over four slots. The first loses a slot from the middle of its chain to the second. Its first slot was
given no identity, and is found by the key that it has all the same. -/
theorem chains_hold_lists_of_two :
    let commands : List Table.Command := [.assign 0 ⟨0, 0⟩, .insert 0 0, .push 1 3, .assign 2 ⟨0, 2⟩, .insert 0 2, .insert 0 3,
      .insert 0 2, .remove 1 2, .remove 0 2, .insert 1 2, .pop 1, .pop 0, .withdraw 0 1, .assign 1 ⟨1, 4⟩, .insert 0 7]
    let t := Update.runAll Table.Command.perform commands (Table.empty 4 2 8)
    t.chains.toList 0 = [3, 0] ∧ t.chains.toList 1 = [2] ∧ t.chains.next[1]? = some none ∧
      Table.find 0 ⟨0, 0⟩ t = .ok (some 3) t ∧ Table.unchain 0 2 t = .error (.stop (.unchained 2)) t := by
  intro commands t
  obtain ⟨follows, -⟩ := chains_hold_lists 4 2 8 commands (by decide)
  refine ⟨follows.reads.walks 0, follows.reads.walks 1, follows.reads.loose 1 (by decide) (by decide), ?_,
    follows.missing 0 (by decide) 2 (by decide)⟩
  rw [follows.found 0 (by decide) ⟨0, 0⟩]
  rfl

end BlockCache
