import BlockCache.Proofs.ChainLists
import Mathlib.Logic.Relation

/-!
# Walks along chains end

A slot may be put into several chains, taken out of one of them and put in again. The chains then share slots, and what
is done to one changes others, but no link ever leads back to where a walk has been: `chain_walks_end`. What carries the
proof is that each slot has a path to an end. An insertion links its slot to a path that the slot is not on, and so does
a removal with the slot before its own.
-/

namespace BlockCache

namespace Chains
open Update

def Leads (t : Chains) (i j : Nat) : Prop := t.next[i]? = some (some j)

inductive Visits (t : Chains) (stop : Nat → Bool) : Option Nat → List Nat → Prop
  | finished : Visits t stop none []
  | stopped {i : Nat} {next : Option Nat} (here : t.next[i]? = some next) (hit : stop i = true) :
      Visits t stop (some i) [i]
  | passed {i : Nat} {next : Option Nat} {rest : List Nat} (here : t.next[i]? = some next) (miss : stop i = false)
      (later : Visits t stop next rest) : Visits t stop (some i) (i :: rest)

/-- The walk along the chain of bucket `b` to a slot at which it stops, which looks at each slot once at most. A search
and a removal that may look at a limited number of slots get along with as many as the walk has. -/
structure Walks (t : Chains) (b : Nat) (stop : Nat → Bool) (visited : List Nat) : Prop where
  visits : ∃ head, t.heads[b]? = some head ∧ t.Visits stop head visited
  nodup : visited.Nodup
  inside : ∀ i ∈ visited, i < t.next.size
  search : ∀ head, t.heads[b]? = some head → ∀ limit, seek stop limit head t =
    if visited.length ≤ limit then .ok (visited.find? stop) t else .error .endless t
  removal : ∀ head, t.heads[b]? = some head → ∀ i, (∀ j, stop j = decide (j = i)) → ∀ limit,
    (∃ t', unlink b i limit none head t = .error .endless t') ↔ limit < visited.length

def Paths (next : Array (Option Nat)) : Prop := ∀ i < next.size, ∃ rest, Chained next (i :: rest) none

structure Ending (t : Chains) (slots buckets : Nat) : Prop where
  size_next : t.next.size = slots
  size_heads : t.heads.size = buckets
  heads : ∀ (b i : Nat), t.heads[b]? = some (some i) → i < slots
  paths : Paths t.next

variable {t : Chains} {slots buckets : Nat} {next : Array (Option Nat)} {l : List Nat} {b i j : Nat} {stop : Nat → Bool}
  {cur : Option Nat} {visited : List Nat}

/-! ## Paths -/

theorem Paths.set (paths : Paths next) (chained : Chained next l none) (away : i ∉ l) :
    Paths (next.setIfInBounds i l.head?) := by
  have others : ∀ j, j ≠ i → (next.setIfInBounds i l.head?)[j]? = next[j]? := fun j other => by simp [Ne.symm other]
  intro j inside
  obtain ⟨rest, path⟩ := paths j (by simpa using inside)
  by_cases member : i ∈ j :: rest
  · -- the path is the old one up to the slot, and then the one that the slot is linked to
    obtain ⟨before, after, parting⟩ := exists_parting path.nodup member
    have slot : i < next.size := path.lt_size member
    have turned : Chained (next.setIfInBounds i l.head?) (before ++ i :: l) none := by
      rw [parting.split] at path
      obtain ⟨first, -⟩ := (chained_append next before (i :: after) none).mp path
      refine (chained_append _ before (i :: l) none).mpr ⟨?_, ?_, ?_⟩
      · exact first.of_eq fun k here => others k fun same => parting.not_before (same ▸ here)
      · simp [slot]
      · exact chained.of_eq fun k here => others k fun same => away (same ▸ here)
    have start : (before ++ i :: l).head? = some j := by
      have same := congrArg List.head? parting.split
      cases before <;> simpa [eq_comm] using same
    obtain ⟨rest', same⟩ := List.head?_eq_some_iff.mp start
    exact ⟨rest', same ▸ turned⟩
  · exact ⟨rest, path.of_eq fun k here => others k fun same => member (same ▸ here)⟩

theorem Ending.path (ending : t.Ending slots buckets) (inside : b < buckets) :
    ∃ l, t.heads[b]? = some l.head? ∧ Chained t.next l none := by
  have bounded : b < t.heads.size := ending.size_heads ▸ inside
  have there := Array.getElem?_eq_getElem bounded
  cases head : t.heads[b] with
  | none => exact ⟨[], there.trans (congrArg some head), trivial⟩
  | some i =>
      rw [head] at there
      have slot := ending.heads b i there
      obtain ⟨rest, chained⟩ := ending.paths i (ending.size_next ▸ slot)
      exact ⟨i :: rest, there, chained⟩

theorem mem_of_leads (path : Chained t.next (i :: l) none) (leads : Relation.TransGen t.Leads i j) : j ∈ l := by
  induction leads with
  | @single j step =>
      have first : l.head? = some j := by simpa using path.1.symm.trans step
      exact List.mem_of_head? first
  | @tail j k _ step ih =>
      obtain ⟨before, after, rfl⟩ := List.append_of_mem ih
      have rest : Chained t.next (j :: after) none := ((chained_append t.next (i :: before) (j :: after) none).mp path).2
      have first : after.head? = some k := by simpa using rest.1.symm.trans step
      exact List.mem_append_right _ (List.mem_cons_of_mem j (List.mem_of_head? first))

theorem Paths.acyclic (paths : Paths t.next) (i : Nat) : ¬ Relation.TransGen t.Leads i i := by
  intro circle
  obtain ⟨j, step, -⟩ := Relation.TransGen.head'_iff.mp circle
  obtain ⟨rest, path⟩ := paths i (Array.getElem?_eq_some_iff.mp step).1
  exact (List.nodup_cons.mp path.nodup).1 (mem_of_leads path circle)

/-! ## Steps -/

theorem empty_ending (slots buckets : Nat) : (empty slots buckets).Ending slots buckets where
  size_next := by simp [empty]
  size_heads := by simp [empty]
  paths i inside := by
    have slot : i < slots := by simpa [empty] using inside
    exact ⟨[], by simp [empty, slot], trivial⟩
  heads b i there := by
    by_cases inside : b < buckets <;> simp [empty, inside] at there

theorem Ending.link (ending : t.Ending slots buckets) (chained : Chained t.next l none) (away : i ∉ l) :
    Ending { t with next := t.next.setIfInBounds i l.head? } slots buckets where
  size_next := by simpa using ending.size_next
  size_heads := ending.size_heads
  heads := ending.heads
  paths := ending.paths.set chained away

theorem Ending.start (ending : t.Ending slots buckets) (b : Nat) {head : Option Nat} (slot : ∀ i ∈ head, i < slots) :
    Ending { t with heads := t.heads.setIfInBounds b head } slots buckets where
  size_next := ending.size_next
  size_heads := by simpa using ending.size_heads
  heads b' i there := by
    by_cases same : b = b'
    · subst same
      simp only [Array.getElem?_setIfInBounds] at there
      split at there <;> simp_all
    · exact ending.heads b' i (by simpa [same] using there)
  paths := ending.paths

theorem Ending.beyond {α : Type} (ending : t.Ending slots buckets) (outside : buckets ≤ b)
    (f : Option Nat → Update Chains α) :
    (do let head ← elementAt (← get).heads b; f head : Update Chains α) t = .error (.outOfRange buckets b) t := by
  rw [get_bind, ← ending.size_heads]
  exact bind_error (elementAt_beyond (ending.size_heads ▸ outside)) f

theorem Ending.after_insert (ending : t.Ending slots buckets) (b i : Nat) :
    (stateAfter (insert b i) t).Ending slots buckets := by
  rcases Nat.lt_or_ge b buckets with inside | outside
  · obtain ⟨l, there, chained⟩ := ending.path inside
    rw [stateAfter, insert_eq there chained, ending.size_next]
    by_cases away : i ∉ l ∧ i < slots
    · rw [if_neg away.1, if_pos away.2]
      exact (ending.link chained away.1).start b (by simpa using away.2)
    · by_cases member : i ∈ l
      · rw [if_pos member]
        exact ending
      · rw [if_neg member, if_neg fun slot => away ⟨member, slot⟩]
        exact ending
  · rw [stateAfter, insert, ending.beyond outside]
    exact ending

theorem Ending.bypass (ending : t.Ending slots buckets) {before after : List Nat} (parting : Parting l i before after)
    (chained : Chained t.next l none) :
    ∃ t', bypass b before.getLast? after.head? t = .ok () t' ∧ t'.Ending slots buckets := by
  rw [parting.split] at chained
  have rest := ((chained_append t.next before (i :: after) none).mp chained).2.2
  cases last : before.getLast? with
  | none =>
      refine ⟨_, rfl, ending.start b fun j first => ?_⟩
      exact ending.size_next ▸ rest.lt_size (List.mem_of_head? first)
  | some p =>
      have member : p ∈ before := List.mem_of_getLast? last
      exact ⟨_, setNext_ok (chained.lt_size (List.mem_append_left _ member)) _, ending.link rest (parting.apart p member)⟩

theorem Ending.after_remove (ending : t.Ending slots buckets) (b i : Nat) :
    (stateAfter (remove b i) t).Ending slots buckets := by
  rcases Nat.lt_or_ge b buckets with inside | outside
  · obtain ⟨l, there, chained⟩ := ending.path inside
    by_cases member : i ∈ l
    · obtain ⟨before, after, parting⟩ := exists_parting chained.nodup member
      obtain ⟨t', bypassed, ending'⟩ := ending.bypass (b := b) parting chained
      have slot : i < t'.next.size := ending'.size_next ▸ ending.size_next ▸ chained.lt_size member
      rw [stateAfter, remove_eq there chained parting, bind_ok bypassed, setNext_ok slot]
      exact ending'.link (l := []) trivial (by simp)
    · rw [stateAfter, remove_absent there chained member]
      exact ending
  · rw [stateAfter, remove, ending.beyond outside]
    exact ending

/-! ## Walks -/

theorem Chained.visits (chained : Chained t.next l none) (stop : Nat → Bool) :
    ∃ visited, t.Visits stop l.head? visited ∧ visited <+: l := by
  induction l with
  | nil => exact ⟨[], .finished, List.nil_prefix⟩
  | cons i rest ih =>
      obtain ⟨here, chained⟩ := chained
      rw [Option.or_none] at here
      cases hit : stop i with
      | true => exact ⟨[i], .stopped here hit, List.prefix_cons_inj i |>.mpr List.nil_prefix⟩
      | false =>
          obtain ⟨visited, visits, first⟩ := ih chained
          exact ⟨i :: visited, .passed here hit visits, (List.prefix_cons_inj i).mpr first⟩

theorem Visits.seek_eq (visits : t.Visits stop cur visited) (limit : Nat) : seek stop limit cur t =
    if visited.length ≤ limit then .ok (visited.find? stop) t else .error .endless t := by
  induction visits generalizing limit with
  | finished => cases limit <;> rfl
  | stopped here hit =>
      cases limit with
      | zero => rfl
      | succ limit =>
          rw [seek, get_bind, bind_ok (elementAt_ok here), if_pos hit]
          simp [hit]
  | passed here miss _ ih =>
      cases limit with
      | zero => rfl
      | succ limit =>
          rw [seek, get_bind, bind_ok (elementAt_ok here)]
          simpa [miss] using ih limit

theorem bind_ends {α β : Type} {x : Update Chains α} {f : α → Update Chains β}
    (first : ∀ t', x t ≠ .error .endless t') (rest : ∀ a t₁ t', f a t₁ ≠ .error .endless t') (t' : Chains) :
    (x >>= f) t ≠ .error .endless t' := by
  cases outcome : x t with
  | ok a t₁ =>
      rw [bind_ok outcome]
      exact rest a t₁ t'
  | error fault t₁ =>
      rw [bind_error outcome]
      intro same
      obtain ⟨rfl, rfl⟩ : fault = .endless ∧ t₁ = t' := by simpa using same
      exact first t₁ outcome

theorem setNext_ends (i : Nat) (after : Option Nat) (t t' : Chains) : setNext i after t ≠ .error .endless t' := by
  rcases Nat.lt_or_ge i t.next.size with slot | beyond
  · simp [setNext_ok slot]
  · simp [setNext_beyond beyond]

theorem Visits.unlink_endless (visits : t.Visits stop cur visited) (here : ∀ j, stop j = decide (j = i)) (limit : Nat)
    (prev : Option Nat) : (∃ t', unlink b i limit prev cur t = .error .endless t') ↔ limit < visited.length := by
  induction visits generalizing limit prev with
  | finished => cases limit <;> simp [unlink] <;> rintro _ ⟨⟩
  | @stopped j next there hit =>
      obtain rfl : j = i := of_decide_eq_true (here j ▸ hit)
      cases limit with
      | zero => exact iff_of_true ⟨t, rfl⟩ Nat.one_pos
      | succ limit =>
          refine iff_of_false ?_ (by simp)
          rintro ⟨t', endless⟩
          rw [unlink, get_bind, bind_ok (elementAt_ok there), if_pos rfl] at endless
          cases prev with
          | none => exact setNext_ends j none _ t' endless
          | some p => exact bind_ends (setNext_ends p next t) (fun _ => setNext_ends j none) t' endless
  | @passed j next rest there miss _ ih =>
      have other : j ≠ i := of_decide_eq_false (here j ▸ miss)
      cases limit with
      | zero => exact iff_of_true ⟨t, rfl⟩ (by simp)
      | succ limit =>
          rw [unlink, get_bind, bind_ok (elementAt_ok there), if_neg other]
          simpa using ih limit (some j)

theorem Ending.walks (ending : t.Ending slots buckets) (inside : b < buckets) (stop : Nat → Bool) :
    ∃ visited, t.Walks b stop visited := by
  obtain ⟨l, there, chained⟩ := ending.path inside
  obtain ⟨visited, visits, first⟩ := chained.visits stop
  refine ⟨visited, ⟨_, there, visits⟩, chained.nodup.sublist first.sublist, ?_, ?_, ?_⟩
  · exact fun i member => chained.lt_size (first.subset member)
  · intro head here limit
    obtain rfl : head = l.head? := Option.some.inj (here.symm.trans there)
    exact visits.seek_eq limit
  · intro head here i stops limit
    obtain rfl : head = l.head? := Option.some.inj (here.symm.trans there)
    exact visits.unlink_endless stops limit none

theorem Walks.length_le (walk : t.Walks b stop visited) : visited.length ≤ t.next.size :=
  length_le_of_lt walk.nodup walk.inside

theorem Ending.find_ends (ending : t.Ending slots buckets) (b : Nat) (p : Nat → Bool) (t' : Chains) :
    find b p t ≠ .error .endless t' := by
  rcases Nat.lt_or_ge b buckets with inside | outside
  · obtain ⟨l, there, chained⟩ := ending.path inside
    simp [find_eq there chained p]
  · simp [find, ending.beyond outside]

theorem Ending.insert_ends (ending : t.Ending slots buckets) (b i : Nat) (t' : Chains) :
    insert b i t ≠ .error .endless t' := by
  rcases Nat.lt_or_ge b buckets with inside | outside
  · obtain ⟨l, there, chained⟩ := ending.path inside
    rw [insert_eq there chained i]
    split
    · simp
    · split <;> simp
  · simp [insert, ending.beyond outside]

theorem Ending.remove_ends (ending : t.Ending slots buckets) (b i : Nat) (t' : Chains) :
    remove b i t ≠ .error .endless t' := by
  rcases Nat.lt_or_ge b buckets with inside | outside
  · obtain ⟨visited, walk⟩ := ending.walks inside fun j => decide (j = i)
    obtain ⟨head, there, -⟩ := walk.visits
    intro endless
    rw [remove, get_bind, bind_ok (elementAt_ok there), get_bind] at endless
    have short := (walk.removal head there i (fun _ => rfl) _).mp ⟨t', endless⟩
    exact absurd walk.length_le (Nat.not_le.mpr short)
  · simp [remove, ending.beyond outside]

end Chains

open Update

theorem Table.onChains_ends {α : Type} {update : Update Chains α} {t : Table}
    (ends : ∀ chains, update t.chains ≠ .error .endless chains) (t' : Table) :
    Table.onChains update t ≠ .error .endless t' := by
  obtain ⟨slots, chains, rings⟩ := t
  cases outcome : update chains with
  | ok a chains' => simp [Table.onChains, outcome]
  | error fault chains' =>
      intro endless
      obtain ⟨rfl, -⟩ : fault = .endless ∧ (⟨slots, chains', rings⟩ : Table) = t' := by
        simpa [Table.onChains, outcome] using endless
      exact ends chains' outcome

theorem Table.Command.ending {t : Table} {slots buckets : Nat} (command : Command)
    (ending : t.chains.Ending slots buckets) : (stateAfter command.perform t).chains.Ending slots buckets := by
  rw [command.chains_after]
  cases command with
  | insert b i => exact ending.after_insert b i
  | remove b i => exact ending.after_remove b i
  | _ => exact ending

/-- Whatever is done to the chains, no link leads back, and no walk along a chain looks at a slot twice: no search,
insertion or removal is endless. -/
theorem chain_walks_end (slots buckets blockSize : Nat) (commands : List Table.Command) :
    let t := Update.runAll Table.Command.perform commands (Table.empty slots buckets blockSize)
    (∀ i, ¬ Relation.TransGen t.chains.Leads i i) ∧
      (∀ b < buckets, ∀ stop, ∃ visited, t.chains.Walks b stop visited) ∧
      ∀ b, (∀ key t', Table.find b key t ≠ .error .endless t') ∧
        ∀ i t', Table.chain b i t ≠ .error .endless t' ∧ Table.unchain b i t ≠ .error .endless t' := by
  intro t
  have ending : t.chains.Ending slots buckets :=
    runAll_preserves (P := fun t => (Table.chains t).Ending slots buckets) (fun command => command.ending) commands
      (Chains.empty_ending slots buckets)
  refine ⟨ending.paths.acyclic, fun b inside => ending.walks inside, fun b => ⟨fun key => ?_, fun i t' => ⟨?_, ?_⟩⟩⟩
  · exact Table.onChains_ends (ending.find_ends b _)
  · exact Table.onChains_ends (ending.insert_ends b i) t'
  · exact Table.onChains_ends (ending.remove_ends b i) t'

/-- Two buckets whose chains share their slots: one taken out of the first goes missing from the second as well, and one
put into the second takes the first along. -/
theorem chain_walks_end_shared :
    let commands : List Table.Command := [.insert 0 0, .insert 0 1, .insert 1 0, .insert 1 1, .remove 0 1, .insert 0 1,
      .insert 0 2, .assign 2 ⟨1, 5⟩, .insert 1 3, .remove 1 1, .insert 0 7, .remove 1 2, .insert 0 2, .insert 1 2]
    let t := Update.runAll Table.Command.perform commands (Table.empty 4 2 8)
    t.chains.toList 0 = [2, 3, 0] ∧ t.chains.toList 1 = [2, 3, 0] ∧ ¬ Relation.TransGen t.chains.Leads 2 2 ∧
      ∃ visited, t.chains.Walks 0 (fun i => decide (i = 3)) visited := by
  intro commands t
  obtain ⟨acyclic, walks, -⟩ := chain_walks_end 4 2 8 commands
  exact ⟨rfl, rfl, acyclic 2, walks 0 (by decide) _⟩

end BlockCache
