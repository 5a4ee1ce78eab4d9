import BlockCache.Proofs.Cache.Turned
import BlockCache.Proofs.Device.Fronts

/-!
# The content of slots

A step of a call and a write each leave a slot and its block alone, or leave the slot invalid, or leave in it what the
disk has: `Call.Turned.content` and `Cache.Flushed.content`.
-/

namespace BlockCache

/-- What a slot stands for, and what it has of that. -/
def Slot.face (s : Slot) : Bool × Key × Bool × Bytes := (s.assigned, s.key, s.valid, s.data.value)

namespace Move

def quiet : Move → Bool
  | assign .. | edit .. | load .. | keep .. => false
  | _ => true

theorem face_of_quiet {move : Move} (quiet : move.quiet = true) (s : Slot) : (move.change s).face = s.face := by
  cases move with
  | assign | edit | load | keep => cases quiet
  | _ => rfl

end Move

namespace Cache

/-- A slot is invalid, or has what the disk has of its block. -/
def Mirrors (c : Cache) (disk : RamDisk) (i : Nat) : Prop :=
  ∀ s, c.table.slots[i]? = some s → s.valid = true → s.data.value = disk.content s.key

structure Rests (c : Cache) (disk : RamDisk) (i : Nat) (c' : Cache) (disk' : RamDisk) : Prop where
  face : c'.table.slots[i]?.map Slot.face = c.table.slots[i]?.map Slot.face
  content : ∀ s, c.table.slots[i]? = some s → s.valid = true → disk'.content s.key = disk.content s.key

variable {c c₁ c' : Cache} {move : Move} {disk disk₁ disk' : RamDisk} {i : Nat} {s : Slot}

theorem Rests.rfl : c.Rests disk i c disk := ⟨Eq.refl _, fun _ _ _ => Eq.refl _⟩

theorem Rests.mirrors (rests : c.Rests disk i c' disk') (mirrors : c.Mirrors disk i) : c'.Mirrors disk' i := by
  intro s' here' valid'
  have face := rests.face
  rw [here', Option.map_some, eq_comm, Option.map_eq_some_iff] at face
  obtain ⟨s, here, same⟩ := face
  obtain ⟨-, key, valid, bytes⟩ : s.assigned = s'.assigned ∧ s.key = s'.key ∧ s.valid = s'.valid ∧
      s.data.value = s'.data.value := by simpa [Slot.face] using same
  rw [← key, ← bytes, rests.content s here (valid.trans valid')]
  exact mirrors s here (valid.trans valid')

theorem mirrors_of_invalid (here : c.table.slots[i]? = some s) (invalid : s.valid = false) : c.Mirrors disk i := by
  intro s' here' valid
  obtain rfl := Option.some.inj (here.symm.trans here')
  exact absurd (invalid.symm.trans valid) nofun

theorem mirrors_of_eq (here : c.table.slots[i]? = some s) (same : s.data.value = disk.content s.key) :
    c.Mirrors disk i := by
  intro s' here' _
  obtain rfl := Option.some.inj (here.symm.trans here')
  exact same

theorem Moved.face (moved : c.Moved move c') (rests : move.quiet = true ∨ i ≠ move.slot) :
    c'.table.slots[i]?.map Slot.face = c.table.slots[i]?.map Slot.face := by
  by_cases same : i = move.slot
  · obtain ⟨s, here, -⟩ := moved.allowed
    have before : c.table.slots[move.slot]? = some s := here
    rw [same, moved.same before, before]
    exact congrArg some (Move.face_of_quiet (rests.resolve_right fun other => other same) s)
  · rw [moved.other same]

theorem Moved.rests (moved : c.Moved move c') (rests : move.quiet = true ∨ i ≠ move.slot)
    (content : disk'.content = disk.content) : c.Rests disk i c' disk' :=
  ⟨moved.face rests, fun s _ _ => congrFun content s.key⟩

theorem Moved.found_content {key : Key} {found : Found} (moved : c.Moved (found.move key) c') (disk : RamDisk) (i : Nat) :
    c.Rests disk i c' disk ∨ c'.Mirrors disk i := by
  by_cases same : i = (found.move key).slot
  · cases found with
    | hit => exact .inl (moved.rests (.inl rfl) rfl)
    | evicted | stolen =>
        obtain ⟨s, here, -⟩ := moved.allowed
        exact .inr (mirrors_of_invalid (same ▸ moved.same here) rfl)
  · exact .inl (moved.rests (.inr same) rfl)

theorem Moved.spoilt_content {j : Nat} {bytes : Bytes} (here : c.table.slots[j]? = some s) (invalid : s.valid = false)
    (spoils : c.Moved (.edit j bytes) c₁) (ended : c₁.Moved move c') (ends : move = .finish j ∨ move = .unlock j)
    (content : disk'.content = disk.content) (i : Nat) : c.Rests disk i c' disk' ∨ c'.Mirrors disk' i := by
  by_cases same : i = j
  · subst same
    rcases ends with rfl | rfl <;> exact .inr (mirrors_of_invalid (ended.same (spoils.same here)) invalid)
  · have slot : move.slot = j := by rcases ends with rfl | rfl <;> rfl
    have face := (ended.face (.inr (slot ▸ same))).trans (spoils.face (.inr same))
    exact .inl ⟨face, fun s _ _ => congrFun content s.key⟩

end Cache

variable {δ : Type} [BlockDevice δ] {memory : δ → RamDisk} {c : Cache} {d : δ} {t : Thread}
open Cache

theorem Call.Turned.disk_content {call : Call} {cancelled : Token → Bool} {stage : Stage} {turn : Turn δ Stage}
    (fronts : Fronts memory) (turned : call.Turned t cancelled c d stage turn) :
    (memory turn.device).content = (memory d).content := by
  cases turned with
  | loaded | unloaded => exact fronts.read_content _ _ _
  | _ => rfl

theorem Call.Turned.content {call : Call} {cancelled : Token → Bool} {stage : Stage} {turn : Turn δ Stage}
    (fronts : Fronts memory) (turned : call.Turned t cancelled c d stage turn) (i : Nat) :
    c.Rests (memory d) i turn.cache (memory turn.device) ∧
        (stage = .loading i → (∃ j, turn.result = .granted j) → c.table.slots[i]?.any Slot.valid = true) ∨
      turn.cache.Mirrors (memory turn.device) i := by
  have content := turned.disk_content fronts
  cases turned with
  | found finds moved => exact (moved.found_content _ i).imp_left fun rests => ⟨rests, nofun⟩
  | granted moved => exact .inl ⟨moved.rests (.inl rfl) rfl, nofun⟩
  | refused refusal moved => exact .inl ⟨moved.rests (.inl rfl) rfl, nofun⟩
  | @valid j s here valid =>
      refine .inl ⟨.rfl, fun same _ => ?_⟩
      obtain rfl := Stage.loading.inj same
      simp [here, valid]
  | @loaded j s c' here invalid success moved =>
      by_cases same : i = j
      · subst same
        refine .inr (mirrors_of_eq (moved.same here) ?_)
        exact (fronts.read_buffer success).trans (congrFun content s.key).symm
      · exact .inl ⟨moved.rests (.inr same) content, fun here _ => absurd (Stage.loading.inj here).symm same⟩
  | unloaded here invalid broken spoilt ended =>
      exact (Moved.spoilt_content here invalid spoilt ended (.inl rfl) content i).imp_left fun rests =>
        ⟨rests, fun _ ⟨_, taken⟩ => nomatch taken⟩
  | settled done =>
      refine .inl ⟨.rfl, fun loading => ?_⟩
      rcases done with ⟨_, rfl⟩ | ⟨_, rfl⟩ <;> cases loading
  | _ => exact .inl ⟨.rfl, nofun⟩

theorem Cache.Flushed.content {j : Nat} {turn : Turn δ (Option Failure)} (fronts : Fronts memory)
    (sound : c.table.Sound) (flushed : c.Flushed d t j turn) (i : Nat) :
    c.Rests (memory d) i turn.cache (memory turn.device) ∧ (turn.result = none → i ≠ j) ∨
      turn.cache.Mirrors (memory turn.device) i := by
  cases flushed with
  | unauthorized => exact .inl ⟨.rfl, nofun⟩
  | failed here holder broken =>
      refine .inl ⟨⟨rfl, fun s _ _ => ?_⟩, nofun⟩
      rw [fronts.write_failed (by rw [broken]; nofun)]
  | @kept s c' here holder success moved =>
      by_cases same : i = j
      · subst same
        refine .inr (mirrors_of_eq (moved.same here) ?_)
        exact ((fronts.write_content success s.key).trans (if_pos rfl)).symm
      · refine .inl ⟨⟨moved.face (.inr same), fun s' there valid => ?_⟩, fun _ => same⟩
        have consistent := sound.consistent
        have standing := consistent.assigned_of_referenced here
          (consistent.referenced_of_locked here (locked_of_holder sound here holder))
        have other : s'.key ≠ s.key := fun key =>
          same (consistent.distinct there here ((consistent.proper there).valid valid) standing key)
        exact (fronts.write_content success s'.key).trans (if_neg other)

end BlockCache
