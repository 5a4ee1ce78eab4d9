import BlockCache.Host.Visits
import BlockCache.Proofs.Host.Calls
import BlockCache.Proofs.Host.Lookups

/-!
# Lookups and writes

A cache counts a lookup when it has found a slot for a block, and a write when the device has taken one. A call looks
its block up once: `Sound.turn_counted`. Acts other than the steps of calls only count writes: `Did.counted`.
-/

namespace BlockCache

def Usage.lookups (n : Usage) : Nat := n.hits + n.misses

namespace Stage

/-- Whether a call has found a slot by now. One that would have to wait for a slot and may not has found none. -/
def looked : Stage → Bool
  | looking | starved _ => false
  | failed why => why ≠ .fault (.stop .exhausted)
  | _ => true

end Stage

theorem Call.Turned.counted {δ : Type} [BlockDevice δ] {call : Call} {t : Thread} {cancelled : Token → Bool} {c : Cache}
    {d : δ} {stage : Stage} {turn : Turn δ Stage} (turned : call.Turned t cancelled c d stage turn)
    (patience : call.patience = .block) :
    turn.cache.usage.lookups + stage.looked.toNat = c.usage.lookups + turn.result.looked.toNat ∧
      turn.cache.usage.writes = c.usage.writes := by
  cases turned with
  | found finds moved =>
      rw [moved.usage]
      cases finds with
      | hit => exact ⟨by simp [Found.move, Move.count, Usage.lookups, Stage.looked]; omega, rfl⟩
      | evicted | stolen => exact ⟨by simp [Found.move, Move.count, Usage.lookups, Stage.looked]; omega, rfl⟩
  | unserved same refusal | refused refusal moved => simp [patience, Patience.refusal] at refusal
  | granted moved =>
      rw [moved.usage]
      exact ⟨by cases call.loads <;> rfl, rfl⟩
  | loaded here invalid success moved =>
      rw [moved.usage]
      exact ⟨rfl, rfl⟩
  | @unloaded i sl c₁ c' failure here invalid broken spoilt ended =>
      have usage : c'.usage = c.usage := ended.usage.trans spoilt.usage
      rw [usage]
      exact ⟨by cases failure <;> rfl, rfl⟩
  | _ => exact ⟨rfl, rfl⟩

def Act.saves (act : Act) (c : Nat) (reply : Reply) : Bool :=
  match act, reply with
  | .write _ c' _, .lease _ => c' = c
  | _, _ => false

namespace Host

variable {δ : Type} {s : Host δ} {pins : Nat → Nat → Nat} {c c' : Nat} {m : Mount} {cache : Cache} {d : δ}
  {events : List Event} {t : Thread} {p : Pending}

theorem usage_carry (there : s.mount? c' = some m) :
    (s.carry c' m cache d events).usage c = if c = c' then cache.usage else s.usage c := by
  by_cases same : c = c'
  · subst same
    simp [usage, carry_same there]
  · simp [usage, carry_other same, same]

theorem usage_carry_eq (there : s.mount? c' = some m) (same : cache.usage = m.cache.usage) :
    (s.carry c' m cache d events).usage c = s.usage c := by
  rw [usage_carry there]
  split
  · rename_i here
    simp [usage, here, there, same]
  · rfl

theorem Ended.usage_eq {name : String} {s' : Host δ} (ended : s.Ended name events s') : s'.usage c = s.usage c := by
  obtain ⟨lease, m, d, cache, -, there, -, -, moved, rfl⟩ := ended
  have same : (s.carry lease.cache m cache d events).usage c = s.usage c := usage_carry_eq there moved.usage
  exact same

variable [BlockDevice δ]

theorem Did.counted {act : Act} {done : Performed δ} (did : s.Did act done) (uncalled : act.caller? = none) (c : Nat) :
    (done.host.usage c).lookups = (s.usage c).lookups ∧
      (done.host.usage c).writes = (s.usage c).writes + (act.saves c done.reply).toNat := by
  cases did with
  | started | turned | answered | denied => cases uncalled
  | refused act why => cases act <;> exact ⟨rfl, rfl⟩
  | finished ended reply =>
      rw [ended.usage_eq]
      exact ⟨rfl, rfl⟩
  | @wrote t name lease m d s' turn held there device flushed carried =>
      subst carried
      cases flushed with
      | unauthorized | failed =>
          rw [usage_carry_eq there rfl]
          exact ⟨rfl, rfl⟩
      | @kept sl cache here holder success moved =>
          have written := view_eq ((carry_movedAt there moved (BlockDevice.write d sl.key sl.data.value).device
            (BlockDevice.write d sl.key sl.data.value).events).slot_same ((slot?_eq there _).trans here))
          simp only [Option.map_none, Option.getD_none, written, Act.saves, usage_carry there]
          by_cases same : c = lease.cache
          · subst same
            simp [usage, there, moved.usage, Move.count, Usage.lookups]
          · simp [same, Ne.symm same]
  | pinned held there device moved carried | unpinned held there device moved carried =>
      subst carried
      rw [usage_carry_eq there moved.usage]
      exact ⟨rfl, rfl⟩
  | edited which held there device moved =>
      rw [usage_carry_eq there moved.usage]
      rcases which with ⟨offset, part, rfl⟩ | ⟨byte, rfl⟩ <;> exact ⟨rfl, rfl⟩
  | foreign op which => rcases which with rfl | rfl | rfl <;> exact ⟨rfl, rfl⟩
  | stopped which held there device =>
      rw [usage_carry_eq there rfl]
      rcases which with rfl | rfl <;> exact ⟨rfl, rfl⟩
  | _ => exact ⟨rfl, rfl⟩

theorem Sound.turn_counted (sound : s.Sound pins) (pending : s.pending? t = some p)
    (patience : p.call.patience = .block) :
    ∃ p', (s.perform (.turn t)).host.pending? t = some p' ∧ p.Continues p' ∧ (s.perform (.turn t)).reply = .done ∧
      ((s.perform (.turn t)).host.usage p.cache).lookups + p.stage.looked.toNat =
        (s.usage p.cache).lookups + p'.stage.looked.toNat ∧
      ((s.perform (.turn t)).host.usage p.cache).writes = (s.usage p.cache).writes := by
  obtain ⟨m, d, turn, there, device, turned, done⟩ := sound.turn_eq pending
  obtain ⟨lookups, writes⟩ := turned.counted patience
  have after : (s.carry p.cache m turn.cache turn.device turn.events).usage p.cache = turn.cache.usage := by
    rw [usage_carry there, if_pos rfl]
  have before : s.usage p.cache = m.cache.usage := by simp [usage, there]
  rw [perform, done, before]
  refine ⟨_, lookup_replace_same pending _, ⟨rfl, rfl, rfl⟩, rfl, ?_, ?_⟩
  · exact (congrArg (fun n => n.lookups + _) after).trans lookups
  · exact (congrArg Usage.writes after).trans writes

end Host
end BlockCache
