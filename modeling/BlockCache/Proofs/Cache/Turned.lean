import BlockCache.Cache.Call
import BlockCache.Proofs.Cache.Moved
import BlockCache.Proofs.Lock.Attempts

/-!
# The steps of a call

`Call.Turned` lists what one step of a call can do, and `turn_turned` says that a step in a sound cache is one of
these. `Cache.Flushed` and `flush_flushed` do the same for a write.
-/

namespace BlockCache

def Found.move (key : Key) : Found → Move
  | hit i => .hit i
  | evicted i _ => .assign i key none
  | stolen i j => .assign i key (some j)

theorem Found.slot_move (found : Found) (key : Key) : (found.move key).slot = found.slot := by
  cases found <;> rfl

/-- A slot that is found as it is has the block. One of the home bucket comes with the block that it had, and one that
is stolen is of another bucket. -/
def Layout.Suits (L : Layout) (key : Key) : Found → Prop
  | .hit i => L.Has i key
  | .evicted i old => ∀ s, L.slots[i]? = some s → old = if s.assigned then some s.key else none
  | .stolen _ j => j ≠ L.home key

theorem Layout.Finds.suits {L L' : Layout} {key : Key} {found : Found} {change : Usage → Usage}
    (finds : L.Finds key (some found) L' change) : L.Suits key found := by
  cases finds with
  | hit has => exact has
  | evicted absent oldest here =>
      intro s' here'
      obtain rfl := Option.some.inj (here.symm.trans here')
      rfl
  | stolen absent away => exact away

theorem Layout.Suits.key_after {L : Layout} {key : Key} {found : Found} (suits : L.Suits key found) {s : Slot}
    (here : L.slots[found.slot]? = some s) : ((found.move key).change s).key = key := by
  cases found with
  | hit i =>
      obtain ⟨s', there, -, same⟩ := suits
      obtain rfl : s = s' := Option.some.inj (here.symm.trans there)
      exact same
  | _ => rfl

/-- What a call in its stage relies on: a reference while it waits for a lock, and the lock after that. -/
def Stage.Based (c : Cache) : Stage → Prop
  | .queued i => ∃ s, c.table.slots[i]? = some s ∧ s.refcount ≠ 0 ∧ (s.refcount = 1 → s.data.holder = none)
  | .loading i | .granted i => ∃ s, c.table.slots[i]? = some s ∧ s.data.isLocked = true
  | _ => True

namespace Call

variable {δ : Type} [BlockDevice δ]

inductive Turned (call : Call) (t : Thread) (cancelled : Token → Bool) (c : Cache) (d : δ) :
    Stage → Turn δ Stage → Prop
  | found {found : Found} {L' : Layout} {change : Usage → Usage} {c' : Cache}
      (finds : c.table.layout.Finds call.key (some found) L' change) (moved : c.Moved (found.move call.key) c')
      (looked : Cache.lookup call.key c = .ok (some found) c') :
      Turned call t cancelled c d .looking ⟨c', d, found.events call.key, .queued found.slot⟩
  | stopped (absent : c.table.layout.Absent call.key) (empty : ∀ b, c.table.layout.ring b = [])
      (policy : c.exhaustion = .stop) (looked : Cache.lookup call.key c = .ok none c) :
      Turned call t cancelled c d .looking
        ⟨c, d, [.stopped .exhausted], .failed (.fault (.stop .exhausted))⟩
  | starved (absent : c.table.layout.Absent call.key) (empty : ∀ b, c.table.layout.ring b = [])
      (policy : c.exhaustion = .wait) (looked : Cache.lookup call.key c = .ok none c) :
      Turned call t cancelled c d .looking ⟨c, d, [.waiting], .starved c.freed⟩
  | awake {seen : Nat} (freed : c.freed ≠ seen) :
      Turned call t cancelled c d (.starved seen) ⟨c, d, [], .looking⟩
  | asleep {seen : Nat} (same : c.freed = seen) (patient : call.patience.refusal cancelled = none) :
      Turned call t cancelled c d (.starved seen) ⟨c, d, [], .starved seen⟩
  | unserved {seen : Nat} {cause : Error} (same : c.freed = seen)
      (refusal : call.patience.refusal cancelled = some cause) :
      Turned call t cancelled c d (.starved seen) ⟨c, d, [], .failed (.error cause)⟩
  | granted {i : Nat} {c' : Cache} (moved : c.Moved (.grant i t) c') :
      Turned call t cancelled c d (.queued i) ⟨c', d, [], if call.loads then .loading i else .granted i⟩
  | busy {i : Nat} {s : Slot} (here : c.table.slots[i]? = some s) (locked : s.data.isLocked = true)
      (patient : call.patience.refusal cancelled = none) :
      Turned call t cancelled c d (.queued i) ⟨c, d, [], .queued i⟩
  | refused {i : Nat} {c' : Cache} {cause : Error} (refusal : call.patience.refusal cancelled = some cause)
      (moved : c.Moved (.giveUp i) c') :
      Turned call t cancelled c d (.queued i) ⟨c', d, [], .failed (.error cause)⟩
  | valid {i : Nat} {s : Slot} (here : c.table.slots[i]? = some s) (valid : s.valid = true) :
      Turned call t cancelled c d (.loading i) ⟨c, d, [], .granted i⟩
  | loaded {i : Nat} {s : Slot} {c' : Cache} (here : c.table.slots[i]? = some s) (invalid : s.valid = false)
      (success : (BlockDevice.read d s.key s.data.value).failure = none)
      (moved : c.Moved (.load i (BlockDevice.read d s.key s.data.value).buffer) c') :
      Turned call t cancelled c d (.loading i)
        ⟨c', (BlockDevice.read d s.key s.data.value).device, (BlockDevice.read d s.key s.data.value).events,
          .granted i⟩
  | unloaded {i : Nat} {s : Slot} {c₁ c' : Cache} {failure : TransferFailure}
      (here : c.table.slots[i]? = some s) (invalid : s.valid = false)
      (broken : (BlockDevice.read d s.key s.data.value).failure = some failure)
      (spoilt : c.Moved (.edit i (BlockDevice.read d s.key s.data.value).buffer) c₁)
      (ended : c₁.Moved (.finish i) c') :
      Turned call t cancelled c d (.loading i)
        ⟨c', (BlockDevice.read d s.key s.data.value).device, (BlockDevice.read d s.key s.data.value).events,
          .failed failure.toFailure⟩
  | settled {stage : Stage} (done : (∃ i, stage = .granted i) ∨ ∃ why, stage = .failed why) :
      Turned call t cancelled c d stage ⟨c, d, [], stage⟩

end Call

namespace Turn

variable {δ α : Type} {update : Update Cache α} {a : α} {fault : Fault} {c c' : Cache}

theorem ofUpdate_ok (done : update c = .ok a c') (d : δ) : ofUpdate update c d = ⟨c', d, [], none⟩ := by
  simp [ofUpdate, done]

theorem ofUpdate_error (broken : update c = .error fault c') (d : δ) :
    ofUpdate update c d = ⟨c', d, fault.events, some (.fault fault)⟩ := by
  simp [ofUpdate, broken]

theorem afterTransfer_ok {t : Transfer δ} (success : t.failure = none) (done : update c = .ok a c') :
    afterTransfer t update c = ⟨c', t.device, t.events, none⟩ := by
  simp [afterTransfer, success, ofUpdate_ok done]

theorem afterTransfer_failed {t : Transfer δ} {failure : TransferFailure} (failed : t.failure = some failure) :
    afterTransfer t update c = ⟨c, t.device, t.events, some failure.toFailure⟩ := by
  simp [afterTransfer, failed]

end Turn

namespace Cache
open Update

variable {δ : Type} [BlockDevice δ] {c : Cache} {i : Nat} {s : Slot}

theorem lookup_moved (sound : c.table.Sound) (key : Key) :
    (∃ found L' change c', c.table.layout.Finds key (some found) L' change ∧
        lookup key c = .ok (some found) c' ∧ c.Moved (found.move key) c') ∨
      (lookup key c = .ok none c ∧ c.table.layout.Absent key ∧ ∀ b, c.table.layout.ring b = []) := by
  obtain ⟨found, L', change, table, finds, shows, same, done⟩ := lookup_finds sound.shows sound.consistent key
  have outcome := finds
  cases finds with
  | @hit i has =>
      obtain ⟨s, here, assigned, -⟩ := has
      refine .inl ⟨_, _, _, _, outcome, done, ⟨s, here, assigned⟩, shows, rfl, rfl, ?_, rfl⟩
      simp [Layout.frees, Found.move]
  | @evicted i rest s absent oldest here =>
      refine .inl ⟨_, _, _, _, outcome, done, ⟨s, here, absent, rest, oldest⟩, shows, rfl, rfl, ?_, rfl⟩
      simp [Layout.frees, Found.move]
  | @stolen i j rest s absent away before empty oldest here =>
      refine .inl ⟨_, _, _, _, outcome, done, ⟨s, here, absent, rest, oldest⟩, shows, rfl, rfl, ?_, rfl⟩
      simp [Layout.frees, Found.move]
  | exhausted absent empty =>
      obtain rfl := same rfl
      exact .inr ⟨done, absent, empty⟩

theorem validate_counted {table : Table} (validated : Table.validate i c.table = .ok () table)
    (change : Usage → Usage) :
    (do count change; onTable (Table.validate i)) c = .ok () { c with table, usage := change c.usage } := by
  rw [bind_ok (count_apply change)]
  exact onTable_ok (c := { c with usage := change c.usage }) validated

theorem fetch_moved (sound : c.table.Sound) (here : c.table.slots[i]? = some s) (locked : s.data.isLocked = true)
    (d : δ) :
    let t := BlockDevice.read d s.key s.data.value
    (t.failure = none ∧ ∃ c', c.Moved (.load i t.buffer) c' ∧ c.fetch i d = ⟨c', t.device, t.events, none⟩) ∨
      ∃ failure c', t.failure = some failure ∧ c.Moved (.edit i t.buffer) c' ∧
        c.fetch i d = ⟨c', t.device, t.events, some failure.toFailure⟩ := by
  intro t
  have filled := sound.shows.set here (·.withBytes t.buffer)
  rw [fetch, here]
  cases outcome : t.failure with
  | some failure =>
      exact .inr ⟨failure, _, rfl, .of_change ⟨s, here, locked⟩ filled rfl rfl, Turn.afterTransfer_failed outcome⟩
  | none =>
      obtain ⟨table, validated, shows⟩ := Table.validate_shows filled (Layout.change_same here _)
      rw [Layout.change_change] at shows
      have done := validate_counted (c := { c with table.slots := c.table.slots.setIfInBounds i (s.withBytes t.buffer) })
        validated fun n => { n with reads := n.reads + 1 }
      refine .inl ⟨rfl, { c with table, usage := (Move.load i t.buffer).count c.usage }, ?_,
        Turn.afterTransfer_ok outcome done⟩
      exact ⟨⟨s, here, locked⟩, shows, rfl, rfl, by simp [Layout.frees], rfl⟩

inductive Flushed (c : Cache) (d : δ) (t : Thread) (i : Nat) : Turn δ (Option Failure) → Prop
  | unauthorized {s : Slot} {stop : Stop} (here : c.table.slots[i]? = some s) (denied : Denied s true t .write stop) :
      Flushed c d t i ⟨c, d, [.stopped stop], some (.fault (.stop stop))⟩
  | failed {s : Slot} {failure : TransferFailure} (here : c.table.slots[i]? = some s)
      (holder : s.data.holder = some t)
      (broken : (BlockDevice.write d s.key s.data.value).failure = some failure) :
      Flushed c d t i ⟨c, (BlockDevice.write d s.key s.data.value).device,
        (BlockDevice.write d s.key s.data.value).events, some failure.toFailure⟩
  | kept {s : Slot} {c' : Cache} (here : c.table.slots[i]? = some s)
      (holder : s.data.holder = some t) (success : (BlockDevice.write d s.key s.data.value).failure = none)
      (moved : c.Moved (.keep i) c') :
      Flushed c d t i ⟨c', (BlockDevice.write d s.key s.data.value).device,
        (BlockDevice.write d s.key s.data.value).events, none⟩

theorem flush_flushed (sound : c.table.Sound) (here : c.table.slots[i]? = some s) (t : Thread) (d : δ) :
    Flushed c d t i (c.flush t i d) := by
  rcases authorize_cases sound here .write t with ⟨holder, authorized⟩ | ⟨denied, refused⟩
  · simp only [flush, authorized, here]
    cases outcome : (BlockDevice.write d s.key s.data.value).failure with
    | some failure =>
        rw [Turn.afterTransfer_failed outcome]
        exact .failed here holder outcome
    | none =>
        obtain ⟨table, validated, shows⟩ := Table.validate_shows sound.shows here
        rw [Turn.afterTransfer_ok outcome (validate_counted validated _)]
        exact .kept here holder outcome
          ⟨⟨s, here, locked_of_holder sound here holder⟩, shows, rfl, rfl, by simp [Layout.frees], rfl⟩
  · simp only [flush, refused]
    exact .unauthorized here denied

end Cache

namespace Call
open Cache

variable {δ : Type} {c : Cache} {d : δ} {t : Thread} {i : Nat} {s : Slot} {cancelled : Token → Bool}

theorem starve_eq (call : Call) (seen : Nat) :
    call.starve cancelled seen c d =
      ⟨c, d, [], if c.freed = seen then (call.patience.refusal cancelled).elim (.starved seen) (.failed ∘ .error)
        else .looking⟩ := by
  by_cases same : c.freed = seen
  · cases patience : call.patience with
    | interruptible token => cases cancel : cancelled token <;> simp [starve, Patience.refusal, same, patience, cancel]
    | _ => simp [starve, Patience.refusal, same, patience]
  · simp [starve, same]

variable [BlockDevice δ]

theorem look_turned (sound : c.table.Sound) (call : Call) : call.Turned t cancelled c d .looking (call.look c d) := by
  rcases lookup_moved sound call.key with ⟨found, L', change, c', finds, done, moved⟩ | ⟨done, absent, empty⟩
  · simp only [look, done]
    exact .found finds moved done
  · simp only [look, done]
    cases policy : c.exhaustion with
    | stop => exact .stopped absent empty policy done
    | wait => exact .starved absent empty policy done

theorem starve_turned (call : Call) (seen : Nat) :
    call.Turned t cancelled c d (.starved seen) (call.starve cancelled seen c d) := by
  rw [starve_eq]
  split
  · rename_i same
    cases refusal : call.patience.refusal cancelled with
    | none => exact .asleep same refusal
    | some cause => exact .unserved same refusal
  · exact .awake ‹_›

theorem queue_turned (sound : c.table.Sound) (call : Call) (based : (Stage.queued i).Based c) :
    call.Turned t cancelled c d (.queued i) (call.queue t cancelled i c d) := by
  obtain ⟨s, here, referenced, last⟩ := based
  simp only [queue, here, Lock.attempt_eq]
  cases locked : s.data.isLocked with
  | false =>
      have unlocked := (sound.consistent.proper here).agrees.isLocked_eq_false_iff.mp locked
      obtain ⟨c', done, moved⟩ := lock_moved sound here referenced unlocked t
      simp only [Bool.false_eq_true, if_false, Turn.ofUpdate_ok done]
      exact .granted moved
  | true =>
      cases refusal : call.patience.refusal cancelled with
      | none => exact .busy here locked refusal
      | some cause =>
          obtain ⟨c', done, moved⟩ := letGo_moved sound here referenced last
          simp only [if_true, Option.elim_some, Turn.ofUpdate_ok done]
          exact .refused refusal moved

theorem loadOr_cases (sound : c.table.Sound) (here : c.table.slots[i]? = some s) (locked : s.data.isLocked = true)
    (d : δ) :
    let tr := BlockDevice.read d s.key s.data.value
    (s.valid = true ∧ ∀ ends, loadOr ends i c d = ⟨c, d, [], .granted i⟩) ∨
      (s.valid = false ∧ tr.failure = none ∧ ∃ c', c.Moved (.load i tr.buffer) c' ∧
        ∀ ends, loadOr ends i c d = ⟨c', tr.device, tr.events, .granted i⟩) ∨
      (s.valid = false ∧ ∃ failure c₁, tr.failure = some failure ∧ c.Moved (.edit i tr.buffer) c₁ ∧ ∀ ends c',
        ends c₁ = .ok () c' → loadOr ends i c d = ⟨c', tr.device, tr.events, .failed failure.toFailure⟩) := by
  intro tr
  simp only [loadOr, here, Option.any_some]
  cases valid : s.valid with
  | true => exact .inl ⟨rfl, fun _ => rfl⟩
  | false =>
      rcases fetch_moved sound here locked d with ⟨success, c', moved, done⟩ | ⟨failure, c₁, broken, spoilt, done⟩
      · refine .inr (.inl ⟨rfl, success, c', moved, fun ends => ?_⟩)
        simp only [Bool.false_eq_true, if_false, done]
        rfl
      · refine .inr (.inr ⟨rfl, failure, c₁, broken, spoilt, fun ends c' ended => ?_⟩)
        simp [done, Turn.ofUpdate_ok ended, Turn.toStage, tr]

theorem load_turned (sound : c.table.Sound) (call : Call) (based : (Stage.loading i).Based c) :
    call.Turned t cancelled c d (.loading i) (load i c d) := by
  obtain ⟨s, here, locked⟩ := based
  rcases loadOr_cases sound here locked d with
    ⟨valid, done⟩ | ⟨invalid, success, c', moved, done⟩ | ⟨invalid, failure, c₁, broken, spoilt, done⟩
  · rw [load, done]
    exact .valid here valid
  · rw [load, done]
    exact .loaded here invalid success moved
  · obtain ⟨c', ended, moved⟩ := endLease_moved (spoilt.sound sound) (spoilt.same here) locked
    rw [load, done (endLease i) c' ended]
    exact .unloaded here invalid broken spoilt moved

theorem turn_turned (sound : c.table.Sound) (call : Call) {stage : Stage} (based : stage.Based c) :
    call.Turned t cancelled c d stage (call.turn t cancelled stage c d) := by
  cases stage with
  | looking => exact look_turned sound call
  | starved seen => exact starve_turned call seen
  | queued i => exact queue_turned sound call based
  | loading i => exact load_turned sound call based
  | granted i => exact .settled (.inl ⟨i, rfl⟩)
  | failed why => exact .settled (.inr ⟨why, rfl⟩)

end Call
end BlockCache
