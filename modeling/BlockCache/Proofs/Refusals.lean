import BlockCache.Device.Disk
import BlockCache.Proofs.Cache.Taken
import BlockCache.Proofs.Host.Alone
import BlockCache.Proofs.Host.Deeds

/-!
# Calls that get no lease

A call that may not wait is refused if it would have to, and a call that waits may be interrupted. It leaves no trace
but what its lookup has done, and nothing at all if no slot is free: `refusals_traceless`.
-/

namespace BlockCache

/-- A call that has come to the stage cannot go on as its cache is. -/
def Stage.Waits (c : Cache) : Stage → Prop
  | .queued i => c.table.slots[i]?.any (·.data.isLocked) = true
  | .starved seen => c.freed = seen
  | _ => False

theorem Call.turn_unasked {δ : Type} [BlockDevice δ] {stage : Stage} {c : Cache} (call : Call)
    (able : ¬ stage.Waits c) (t : Thread) (cancelled cancelled' : Token → Bool) (d : δ) :
    call.turn t cancelled stage c d = call.turn t cancelled' stage c d := by
  cases stage with
  | starved seen => simp only [turn, starve, if_pos (show c.freed ≠ seen from able)]
  | queued i =>
      cases here : c.table.slots[i]? with
      | none => simp only [turn, queue, here]
      | some s =>
          have unlocked : s.data.isLocked = false := by simpa [Stage.Waits, here] using able
          simp only [turn, queue, here, Lock.attempt_eq, unlocked, Bool.false_eq_true, if_false]
  | _ => rfl

namespace Host

variable {δ : Type} [BlockDevice δ]

/-! ## Calls that are left alone -/

inductive Attempted (s : Host δ) (t : Thread) (name : String) (c : Nat) (m : Mount) (call : Call) : Prop
  | contended (busy : m.cache.Busy call.key)
      (refused : ∀ cause, call.patience.refusal s.isCancelled = some cause →
        (s.lease t name c call).reply = .failed (.error cause) ∧
          (s.lease t name c call).host.unlogged = (s.onCache c Cache.hitCounted).unlogged)
  | unserved (full : m.cache.Full call.key) (policy : m.cache.exhaustion = .wait)
      (refused : ∀ cause, call.patience.refusal s.isCancelled = some cause →
        (s.lease t name c call).reply = .failed (.error cause) ∧ (s.lease t name c call).host.unlogged = s.unlogged)
  | stopped (full : m.cache.Full call.key) (policy : m.cache.exhaustion = .stop)
      (reply : (s.lease t name c call).reply = .failed (.fault (.stop .exhausted)))
      (same : (s.lease t name c call).host.unlogged = s.unlogged)
  | served (free : ¬ m.cache.Busy call.key) (unfull : ¬ m.cache.Full call.key)
      (unasked : ∀ patience, s.lease t name c { call with patience } = s.lease t name c call)
      (granted : call.loads = false → ∃ v, (s.lease t name c call).reply = .lease v ∧ v.key = call.key)

structure Tries (s : Host δ) (t : Thread) (name : String) (c : Nat) (m : Mount) (key : Key) : Prop where
  contended : (s.lease t name c ⟨key, .never, false⟩).reply = .failed (.error .lockContended) ↔
    m.cache.Busy key ∨ m.cache.Full key ∧ m.cache.exhaustion = .wait
  stopped : (s.lease t name c ⟨key, .never, false⟩).reply = .failed (.fault (.stop .exhausted)) ↔
    m.cache.Full key ∧ m.cache.exhaustion = .stop
  granted : (∃ v, (s.lease t name c ⟨key, .never, false⟩).reply = .lease v ∧ v.key = key) ↔
    ¬ m.cache.Busy key ∧ ¬ m.cache.Full key

variable {s : Host δ} {pins : Nat → Nat → Nat} {t : Thread} {name : String} {c : Nat} {m : Mount} {d : δ} {p : Pending}

theorem Sound.attempted (sound : s.Sound pins) (idle : s.pending? t = none) (there : s.mount? c = some m)
    (free : s.lease? name = none) (call : Call) : s.Attempted t name c m call := by
  obtain ⟨d, device⟩ : ∃ d, s.devices[m.device]? = some d := ⟨_, Array.getElem?_eq_getElem (sound.devices there)⟩
  have table := sound.tables there
  obtain ⟨granted, failed, -⟩ := sound.lease_eq idle there device free call
  have outcome := Call.turns_outcome table call t s.isCancelled d
  have patience (unlocked : ¬ m.cache.Busy call.key) (unfull : ¬ m.cache.Full call.key) (patience : Patience) :=
    Call.turns_patience table unlocked unfull patience t s.isCancelled d
  generalize call.turns t s.isCancelled 4 .looking m.cache d = turn at granted failed outcome patience
  cases outcome with
  | queued busy patient => exact .contended busy fun cause refusal => by cases refusal.symm.trans patient
  | contended busy refusal =>
      refine .contended busy fun cause refusal' => ?_
      obtain rfl := Option.some.inj (refusal.symm.trans refusal')
      rw [failed _ rfl]
      exact ⟨rfl, carry_unlogged_same there device rfl⟩
  | stopped full policy =>
      have done := failed _ rfl
      exact .stopped full policy (by rw [done]) (by rw [done]; exact carry_unlogged_idle there device)
  | starved full policy patient => exact .unserved full policy fun cause refusal => by cases refusal.symm.trans patient
  | unserved full policy refusal =>
      refine .unserved full policy fun cause refusal' => ?_
      obtain rfl := Option.some.inj (refusal.symm.trans refusal')
      rw [failed _ rfl]
      exact ⟨rfl, carry_unlogged_idle there device⟩
  | @served found c₁ c₂ unlocked unfull gains looked _ locked moved =>
      refine .served unlocked unfull (fun other => ?_) fun loads => ?_
      · obtain ⟨granted', failed', -⟩ := sound.lease_eq idle there device free { call with patience := other }
        rw [patience unlocked unfull other] at granted' failed'
        rcases call.serve_result found c₂ d with result | ⟨why, result⟩
        · rw [granted _ result, granted' _ result]
        · rw [failed _ result, failed' _ result]
      · obtain ⟨sl, here, -, key⟩ := gains.has
        have served : call.serve found c₂ d =
            ⟨c₂, d, found.events call.key, .granted found.slot⟩ := by simp [Call.serve, loads]
        rw [served] at granted
        rw [granted _ rfl]
        have after : (s.carry c m c₂ d (found.events call.key)).mount? c = some _ := carry_same there
        have view : (s.carry c m c₂ d (found.events call.key)).view ⟨c, found.slot, t⟩ = .lease _ :=
          view_eq ((slot?_eq after _).trans (moved.same here))
        exact ⟨_, view, key⟩

theorem Sound.tries (sound : s.Sound pins) (idle : s.pending? t = none) (there : s.mount? c = some m)
    (free : s.lease? name = none) (key : Key) : s.Tries t name c m key := by
  have attempted := sound.attempted idle there free ⟨key, .never, false⟩
  cases attempted with
  | contended busy refused =>
      have answer := (refused .lockContended rfl).1
      have busy : m.cache.Busy key := busy
      constructor <;> simp [answer, busy, busy.not_full]
  | unserved full policy refused =>
      have answer := (refused .lockContended rfl).1
      have full : m.cache.Full key := full
      have unlocked : ¬ m.cache.Busy key := fun busy => busy.not_full full
      constructor <;> simp [answer, full, unlocked, policy]
  | stopped full policy answer =>
      have full : m.cache.Full key := full
      have unlocked : ¬ m.cache.Busy key := fun busy => busy.not_full full
      constructor <;> simp [answer, full, unlocked, policy]
  | served unlocked unfull unasked granted =>
      have unlocked : ¬ m.cache.Busy key := unlocked
      have unfull : ¬ m.cache.Full key := unfull
      obtain ⟨v, answer, mine⟩ := granted rfl
      constructor <;> simp [answer, unlocked, unfull, mine]

/-! ## Calls in company -/

/-- A step changes nothing but how far the call of thread `t` is. -/
def Still (t : Thread) (taken : Host δ × Step) : Prop :=
  ∃ p, (taken.1.advance taken.2).host.unlogged = (taken.1.setPending t p).unlogged

/-- The lookup of a call of thread `t` finds slot `i`, and changes nothing else: the slot has the block, or is free and
given to it. If the slot is locked or in use, there is one more reference to it and one more hit. -/
structure Joins (t : Thread) (c i : Nat) (taken : Host δ × Step) : Prop where
  found : ∃ key found m cache p, taken.1.deedIn c taken.2 = some (.found key found) ∧ found.slot = i ∧
    taken.1.mount? c = some m ∧ m.cache.Claims key cache found ∧
    (taken.1.advance taken.2).host.unlogged = ((taken.1.onCache c fun _ => cache).setPending t p).unlogged
  busy : ∀ sl, taken.1.slot? c i = some sl → sl.data.isLocked = true ∨ sl.refcount ≠ 0 → ∃ p,
    (taken.1.advance taken.2).host.unlogged = ((taken.1.onCache c (Cache.joined i)).setPending t p).unlogged

/-- A call of thread `t` gives its reference to slot `i` back, which is locked and has others. Nothing else changes. -/
structure Leaves (t : Thread) (c i : Nat) (taken : Host δ × Step) : Prop where
  shared : ∃ sl, taken.1.slot? c i = some sl ∧ sl.data.isLocked = true ∧ 2 ≤ sl.refcount
  left : ∃ p, (taken.1.advance taken.2).host.unlogged = ((taken.1.onCache c (Cache.left i)).setPending t p).unlogged

def Takes (t : Thread) (stage stage' : Stage) (taken : Host δ × Step) : Prop :=
  (∃ p, taken.1.pending? t = some p ∧ p.stage = stage) ∧
    ∃ p', (taken.1.advance taken.2).host.pending? t = some p' ∧ p'.stage = stage'

inductive Traceless (t : Thread) (c : Nat) (cause : Error) (own : List (Host δ × Step)) : Prop
  | still {seen : Nat} {last : Host δ × Step} (member : last ∈ own)
      (ends : Takes t (.starved seen) (.failed (.error cause)) last) (still : ∀ entry ∈ own, Still t entry)
  | left {before middle after : List (Host δ × Step)} {found last : Host δ × Step} {i : Nat}
      (split : own = before ++ found :: (middle ++ last :: after))
      (ends : Takes t (.queued i) (.failed (.error cause)) last)
      (still : ∀ entry ∈ before ++ (middle ++ after), Still t entry) (joins : Joins t c i found)
      (leaves : Leaves t c i last)
  /-- The call had the lock, and the error is that of its transfer. -/
  | unread {i : Nat} {last : Host δ × Step} (member : last ∈ own)
      (ends : Takes t (.loading i) (.failed (.error cause)) last)

def Past (t : Thread) (c : Nat) (own : List (Host δ × Step)) : Stage → Prop
  | .looking | .starved _ | .failed (.fault (.stop .exhausted)) => ∀ entry ∈ own, Still t entry
  | .queued i => ∃ before found middle, own = before ++ found :: middle ∧
      (∀ entry ∈ before ++ middle, Still t entry) ∧ Joins t c i found
  | .failed (.error cause) => Traceless t c cause own
  | _ => True

variable {own : List (Host δ × Step)} {taken : Host δ × Step} {stage : Stage} {step : Step}

theorem forall_still_concat (still : ∀ entry ∈ own, Still t entry) (last : Still t taken) :
    ∀ entry ∈ own ++ [taken], Still t entry := by
  intro entry member
  rcases List.mem_append.mp member with member | member
  · exact still entry member
  · exact List.mem_singleton.mp member ▸ last

theorem Past.still (past : Past t c own stage) (last : Still t taken) : Past t c (own ++ [taken]) stage := by
  cases stage with
  | looking | starved => exact forall_still_concat past last
  | queued i =>
      obtain ⟨before, found, middle, rfl, still, joins⟩ := past
      refine ⟨before, found, middle ++ [taken], by simp, ?_, joins⟩
      rw [← List.append_assoc]
      exact forall_still_concat still last
  | failed why =>
      cases why with
      | fault fault =>
          cases fault with
          | stop reason =>
              cases reason with
              | exhausted => exact forall_still_concat past last
              | _ => trivial
          | _ => trivial
      | error cause =>
          cases past with
          | still member ends still =>
              exact .still (List.mem_append_left _ member) ends (forall_still_concat still last)
          | @left before middle after found final i split ends still joins leaves =>
              have whole : own ++ [taken] = before ++ found :: (middle ++ final :: (after ++ [taken])) := by
                simp [split]
              refine .left whole ends ?_ joins leaves
              rw [← List.append_assoc, ← List.append_assoc, List.append_assoc before]
              exact forall_still_concat still last
          | unread member ends => exact .unread (List.mem_append_left _ member) ends
  | _ => trivial

theorem still_of_carry (there : s.mount? c = some m) (device : s.devices[m.device]? = some d) {events : List Event}
    (done : (s.advance step).host = (s.carry c m m.cache d events).setPending t p) : Still t (s, step) := by
  refine ⟨p, ?_⟩
  rw [done]
  exact congrArg (setPending · t p) (carry_unlogged_idle there device)

theorem Sound.still_of_same (sound : s.Sound pins) (pending : s.pending? t = some p)
    (done : (s.advance step).host = s) : Still t (s, step) :=
  ⟨p, by rw [done, setPending_self sound.threads pending]⟩

theorem leaves_of_carry (there : s.mount? c = some m) (device : s.devices[m.device]? = some d) {i : Nat} {sl : Slot}
    (here : m.cache.table.slots[i]? = some sl) (locked : sl.data.isLocked = true) (shared : 2 ≤ sl.refcount)
    {events : List Event} (done : (s.advance step).host = (s.carry c m (m.cache.left i) d events).setPending t p) :
    Leaves t c i (s, step) := by
  refine ⟨⟨sl, (slot?_eq there i).trans here, locked, shared⟩, p, ?_⟩
  rw [done]
  exact congrArg (setPending · t p) (carry_unlogged_same there device rfl)

theorem joins_of_gains (table : m.cache.table.Sound) (there : s.mount? c = some m)
    (device : s.devices[m.device]? = some d) {key : Key} {found : Found} {cache : Cache}
    (gains : m.cache.Gains key found cache) (deed : s.deedIn c step = some (.found key found)) {events : List Event}
    (done : (s.advance step).host = (s.carry c m cache d events).setPending t p) :
    Joins t c found.slot (s, step) := by
  have changed {change : Cache → Cache} (same : cache = change m.cache) :
      (s.advance step).host.unlogged = ((s.onCache c change).setPending t p).unlogged := by
    rw [done]
    exact congrArg (setPending · t p) (carry_unlogged_same there device same)
  refine ⟨⟨key, found, m, cache, p, deed, rfl, there, gains.claims table, changed rfl⟩, fun sl here busy => ⟨p, ?_⟩⟩
  rw [slot?_eq there] at here
  have referenced : sl.refcount ≠ 0 := busy.elim (table.consistent.referenced_of_locked here) id
  obtain ⟨i, rfl, -, rfl⟩ := gains.of_referenced table here referenced
  exact changed rfl

theorem deedIn_of_turn (pending : s.pending? t = some p) (looking : p.stage = .looking) (there : s.mount? p.cache = some m)
    (answered : (s.advance (.act (.turn t))).reply.isRefused = false) {found : Found} {cache : Cache}
    (looked : Cache.lookup p.call.key m.cache = .ok (some found) cache) :
    s.deedIn p.cache (.act (.turn t)) = some (.found p.call.key found) := by
  rw [deedIn, deed_of_unused (use?_turn_eq_none pending (by simp [looking])), sought?_turn pending there answered,
    if_pos looking, looked]
  simp [Deed.ofLookup]

theorem deedIn_of_probe {j : Nat} (pending : s.pending? t = some p) (there : s.mount? p.cache = some m)
    (answered : (s.advance (.probe t j)).reply.isRefused = false) {found : Found} {cache : Cache}
    (probed : Cache.probe (m.cache.home p.call.key) p.call.key j m.cache = .ok (some found) cache) :
    s.deedIn p.cache (.probe t j) = some (.found p.call.key found) := by
  rw [deedIn, deed_of_unused (by simp [use?])]
  simp [sought?, answered, pending, there, probed, Deed.ofLookup]

/-- The step takes the call `p` of thread `t` on, after the steps `own`. -/
def TakesOn (s : Host δ) (t : Thread) (p : Pending) (own : List (Host δ × Step)) (step : Step) : Prop :=
  ∃ p', (s.advance step).host.pending? t = some p' ∧ p.Continues p' ∧ Past t p.cache (own ++ [(s, step)]) p'.stage

theorem Sound.takesOn_still (sound : s.Sound pins) (pending : s.pending? t = some p) (past : Past t p.cache own p.stage)
    (done : (s.advance step).host = s) : s.TakesOn t p own step :=
  ⟨p, by rw [done, pending], .rfl, past.still (sound.still_of_same pending done)⟩

/-- A call that has found its slot locked gives its reference back. -/
theorem Past.leave {i : Nat} {p₁ : Pending} (past : Past t p.cache own (.queued i)) (table : m.cache.table.Sound)
    (there : s.mount? p.cache = some m) (device : s.devices[m.device]? = some d) {cache : Cache} {cause : Error}
    (moved : m.cache.Moved (.giveUp i) cache)
    (failed : (p.call.queue t s.isCancelled i m.cache d).result = .failed (.error cause)) {events : List Event}
    (host : (s.advance step).host = (s.carry p.cache m cache d events).setPending t p₁)
    (takes : Takes t (.queued i) (.failed (.error cause)) (s, step)) :
    Traceless t p.cache cause (own ++ [(s, step)]) := by
  obtain ⟨earlier, found, middle, rfl, still, joins⟩ := past
  obtain ⟨sl, here, referenced, last⟩ := moved.allowed
  have here : m.cache.table.slots[i]? = some sl := here
  have locked := Call.queue_failed table here referenced failed
  -- The slot is locked by another, which has a reference of its own.
  have shared : 2 ≤ sl.refcount := by
    have more : sl.refcount ≠ 1 := fun single =>
      absurd locked (by simp [(table.consistent.proper here).agrees.isLocked_eq_false_iff.mpr (last single)])
    omega
  obtain rfl := moved.left table here (by omega)
  have split : earlier ++ found :: middle ++ [(s, step)] = earlier ++ found :: (middle ++ (s, step) :: []) :=
    List.append_assoc earlier _ _
  exact .left split takes (by simpa using still) joins (leaves_of_carry there device here locked shared host)

theorem Sound.turn_past (sound : s.Sound pins) (pending : s.pending? t = some p) (past : Past t p.cache own p.stage) :
    s.TakesOn t p own (.act (.turn t)) := by
  have called := mem_of_lookup pending
  obtain ⟨m, there⟩ := Option.isSome_iff_exists.mp (sound.called _ called).mounted
  obtain ⟨d, device⟩ : ∃ d, s.devices[m.device]? = some d := ⟨_, Array.getElem?_eq_getElem (sound.devices there)⟩
  have table := sound.tables there
  have turned : p.call.Turned t s.isCancelled m.cache d p.stage _ :=
    Call.turn_turned table p.call (sound.based called there)
  have done := turn_carry pending there device
  generalize same : p.call.turn t s.isCancelled p.stage m.cache d = turn at done turned
  have host : (s.advance (.act (.turn t))).host = (s.carry p.cache m turn.cache turn.device turn.events).setPending t
      { p with stage := turn.result, events := p.events ++ turn.events } := congrArg Performed.host done
  have after : (s.turn t).host.pending? t = some { p with stage := turn.result, events := p.events ++ turn.events } :=
    (congrArg (pending? · t) host).trans (lookup_replace_same pending _)
  have takes : Takes t p.stage turn.result (s, .act (.turn t)) := ⟨⟨p, pending, rfl⟩, _, after, rfl⟩
  have member : (s, Step.act (.turn t)) ∈ own ++ [(s, .act (.turn t))] := List.mem_append_right _ List.mem_cons_self
  refine ⟨_, after, ⟨rfl, rfl, rfl⟩, ?_⟩
  show Past t p.cache _ turn.result
  generalize before : p.stage = stage at past turned same takes
  cases turned with
  | @found found L' change cache finds moved looked =>
      have gains : m.cache.Gains p.call.key found cache := ⟨finds.suits, moved⟩
      have deed := deedIn_of_turn pending before there (congrArg (·.reply.isRefused) done) looked
      have still : ∀ entry ∈ own ++ [], Still t entry := by rwa [List.append_nil]
      exact ⟨own, _, [], rfl, still, joins_of_gains table there device gains deed host⟩
  | stopped | starved | awake => exact forall_still_concat past (still_of_carry there device host)
  | asleep | busy => exact Past.still past (still_of_carry there device host)
  | unserved => exact Traceless.still member takes (forall_still_concat past (still_of_carry there device host))
  | granted =>
      dsimp only
      split <;> trivial
  | refused refusal moved => exact past.leave table there device moved (congrArg Turn.result same) host takes
  | valid | loaded => trivial
  | @unloaded i sl c₁ cache failure =>
      cases failure with
      | error cause => exact Traceless.unread member takes
      | breakdown => trivial
  | settled => exact Past.still past (still_of_carry there device host)

theorem Sound.probe_past (sound : s.Sound pins) (pending : s.pending? t = some p) (past : Past t p.cache own p.stage)
    (j : Nat) : s.TakesOn t p own (.probe t j) := by
  have took := sound.advance_took (.probe t j)
  obtain ⟨performed, done⟩ : ∃ performed, s.advance (.probe t j) = performed := ⟨_, rfl⟩
  rw [done] at took
  have host : (s.advance (.probe t j)).host = performed.host := congrArg Performed.host done
  cases took with
  | refused | nothing => exact sound.takesOn_still pending past host
  | @found _ _ p' m d found cache pending' looking there device gains reached probed =>
      obtain rfl : p = p' := Option.some.inj (pending.symm.trans pending')
      rw [looking] at past
      have deed := deedIn_of_probe pending there (congrArg (·.reply.isRefused) done) probed
      have still : ∀ entry ∈ own ++ [], Still t entry := by rwa [List.append_nil]
      have after := (congrArg (pending? · t) host).trans (queuedAt_pending pending m cache d found)
      exact ⟨_, after, ⟨rfl, rfl, rfl⟩, own, _, [], rfl, still,
        joins_of_gains (sound.tables there) there device gains deed host⟩

theorem Sound.conclude_past (sound : s.Sound pins) (pending : s.pending? t = some p) (past : Past t p.cache own p.stage)
    (seen : Nat) : s.TakesOn t p own (.conclude t seen) := by
  have took := sound.advance_took (.conclude t seen)
  obtain ⟨performed, done⟩ : ∃ performed, s.advance (.conclude t seen) = performed := ⟨_, rfl⟩
  rw [done] at took
  have host : (s.advance (.conclude t seen)).host = performed.host := congrArg Performed.host done
  cases took with
  | refused => exact sound.takesOn_still pending past host
  | @stopped _ _ p' m d pending' looking there device | @starved _ _ p' m d pending' looking there device =>
      obtain rfl : p = p' := Option.some.inj (pending.symm.trans pending')
      rw [looking] at past
      exact ⟨_, (congrArg (pending? · t) host).trans (lookup_replace_same pending _), ⟨rfl, rfl, rfl⟩,
        forall_still_concat past (still_of_carry there device host)⟩

theorem Sound.spoil_past (sound : s.Sound pins) (pending : s.pending? t = some p) (past : Past t p.cache own p.stage) :
    s.TakesOn t p own (.spoil t) := by
  have took := sound.advance_took (.spoil t)
  obtain ⟨performed, done⟩ : ∃ performed, s.advance (.spoil t) = performed := ⟨_, rfl⟩
  rw [done] at took
  have host : (s.advance (.spoil t)).host = performed.host := congrArg Performed.host done
  cases took with
  | refused => exact sound.takesOn_still pending past host
  | @spoilt _ p' i m d sl c₁ cache tr failure pending' loading =>
      obtain rfl : p = p' := Option.some.inj (pending.symm.trans pending')
      have after := (congrArg (pending? · t) host).trans (lookup_replace_same pending _)
      refine ⟨_, after, ⟨rfl, rfl, rfl⟩, ?_⟩
      have takes : Takes t (.loading i) _ (s, .spoil t) := ⟨⟨p, pending, loading⟩, _, after, rfl⟩
      cases failure with
      | error cause => exact Traceless.unread (List.mem_append_right _ List.mem_cons_self) takes
      | breakdown => trivial

theorem Sound.answer_refused (sound : s.Sound pins) (refused : (s.answer t).reply.isRefused = true) :
    (s.answer t).host = s := by
  have did := sound.answer_did t
  generalize s.answer t = done at did refused
  cases did with
  | refused => rfl
  | answered pending granted dropped =>
      obtain ⟨v, view, -⟩ := sound.view_granted pending granted dropped
      rw [view] at refused
      cases refused
  | denied => cases refused
  | foreign op which => rcases which with which | which | which <;> cases which
  | stopped which => rcases which with which | which <;> cases which
  | edited which => rcases which with ⟨offset, part, which⟩ | ⟨byte, which⟩ <;> cases which

theorem Sound.advance_past (sound : s.Sound pins) (pending : s.pending? t = some p)
    (past : Past t p.cache own p.stage) (mine : step.caller? = some t)
    (unanswered : step = .act (.answer t) → (s.answer t).reply.isRefused = true) : s.TakesOn t p own step := by
  cases step with
  | unlock | part => cases mine
  | probe t' j =>
      obtain rfl := Option.some.inj mine
      exact sound.probe_past pending past j
  | conclude t' seen =>
      obtain rfl := Option.some.inj mine
      exact sound.conclude_past pending past seen
  | spoil t' =>
      obtain rfl := Option.some.inj mine
      exact sound.spoil_past pending past
  | act act =>
      cases act with
      | start t' name c call =>
          obtain rfl := Option.some.inj mine
          exact sound.takesOn_still pending past (by simp [Host.advance, perform, start, pending, refuse])
      | turn t' =>
          obtain rfl := Option.some.inj mine
          exact sound.turn_past pending past
      | answer t' =>
          obtain rfl := Option.some.inj mine
          exact sound.takesOn_still pending past (sound.answer_refused (unanswered rfl))
      | _ => cases mine

def ownTrail (s : Host δ) (t : Thread) (steps : List Step) : List (Host δ × Step) :=
  (s.trail steps).filter fun entry => entry.2.caller? = some t

theorem Sound.walk_past (sound : s.Sound pins) (pending : s.pending? t = some p) (past : Past t p.cache own p.stage)
    {steps : List Step} (unanswered : s.Unanswered t steps) :
    ∃ p', (s.walk steps).pending? t = some p' ∧ p.Continues p' ∧
      Past t p.cache (own ++ s.ownTrail t steps) p'.stage := by
  induction steps generalizing s pins p own with
  | nil => exact ⟨p, pending, .rfl, by rwa [ownTrail, trail, List.filter_nil, List.append_nil]⟩
  | cons step steps ih =>
      obtain ⟨pins₁, sound₁⟩ := sound.advance step
      have later : (s.advance step).host.Unanswered t steps := fun entry member =>
        unanswered entry (List.mem_cons_of_mem _ member)
      by_cases mine : step.caller? = some t
      · obtain ⟨p₁, pending₁, onward, past₁⟩ := sound.advance_past pending past mine fun same =>
          unanswered (s, step) List.mem_cons_self same
        rw [← onward.cache] at past₁
        obtain ⟨p', pending', onward', past'⟩ := ih sound₁ pending₁ past₁ later
        refine ⟨p', pending', onward.trans onward', ?_⟩
        rw [onward.cache, List.append_assoc, List.singleton_append] at past'
        simpa only [ownTrail, trail, List.filter_cons, mine, decide_true, if_true] using past'
      · -- The steps of others leave the call where it is.
        have pending₁ := ((sound.advance_took step).pending_other mine).trans pending
        obtain ⟨p', pending', onward, past'⟩ := ih sound₁ pending₁ past later
        refine ⟨p', pending', onward, ?_⟩
        simpa only [ownTrail, trail, List.filter_cons, mine, decide_false, Bool.false_eq_true, if_false] using past'

/-! ## Calls that need not wait -/

theorem turn_cancelled (pending : s.pending? t = some p) (there : s.mount? p.cache = some m)
    (device : s.devices[m.device]? = some d) (able : ¬ p.stage.Waits m.cache) (cancelled : List Token) :
    ({ s with cancelled } : Host δ).turn t =
      ⟨{ (s.turn t).host with cancelled }, (s.turn t).reply, (s.turn t).events⟩ := by
  have pending' : ({ s with cancelled } : Host δ).pending? t = some p := pending
  have there' : ({ s with cancelled } : Host δ).mount? p.cache = some m := there
  have device' : ({ s with cancelled } : Host δ).devices[m.device]? = some d := device
  rw [turn_carry pending there device, turn_carry pending' there' device',
    p.call.turn_unasked able t ({ s with cancelled } : Host δ).isCancelled s.isCancelled d]
  rfl

structure Refuses (s : Host δ) : Prop where
  tried : ∀ {t name c m}, s.pending? t = none → s.mount? c = some m → s.lease? name = none →
    ∀ key, s.Tries t name c m key
  attempted : ∀ {t name c m}, s.pending? t = none → s.mount? c = some m → s.lease? name = none →
    ∀ call, s.Attempted t name c m call
  failed : ∀ {t p p' more cause}, s.pending? t = some p → p.stage = .looking → s.Unanswered t more →
    (s.walk more).pending? t = some p' → p'.stage = .failed (.error cause) →
      Traceless t p.cache cause (s.ownTrail t more)
  exhausted : ∀ {t p p' more}, s.pending? t = some p → p.stage = .looking → s.Unanswered t more →
    (s.walk more).pending? t = some p' → p'.stage = .failed (.fault (.stop .exhausted)) →
      ∀ entry ∈ s.ownTrail t more, Still t entry
  /-- It makes no difference to a call that need not wait which tokens are cancelled. -/
  unasked : ∀ {t p m d}, s.pending? t = some p → s.mount? p.cache = some m → s.devices[m.device]? = some d →
    ¬ p.stage.Waits m.cache → ∀ cancelled, ({ s with cancelled } : Host δ).turn t =
      ⟨{ (s.turn t).host with cancelled }, (s.turn t).reply, (s.turn t).events⟩

theorem Sound.refuses (sound : s.Sound pins) : s.Refuses := by
  have past {t : Thread} {p p' : Pending} {more : List Step} (pending : s.pending? t = some p)
      (looking : p.stage = .looking) (unanswered : s.Unanswered t more) (after : (s.walk more).pending? t = some p') :
      Past t p.cache (s.ownTrail t more) p'.stage := by
    have start : Past t p.cache ([] : List (Host δ × Step)) p.stage := by
      rw [looking]
      exact fun entry member => absurd member List.not_mem_nil
    obtain ⟨p₁, after₁, -, past⟩ := sound.walk_past pending start unanswered
    obtain rfl : p₁ = p' := Option.some.inj (after₁.symm.trans after)
    exact past
  refine
    { tried := fun idle there free => sound.tries idle there free
      attempted := fun idle there free => sound.attempted idle there free
      failed := fun pending looking unanswered after stage => ?_
      exhausted := fun pending looking unanswered after stage => ?_
      unasked := fun pending there device able => turn_cancelled pending there device able }
  · have past := past pending looking unanswered after
    rwa [stage] at past
  · have past := past pending looking unanswered after
    rwa [stage] at past

end Host
open Host

/-- A call that may not wait is refused if its block is locked or must wait for a free slot, is stopped if there is none
and never will be, and else gets its lease; it leaves one hit or nothing. A call that waits for the lock of a slot has
changed what its lookup has, which is a hit and a reference if the slot was in use then; when it is interrupted it only
takes the reference back. One that is interrupted while it waits for a free slot has changed nothing. A token that is
cancelled is not asked for unless the call has to wait. -/
theorem refusals_traceless {δ : Type} [BlockDevice δ] (devices : List δ) (plans : List (Nat × Plan))
    (steps : List Step) : ((assemble devices plans).walk steps).Refuses := by
  obtain ⟨pins, sound⟩ := walk_sound devices plans steps
  exact sound.refuses

theorem refusals_traceless_of_waiter :
    let take : List Act := [.start 0 "a" 0 ⟨⟨0, 3⟩, .block, false⟩, .turn 0, .turn 0, .answer 0,
      .start 1 "b" 0 ⟨⟨0, 3⟩, .interruptible "stop", true⟩]
    let wait : List Act := [.turn 1, .turn 1, .cancel "stop", .turn 1]
    let host := (assemble [RamDisk.empty 4 none] [(0, ⟨1, 1, 4, .wait⟩)]).walk (take.map .act)
    ((host.walk (wait.map .act)).pending? 1).any (fun p => p.stage = .failed (.error .interrupted)) = true ∧
      Traceless 1 0 .interrupted (host.ownTrail 1 (wait.map .act)) := by
  intro take wait host
  have failed : ((host.walk (wait.map .act)).pending? 1).any
      (fun p => p.stage = .failed (.error .interrupted)) = true := by decide +kernel
  have begun : (host.pending? 1).any (fun p => p.stage = .looking ∧ p.cache = 0) = true := by decide +kernel
  obtain ⟨p', after, stage⟩ := (Option.any_eq_true _ _).mp failed
  obtain ⟨p, pending, start⟩ := (Option.any_eq_true _ _).mp begun
  obtain ⟨looking, cache⟩ := of_decide_eq_true start
  have unanswered : host.Unanswered 1 (wait.map .act) := by
    intro entry member answers
    obtain ⟨before, later, split, -⟩ := mem_trail.mp member
    have answered : Step.act (.answer 1) ∈ wait.map Step.act := by rw [split, answers]; simp
    exact absurd answered (by decide)
  exact ⟨failed, cache ▸ (refusals_traceless _ _ _).failed pending looking unanswered after (of_decide_eq_true stage)⟩

/-- The lookup of thread 1 gives the only slot to the block, but thread 0 is the first to lock it. The call of thread 1
waits and is interrupted, having counted a miss and no hit. A call that has waited for the lock may also be interrupted by
the device, and then it leaves the slot free. -/
theorem refused_after_miss :
    let call (patience : Patience) (loads : Bool) : Call := ⟨⟨0, 3⟩, patience, loads⟩
    let plan : Nat × Plan := (0, ⟨1, 1, 4, .wait⟩)
    let disk := Disk.make (RamDisk.empty 4 none) none [⟨.read, 0, .error .interrupted, [7, 7]⟩]
    let host := assemble [disk] [plan]
    let overtaken : List Step := List.map .act [.start 1 "b" 0 (call (.interruptible "stop") true), .turn 1,
      .start 0 "a" 0 (call .block false), .turn 0, .turn 0, .answer 0, .turn 1, .cancel "stop", .turn 1]
    let broken : List Step := List.map .act [.start 0 "a" 0 (call .block false), .turn 0, .turn 0, .answer 0,
      .start 1 "b" 0 (call (.interruptible "stop") true), .turn 1, .turn 1, .finish 0 "a" .dropped, .turn 1, .turn 1]
    ((host.walk overtaken).pending? 1).any (fun p => p.stage = .failed (.error .interrupted)) = true ∧
      ((host.walk (overtaken.take 2)).mount? 0).any (fun m => m.cache.usage = ⟨0, 1, 1, 0, 0, 0⟩ ∧ m.cache.free = 0) =
        true ∧
      (host.ownTrail 1 overtaken).filterMap (fun entry => entry.1.deedIn 0 entry.2) =
        [.found ⟨0, 3⟩ (.evicted 0 none)] ∧
      ((host.walk broken).pending? 1).any (fun p => p.stage = .failed (.error .interrupted)) = true ∧
      ((host.walk broken).mount? 0).any (fun m => m.cache.free = 1 ∧ m.cache.bytes 0 = [7, 7, 0, 0]) = true := by
  decide +kernel

end BlockCache
