import BlockCache.Host.Visits
import BlockCache.Proofs.Cache.Contended
import BlockCache.Proofs.Host.Differences
import BlockCache.Proofs.Host.Walks

/-!
# Calls that are left alone

A call whose steps follow one another is one operation on its cache: `Sound.lease_eq`. What the operation comes to
depends on the slot of the block, on the free slots and, if the call would have to wait, on its patience.
-/

namespace BlockCache

namespace Call

variable {δ : Type} [BlockDevice δ]

def turns (call : Call) (t : Thread) (cancelled : Token → Bool) : Nat → Stage → Cache → δ → Turn δ Stage
  | 0, stage, c, d => ⟨c, d, [], stage⟩
  | n + 1, stage, c, d =>
      let first := call.turn t cancelled stage c d
      let rest := call.turns t cancelled n first.result first.cache first.device
      { rest with events := first.events ++ rest.events }

def serve (call : Call) (found : Found) (c : Cache) (d : δ) : Turn δ Stage :=
  if call.loads then
    { load found.slot c d with events := found.events call.key ++ (load found.slot c d).events }
  else ⟨c, d, found.events call.key, .granted found.slot⟩

inductive Outcome (call : Call) (t : Thread) (cancelled : Token → Bool) (c : Cache) (d : δ) : Turn δ Stage → Prop
  | queued {i : Nat} (busy : c.Busy call.key) (patient : call.patience.refusal cancelled = none) :
      Outcome call t cancelled c d ⟨c.joined i, d, [.hit call.key i], .queued i⟩
  | contended {i : Nat} {cause : Error} (busy : c.Busy call.key)
      (refusal : call.patience.refusal cancelled = some cause) :
      Outcome call t cancelled c d ⟨c.hitCounted, d, [.hit call.key i], .failed (.error cause)⟩
  | stopped (full : c.Full call.key) (policy : c.exhaustion = .stop) :
      Outcome call t cancelled c d ⟨c, d, [.stopped .exhausted], .failed (.fault (.stop .exhausted))⟩
  | starved (full : c.Full call.key) (policy : c.exhaustion = .wait)
      (patient : call.patience.refusal cancelled = none) :
      Outcome call t cancelled c d ⟨c, d, [.waiting], .starved c.freed⟩
  | unserved {cause : Error} (full : c.Full call.key) (policy : c.exhaustion = .wait)
      (refusal : call.patience.refusal cancelled = some cause) :
      Outcome call t cancelled c d ⟨c, d, [.waiting], .failed (.error cause)⟩
  | served {found : Found} {c₁ c₂ : Cache} (free : ¬ c.Busy call.key) (unfull : ¬ c.Full call.key)
      (gains : c.Gains call.key found c₁) (looked : Cache.lookup call.key c = .ok (some found) c₁)
      (unlocked : c₁.table.slots[found.slot]?.any (·.data.isLocked) = false)
      (granted : Cache.onTable (Table.lock found.slot t) c₁ = .ok () c₂) (moved : c₁.Moved (.grant found.slot t) c₂) :
      Outcome call t cancelled c d (call.serve found c₂ d)

variable {call : Call} {t : Thread} {cancelled : Token → Bool} {c c₁ c₂ : Cache} {d : δ} {found : Found} {i n : Nat}
  {s : Slot}

theorem turns_failed {why : Failure} : call.turns t cancelled n (.failed why) c d = ⟨c, d, [], .failed why⟩ := by
  induction n with
  | zero => rfl
  | succ n ih => simp only [turns, turn, ih, List.append_nil]

theorem turns_still {stage : Stage} (still : call.turn t cancelled stage c d = ⟨c, d, [], stage⟩) (n : Nat) :
    call.turns t cancelled n stage c d = ⟨c, d, [], stage⟩ := by
  induction n with
  | zero => rfl
  | succ n ih => simp only [turns, still, ih, List.append_nil]

omit [BlockDevice δ] in
theorem toStage_result (turn : Turn δ (Option Failure)) (stage : Stage) :
    (turn.toStage stage).result = stage ∨ ∃ why, (turn.toStage stage).result = .failed why := by
  cases result : turn.result with
  | none => exact .inl (by simp [Turn.toStage, result])
  | some why => exact .inr ⟨why, by simp [Turn.toStage, result]⟩

theorem load_result (i : Nat) (c : Cache) (d : δ) :
    (load i c d).result = .granted i ∨ ∃ why, (load i c d).result = .failed why := by
  rw [load, loadOr]
  split
  · exact .inl rfl
  · dsimp only
    split
    · exact toStage_result _ _
    · rename_i failure _
      rcases toStage_result (Turn.ofUpdate (Cache.endLease i) (c.fetch i d).cache (c.fetch i d).device)
        (.failed failure) with same | failed
      · exact .inr ⟨failure, same⟩
      · exact .inr failed

theorem serve_result (call : Call) (found : Found) (c : Cache) (d : δ) :
    (call.serve found c d).result = .granted found.slot ∨ ∃ why, (call.serve found c d).result = .failed why := by
  rw [serve]
  split
  · exact load_result found.slot c d
  · exact .inl rfl

omit [BlockDevice δ] in
theorem queue_locked (here : c.table.slots[i]? = some s) (locked : s.data.isLocked = true) :
    call.queue t cancelled i c d = (call.patience.refusal cancelled).elim ⟨c, d, [], .queued i⟩ fun cause =>
      (Turn.ofUpdate (Cache.letGo i) c d).toStage (.failed (.error cause)) := by
  simp only [queue, here, Lock.attempt_eq, locked, if_true]
  cases call.patience.refusal cancelled with
  | none => rfl
  | some cause => rfl

omit [BlockDevice δ] in
theorem queue_unlocked (here : c.table.slots[i]? = some s) (unlocked : s.data.isLocked = false)
    (granted : Cache.onTable (Table.lock i t) c = .ok () c₂) :
    call.queue t cancelled i c d = ⟨c₂, d, [], if call.loads then .loading i else .granted i⟩ := by
  simp only [queue, here, Lock.attempt_eq, unlocked, Bool.false_eq_true, if_false, Turn.ofUpdate_ok granted]
  rfl

omit [BlockDevice δ] in
theorem queue_failed (sound : c.table.Sound) (here : c.table.slots[i]? = some s) (referenced : s.refcount ≠ 0)
    {why : Failure} (failed : (call.queue t cancelled i c d).result = .failed why) : s.data.isLocked = true := by
  by_contra unlocked
  have unlocked : s.data.isLocked = false := by simpa using unlocked
  have holder := (sound.consistent.proper here).agrees.isLocked_eq_false_iff.mp unlocked
  obtain ⟨c₂, granted, -⟩ := Cache.lock_moved sound here referenced holder t
  rw [queue_unlocked here unlocked granted] at failed
  dsimp only at failed
  split at failed <;> cases failed

theorem turns_found (looked : Cache.lookup call.key c = .ok (some found) c₁) (n : Nat) :
    call.turns t cancelled (n + 1) .looking c d =
      let rest := call.turns t cancelled n (.queued found.slot) c₁ d
      { rest with events := found.events call.key ++ rest.events } := by
  simp only [turns, turn, look, looked]

theorem turns_served (looked : Cache.lookup call.key c = .ok (some found) c₁)
    (here : c₁.table.slots[found.slot]? = some s) (unlocked : s.data.isLocked = false)
    (granted : Cache.onTable (Table.lock found.slot t) c₁ = .ok () c₂) :
    call.turns t cancelled 4 .looking c d = call.serve found c₂ d := by
  have queued : call.queue t cancelled found.slot c₁ d =
      ⟨c₂, d, [], if call.loads then .loading found.slot else .granted found.slot⟩ :=
    queue_unlocked here unlocked granted
  rw [turns_found looked, serve]
  cases loads : call.loads with
  | false => simp [turns, turn, queued, loads]
  | true =>
      simp only [turns, turn, queued, loads, if_true, List.nil_append, List.append_nil]
      rcases load_result found.slot c₂ d with result | ⟨why, result⟩ <;> simp only [result, List.append_nil]

theorem turns_held (sound : c.table.Sound) (gains : c.Gains call.key found c₁)
    (looked : Cache.lookup call.key c = .ok (some found) c₁) (here : c₁.table.slots[found.slot]? = some s)
    (locked : s.data.isLocked = true) : call.Outcome t cancelled c d (call.turns t cancelled 4 .looking c d) := by
  have sound₁ := gains.moved.sound sound
  have referenced : s.refcount ≠ 0 := gains.referenced here
  obtain ⟨i, s₀, rfl, here₀, assigned₀, mine, locked₀, busy, rfl⟩ := gains.of_locked sound (by simp [here, locked])
  obtain rfl : s₀.take = s := Option.some.inj ((gains.moved.same here₀).symm.trans here)
  have here : (c.joined i).table.slots[i]? = some s₀.take := here
  have queue : call.turn t cancelled (.queued i) (c.joined i) d = _ := queue_locked here locked
  have first : call.turns t cancelled 4 .looking c d =
      let rest := call.turns t cancelled 3 (.queued i) (c.joined i) d
      { rest with events := .hit call.key i :: rest.events } := turns_found looked 3
  cases refusal : call.patience.refusal cancelled with
  | none =>
      rw [refusal] at queue
      rw [first, turns_still queue]
      exact .queued ⟨i, s₀, here₀, assigned₀, mine, locked₀⟩ refusal
  | some cause =>
      have shared : s₀.take.refcount ≠ 1 := by simp [Slot.take, busy]
      obtain ⟨c₂, left, gone⟩ := Cache.letGo_moved sound₁ here referenced fun last => absurd last shared
      obtain rfl := gone.left sound₁ here shared
      have failed : call.turn t cancelled (.queued i) (c.joined i) d =
          ⟨c.hitCounted, d, [], .failed (.error cause)⟩ := by
        rw [queue, refusal, Option.elim_some, Turn.ofUpdate_ok left, Cache.left_joined]
        rfl
      rw [first, turns, failed, turns_failed]
      exact .contended ⟨i, s₀, here₀, assigned₀, mine, locked₀⟩ refusal

theorem turns_full (full : c.Full call.key) (looked : Cache.lookup call.key c = .ok none c) :
    call.Outcome t cancelled c d (call.turns t cancelled 4 .looking c d) := by
  cases policy : c.exhaustion with
  | stop =>
      have look : call.turn t cancelled .looking c d =
          ⟨c, d, [.stopped .exhausted], .failed (.fault (.stop .exhausted))⟩ := by
        simp only [turn, Call.look, looked, policy]
        rfl
      rw [turns, look, turns_failed]
      exact .stopped full policy
  | wait =>
      have look : call.turn t cancelled .looking c d = ⟨c, d, [.waiting], .starved c.freed⟩ := by
        simp only [turn, Call.look, looked, policy]
      rw [turns, look]
      have starve : call.turn t cancelled (.starved c.freed) c d = _ := starve_eq call c.freed
      rw [if_pos rfl] at starve
      cases refusal : call.patience.refusal cancelled with
      | none =>
          rw [refusal] at starve
          rw [turns_still starve]
          exact .starved full policy refusal
      | some cause =>
          rw [refusal] at starve
          rw [turns, starve]
          simp only [Option.elim_some, Function.comp_apply, turns_failed]
          exact .unserved full policy refusal

theorem turns_outcome (sound : c.table.Sound) (call : Call) (t : Thread) (cancelled : Token → Bool) (d : δ) :
    call.Outcome t cancelled c d (call.turns t cancelled 4 .looking c d) := by
  rcases Cache.lookup_moved sound call.key with ⟨found, L', change, c₁, finds, looked, moved⟩ | ⟨looked, absent, empty⟩
  · have gains : c.Gains call.key found c₁ := ⟨finds.suits, moved⟩
    have sound₁ := moved.sound sound
    obtain ⟨s, here, assigned, -⟩ := gains.has
    have here : c₁.table.slots[found.slot]? = some s := here
    cases locked : s.data.isLocked with
    | true => exact turns_held sound gains looked here locked
    | false =>
        have holder := (sound₁.consistent.proper here).agrees.isLocked_eq_false_iff.mp locked
        obtain ⟨c₂, granted, taken⟩ := Cache.lock_moved sound₁ here (gains.referenced here) holder t
        have unlocked : c₁.table.slots[found.slot]?.any (·.data.isLocked) = false := by simp [here, locked]
        have free : ¬ c.Busy call.key := fun busy => by simp [gains.locked_of_busy sound busy] at unlocked
        rw [turns_served looked here locked granted]
        exact .served free (gains.not_full sound) gains looked unlocked granted taken
  · exact turns_full ((Cache.full_iff sound).mpr ⟨absent, empty⟩) looked

theorem turns_patience (sound : c.table.Sound) (free : ¬ c.Busy call.key) (unfull : ¬ c.Full call.key)
    (patience : Patience) (t : Thread) (cancelled : Token → Bool) (d : δ) :
    turns { call with patience } t cancelled 4 .looking c d = call.turns t cancelled 4 .looking c d := by
  have outcome := turns_outcome sound call t cancelled d
  generalize call.turns t cancelled 4 .looking c d = turn at outcome
  cases outcome with
  | queued busy | contended busy => exact absurd busy free
  | stopped full | starved full | unserved full => exact absurd full unfull
  | @served found c₁ c₂ _ _ gains looked unlocked granted =>
      obtain ⟨s, here, -⟩ := gains.has
      have here : c₁.table.slots[found.slot]? = some s := here
      rw [here] at unlocked
      show turns { call with patience } t cancelled 4 .looking c d = serve { call with patience } found c₂ d
      exact turns_served looked here unlocked granted

end Call

namespace Host

variable {δ : Type} {s : Host δ} {pins : Nat → Nat → Nat} {t : Thread} {p : Pending} {c : Nat} {m : Mount} {d : δ}
  {name : String}

theorem setPending_setPending (s : Host δ) (t : Thread) (p p' : Pending) :
    (s.setPending t p).setPending t p' = s.setPending t p' := by
  have calls : (s.calls.map fun entry => if entry.1 = t then (t, p) else entry).map
      (fun entry => if entry.1 = t then (t, p') else entry) =
        s.calls.map fun entry => if entry.1 = t then (t, p') else entry := by
    rw [List.map_map]
    refine List.map_congr_left fun entry _ => ?_
    by_cases mine : entry.1 = t <;> simp [mine]
  simp only [setPending, calls]

theorem setPending_removePending (s : Host δ) (t : Thread) (p : Pending) :
    (s.setPending t p).removePending t = s.removePending t := by
  have calls (entries : List (Thread × Pending)) :
      (entries.map fun entry => if entry.1 = t then (t, p) else entry).filter (fun entry => entry.1 ≠ t) =
        entries.filter fun entry => entry.1 ≠ t := by
    induction entries with
    | nil => rfl
    | cons entry entries ih =>
        rw [List.map_cons, List.filter_cons, List.filter_cons, ih]
        by_cases mine : entry.1 = t <;> simp [mine]
  simp only [setPending, removePending, calls]

theorem carry_setPending (s : Host δ) (t : Thread) (p : Pending) (c : Nat) (m : Mount) (cache : Cache) (d : δ)
    (events : List Event) :
    (s.setPending t p).carry c m cache d events = (s.carry c m cache d events).setPending t p := rfl

def withCall (s : Host δ) (t : Thread) (p : Pending) : Host δ := { s with calls := s.calls ++ [(t, p)] }

theorem withCall_pending (idle : s.pending? t = none) (p : Pending) : (s.withCall t p).pending? t = some p := by
  rw [pending?, withCall, List.lookup_append, show s.calls.lookup t = none from idle]
  exact List.lookup_cons_self

theorem no_call (idle : s.pending? t = none) : ∀ entry ∈ s.calls, entry.1 ≠ t := fun entry member same => by
  simpa [same] using List.lookup_eq_none_iff.mp idle entry member

theorem withCall_setPending (idle : s.pending? t = none) (p p' : Pending) :
    (s.withCall t p).setPending t p' = s.withCall t p' := by
  have others : (s.calls.map fun entry => if entry.1 = t then (t, p') else entry) = s.calls :=
    (List.map_congr_left fun entry member => if_neg (no_call idle entry member)).trans (List.map_id _)
  simp only [setPending, withCall, List.map_append, others]
  simp

theorem withCall_removePending (idle : s.pending? t = none) (p : Pending) : (s.withCall t p).removePending t = s := by
  have others : (s.calls.filter fun entry => entry.1 ≠ t) = s.calls :=
    List.filter_eq_self.mpr fun entry member => decide_eq_true (no_call idle entry member)
  simp only [removePending, withCall, List.filter_append, others]
  simp

variable [BlockDevice δ]

theorem turn_carry (pending : s.pending? t = some p) (there : s.mount? p.cache = some m)
    (device : s.devices[m.device]? = some d) :
    s.turn t =
      let turn := p.call.turn t s.isCancelled p.stage m.cache d
      ⟨(s.carry p.cache m turn.cache turn.device turn.events).setPending t
        { p with stage := turn.result, events := p.events ++ turn.events }, .done, turn.events⟩ := by
  simp only [turn, pending, operate_eq there device]

theorem Sound.run_turns (sound : s.Sound pins) (pending : s.pending? t = some p) (there : s.mount? p.cache = some m)
    (device : s.devices[m.device]? = some d) (n : Nat) :
    s.run (List.replicate n (.turn t)) =
      let turn := p.call.turns t s.isCancelled n p.stage m.cache d
      (s.carry p.cache m turn.cache turn.device turn.events).setPending t
        { p with stage := turn.result, events := p.events ++ turn.events } := by
  induction n generalizing s pins p m d with
  | zero =>
      simp only [Call.turns, List.replicate_zero, List.append_nil, carry_self there device,
        setPending_self sound.threads pending]
      rfl
  | succ n ih =>
      obtain ⟨pins₁, sound₁, -⟩ := sound.did (sound.turn_did t)
      have first := turn_carry pending there device
      rw [List.replicate_succ, Call.turns]
      show (s.turn t).host.run (List.replicate n (.turn t)) = _
      generalize p.call.turn t s.isCancelled p.stage m.cache d = turn at first ⊢
      rw [first] at sound₁ ⊢
      have there₁ : (s.carry p.cache m turn.cache turn.device turn.events).mount? p.cache =
          some { m with cache := turn.cache, history := turn.events.reverse ++ m.history } := carry_same there
      have device₁ := carry_device (c := p.cache) device turn.cache turn.device turn.events
      refine (ih sound₁ (lookup_replace_same pending _) there₁ device₁).trans ?_
      simp only [carry_setPending, carry_carry, setPending_setPending, List.append_assoc]
      rfl

theorem Sound.lease_settled (sound : s.Sound pins) (idle : s.pending? t = none) (there : s.mount? c = some m)
    (device : s.devices[m.device]? = some d) (free : s.lease? name = none) (call : Call) :
    let turn := call.turns t s.isCancelled 4 .looking m.cache d
    s.lease t name c call = ((s.carry c m turn.cache turn.device turn.events).withCall t
      ⟨name, c, call, turn.result, turn.events⟩).answer t := by
  intro turn
  have mounted : (s.mount? c).isSome = true := by rw [there]; rfl
  have started : s.start t name c call = ⟨s.withCall t ⟨name, c, call, .looking, []⟩, .done, []⟩ := by
    simp [start, idle, there, nameInUse, free, withCall]
  have sound₀ : (s.withCall t ⟨name, c, call, .looking, []⟩).Sound pins := sound.started idle mounted name call
  have settled := sound₀.run_turns (withCall_pending idle _) there device 4
  rw [lease, started]
  show ((s.withCall t ⟨name, c, call, .looking, []⟩).run (List.replicate 4 (.turn t))).answer t = _
  rw [settled]
  have idle' : (s.carry c m turn.cache turn.device turn.events).pending? t = none := idle
  exact congrArg (answer · t) (withCall_setPending idle' _ _)

/-- A call that is left alone is one operation on its cache, and then it is answered unless it has to wait. -/
theorem Sound.lease_eq (sound : s.Sound pins) (idle : s.pending? t = none) (there : s.mount? c = some m)
    (device : s.devices[m.device]? = some d) (free : s.lease? name = none) (call : Call) :
    let turn := call.turns t s.isCancelled 4 .looking m.cache d
    let s' := s.carry c m turn.cache turn.device turn.events
    (∀ i, turn.result = .granted i → s.lease t name c call =
        ⟨{ s' with leases := s.leases ++ [(name, ⟨c, i, t⟩)] }, s'.view ⟨c, i, t⟩, turn.events⟩) ∧
      (∀ why, turn.result = .failed why → s.lease t name c call = ⟨s', .failed why, turn.events⟩) ∧
      ((∀ i, turn.result ≠ .granted i) → (∀ why, turn.result ≠ .failed why) → s.lease t name c call =
        (s'.withCall t ⟨name, c, call, turn.result, turn.events⟩).refuse .blocked) := by
  intro turn s'
  have idle' : s'.pending? t = none := idle
  have free' : s'.lease? name = none := free
  have settled : s.lease t name c call = (s'.withCall t ⟨name, c, call, turn.result, turn.events⟩).answer t :=
    sound.lease_settled idle there device free call
  rw [answer, withCall_pending idle'] at settled
  refine ⟨fun i granted => ?_, fun why failed => ?_, fun ungranted unfailed => ?_⟩
  · have removed := withCall_removePending idle' ⟨name, c, call, turn.result, turn.events⟩
    have kept : (s'.drop name).host = s' := by simp [drop, onLease, free', refuse]
    simp only [granted] at settled removed
    simp only [removed, kept] at settled
    exact settled
  · have removed := withCall_removePending idle' ⟨name, c, call, turn.result, turn.events⟩
    simp only [failed] at settled removed
    simp only [removed] at settled
    exact settled
  · cases stage : turn.result with
    | granted i => exact absurd stage (ungranted i)
    | failed why => exact absurd stage (unfailed why)
    | _ => simpa only [stage] using settled

end Host
end BlockCache
