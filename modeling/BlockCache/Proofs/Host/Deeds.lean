import BlockCache.Proofs.Device.Discreet
import BlockCache.Proofs.Host.Uses

/-!
# Deeds

What is counted in a cache is that a lookup finds a slot, and that the device has been read or written for it.
`Host.deeds` lists these deeds of a run, and `Sound.advance_advances` says what a step with a deed or without one does to
a cache and to its log.
-/

namespace BlockCache

inductive Deed
  | found (key : Key) (found : Found)
  | loaded (key : Key) (slot : Nat)
  | stored (key : Key) (slot : Nat)
deriving DecidableEq

namespace Deed

def ofLookup (key : Key) : EStateM.Result Fault Cache (Option Found) → Option Deed
  | .ok (some slot) _ => some (found key slot)
  | _ => none

def Told (told : List Event) : Option Deed → Prop
  | some (found key slot) => told = slot.events key
  | _ => Event.Quiet told

end Deed

theorem append_eq_split {α : Type} {xs ys before after : List α} {a : α} (split : xs ++ ys = before ++ a :: after) :
    (∃ rest, after = rest ++ ys ∧ xs = before ++ a :: rest) ∨ ∃ front, before = xs ++ front ∧ ys = front ++ a :: after := by
  rcases List.append_eq_append_iff.mp split with ⟨front, first, last⟩ | ⟨rest, first, last⟩
  · exact .inr ⟨front, first, last⟩
  · cases rest with
    | nil => exact .inr ⟨[], by simpa using first.symm, last.symm⟩
    | cons b rest =>
        obtain ⟨rfl, rfl⟩ := List.cons.inj last
        exact .inl ⟨rest, rfl, first⟩

def Move.isIdle : Move → Bool
  | hit _ | assign .. | load .. | keep _ => false
  | _ => true

/-- What a step makes of a cache that did a deed in it, or none. -/
inductive Cache.Does (c : Cache) : Option Deed → Cache → Prop
  | found {key : Key} {slot : Found} {c' : Cache} (gains : c.Gains key slot c') : Does c (some (.found key slot)) c'
  | loaded {i : Nat} {s : Slot} {bytes : Bytes} {c' : Cache} (here : c.table.slots[i]? = some s)
      (invalid : s.valid = false) (moved : c.Moved (.load i bytes) c') : Does c (some (.loaded s.key i)) c'
  | stored {i : Nat} {s : Slot} {c' : Cache} (here : c.table.slots[i]? = some s) (moved : c.Moved (.keep i) c') :
      Does c (some (.stored s.key i)) c'
  | idle {moves : List Move} {c' : Cache} (idle : ∀ move ∈ moves, move.isIdle = true) (moved : c.Moves moves c') :
      Does c none c'

theorem Cache.Does.rest (c : Cache) : c.Does none c := .idle (List.forall_mem_nil _) (.nil c)

theorem Cache.Does.one {c c' : Cache} {move : Move} (moved : c.Moved move c') (idle : move.isIdle = true) :
    c.Does none c' :=
  .idle (by simpa using idle) (.one moved)

theorem Cache.Moves.usage_eq {c c' : Cache} {moves : List Move} (moved : c.Moves moves c')
    (idle : ∀ move ∈ moves, move.isIdle = true) : c'.usage = c.usage := by
  induction moved with
  | nil => rfl
  | @cons c c₁ c' move moves moved rest ih =>
      have still := idle move (.head _)
      rw [ih fun move member => idle move (.tail _ member), moved.usage]
      cases move with
      | hit | assign | load | keep => cases still
      | _ => rfl

theorem Cache.Moves.settles {c c' : Cache} {moves : List Move} (moved : c.Moves moves c')
    (idle : ∀ move ∈ moves, move.isIdle = true) : c.Settles c' := by
  refine ⟨moves, fun move member => ?_, moved⟩
  have still := idle move member
  cases move with
  | hit | assign => cases still
  | _ => rfl

def Use.deed (use : Use) : Deed :=
  match use.access with
  | .read key _ => .loaded key use.slot
  | .write key _ => .stored key use.slot

namespace Host

variable {δ : Type} [BlockDevice δ]

/-- The transfer that a step makes a cache do, if it succeeds. -/
def carried? (s : Host δ) (step : Step) : Option Use :=
  (s.use? step).filter fun use =>
    ((s.mount? use.cache).bind fun m => s.devices[m.device]?).any fun d => (use.access.carryOut d).failure = none

/-- What the lookup of a step found, and in which cache. -/
def sought? (s : Host δ) (step : Step) : Option (Nat × Deed) :=
  if (s.advance step).reply.isRefused then none
  else
    match step with
    | .act (.turn t) => do
        let p ← s.pending? t
        let m ← s.mount? p.cache
        if p.stage = .looking then
          (Deed.ofLookup p.call.key (Cache.lookup p.call.key m.cache)).map (p.cache, ·)
        else none
    | .probe t j => do
        let p ← s.pending? t
        let m ← s.mount? p.cache
        (Deed.ofLookup p.call.key (Cache.probe (m.cache.home p.call.key) p.call.key j m.cache)).map (p.cache, ·)
    | _ => none

def deed (s : Host δ) (step : Step) : Option (Nat × Deed) :=
  ((s.carried? step).map fun use => (use.cache, use.deed)) <|> s.sought? step

def deedIn (s : Host δ) (c : Nat) (step : Step) : Option Deed :=
  ((s.deed step).filter (·.1 = c)).map Prod.snd

def deeds (s : Host δ) (c : Nat) (steps : List Step) : List Deed :=
  (s.trail steps).filterMap fun (s, step) => s.deedIn c step

variable {s s' : Host δ} {pins : Nat → Nat → Nat} {c c' : Nat} {m : Mount} {cache : Cache} {d : δ} {told : List Event}
  {deed : Option Deed} {t : Thread} {p : Pending} {step : Step}

/-! ## Steps -/

/-- What a step makes of cache `c` and of its log, having done a deed there or none. -/
def Advances (s : Host δ) (c : Nat) (deed : Option Deed) (s' : Host δ) : Prop :=
  ∀ m, s.mount? c = some m → ∃ (m' : Mount) (told : List Event), s'.mount? c = some m' ∧
    m'.history = told.reverse ++ m.history ∧ m.cache.Does deed m'.cache ∧ (Discreet δ → Deed.Told told deed)

theorem advances_of_same (same : s'.mount? c = s.mount? c) : s.Advances c none s' :=
  fun m there => ⟨m, [], same.trans there, rfl, .rest _, fun _ => .nil⟩

theorem advances_of_carry (there : s.mount? c' = some m) (does : m.cache.Does deed cache)
    (quiet : Discreet δ → Deed.Told told deed) (d : δ) :
    s.Advances c (((deed.map (c', ·)).filter (·.1 = c)).map Prod.snd) (s.carry c' m cache d told) := by
  by_cases same : c' = c
  · subst same
    intro m' there'
    obtain rfl := Option.some.inj (there.symm.trans there')
    refine ⟨_, told, carry_same there, rfl, ?_⟩
    cases deed with
    | none => exact ⟨does, quiet⟩
    | some deed => simpa [Option.filter] using ⟨does, quiet⟩
  · have none : ((deed.map (c', ·)).filter (·.1 = c)).map Prod.snd = none := by
      cases deed <;> simp [Option.filter, same]
    rw [none]
    exact advances_of_same (carry_other (Ne.symm same))

theorem advances_of_report (there : s.mount? c' = some m) {e : Event} (quiet : e.seeks = false) (d : δ) (c : Nat) :
    s.Advances c none (s.carry c' m m.cache d [e]) := by
  have told : Event.Quiet [e] := by simpa [Event.Quiet] using quiet
  exact advances_of_carry there (.rest _) (fun _ => told) d

theorem advances_of_move (there : s.mount? c' = some m) {move : Move} (moved : m.cache.Moved move cache)
    (idle : move.isIdle = true) (d : δ) (c : Nat) : s.Advances c none (s.carry c' m cache d []) := by
  have does : m.cache.Does none cache := .one moved idle
  exact advances_of_carry there does (fun _ => .nil) d

theorem Checks.quiet (checks : Checks told) : Event.Quiet told := by
  rcases checks with rfl | ⟨stop, rfl⟩
  · exact .nil
  · simp [Event.Quiet, Event.seeks]

theorem Ended.advances {name : String} (ended : s.Ended name told s') (c : Nat) : s.Advances c none s' := by
  obtain ⟨lease, m, d, cache, -, there, -, checks, moved, rfl⟩ := ended
  have does : m.cache.Does none cache := .one moved rfl
  exact advances_of_carry there does (fun _ => checks.quiet) d

theorem deed_of_unused (unused : s.use? step = none) : s.deed step = s.sought? step := by
  simp [Host.deed, carried?, unused]

theorem deed_of_use {use : Use} (used : s.use? step = some use) (there : s.mount? use.cache = some m)
    (device : s.devices[m.device]? = some d) :
    s.deed step = if (use.access.carryOut d).failure = none then some (use.cache, use.deed) else s.sought? step := by
  by_cases success : (use.access.carryOut d).failure = none <;>
    simp [Host.deed, carried?, used, there, device, Option.filter, success]

theorem sought?_turn (pending : s.pending? t = some p) (there : s.mount? p.cache = some m)
    (answered : (s.advance (.act (.turn t))).reply.isRefused = false) : s.sought? (.act (.turn t)) =
      if p.stage = .looking then
        (Deed.ofLookup p.call.key (Cache.lookup p.call.key m.cache)).map (p.cache, ·)
      else none := by
  simp [sought?, answered, pending, there]

theorem use?_turn_eq_none (pending : s.pending? t = some p) (other : ∀ i, p.stage ≠ .loading i) :
    s.use? (.act (.turn t)) = none := by
  have unread : s.reading? t = none := by
    rw [reading?, pending, Option.bind_some]
    split
    · exact absurd ‹_› (other _)
    · rfl
  simp [use?, unread]

theorem deed_of_turned {turn : Turn δ Stage} (pending : s.pending? t = some p) (there : s.mount? p.cache = some m)
    (device : s.devices[m.device]? = some d) (turned : p.call.Turned t s.isCancelled m.cache d p.stage turn)
    (answered : (s.advance (.act (.turn t))).reply.isRefused = false) :
    ∃ deed, s.deed (.act (.turn t)) = deed.map (p.cache, ·) ∧ m.cache.Does deed turn.cache ∧
      (Discreet δ → Deed.Told turn.events deed) := by
  have sought := sought?_turn pending there answered
  have reads : s.use? (.act (.turn t)) = s.reading? t := by simp [use?, answered]
  generalize stage : p.stage = before at turned
  have plain (other : ∀ i, before ≠ .loading i) (away : before ≠ .looking) : s.deed (.act (.turn t)) = none := by
    rw [deed_of_unused (use?_turn_eq_none pending (stage ▸ other)), sought, if_neg (stage ▸ away)]
  have idle (other : ∀ i, before ≠ .loading i) (away : before ≠ .looking) {events : List Event}
      (quiet : Event.Quiet events) : ∃ deed, s.deed (.act (.turn t)) = deed.map (p.cache, ·) ∧
        m.cache.Does deed m.cache ∧ (Discreet δ → Deed.Told events deed) :=
    ⟨none, plain other away, .rest m.cache, fun _ => quiet⟩
  have looked (looking : before = .looking) {result : Option Found} {c' : Cache}
      (looked : Cache.lookup p.call.key m.cache = .ok result c') :
      s.deed (.act (.turn t)) = (Deed.ofLookup p.call.key (.ok result c')).map (p.cache, ·) := by
    rw [deed_of_unused (use?_turn_eq_none pending (by simp [stage, looking])), sought, if_pos (stage.trans looking),
      looked]
  cases turned with
  | found finds moved done => exact ⟨_, looked rfl done, .found ⟨finds.suits, moved⟩, fun _ => rfl⟩
  | stopped absent empty policy done | starved absent empty policy done =>
      exact ⟨_, looked rfl done, .rest m.cache, fun _ => by simp [Deed.ofLookup, Deed.Told, Event.Quiet, Event.seeks]⟩
  | granted moved => exact ⟨none, plain (by simp) (by simp), .one moved rfl, fun _ => .nil⟩
  | refused refusal moved => exact ⟨none, plain (by simp) (by simp), .one moved rfl, fun _ => .nil⟩
  | @loaded i sl c' here invalid success moved =>
      have used := reads.trans (reading?_of_loading pending stage there here invalid)
      refine ⟨some (.loaded sl.key i), ?_, .loaded here invalid moved, fun _ => Discreet.read _ _ _⟩
      exact (deed_of_use used there device).trans (if_pos success)
  | @unloaded i sl c₁ c' failure here invalid broken spoilt ended =>
      have used := reads.trans (reading?_of_loading pending stage there here invalid)
      refine ⟨none, ?_, .idle (by simp [Move.isIdle]) (.cons spoilt (.one ended)), fun _ => Discreet.read _ _ _⟩
      rw [deed_of_use used there device, if_neg (by simp [Access.carryOut, broken]), sought, if_neg (by simp [stage])]
      rfl
  | @valid i sl here valid =>
      have unread : s.use? (.act (.turn t)) = none := by
        rw [reads]
        simp [reading?, pending, stage, slot?_eq there, here, valid]
      refine ⟨none, ?_, .rest m.cache, fun _ => .nil⟩
      rw [deed_of_unused unread, sought, if_neg (by simp [stage])]
      rfl
  | settled done => rcases done with ⟨_, rfl⟩ | ⟨_, rfl⟩ <;> exact idle (by simp) (by simp) .nil
  | _ => exact idle (by simp) (by simp) .nil

theorem deed_of_wrote {name : String} {lease : Lease} {turn : Turn δ (Option Failure)}
    (held : s.lease? name = some lease) (there : s.mount? lease.cache = some m)
    (device : s.devices[m.device]? = some d) (flushed : m.cache.Flushed d t lease.slot turn)
    (answered : (s.advance (.act (.write t lease.cache name))).reply.isRefused = false) :
    ∃ deed, s.deed (.act (.write t lease.cache name)) = deed.map (lease.cache, ·) ∧ m.cache.Does deed turn.cache ∧
      (Discreet δ → Deed.Told turn.events deed) := by
  have unsought : s.sought? (.act (.write t lease.cache name)) = none := by simp [sought?]
  have used {sl : Slot} (here : m.cache.table.slots[lease.slot]? = some sl) := use?_write held there here answered
  cases flushed with
  | unauthorized here denied =>
      refine ⟨none, ?_, .rest m.cache, fun _ => by simp [Deed.Told, Event.Quiet, Event.seeks]⟩
      rw [deed_of_unused ((used here).trans (if_neg (denied.stranger (by simp)))), unsought]
      rfl
  | failed here holder broken =>
      refine ⟨none, ?_, .rest m.cache, fun _ => Discreet.write _ _ _⟩
      rw [deed_of_use ((used here).trans (if_pos holder)) there device, if_neg (by simp [Access.carryOut, broken]), unsought]
      rfl
  | @kept sl c' here holder success moved =>
      refine ⟨some (.stored sl.key lease.slot), ?_, .stored here moved, fun _ => Discreet.write _ _ _⟩
      exact (deed_of_use ((used here).trans (if_pos holder)) there device).trans (if_pos success)

theorem Sound.did_advances (sound : s.Sound pins) {act : Act} {done : Performed δ} (did : s.Did act done)
    (same : s.advance (.act act) = done) (c : Nat) : s.Advances c (s.deedIn c (.act act)) done.host := by
  have reply : (s.advance (.act act)).reply = done.reply := congrArg Performed.reply same
  have still (unused : s.use? (.act act) = none) (unsought : s.sought? (.act act) = none)
      (advances : s.Advances c none done.host) : s.Advances c (s.deedIn c (.act act)) done.host := by
    rw [deedIn, deed_of_unused unused, unsought]
    exact advances
  cases did with
  | refused act why =>
      have refused : (s.advance (.act act)).reply.isRefused = true := by rw [reply]; rfl
      exact still (use?_of_refused refused) (if_pos refused) (advances_of_same rfl)
  | @turned t p m d turn pending there device turned =>
      obtain ⟨deed, did, does, quiet⟩ := deed_of_turned pending there device turned (by rw [reply]; rfl)
      rw [deedIn, did]
      exact advances_of_carry there does quiet turn.device
  | wrote held there device flushed carried =>
      subst carried
      have answered := sound.wrote_answered held there flushed
      obtain ⟨deed, did, does, quiet⟩ := deed_of_wrote held there device flushed (by rw [reply]; exact answered)
      rw [deedIn, did]
      exact advances_of_carry there does quiet _
  | answered pending granted dropped =>
      refine still (by simp [use?]) (by simp [sought?]) ?_
      rcases dropped with ⟨-, rfl⟩ | ended
      · exact advances_of_same rfl
      · exact ended.advances c
  | finished ended reply => exact still (by simp [use?]) (by simp [sought?]) (ended.advances c)
  | foreign op which held other =>
      refine still ?_ ?_ (advances_of_same rfl)
      · rcases which with rfl | rfl | rfl <;> simp [use?, held, other]
      · rcases which with rfl | rfl | rfl <;> simp [sought?]
  | pinned held there device moved carried | unpinned held there device moved carried =>
      subst carried
      exact still (by simp [use?]) (by simp [sought?]) (advances_of_move there moved rfl _ c)
  | stopped which held there device =>
      refine still ?_ ?_ (advances_of_report there rfl _ c)
      · rcases which with rfl | rfl <;> simp [use?]
      · rcases which with rfl | rfl <;> simp [sought?]
  | edited which held there device moved =>
      refine still ?_ ?_ (advances_of_move there moved rfl _ c)
      · rcases which with ⟨_, _, rfl⟩ | ⟨_, rfl⟩ <;> simp [use?]
      · rcases which with ⟨_, _, rfl⟩ | ⟨_, rfl⟩ <;> simp [sought?]
  | _ => exact still (by simp [use?]) (by simp [sought?]) (advances_of_same rfl)

theorem Sound.advance_advances (sound : s.Sound pins) (step : Step) (c : Nat) :
    s.Advances c (s.deedIn c step) (s.advance step).host := by
  have took := sound.advance_took step
  generalize same : s.advance step = done at took ⊢
  have still (unused : s.use? step = none) (unsought : s.sought? step = none) (advances : s.Advances c none done.host) :
      s.Advances c (s.deedIn c step) done.host := by
    rw [deedIn, deed_of_unused unused, unsought]
    exact advances
  cases took with
  | did did => exact sound.did_advances did same c
  | refused step why =>
      have refused : (s.advance step).reply.isRefused = true := by rw [same]; rfl
      exact still (use?_of_refused refused) (if_pos refused) (advances_of_same rfl)
  | @found t j p m d found cache pending looking there device gains reached probed =>
      have did : s.deed (.probe t j) = (some (Deed.found p.call.key found)).map (p.cache, ·) := by
        rw [deed_of_unused (by simp [use?])]
        simp [sought?, same, Reply.isRefused, pending, there, probed, Deed.ofLookup]
      have does : m.cache.Does (some (.found p.call.key found)) cache := .found gains
      rw [deedIn, did]
      exact advances_of_carry there does (fun _ => rfl) d
  | nothing pending looking there without empty probed =>
      refine still (by simp [use?]) ?_ (advances_of_same rfl)
      simp [sought?, pending, there, probed, Deed.ofLookup]
  | @stopped t seen p m d pending looking there | @starved t seen p m d pending looking there =>
      exact still (by simp [use?]) (by simp [sought?]) (advances_of_report there rfl d c)
  | unlocked unlocked =>
      obtain ⟨lease, m, d, cache, -, there, -, checks, moved, rfl⟩ := unlocked
      have does : m.cache.Does none cache := .one moved rfl
      exact still (by simp [use?]) (by simp [sought?]) (advances_of_carry there does (fun _ => checks.quiet) d)
  | @spoilt t p i m d sl c₁ cache tr failure pending loading there device here invalid transfer broken spoils unlocked =>
      have does : m.cache.Does none cache := .idle (by simp [Move.isIdle]) (.cons spoils (.one unlocked))
      have used : s.use? (.spoil t) = some ⟨p.cache, i, .read sl.key sl.data.value⟩ := by
        rw [use?, same]
        exact reading?_of_loading pending loading there here invalid
      have did : s.deed (.spoil t) = none := by
        rw [deed_of_use used there device, if_neg (by simp [Access.carryOut, transfer, broken])]
        simp [sought?]
      rw [deedIn, did]
      exact advances_of_carry there does (fun _ => transfer ▸ Discreet.read _ _ _) tr.device
  | @parted c' i m d cache owed there device moved =>
      exact still (by simp [use?]) (by simp [sought?]) (advances_of_move there moved rfl d c)

theorem Sound.gains_of_deed (sound : s.Sound pins) (there : s.mount? c = some m) {key : Key} {found : Found}
    (deed : s.deedIn c step = some (.found key found)) :
    ∃ m', (s.advance step).host.mount? c = some m' ∧ m.cache.Gains key found m'.cache := by
  obtain ⟨m', told, there', -, does, -⟩ := sound.advance_advances step c m there
  rw [deed] at does
  cases does with
  | found gains => exact ⟨m', there', gains⟩

/-! ## Runs -/

theorem deeds_cons (s : Host δ) (c : Nat) (step : Step) (steps : List Step) :
    s.deeds c (step :: steps) = (s.deedIn c step).toList ++ (s.advance step).host.deeds c steps := by
  cases done : s.deedIn c step <;> simp [deeds, trail, done]

theorem Sound.walk_deeds {P : Mount → List Deed → Prop}
    (preserved : ∀ {m m' : Mount} {told : List Event} {deed : Option Deed} {before : List Deed}, m.cache.table.Sound →
      P m before → m'.history = told.reverse ++ m.history → m.cache.Does deed m'.cache →
      (Discreet δ → Deed.Told told deed) → P m' (before ++ deed.toList))
    (sound : s.Sound pins) (holds : ∀ m, s.mount? c = some m → P m []) (steps : List Step) {m' : Mount}
    (after : (s.walk steps).mount? c = some m') : P m' (s.deeds c steps) := by
  -- The property is of all deeds, so those that were done before are carried along.
  suffices run : ∀ before, (∀ m, s.mount? c = some m → P m before) → P m' (before ++ s.deeds c steps) from run [] holds
  clear holds
  induction steps generalizing s pins with
  | nil =>
      intro before holds
      simpa [deeds, trail] using holds m' after
  | cons step steps ih =>
      intro before holds
      obtain ⟨pins₁, sound₁⟩ := sound.advance step
      rw [deeds_cons, ← List.append_assoc]
      apply ih sound₁ after
      intro m₁ there₁
      obtain ⟨m, there, -⟩ := (sound.advance_took step).becomes there₁
      obtain ⟨m₁', told, there₁', history, does, quiet⟩ := sound.advance_advances step c m there
      obtain rfl := Option.some.inj (there₁.symm.trans there₁')
      exact preserved (sound.tables there) (holds m there) history does quiet

end Host
end BlockCache
