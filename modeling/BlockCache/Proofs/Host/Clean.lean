import BlockCache.Proofs.Cache.Content
import BlockCache.Proofs.Host.Walks

/-!
# Clean slots

A slot is dirty if its bytes were changed under a lease since they were last read or written. `Sound.walk_content` says
that a slot that is not dirty stays as the disk is, whatever steps are taken of which none writes to the disk past its
cache.
-/

namespace BlockCache

def Slot.identity (s : Slot) : Option Key := if s.assigned then some s.key else none

namespace Act

variable {δ : Type}

/-- The cache and the slot whose bytes an act changed through a lease. -/
def edited? (act : Act) (s s' : Host δ) : Option (Nat × Nat) :=
  match act with
  | .put name _ _ | .fill name _ =>
      (s.lease? name).bind fun lease =>
        if s'.bytes lease = s.bytes lease then none else some (lease.cache, lease.slot)
  | _ => none

def transferred? (act : Act) (s : Host δ) (done : Performed δ) : Option (Nat × Nat) :=
  match act, done.reply with
  | .turn t, _ =>
      match s.pending? t, done.host.pending? t with
      | some ⟨_, c, _, .loading i, _⟩, some ⟨_, _, _, .granted _, _⟩ =>
          if (s.slot? c i).any Slot.valid then none else some (c, i)
      | _, _ => none
  | .write _ _ name, .lease _ => (s.lease? name).map fun lease => (lease.cache, lease.slot)
  | _, _ => none

/-- Whether an act may write to device `k` past cache `c`. -/
def writesPast (act : Act) (plans : List (Nat × Plan)) (c k : Nat) : Bool :=
  match act with
  | .deviceWrite k' _ _ => k' = k
  | .write _ c' _ => c' ≠ c ∧ plans[c']?.any fun plan => plan.1 = k
  | _ => false

end Act

namespace Step

variable {δ : Type}

def edited? (step : Step) (s s' : Host δ) : Option (Nat × Nat) :=
  match step with
  | .act a => a.edited? s s'
  | _ => none

def transferred? (step : Step) (s : Host δ) (done : Performed δ) : Option (Nat × Nat) :=
  match step with
  | .act a => a.transferred? s done
  | _ => none

def writesPast (step : Step) (plans : List (Nat × Plan)) (c k : Nat) : Bool :=
  match step with
  | .act a => a.writesPast plans c k
  | _ => false

end Step

namespace Host

variable {δ : Type}

/-- Whether slot `i` of cache `c` is dirty after some steps, `before` being whether it was so to begin with. It is dirty
if its bytes were changed since it was last read, written or given to another block. -/
def dirty [BlockDevice δ] (s : Host δ) (c i : Nat) (before : Bool) : List Step → Bool
  | [] => before
  | step :: steps =>
      let done := s.advance step
      let reassigned := (done.host.slot? c i).bind Slot.identity ≠ (s.slot? c i).bind Slot.identity
      let cleaned := step.transferred? s done = some (c, i) ∨ reassigned
      done.host.dirty c i (step.edited? s done.host = some (c, i) ∨ before ∧ ¬ cleaned) steps

def layers? (s : Host δ) (c k : Nat) : Option (Cache × δ) :=
  (s.mount? c).bind fun m => s.devices[k]?.map fun d => (m.cache, d)

def Follows (s : Host δ) (plans : List (Nat × Plan)) : Prop :=
  ∀ c m, s.mount? c = some m → plans[c]?.map Prod.fst = some m.device

section
variable {s s' : Host δ} {c c' k i : Nat} {m : Mount} {a a' cache : Cache} {b b' d d' : δ} {events : List Event}
  {pins : Nat → Nat → Nat} {memory : δ → RamDisk} {move : Move} {name : String}
  {plans : List (Nat × Plan)}

theorem layers?_eq_some : s.layers? c k = some (a, b) ↔
    ∃ m, s.mount? c = some m ∧ s.devices[k]? = some b ∧ m.cache = a := by
  simp only [layers?, Option.bind_eq_some_iff, Option.map_eq_some_iff, Prod.mk.injEq]
  constructor
  · rintro ⟨m, there, d, here, rfl, rfl⟩
    exact ⟨m, there, here, rfl⟩
  · rintro ⟨m, there, here, rfl⟩
    exact ⟨m, there, b, here, rfl, rfl⟩

theorem layers?_eq (there : s.mount? c = some m) (here : s.devices[k]? = some d) :
    s.layers? c k = some (m.cache, d) := by
  simp [layers?, there, here]

theorem Follows.device (follows : s.Follows plans) (planned : plans[c]?.map Prod.fst = some k)
    (there : s.mount? c = some m) : m.device = k :=
  Option.some.inj ((follows c m there).symm.trans planned)

theorem rests_of_same (before : s.layers? c k = some (a, b)) (after : s'.layers? c k = some (a', b'))
    (same : s'.layers? c k = s.layers? c k) (i : Nat) : a.Rests (memory b) i a' (memory b') := by
  rw [same, before, Option.some.injEq, Prod.mk.injEq] at after
  obtain ⟨rfl, rfl⟩ := after
  exact .rfl

theorem rests_of_device {j : Nat} (before : s.layers? c k = some (a, b)) (after : s'.layers? c k = some (a', b'))
    (mount : s'.mount? c = s.mount? c) (devices : s'.devices = s.devices.setIfInBounds j d')
    (here : s.devices[j]? = some d) (content : j = k → (memory d').content = (memory d).content) (i : Nat) :
    a.Rests (memory b) i a' (memory b') := by
  by_cases same : j = k
  · subst same
    obtain ⟨m, there, here₀, rfl⟩ := layers?_eq_some.mp before
    obtain ⟨m', there', here', rfl⟩ := layers?_eq_some.mp after
    obtain rfl : m = m' := Option.some.inj (there.symm.trans (mount.symm.trans there'))
    obtain rfl : d = b := Option.some.inj (here.symm.trans here₀)
    have inside := (Array.getElem?_eq_some_iff.mp here).1
    rw [devices, Array.getElem?_setIfInBounds_self_of_lt inside] at here'
    obtain rfl := Option.some.inj here'
    exact ⟨rfl, fun sl _ _ => congrFun (content rfl) sl.key⟩
  · refine rests_of_same before after ?_ i
    rw [layers?, layers?, mount, devices, Array.getElem?_setIfInBounds_ne same]

theorem rests_of_other (other : c' ≠ c) (here : s.devices[m.device]? = some d)
    (content : m.device = k → (memory d').content = (memory d).content) (before : s.layers? c k = some (a, b))
    (after : (s.carry c' m cache d' events).layers? c k = some (a', b')) (i : Nat) :
    a.Rests (memory b) i a' (memory b') :=
  rests_of_device before after (carry_other (Ne.symm other)) rfl here content i

theorem layers?_carry (there : s.mount? c = some m) (here : s.devices[m.device]? = some d) (device : m.device = k)
    (before : s.layers? c k = some (a, b)) (after : (s.carry c m cache d' events).layers? c k = some (a', b')) :
    m.cache = a ∧ cache = a' ∧ d = b ∧ d' = b' := by
  subst device
  have inside := (Array.getElem?_eq_some_iff.mp here).1
  have device : (s.carry c m cache d' events).devices[m.device]? = some d' :=
    Array.getElem?_setIfInBounds_self_of_lt inside
  have first := (layers?_eq there here).symm.trans before
  have last := (layers?_eq (carry_same there) device).symm.trans after
  simp only [Option.some.injEq, Prod.mk.injEq] at first last
  exact ⟨first.1, last.1, first.2, last.2⟩

section
variable (follows : s.Follows plans) (planned : plans[c]?.map Prod.fst = some k)
include follows planned

theorem Follows.rests (there : s.mount? c' = some m) (here : s.devices[m.device]? = some d)
    (face : c' = c → cache.table.slots[i]?.map Slot.face = m.cache.table.slots[i]?.map Slot.face)
    (before : s.layers? c k = some (a, b)) (after : (s.carry c' m cache d events).layers? c k = some (a', b')) :
    a.Rests (memory b) i a' (memory b') := by
  by_cases same : c' = c
  · subst same
    obtain ⟨rfl, rfl, rfl, rfl⟩ := layers?_carry there here (follows.device planned there) before after
    exact ⟨face rfl, fun _ _ _ => rfl⟩
  · exact rests_of_other same here (fun _ => rfl) before after i

theorem Follows.ended (ended : s.Ended name events s') (before : s.layers? c k = some (a, b))
    (after : s'.layers? c k = some (a', b')) (i : Nat) : a.Rests (memory b) i a' (memory b') := by
  obtain ⟨lease, m, d, cache, -, there, here, -, moved, rfl⟩ := ended
  exact follows.rests planned there here (fun _ => moved.face (.inl rfl)) before after

theorem Follows.carried (there : s.mount? c' = some m) (here : s.devices[m.device]? = some d)
    (elsewhere : (memory d').content = (memory d).content)
    (content : m.cache.Rests (memory d) i cache (memory d') ∨ cache.Mirrors (memory d') i)
    (before : s.layers? c k = some (a, b)) (after : (s.carry c' m cache d' events).layers? c k = some (a', b')) :
    a.Rests (memory b) i a' (memory b') ∨ a'.Mirrors (memory b') i := by
  by_cases same : c' = c
  · subst same
    obtain ⟨rfl, rfl, rfl, rfl⟩ := layers?_carry there here (follows.device planned there) before after
    exact content
  · exact .inl (rests_of_other same here (fun _ => elsewhere) before after i)

theorem Follows.edited {lease : Lease} (there : s.mount? lease.cache = some m)
    (here : s.devices[m.device]? = some d) {bytes : Bytes} (moved : m.cache.Moved (.edit lease.slot bytes) cache)
    (before : s.layers? c k = some (a, b))
    (after : (s.carry lease.cache m cache d []).layers? c k = some (a', b'))
    (unchanged : (lease.cache, lease.slot) = (c, i) →
      (s.carry lease.cache m cache d []).bytes lease = s.bytes lease) :
    a.Rests (memory b) i a' (memory b') := by
  refine follows.rests planned there here (fun same => ?_) before after
  by_cases slot : i = lease.slot
  · obtain ⟨sl, inTable, -⟩ := moved.allowed
    have inTable : m.cache.table.slots[lease.slot]? = some sl := inTable
    have inTable' : cache.table.slots[lease.slot]? = some (sl.withBytes bytes) := moved.same inTable
    have value : (sl.withBytes bytes).data.value = sl.data.value := by
      simpa [Host.bytes, Cache.bytes, there, carry_same there, inTable, inTable'] using unchanged (by rw [same, slot])
    rw [slot, inTable, inTable', Option.map_some, Slot.face, value]
    rfl
  · exact moved.face (.inr slot)

end

theorem identity_eq (rests : a.Rests (memory b) i a' (memory b')) (before : s.layers? c k = some (a, b))
    (after : s'.layers? c k = some (a', b')) :
    (s'.slot? c i).bind Slot.identity = (s.slot? c i).bind Slot.identity := by
  obtain ⟨m, there, -, rfl⟩ := layers?_eq_some.mp before
  obtain ⟨m', there', -, rfl⟩ := layers?_eq_some.mp after
  have identity (slot : Option Slot) :
      slot.bind Slot.identity = (slot.map Slot.face).bind fun face => if face.1 then some face.2.1 else none := by
    cases slot <;> rfl
  rw [slot?_eq there', slot?_eq there, identity, identity, rests.face]

theorem transferred?_turn {t : Thread} {done : Performed δ}
    (transferred : (Act.turn t).transferred? s done = some (c, i)) :
    ∃ p p', s.pending? t = some p ∧ done.host.pending? t = some p' ∧ p.cache = c ∧ p.stage = .loading i ∧
      (∃ j, p'.stage = .granted j) ∧ (s.slot? c i).any Slot.valid = false := by
  simp only [Act.transferred?] at transferred
  split at transferred
  · rename_i before after
    split at transferred
    · cases transferred
    · rename_i invalid
      cases transferred
      exact ⟨_, _, before, after, rfl, rfl, ⟨_, rfl⟩, by simpa using invalid⟩
  · cases transferred

theorem transferred?_write {t : Thread} {done : Performed δ}
    (transferred : (Act.write t c' name).transferred? s done = some (c, i)) :
    (∃ v, done.reply = .lease v) ∧ ∃ lease, s.lease? name = some lease ∧ (lease.cache, lease.slot) = (c, i) := by
  cases reply : done.reply with
  | lease v =>
      simp only [Act.transferred?, reply] at transferred
      exact ⟨⟨v, rfl⟩, Option.map_eq_some_iff.mp transferred⟩
  | _ => simp [Act.transferred?, reply] at transferred

theorem transferred?_refused (act : Act) (why : Refusal) : act.transferred? s (s.refuse why) ≠ some (c, i) := by
  cases act with
  | turn t =>
      intro transferred
      obtain ⟨p, p', before, after, -, loading, ⟨j, granted⟩, -⟩ := transferred?_turn transferred
      obtain rfl : p = p' := Option.some.inj (before.symm.trans after)
      exact absurd (loading.symm.trans granted) nofun
  | _ => nofun

variable [BlockDevice δ]

theorem Follows.unwritten (fronts : Fronts memory) (follows : s.Follows plans) {t : Thread} {lease : Lease}
    {turn : Turn δ (Option Failure)} (other : lease.cache ≠ c)
    (spared : (Act.write t lease.cache name).writesPast plans c k = false) (there : s.mount? lease.cache = some m)
    (flushed : m.cache.Flushed d t lease.slot turn) (device : m.device = k) :
    (memory turn.device).content = (memory d).content := by
  cases flushed with
  | unauthorized => rfl
  | failed inTable holder broken => rw [fronts.write_failed (by rw [broken]; nofun)]
  | kept =>
      obtain ⟨plan, planned', same⟩ := Option.map_eq_some_iff.mp (follows _ m there)
      simp [Act.writesPast, other, planned', same, device] at spared

section
variable (fronts : Fronts memory) (follows : s.Follows plans) (planned : plans[c]?.map Prod.fst = some k)
include fronts follows planned

theorem Follows.turned {t : Thread} {p : Pending} {turn : Turn δ Stage} (pending : s.pending? t = some p)
    (there : s.mount? p.cache = some m) (here : s.devices[m.device]? = some d)
    (turned : p.call.Turned t s.isCancelled m.cache d p.stage turn) {done : Performed δ}
    (host : done.host = (s.carry p.cache m turn.cache turn.device turn.events).setPending t
      { p with stage := turn.result, events := p.events ++ turn.events })
    (before : s.layers? c k = some (a, b)) (after : done.host.layers? c k = some (a', b')) (i : Nat) :
    a.Rests (memory b) i a' (memory b') ∧ (Act.turn t).transferred? s done ≠ some (c, i) ∨
      a'.Mirrors (memory b') i := by
  rw [host] at after
  by_cases same : p.cache = c
  · subst same
    obtain ⟨rfl, rfl, rfl, rfl⟩ := layers?_carry there here (follows.device planned there) before after
    rcases turned.content fronts i with ⟨rests, valid⟩ | mirrors
    · refine .inl ⟨rests, fun transferred => ?_⟩
      obtain ⟨p₀, p', pending₀, pending', -, loading, granted, invalid⟩ := transferred?_turn transferred
      obtain rfl : p = p₀ := Option.some.inj (pending.symm.trans pending₀)
      rw [host] at pending'
      obtain rfl := Option.some.inj ((lookup_replace_same pending _).symm.trans pending')
      rw [slot?_eq there, valid loading granted] at invalid
      cases invalid
    · exact .inr mirrors
  · refine .inl ⟨rests_of_other same here (fun _ => turned.disk_content fronts) before after i, fun transferred => ?_⟩
    obtain ⟨p₀, -, pending₀, -, same₀, -⟩ := transferred?_turn transferred
    obtain rfl : p = p₀ := Option.some.inj (pending.symm.trans pending₀)
    exact same same₀

theorem Follows.wrote (sound : s.Sound pins) {t : Thread} {lease : Lease} {turn : Turn δ (Option Failure)}
    (spared : (Act.write t lease.cache name).writesPast plans c k = false) (held : s.lease? name = some lease)
    (there : s.mount? lease.cache = some m) (here : s.devices[m.device]? = some d)
    (flushed : m.cache.Flushed d t lease.slot turn) {done : Performed δ}
    (host : done.host = s.carry lease.cache m turn.cache turn.device turn.events)
    (failed : ∀ why, turn.result = some why → done.reply = .failed why)
    (before : s.layers? c k = some (a, b)) (after : done.host.layers? c k = some (a', b')) (i : Nat) :
    a.Rests (memory b) i a' (memory b') ∧ (Act.write t lease.cache name).transferred? s done ≠ some (c, i) ∨
      a'.Mirrors (memory b') i := by
  rw [host] at after
  by_cases same : lease.cache = c
  · subst same
    obtain ⟨rfl, rfl, rfl, rfl⟩ := layers?_carry there here (follows.device planned there) before after
    rcases flushed.content fronts (sound.tables there) i with ⟨rests, away⟩ | mirrors
    · refine .inl ⟨rests, fun transferred => ?_⟩
      obtain ⟨⟨v, reply⟩, lease₀, held₀, same⟩ := transferred?_write transferred
      obtain rfl : lease = lease₀ := Option.some.inj (held.symm.trans held₀)
      cases result : turn.result with
      | none => exact away result (Prod.mk.inj same).2.symm
      | some why => exact absurd ((failed why result).symm.trans reply) nofun
    · exact .inr mirrors
  · refine .inl ⟨rests_of_other same here (follows.unwritten fronts same spared there flushed) before after i,
      fun transferred => ?_⟩
    obtain ⟨-, lease₀, held₀, same₀⟩ := transferred?_write transferred
    obtain rfl : lease = lease₀ := Option.some.inj (held.symm.trans held₀)
    exact same (Prod.mk.inj same₀).1

end

theorem Sound.did_content (sound : s.Sound pins) (fronts : Fronts memory) (follows : s.Follows plans)
    (planned : plans[c]?.map Prod.fst = some k) {act : Act} {done : Performed δ} (did : s.Did act done)
    (spared : act.writesPast plans c k = false) (before : s.layers? c k = some (a, b))
    (after : done.host.layers? c k = some (a', b')) (i : Nat) :
    a.Rests (memory b) i a' (memory b') ∧ act.transferred? s done ≠ some (c, i) ∨
      act.edited? s done.host = some (c, i) ∨ a'.Mirrors (memory b') i := by
  cases did with
  | refused act why => exact .inl ⟨rests_of_same before after rfl i, transferred?_refused act why⟩
  | looked | got | cancelled | started => exact .inl ⟨rests_of_same before after rfl i, nofun⟩
  | denied pending failed => exact .inl ⟨rests_of_same before after rfl i, nofun⟩
  | readPast here transfer reply =>
      subst transfer
      exact .inl ⟨rests_of_device before after rfl rfl here (fun _ => fronts.read_content _ _ _) i, nofun⟩
  | writtenPast here transfer reply =>
      have other : _ ≠ k := of_decide_eq_false spared
      exact .inl ⟨rests_of_device before after rfl rfl here (fun same => absurd same other) i, nofun⟩
  | turned pending there here turned =>
      exact (follows.turned fronts planned pending there here turned rfl before after i).imp_right .inr
  | answered pending granted dropped =>
      refine .inl ⟨?_, nofun⟩
      rcases dropped with ⟨-, rfl⟩ | ended
      · exact rests_of_same before after rfl i
      · exact follows.ended planned ended before after i
  | finished ended reply => exact .inl ⟨follows.ended planned ended before after i, nofun⟩
  | wrote held there here flushed carried =>
      subst carried
      refine (follows.wrote fronts planned sound spared held there here flushed rfl (fun why result => ?_) before after
        i).imp_right .inr
      simp [result]
  | pinned held there here moved carried | unpinned held there here moved carried =>
      subst carried
      exact .inl ⟨follows.rests planned there here (fun _ => moved.face (.inl rfl)) before after, nofun⟩
  | foreign op which =>
      have rests : a.Rests (memory b) i a' (memory b') := rests_of_same before after rfl i
      rcases which with rfl | rfl | rfl <;> exact .inl ⟨rests, nofun⟩
  | stopped which held there here =>
      have rests : a.Rests (memory b) i a' (memory b') := follows.rests planned there here (fun _ => rfl) before after
      rcases which with rfl | rfl <;> exact .inl ⟨rests, nofun⟩
  | @edited act name lease m d bytes cache which held there here moved =>
      by_cases stained : (lease.cache, lease.slot) = (c, i) ∧
          (s.carry lease.cache m cache d []).bytes lease ≠ s.bytes lease
      · refine .inr (.inl ?_)
        rcases which with ⟨offset, part, rfl⟩ | ⟨byte, rfl⟩ <;>
          simp [Act.edited?, held, stained.2, stained.1]
      · have rests : a.Rests (memory b) i a' (memory b') :=
          follows.edited planned there here moved before after fun same => by simpa [same] using stained
        rcases which with ⟨offset, part, rfl⟩ | ⟨byte, rfl⟩ <;> exact .inl ⟨rests, nofun⟩

theorem Sound.took_content (sound : s.Sound pins) (fronts : Fronts memory) (follows : s.Follows plans)
    (planned : plans[c]?.map Prod.fst = some k) {step : Step} {done : Performed δ} (took : s.Took step done)
    (spared : step.writesPast plans c k = false) (before : s.layers? c k = some (a, b))
    (after : done.host.layers? c k = some (a', b')) (i : Nat) :
    a.Rests (memory b) i a' (memory b') ∧ step.transferred? s done ≠ some (c, i) ∨
      step.edited? s done.host = some (c, i) ∨ a'.Mirrors (memory b') i := by
  cases took with
  | did did => exact sound.did_content fronts follows planned did spared before after i
  | refused step why =>
      refine .inl ⟨rests_of_same before after rfl i, ?_⟩
      cases step with
      | act act => exact transferred?_refused act why
      | _ => nofun
  | nothing => exact .inl ⟨rests_of_same before after rfl i, nofun⟩
  | found pending looking there here gains =>
      exact (follows.carried planned there here rfl (gains.moved.found_content _ i) before after).imp
        (fun rests => ⟨rests, nofun⟩) .inr
  | stopped pending looking there here | starved pending looking there here =>
      exact .inl ⟨follows.rests planned there here (fun _ => rfl) before after, nofun⟩
  | unlocked unlocked =>
      obtain ⟨lease, m, d, cache, -, there, here, -, moved, rfl⟩ := unlocked
      exact .inl ⟨follows.rests planned there here (fun _ => moved.face (.inl rfl)) before after, nofun⟩
  | spoilt pending loading there here inTable invalid transfer broken spoils unlocked =>
      subst transfer
      exact (follows.carried planned there here (fronts.read_content _ _ _)
        (Cache.Moved.spoilt_content inTable invalid spoils unlocked (.inr rfl) (fronts.read_content _ _ _) i) before
        after).imp
        (fun rests => ⟨rests, nofun⟩) .inr
  | parted owed there here moved =>
      exact .inl ⟨follows.rests planned there here (fun _ => moved.face (.inl rfl)) before after, nofun⟩

theorem Follows.took (follows : s.Follows plans) {step : Step} {done : Performed δ} (took : s.Took step done) :
    done.host.Follows plans := by
  intro c m' after
  obtain ⟨m, there, becomes⟩ := took.becomes after
  rw [becomes.device]
  exact follows c m there

theorem Sound.layers?_before (sound : s.Sound pins) (follows : s.Follows plans)
    (planned : plans[c]?.map Prod.fst = some k) {step : Step} {done : Performed δ} (took : s.Took step done)
    (after : done.host.layers? c k = some (a', b')) : ∃ a b, s.layers? c k = some (a, b) := by
  obtain ⟨m', there', -, -⟩ := layers?_eq_some.mp after
  obtain ⟨m, there, -⟩ := took.becomes there'
  have inside := sound.devices there
  rw [follows.device planned there] at inside
  exact ⟨_, _, layers?_eq there (Array.getElem?_eq_getElem inside)⟩

theorem Sound.walk_content (sound : s.Sound pins) (fronts : Fronts memory) (follows : s.Follows plans)
    (planned : plans[c]?.map Prod.fst = some k) {steps : List Step}
    (spared : ∀ step ∈ steps, step.writesPast plans c k = false) {dirty : Bool}
    (mirrors : ∀ a b, s.layers? c k = some (a, b) → dirty = false → a.Mirrors (memory b) i)
    (after : (s.walk steps).layers? c k = some (a', b')) (clean : s.dirty c i dirty steps = false) :
    a'.Mirrors (memory b') i := by
  induction steps generalizing s pins dirty with
  | nil => exact mirrors a' b' after clean
  | cons step steps ih =>
      have took := sound.advance_took step
      obtain ⟨pins₁, sound₁⟩ := sound.advance step
      refine ih sound₁ (follows.took took) (fun step member => spared step (.tail _ member)) ?_ after clean
      intro a₁ b₁ after₁ clean₁
      obtain ⟨a, b, before⟩ := sound.layers?_before follows planned took after₁
      rcases sound.took_content fronts follows planned took (spared step (.head _)) before after₁ i with
        ⟨rests, untransferred⟩ | edited | mirrors₁
      · have same := identity_eq rests before after₁
        refine rests.mirrors (mirrors a b before ?_)
        have clean : step.edited? s (s.advance step).host ≠ some (c, i) ∧ dirty = false := by
          simpa [untransferred, same] using clean₁
        exact clean.2
      · simp [edited] at clean₁
      · exact mirrors₁

end

theorem assemble_follows (devices : List δ) (plans : List (Nat × Plan)) : (assemble devices plans).Follows plans := by
  intro c m there
  obtain ⟨k, plan, planned, rfl, -⟩ := assemble_mount there
  rw [planned, Option.map_some]

theorem assemble_mirrors {devices : List δ} {plans : List (Nat × Plan)} {c k : Nat} {a : Cache} {b : δ}
    (start : (assemble devices plans).layers? c k = some (a, b)) (disk : RamDisk) (i : Nat) : a.Mirrors disk i := by
  obtain ⟨m, there, -, rfl⟩ := layers?_eq_some.mp start
  obtain ⟨config, fresh, -⟩ := assemble_fresh there
  intro sl here valid
  obtain rfl := Cache.slot_of_fresh (fresh ▸ here)
  cases valid

end Host
end BlockCache
