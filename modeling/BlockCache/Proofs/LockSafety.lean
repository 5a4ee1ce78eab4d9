import BlockCache.Proofs.Lock.Guards

/-!
# Safety of locks

Threads take locks, wait for them, give guards up and cancel tokens in any order. `locks_safe` says what is true of
the locks after any acts: who holds them, what is under them, and what the next call for one is answered. Whatever a
session does to its locks is done by acts, and `Reached.safe` says the same of it.
-/

namespace BlockCache

namespace LockSet

variable {α : Type}

structure Exclusive (s : LockSet α) : Prop where
  single : ∀ i, (s.guardsOn i).length ≤ 1
  locked : ∀ i l, s.locks[i]? = some l →
    (l.isLocked = true ↔ ∃ name guard, s.guard? name = some guard ∧ guard.lock = i)
  holder : ∀ i l, s.locks[i]? = some l → l.holder = (s.guardsOn i).head?.map (·.2.thread)
  held : ∀ i l t, s.locks[i]? = some l → (l.heldBy t = true ↔ ∃ name, s.guard? name = some ⟨i, t⟩)
  guarded : ∀ name guard, s.guard? name = some guard → ∃ l, s.locks[guard.lock]? = some l ∧
    s.get name = (s, .value l.value) ∧ ∀ value, s.set name value = (s.setLock guard.lock (l.set value), .value value)

/-- What a waiting call of thread `t` for lock `l` is answered. Its token is of no account while the lock is free. -/
structure Answers (s : LockSet α) (t : Thread) (w : Waiter) (l : Lock α) : Prop where
  free : l.isLocked = false → ∃ s', s.attempt t = (s', .granted l.value) ∧ s'.guard? w.name = some ⟨w.lock, t⟩
  locked : l.isLocked = true → s.attempt t =
    match w.patience with
    | .block => (s, .refused .blocked)
    | .interruptible token =>
        if s.isCancelled token then (s.dismiss t, .failed .interrupted) else (s, .refused .blocked)
    | .never => (s.dismiss t, .failed .lockContended)

/-- What a new call of thread `t` for lock `i` is answered. One that fails has changed nothing. -/
structure Takes (s : LockSet α) (t : Thread) (name : String) (i : Nat) (l : Lock α) : Prop where
  free : ∀ patience, l.isLocked = false →
    ∃ s', s.take t name i patience = (s', .reply (.granted l.value)) ∧ s'.guard? name = some ⟨i, t⟩
  locked : ∀ patience, l.isLocked = true → s.take t name i patience =
    match patience with
    | .block => (s.await t ⟨name, i, patience⟩, .reply (.refused .blocked))
    | .interruptible token =>
        if s.isCancelled token then (s, .reply (.failed .interrupted))
        else (s.await t ⟨name, i, patience⟩, .reply (.refused .blocked))
    | .never => (s, .reply (.failed .lockContended))

/-- The locks that an act is about. A guard that is given out may take its name from a guard on another lock. -/
def touched (s : LockSet α) : Act α → List Nat
  | .set name _ | .unlock name => (s.guard? name).toList.map Guard.lock
  | .attempt t => (s.waiter? t).toList.flatMap fun w => w.lock :: (s.guard? w.name).toList.map Guard.lock
  | _ => []

def renamed (s : LockSet α) : Act α → Option String
  | .unlock name => some name
  | .attempt t => (s.waiter? t).map Waiter.name
  | _ => none

structure Spares (s : LockSet α) (act : Act α) (s' : LockSet α) : Prop where
  locks : ∀ i ∉ s.touched act, s'.locks[i]? = s.locks[i]? ∧ s'.guardsOn i = s.guardsOn i
  guards : ∀ name, s.renamed act ≠ some name → s'.guard? name = s.guard? name

/-- A call that has not been answered after some acts has waited through all of them: it never had the lock. -/
def Waits (s : LockSet α) (t : Thread) (acts : List (Act α)) : Prop :=
  (∀ name i patience, .ask t name i patience ∉ acts) → ∀ w, (s.run acts).waiter? t = some w →
    s.waiter? t = some w ∧ ∀ front back, acts = front ++ .attempt t :: back →
      (s.run front).attempt t = (s.run front, .refused .blocked)

structure Safe (s : LockSet α) : Prop where
  exclusive : s.Exclusive
  answers : ∀ t w, s.waiter? t = some w → ∃ l, s.locks[w.lock]? = some l ∧ s.Answers t w l
  takes : ∀ t name i l, s.waiter? t = none → s.guard? name = none → s.locks[i]? = some l → s.Takes t name i l
  spares : ∀ act, s.Spares act (s.perform act).1
  waits : ∀ t acts, s.Waits t acts

def written? (s : LockSet α) (i : Nat) : Act α → Option α
  | .set name value => if (s.guard? name).map Guard.lock = some i then some value else none
  | _ => none

def written (s : LockSet α) (i : Nat) : List (Act α) → List α
  | [] => []
  | act :: acts => (s.written? i act).toList ++ (s.perform act).1.written i acts

variable {s s' : LockSet α} {t : Thread} {w : Waiter} {l : Lock α} {name : String} {guard : Guard} {i : Nat}
  {act : Act α} {reply : Reply α}

/-! ## Guards and calls -/

theorem Sound.exclusive (sound : s.Sound) : s.Exclusive where
  single i := by
    cases on : s.guardsOn i with
    | nil => exact Nat.zero_le 1
    | cons entry rest =>
        obtain ⟨held, there⟩ := sound.guard?_of_mem (on ▸ List.mem_cons_self)
        obtain ⟨l, here⟩ := sound.here held
        rw [← on, ← there, (sound.guardsOn_eq held here).1]
        exact Nat.le_refl 1
  locked i l here := by
    constructor
    · intro locked
      obtain ⟨t, holder⟩ := Option.isSome_iff_exists.mp ((sound.agrees i l here).isLocked_eq ▸ locked)
      obtain ⟨name, -, held⟩ := sound.guardsOn_held here holder
      exact ⟨name, _, held, rfl⟩
    · rintro ⟨name, guard, held, rfl⟩
      exact (sound.agrees guard.lock l here).locked_of_holder (sound.guardsOn_eq held here).2
  holder i l here := by
    rw [← List.head?_map, sound.owned i l here]
    cases l.holder <;> rfl
  held i l t here := by
    rw [(sound.agrees i l here).heldBy_iff]
    constructor
    · intro holder
      obtain ⟨name, -, held⟩ := sound.guardsOn_held here holder
      exact ⟨name, held⟩
    · rintro ⟨name, held⟩
      exact (sound.guardsOn_eq held here).2
  guarded name guard held := by
    obtain ⟨l, here⟩ := sound.here held
    have found := guarded?_eq held here
    refine ⟨l, here, ?_, fun value => ?_⟩
    · rw [get, found]
    · rw [LockSet.set, found]

theorem Sound.enter_guard? (unused : s.guard? name = none) : (s.enter name guard l).guard? name = some guard := by
  rw [guard?, LockSet.enter, List.lookup_append, show s.guards.lookup name = none from unused]
  exact List.lookup_cons_self

theorem Sound.answers (sound : s.Sound) (waiting : s.waiter? t = some w) (here : s.locks[w.lock]? = some l) :
    s.Answers t w l where
  free unlocked :=
    ⟨_, attempt_free waiting here unlocked, enter_guard? ((sound.dismiss t).unlock_unused w.name)⟩
  locked locked := by
    rw [attempt_locked waiting here locked]
    cases w.patience with
    | interruptible token => cases cancelled : s.isCancelled token <;> simp [Patience.refusal, cancelled]
    | block | never => rfl

theorem takes (idle : s.waiter? t = none) (unused : s.guard? name = none) (here : s.locks[i]? = some l) :
    s.Takes t name i l where
  free patience unlocked := ⟨_, take_free idle (by simp [nameInUse, unused]) here unlocked patience, Sound.enter_guard? unused⟩
  locked patience locked := by
    rw [take_locked idle (by simp [nameInUse, unused]) here locked]
    cases patience with
    | interruptible token => cases cancelled : s.isCancelled token <;> simp [Patience.refusal, cancelled]
    | block | never => rfl

/-! ## What an act leaves alone -/

theorem unlock_guard? {name' : String} (other : name' ≠ name) : (s.unlock name).1.guard? name' = s.guard? name' := by
  rcases s.guarded?_cases name with none | ⟨guard, l, held, here, found⟩
  · rw [unlock, none]
  · rw [unlock_eq held here]
    exact lookup_filter other

theorem unlock_calls (s : LockSet α) (name : String) :
    (s.unlock name).1.waiters = s.waiters ∧ (s.unlock name).1.cancelled = s.cancelled := by
  rcases s.guarded?_cases name with none | ⟨guard, l, held, here, found⟩
  · simp [unlock, none]
  · rw [unlock_eq held here]
    exact ⟨rfl, rfl⟩

theorem Sound.spares (sound : s.Sound) (change : Change s act s' reply) : s.Spares act s' := by
  cases change with
  | granted waiting here free =>
      rename_i t w l
      have left := sound.dismiss t
      constructor
      · intro i untouched
        obtain ⟨away, others⟩ : w.lock ≠ i ∧ ∀ guard, s.guard? w.name = some guard → guard.lock ≠ i := by
          simpa [touched, waiting, eq_comm] using untouched
        obtain ⟨locks, guards⟩ := left.unlock_other w.name others
        refine ⟨(setLock_other away _).trans locks, ?_⟩
        rw [guardsOn, LockSet.enter, List.filter_append, List.filter_cons_of_neg (by simpa using away), List.filter_nil,
          List.append_nil]
        exact guards
      · intro name other
        have apart : name ≠ w.name := by simpa [renamed, waiting, eq_comm] using other
        exact (lookup_append_other _ apart).trans (unlock_guard? apart)
  | wrote held here =>
      refine ⟨fun i untouched => ⟨setLock_other ?_ _, rfl⟩, fun name other => rfl⟩
      simpa [touched, held, eq_comm] using untouched
  | unlocked =>
      refine ⟨fun i untouched => sound.unlock_other _ ?_, fun name other => unlock_guard? ?_⟩
      · simpa [touched, eq_comm] using untouched
      · simpa [renamed, eq_comm] using other
  | asked | failed | read | cancelled | refused => exact ⟨fun i untouched => ⟨rfl, rfl⟩, fun name other => rfl⟩

theorem Change.waiter? (change : Change s act s' reply) (unasked : ∀ name i patience, act ≠ .ask t name i patience)
    (untried : act ≠ .attempt t) : s'.waiter? t = s.waiter? t := by
  cases change with
  | asked idle here =>
      apply lookup_append_other
      rintro rfl
      exact unasked _ _ _ rfl
  | granted waiting here free =>
      rw [LockSet.waiter?, LockSet.enter, setLock, (unlock_calls _ _).1]
      apply lookup_filter
      rintro rfl
      exact untried rfl
  | failed =>
      apply lookup_filter
      rintro rfl
      exact untried rfl
  | unlocked => rw [LockSet.waiter?, (unlock_calls _ _).1, ← LockSet.waiter?]
  | read | wrote | cancelled | refused => rfl

theorem Sound.attempt_waiting (sound : s.Sound) (waits : (s.attempt t).1.waiter? t = some w) :
    s.waiter? t = some w ∧ s.attempt t = (s, .refused .blocked) := by
  have gone : (s.dismiss t).waiter? t = none := lookup_filter_same s.waiters t
  cases waiting : s.waiter? t with
  | none =>
      rw [attempt, waiting, waiting] at waits
      cases waits
  | some w' =>
      obtain ⟨l, here⟩ := sound.wanted_lock waiting
      cases locked : l.isLocked with
      | false =>
          rw [attempt_free waiting here locked, waiter?, LockSet.enter, setLock, (unlock_calls _ _).1] at waits
          cases gone.symm.trans waits
      | true =>
          rw [attempt_locked waiting here locked] at waits ⊢
          cases refusal : w'.patience.refusal s.isCancelled with
          | none =>
              rw [refusal] at waits
              exact ⟨waiting.symm.trans waits, rfl⟩
          | some cause =>
              rw [refusal] at waits
              cases gone.symm.trans waits

theorem Sound.waits (sound : s.Sound) (acts : List (Act α)) : s.Waits t acts := by
  induction acts generalizing s with
  | nil => exact fun _ w waiting => ⟨waiting, fun front back split => by simp at split⟩
  | cons act acts ih =>
      intro unasked w waiting
      -- Who waits at the end has waited after the first act, and so before it.
      have later := ih (sound.perform act)
        (fun name i patience member => unasked name i patience (.tail _ member)) w waiting
      have now : s.waiter? t = some w ∧ (act = .attempt t → s.attempt t = (s, .refused .blocked)) := by
        by_cases tried : act = .attempt t
        · subst tried
          obtain ⟨before, blocked⟩ := sound.attempt_waiting later.1
          exact ⟨before, fun _ => blocked⟩
        · have unasked : ∀ name i patience, act ≠ .ask t name i patience := fun name i patience same =>
            unasked name i patience (same ▸ .head _)
          exact ⟨((s.perform_change act).waiter? unasked tried).symm.trans later.1, fun same => absurd same tried⟩
      apply And.intro now.1
      intro front back split
      cases front with
      | nil => exact now.2 (List.cons.inj split).1
      | cons first front =>
          obtain ⟨rfl, rest⟩ := List.cons.inj split
          exact later.2 front back rest

theorem Sound.safe (sound : s.Sound) : s.Safe where
  exclusive := sound.exclusive
  answers t w waiting := by
    obtain ⟨l, here⟩ := sound.wanted_lock waiting
    exact ⟨l, here, sound.answers waiting here⟩
  takes t name i l idle unused here := LockSet.takes idle unused here
  spares act := sound.spares (s.perform_change act)
  waits t acts := sound.waits acts

/-! ## Values and tokens -/

theorem setLock_values (value : s.locks[i]?.map Lock.value = some l.value) (j : Nat) :
    (s.setLock i l).locks[j]?.map Lock.value = s.locks[j]?.map Lock.value := by
  by_cases same : i = j
  · subst same
    obtain ⟨l', here, -⟩ := Option.map_eq_some_iff.mp value
    rw [setLock_same (lock_inside here), value]
    rfl
  · rw [setLock_other same]

theorem unlock_values (s : LockSet α) (name : String) (j : Nat) :
    (s.unlock name).1.locks[j]?.map Lock.value = s.locks[j]?.map Lock.value := by
  rcases s.guarded?_cases name with none | ⟨guard, l, held, here, found⟩
  · rw [unlock, none]
  · rw [unlock_eq held here]
    exact setLock_values (by rw [here]; rfl) j

theorem Sound.change_values (sound : s.Sound) (change : Change s act s' reply) (i : Nat) :
    s'.locks[i]?.map Lock.value = (s.locks[i]?.map Lock.value).map fun value => (s.written? i act).getD value := by
  have still {values : Option α} : values = values.map fun value => (none : Option α).getD value :=
    Option.map_id'.symm
  cases change with
  | granted waiting here free =>
      rename_i t w l
      have kept := unlock_values (s.dismiss t) w.name
      have value : (s.dismiss t).locks[w.lock]?.map Lock.value = some l.value := congrArg (Option.map Lock.value) here
      exact ((setLock_values (l := l.grant t) ((kept w.lock).trans value) i).trans (kept i)).trans still
  | wrote held here =>
      rename_i name guard l value
      by_cases same : guard.lock = i
      · subst same
        rw [setLock_same (lock_inside here), here, written?, held]
        simp [Lock.set]
      · rw [setLock_other same, written?, held, Option.map_some, if_neg (by simpa using same)]
        exact still
  | unlocked => exact (unlock_values s _ i).trans still
  | refused unsaid unwritten =>
      cases act with
      | set name value =>
          have unused : s.guard? name = none := by
            cases held : s.guard? name with
            | none => rfl
            | some guard =>
                obtain ⟨l, here⟩ := sound.here held
                cases (unwritten name value rfl).symm.trans (guarded?_eq held here)
          rw [written?, unused]
          exact still
      | _ => exact still
  | asked | failed | read | cancelled => exact still

theorem Sound.run_values (sound : s.Sound) (acts : List (Act α)) (i : Nat) :
    (s.run acts).locks[i]?.map Lock.value = (s.locks[i]?.map Lock.value).map (s.written i acts).getLastD := by
  induction acts generalizing s with
  | nil => exact Option.map_id'.symm
  | cons act acts ih =>
      have step := sound.change_values (s.perform_change act) i
      apply (ih (sound.perform act)).trans
      rw [step, Option.map_map, written]
      congr 1
      funext value
      cases s.written? i act with
      | none => rfl
      | some value' => exact List.getLastD_cons.symm

theorem cancel_isCancelled (s : LockSet α) (token token' : Token) :
    (s.cancel token').1.isCancelled token = true ↔ s.isCancelled token = true ∨ token' = token := by
  simp only [cancel, isCancelled, List.contains_iff_mem]
  by_cases already : token' ∈ s.cancelled
  · rw [if_pos already]
    exact ⟨.inl, Or.rec id fun same => same ▸ already⟩
  · rw [if_neg already, List.mem_cons, or_comm, eq_comm]

theorem perform_isCancelled (s : LockSet α) (act : Act α) (token : Token) :
    (s.perform act).1.isCancelled token = true ↔ s.isCancelled token = true ∨ act = .cancel token := by
  have still {s' : LockSet α} (same : s'.cancelled = s.cancelled) (unsaid : act ≠ .cancel token) :
      s'.isCancelled token = true ↔ s.isCancelled token = true ∨ act = .cancel token := by
    rw [isCancelled, same, ← isCancelled, or_iff_left unsaid]
  have change := s.perform_change act
  generalize (s.perform act).1 = s', (s.perform act).2 = reply at change
  cases change with
  | cancelled =>
      rw [cancel_isCancelled, Act.cancel.injEq]
  | granted waiting here free => exact still (unlock_calls _ _).2 (by simp)
  | unlocked => exact still (unlock_calls _ _).2 (by simp)
  | refused unsaid unwritten => exact still rfl (unsaid token)
  | asked | failed | read | wrote => exact still rfl (by simp)

theorem run_isCancelled (s : LockSet α) (acts : List (Act α)) (token : Token) :
    (s.run acts).isCancelled token = true ↔ s.isCancelled token = true ∨ .cancel token ∈ acts := by
  induction acts generalizing s with
  | nil => simp [run]
  | cons act acts ih =>
      apply (ih _).trans
      rw [perform_isCancelled, List.mem_cons, or_assoc, eq_comm (a := act)]

/-! ## Runs -/

/-- After any acts a lock has the value that was last put under it. -/
theorem locks_safe (values : List α) (acts : List (Act α)) :
    ((ofValues values).run acts).Safe ∧
      (∀ i, ((ofValues values).run acts).locks[i]?.map Lock.value =
        values[i]?.map ((ofValues values).written i acts).getLastD) ∧
      ∀ token, ((ofValues values).run acts).isCancelled token = true ↔ .cancel token ∈ acts := by
  have sound := sound_ofValues values
  refine ⟨(sound.run acts).safe, fun i => ?_, fun token => ?_⟩
  · rw [sound.run_values acts i]
    congr 1
    rw [ofValues, List.getElem?_toArray, List.getElem?_map, Option.map_map]
    exact Option.map_id'
  · exact (run_isCancelled _ acts token).trans (or_iff_right (by simp [isCancelled, ofValues]))

/-- A thread that gave up is passed over, and the next one finds what the guard left. -/
example :
    (((ofValues [5]).run [.ask 1 "a" 0 .block, .attempt 1, .ask 2 "b" 0 (.interruptible "stop"), .ask 3 "c" 0 .block,
      .set "a" 7, .cancel "stop", .attempt 2, .unlock "a"]).perform (.attempt 3)).2 = .granted 7 := by decide

/-! ## Sessions -/

theorem run_append (s : LockSet α) (acts more : List (Act α)) : s.run (acts ++ more) = (s.run acts).run more :=
  List.foldl_append

theorem take_run (s : LockSet α) (t : Thread) (name : String) (i : Nat) (patience : Patience) :
    ∃ acts, (s.take t name i patience).1 = s.run acts := by
  rw [take]
  split
  · rename_i s' asked
    exact ⟨[.ask t name i patience, .attempt t], by simp [replied, run, perform, asked]⟩
  · exact ⟨[.ask t name i patience], rfl⟩

theorem changeUnder_run (s : LockSet α) (t : Thread) (name : String) (i : Nat) (change : α → α) :
    ∃ acts, s.changeUnder t name i change = s.run acts := by
  rw [changeUnder]
  split
  · exact ⟨_, rfl⟩
  · exact ⟨_, (run_append s _ _).symm⟩

theorem contend_run (s : LockSet α) (i threads rounds : Nat) (change : α → α) :
    ∃ acts, s.contend i threads rounds change = s.run acts := by
  rw [contend]
  generalize String.join _ = name
  generalize List.flatMap _ _ = turns
  induction turns generalizing s with
  | nil => exact ⟨[], rfl⟩
  | cons t turns ih =>
      obtain ⟨first, changed⟩ := s.changeUnder_run t name i change
      obtain ⟨rest, done⟩ := ih (s.run first)
      exact ⟨first ++ rest, by rw [List.foldl_cons, changed, done, run_append]⟩

theorem request_run (s : LockSet α) (t : Thread) (i : Nat) (r : Request α) :
    ∃ acts, (s.request t i r).1 = s.run acts := by
  rw [request]
  split
  · exact ⟨[], rfl⟩
  · cases r with
    | take name patience => exact s.take_run t name i patience
    | act act => exact ⟨[act], rfl⟩
    | contend threads rounds change =>
        obtain ⟨acts, contended⟩ := s.contend_run i threads rounds change
        refine ⟨acts, ?_⟩
        rw [← contended]
        dsimp only
        split <;> rfl
    | guardHolding name =>
        dsimp only
        split <;> exact ⟨[], rfl⟩
    | holding | isLocked | describe | unknown => exact ⟨[], rfl⟩

end LockSet

namespace LockSession

variable {α : Type}

theorem step_sound {s : LockSession α} (sound : s.locks.Sound) (t : Thread) (i : Nat) (r : LockSet.Request α)
    (later : Bool) : (s.step t i r later).1.locks.Sound := by
  obtain ⟨acts, done⟩ := s.locks.request_run t i r
  rw [step]
  split
  · exact sound
  · split
    · cases r with
      | take name patience =>
          rw [putOff]
          split
          · rename_i locks asked
            have asks := sound.perform (.ask t name i patience)
            rwa [LockSet.perform, asked] at asks
          · exact sound
      | _ => exact sound
    · rw [after, done]
      exact sound.run acts

theorem join_sound {s : LockSession α} (sound : s.locks.Sound) (t : Thread) : (s.join t).1.locks.Sound := by
  rw [join]
  split
  · rename_i i r left
    obtain ⟨acts, done⟩ := s.locks.request_run t i r
    rw [after, done]
    exact sound.run acts
  · exact sound
  · exact sound.perform (.attempt t)

inductive Reached (values : List α) : LockSession α → Prop
  | start : Reached values (ofValues values)
  | step {s : LockSession α} (reached : Reached values s) (t : Thread) (i : Nat) (r : LockSet.Request α) (later : Bool) :
      Reached values (s.step t i r later).1
  | join {s : LockSession α} (reached : Reached values s) (t : Thread) : Reached values (s.join t).1

theorem Reached.sound {values : List α} {s : LockSession α} (reached : Reached values s) : s.locks.Sound := by
  induction reached with
  | start => exact LockSet.sound_ofValues values
  | step reached t i r later sound => exact step_sound sound t i r later
  | join reached t sound => exact join_sound sound t

theorem Reached.safe {values : List α} {s : LockSession α} (reached : Reached values s) : s.locks.Safe :=
  reached.sound.safe

end LockSession
end BlockCache
