import BlockCache.Proofs.Lock.Attempts

/-!
# Guards

`LockSet.Change` lists what an act can do to a set of locks. In a sound set a lock has the holder that its one guard
says, and `run_sound` says that a set of free locks stays sound whatever is done.
-/

namespace BlockCache

namespace LockSet

variable {α : Type}

def guardsOn (s : LockSet α) (i : Nat) : List (String × Guard) := s.guards.filter fun entry => entry.2.lock = i

/-! ## What an act does -/

inductive Change (s : LockSet α) : Act α → LockSet α → Reply α → Prop
  | asked {t : Thread} {name : String} {i : Nat} {patience : Patience} {l : Lock α} (idle : s.waiter? t = none)
      (here : s.locks[i]? = some l) :
      Change s (.ask t name i patience) (s.await t ⟨name, i, patience⟩) .done
  | granted {t : Thread} {w : Waiter} {l : Lock α} (waiting : s.waiter? t = some w)
      (here : s.locks[w.lock]? = some l) (free : l.isLocked = false) :
      Change s (.attempt t) (((s.dismiss t).unlock w.name).1.enter w.name ⟨w.lock, t⟩ l) (.granted l.value)
  | failed {t : Thread} {cause : Error} : Change s (.attempt t) (s.dismiss t) (.failed cause)
  | read {name : String} {l : Lock α} : Change s (.get name) s (.value l.value)
  | wrote {name : String} {guard : Guard} {l : Lock α} {value : α} (held : s.guard? name = some guard)
      (here : s.locks[guard.lock]? = some l) :
      Change s (.set name value) (s.setLock guard.lock (l.set value)) (.value value)
  | unlocked {name : String} : Change s (.unlock name) (s.unlock name).1 .done
  | cancelled {token : Token} : Change s (.cancel token) (s.cancel token).1 .done
  | refused {act : Act α} {why : Refusal} (unsaid : ∀ token, act ≠ .cancel token)
      (unwritten : ∀ name value, act = .set name value → s.guarded? name = none) : Change s act s (.refused why)

variable {s s' : LockSet α} {t : Thread} {w : Waiter} {l : Lock α} {name : String} {guard : Guard} {i j : Nat}
  {act : Act α} {reply : Reply α}

theorem guarded?_cases (s : LockSet α) (name : String) :
    s.guarded? name = none ∨
      ∃ guard l, s.guard? name = some guard ∧ s.locks[guard.lock]? = some l ∧ s.guarded? name = some (guard.lock, l) := by
  cases held : s.guard? name with
  | none => exact .inl (guarded?_none held)
  | some guard =>
      cases here : s.locks[guard.lock]? with
      | none => exact .inl (by simp [guarded?, held, here])
      | some l => exact .inr ⟨guard, l, rfl, here, guarded?_eq held here⟩

theorem perform_change (s : LockSet α) (act : Act α) : Change s act (s.perform act).1 (s.perform act).2 := by
  cases act with
  | ask t name i patience =>
      rw [perform, ask]
      split
      · exact .refused (by simp) (by simp)
      · split
        · exact .refused (by simp) (by simp)
        · split
          · exact .refused (by simp) (by simp)
          · rename_i idle inside unused
            obtain ⟨l, here⟩ := Option.ne_none_iff_exists'.mp (mt Option.isNone_iff_eq_none.mpr inside)
            exact .asked (by simpa using idle) here
  | attempt t =>
      cases waiting : s.waiter? t with
      | none =>
          rw [perform, attempt, waiting]
          exact .refused (by simp) (by simp)
      | some w =>
          cases here : s.locks[w.lock]? with
          | none =>
              simp only [perform, attempt, waiting, here]
              exact .refused (by simp) (by simp)
          | some l =>
              cases locked : l.isLocked with
              | false =>
                  rw [perform, attempt_free waiting here locked]
                  exact .granted waiting here locked
              | true =>
                  rw [perform, attempt_locked waiting here locked]
                  cases refusal : w.patience.refusal s.isCancelled with
                  | none => exact .refused (by simp) (by simp)
                  | some cause => exact .failed
  | get name =>
      rcases s.guarded?_cases name with none | ⟨guard, l, held, here, found⟩
      · rw [perform, get, none]
        exact .refused (by simp) (by simp)
      · rw [perform, get, found]
        exact .read
  | set name value =>
      rcases s.guarded?_cases name with none | ⟨guard, l, held, here, found⟩
      · rw [perform, set, none]
        apply Change.refused (by simp)
        intro name' value' same
        cases same
        exact none
      · rw [perform, set, found]
        exact .wrote held here
  | unlock name =>
      rcases s.guarded?_cases name with none | ⟨guard, l, held, here, found⟩
      · rw [perform, unlock, none]
        exact .refused (by simp) (by simp)
      · have done : (s.unlock name).2 = .done := by rw [unlock, found]
        rw [perform, done]
        exact .unlocked
  | cancel token => exact .cancelled

/-! ## Locks -/

theorem setLock_same (inside : i < s.locks.size) (l : Lock α) : (s.setLock i l).locks[i]? = some l := by
  rw [setLock, Array.getElem?_setIfInBounds_self_of_lt inside]

theorem setLock_other (other : i ≠ j) (l : Lock α) : (s.setLock i l).locks[j]? = s.locks[j]? :=
  Array.getElem?_setIfInBounds_ne other

theorem setLock_size (s : LockSet α) (i : Nat) (l : Lock α) : (s.setLock i l).locks.size = s.locks.size :=
  Array.size_setIfInBounds

theorem lock_inside (here : s.locks[i]? = some l) : i < s.locks.size := (Array.getElem?_eq_some_iff.mp here).1

/-! ## Sound sets of locks -/

structure Sound (s : LockSet α) : Prop where
  names : (s.guards.map Prod.fst).Nodup
  threads : (s.waiters.map Prod.fst).Nodup
  placed : ∀ entry ∈ s.guards, entry.2.lock < s.locks.size
  wanted : ∀ entry ∈ s.waiters, entry.2.lock < s.locks.size
  /-- A lock that is held has one guard, which says who holds it, and a free lock has none. -/
  owned : ∀ i l, s.locks[i]? = some l → (s.guardsOn i).map (·.2.thread) = l.holder.toList
  agrees : ∀ (i : Nat) (l : Lock α), s.locks[i]? = some l → l.Agrees

namespace Sound

theorem here (sound : s.Sound) (held : s.guard? name = some guard) : ∃ l, s.locks[guard.lock]? = some l :=
  ⟨_, Array.getElem?_eq_getElem (sound.placed _ (mem_of_lookup held))⟩

theorem wanted_lock (sound : s.Sound) (waiting : s.waiter? t = some w) : ∃ l, s.locks[w.lock]? = some l :=
  ⟨_, Array.getElem?_eq_getElem (sound.wanted _ (mem_of_lookup waiting))⟩

theorem mem_guardsOn (held : s.guard? name = some guard) : (name, guard) ∈ s.guardsOn guard.lock :=
  List.mem_filter.mpr ⟨mem_of_lookup held, decide_eq_true rfl⟩

theorem guard?_of_mem (sound : s.Sound) {entry : String × Guard} (member : entry ∈ s.guardsOn i) :
    s.guard? entry.1 = some entry.2 ∧ entry.2.lock = i :=
  ⟨lookup_of_mem sound.names (List.mem_filter.mp member).1, of_decide_eq_true (List.mem_filter.mp member).2⟩

theorem guardsOn_held (sound : s.Sound) (here : s.locks[i]? = some l) (holder : l.holder = some t) :
    ∃ name, s.guardsOn i = [(name, ⟨i, t⟩)] ∧ s.guard? name = some ⟨i, t⟩ := by
  have owned := sound.owned i l here
  rw [holder, Option.toList_some, List.map_eq_singleton_iff] at owned
  obtain ⟨⟨name, guard⟩, only, rfl⟩ := owned
  obtain ⟨held, rfl⟩ := sound.guard?_of_mem (only ▸ List.mem_singleton_self _)
  exact ⟨name, only, held⟩

theorem guardsOn_eq (sound : s.Sound) (held : s.guard? name = some guard) (here : s.locks[guard.lock]? = some l) :
    s.guardsOn guard.lock = [(name, guard)] ∧ l.holder = some guard.thread := by
  have member := mem_guardsOn held
  cases holder : l.holder with
  | none =>
      have owned := sound.owned guard.lock l here
      rw [holder, Option.toList_none, List.map_eq_nil_iff] at owned
      rw [owned] at member
      cases member
  | some t =>
      obtain ⟨name', only, -⟩ := sound.guardsOn_held here holder
      rw [only, List.mem_singleton] at member
      obtain ⟨rfl, same⟩ := Prod.mk.inj member
      exact ⟨by rw [only, ← same], by rw [same]⟩

theorem guardsOn_free (sound : s.Sound) (here : s.locks[i]? = some l) (free : l.isLocked = false) :
    s.guardsOn i = [] := by
  have nobody : l.holder = none := (sound.agrees i l here).isLocked_eq_false_iff.mp free
  have owned := sound.owned i l here
  rwa [nobody, Option.toList_none, List.map_eq_nil_iff] at owned

theorem guard_locks (sound : s.Sound) (held : s.guard? name = some guard) (here : s.locks[i]? = some l)
    (free : l.isLocked = false) : guard.lock ≠ i := by
  rintro rfl
  have member := mem_guardsOn held
  rw [sound.guardsOn_free here free] at member
  cases member

theorem unlock_same (sound : s.Sound) (held : s.guard? name = some guard) (here : s.locks[guard.lock]? = some l) :
    (s.unlock name).1.locks[guard.lock]? = some l.unlock ∧ (s.unlock name).1.guardsOn guard.lock = [] := by
  rw [unlock_eq held here]
  constructor
  · exact setLock_same (lock_inside here) _
  · rw [guardsOn, List.filter_comm, ← guardsOn, (sound.guardsOn_eq held here).1]
    simp

theorem unlock_other (sound : s.Sound) (name : String) (others : ∀ guard, s.guard? name = some guard → guard.lock ≠ j) :
    (s.unlock name).1.locks[j]? = s.locks[j]? ∧ (s.unlock name).1.guardsOn j = s.guardsOn j := by
  cases held : s.guard? name with
  | none => simp [unlock_none held]
  | some guard =>
      obtain ⟨l, here⟩ := sound.here held
      have other := others guard held
      rw [unlock_eq held here]
      constructor
      · exact setLock_other other _
      · rw [guardsOn, List.filter_comm, ← guardsOn]
        apply List.filter_eq_self.mpr
        intro entry member
        apply decide_eq_true
        rintro rfl
        obtain ⟨found, there⟩ := sound.guard?_of_mem member
        exact others entry.2 found there

theorem unlock (sound : s.Sound) (name : String) : (s.unlock name).1.Sound := by
  cases held : s.guard? name with
  | none => rwa [unlock_none held]
  | some guard =>
      obtain ⟨l, here⟩ := sound.here held
      have same := sound.unlock_same held here
      have other {j : Nat} (away : guard.lock ≠ j) := sound.unlock_other (j := j) name fun guard' found =>
        Option.some.inj (held.symm.trans found) ▸ away
      have shape := unlock_eq held here
      constructor
      · rw [shape]
        exact filter_names sound.names _
      · rw [shape]
        exact sound.threads
      · rw [shape]
        intro entry member
        exact (setLock_size s guard.lock l.unlock).symm ▸ sound.placed entry (List.mem_filter.mp member).1
      · rw [shape]
        intro entry member
        exact (setLock_size s guard.lock l.unlock).symm ▸ sound.wanted entry member
      · intro j l' there
        by_cases away : guard.lock = j
        · subst away
          obtain rfl := Option.some.inj (same.1.symm.trans there)
          rw [same.2]
          rfl
        · rw [(other away).1] at there
          rw [(other away).2]
          exact sound.owned j l' there
      · intro j l' there
        by_cases away : guard.lock = j
        · subst away
          obtain rfl := Option.some.inj (same.1.symm.trans there)
          exact l.unlock_agrees
        · exact sound.agrees j l' ((other away).1.symm.trans there)

theorem enter (sound : s.Sound) (here : s.locks[guard.lock]? = some l) (free : l.isLocked = false)
    (unused : s.guard? name = none) : (s.enter name guard l).Sound := by
  have inside := lock_inside here
  constructor
  · exact append_names sound.names unused guard
  · exact sound.threads
  · intro entry member
    rw [LockSet.enter, setLock_size]
    rcases List.mem_append.mp member with old | new
    · exact sound.placed entry old
    · rwa [List.mem_singleton.mp new]
  · intro entry member
    rw [LockSet.enter, setLock_size]
    exact sound.wanted entry member
  · intro j l' there
    rw [guardsOn, LockSet.enter, List.filter_append, ← guardsOn]
    by_cases away : guard.lock = j
    · subst away
      obtain rfl := Option.some.inj ((setLock_same inside _).symm.trans there)
      rw [sound.guardsOn_free here free]
      simp [Lock.grant]
    · rw [List.filter_cons_of_neg (by simpa using away), List.filter_nil, List.append_nil]
      exact sound.owned j l' ((setLock_other away _).symm.trans there)
  · intro j l' there
    by_cases away : guard.lock = j
    · subst away
      obtain rfl := Option.some.inj ((setLock_same inside _).symm.trans there)
      exact l.grant_agrees guard.thread
    · exact sound.agrees j l' ((setLock_other away _).symm.trans there)

theorem set (sound : s.Sound) (here : s.locks[i]? = some l) (value : α) : (s.setLock i (l.set value)).Sound := by
  constructor
  · exact sound.names
  · exact sound.threads
  · intro entry member
    rw [setLock_size]
    exact sound.placed entry member
  · intro entry member
    rw [setLock_size]
    exact sound.wanted entry member
  · intro j l' there
    by_cases away : i = j
    · subst away
      obtain rfl := Option.some.inj ((setLock_same (lock_inside here) _).symm.trans there)
      exact sound.owned i l here
    · exact sound.owned j l' ((setLock_other away _).symm.trans there)
  · intro j l' there
    by_cases away : i = j
    · subst away
      obtain rfl := Option.some.inj ((setLock_same (lock_inside here) _).symm.trans there)
      exact (sound.agrees i l here).set value
    · exact sound.agrees j l' ((setLock_other away _).symm.trans there)

theorem await (sound : s.Sound) (idle : s.waiter? t = none) (inside : w.lock < s.locks.size) : (s.await t w).Sound := by
  refine ⟨sound.names, append_names sound.threads idle w, sound.placed, ?_, sound.owned, sound.agrees⟩
  intro entry member
  rcases List.mem_append.mp member with old | new
  · exact sound.wanted entry old
  · rwa [List.mem_singleton.mp new]

theorem dismiss (sound : s.Sound) (t : Thread) : (s.dismiss t).Sound :=
  ⟨sound.names, filter_names sound.threads _, sound.placed,
    fun entry member => sound.wanted entry (List.mem_filter.mp member).1, sound.owned, sound.agrees⟩

theorem unlock_unused (sound : s.Sound) (name : String) : (s.unlock name).1.guard? name = none := by
  cases held : s.guard? name with
  | none => rwa [unlock_none held]
  | some guard =>
      obtain ⟨l, here⟩ := sound.here held
      rw [unlock_eq held here]
      exact lookup_filter_same s.guards name

theorem unlock_free (sound : s.Sound) (here : s.locks[i]? = some l) (free : l.isLocked = false) (name : String) :
    (s.unlock name).1.locks[i]? = some l :=
  (sound.unlock_other name fun _ held => sound.guard_locks held here free).1.trans here

theorem change (sound : s.Sound) (change : Change s act s' reply) : s'.Sound := by
  cases change with
  | asked idle here => exact sound.await idle (lock_inside here)
  | granted waiting here free =>
      rename_i t w l
      -- A guard that had the name is given up first. It is on another lock, as this one is free.
      have left := sound.dismiss t
      exact (left.unlock w.name).enter (left.unlock_free here free w.name) free (left.unlock_unused w.name)
  | failed => exact sound.dismiss _
  | wrote held here => exact sound.set here _
  | unlocked => exact sound.unlock _
  | cancelled => exact ⟨sound.names, sound.threads, sound.placed, sound.wanted, sound.owned, sound.agrees⟩
  | read | refused => exact sound

theorem perform (sound : s.Sound) (act : Act α) : (s.perform act).1.Sound := sound.change (s.perform_change act)

theorem run (sound : s.Sound) (acts : List (Act α)) : (s.run acts).Sound := by
  induction acts generalizing s with
  | nil => exact sound
  | cons act acts ih => exact ih (sound.perform act)

end Sound

theorem sound_ofValues (values : List α) : (ofValues values).Sound := by
  have free {i : Nat} {l : Lock α} (here : (ofValues values).locks[i]? = some l) : ∃ value, l = .free value := by
    rw [ofValues, List.getElem?_toArray, List.getElem?_map] at here
    obtain ⟨value, -, rfl⟩ := Option.map_eq_some_iff.mp here
    exact ⟨value, rfl⟩
  refine ⟨.nil, .nil, nofun, nofun, fun i l here => ?_, fun i l here => ?_⟩
  · obtain ⟨value, rfl⟩ := free here
    rfl
  · obtain ⟨value, rfl⟩ := free here
    exact Lock.free_agrees value

end LockSet
end BlockCache
