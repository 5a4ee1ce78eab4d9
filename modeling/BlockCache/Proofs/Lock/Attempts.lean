import BlockCache.Lock.Session
import BlockCache.Proofs.Lock.Agreement
import BlockCache.Proofs.Names

/-!
# Attempts

A free lock is granted to whoever tries it. At a lock that is held, it depends on the patience of the caller whether
the call goes on waiting or fails.
-/

namespace BlockCache

/-- The error with which a caller gives up that would have to wait, if it does. -/
def Patience.refusal (cancelled : Token → Bool) : Patience → Option Error
  | .block => none
  | .interruptible token => if cancelled token then some .interrupted else none
  | .never => some .lockContended

theorem Lock.attempt_eq {α : Type} (l : Lock α) (cancelled : Token → Bool) (patience : Patience) :
    l.attempt cancelled patience =
      if l.isLocked then (patience.refusal cancelled).elim .busy .refused else .granted := by
  cases patience with
  | interruptible token => cases cancel : cancelled token <;> simp [attempt, Patience.refusal, cancel]
  | _ => rfl

namespace LockSet

variable {α : Type} {s : LockSet α} {t : Thread} {w : Waiter} {l : Lock α} {name : String} {guard : Guard} {i : Nat}

def enter (s : LockSet α) (name : String) (guard : Guard) (l : Lock α) : LockSet α :=
  { s.setLock guard.lock (l.grant guard.thread) with guards := s.guards ++ [(name, guard)] }

def await (s : LockSet α) (t : Thread) (w : Waiter) : LockSet α := { s with waiters := s.waiters ++ [(t, w)] }

theorem await_waiter (idle : s.waiter? t = none) : (s.await t w).waiter? t = some w := by
  rw [waiter?, await, List.lookup_append, show s.waiters.lookup t = none from idle]
  exact List.lookup_cons_self

theorem await_dismiss (idle : s.waiter? t = none) : (s.await t w).dismiss t = s := by
  have others : s.waiters.filter (fun entry => entry.1 ≠ t) = s.waiters := by
    apply List.filter_eq_self.mpr
    intro entry member
    apply decide_eq_true
    intro same
    simpa [same] using List.lookup_eq_none_iff.mp idle entry member
  rw [dismiss, await, List.filter_append, others, List.filter_cons_of_neg (by simp), List.filter_nil, List.append_nil]

theorem guarded?_eq (held : s.guard? name = some guard) (here : s.locks[guard.lock]? = some l) :
    s.guarded? name = some (guard.lock, l) := by
  simp [guarded?, held, here]

theorem guarded?_none (unused : s.guard? name = none) : s.guarded? name = none := by
  simp [guarded?, unused]

theorem unlock_eq (held : s.guard? name = some guard) (here : s.locks[guard.lock]? = some l) :
    s.unlock name =
      ({ s.setLock guard.lock l.unlock with guards := s.guards.filter fun entry => entry.1 ≠ name }, .done) := by
  rw [unlock, guarded?_eq held here]
  rfl

theorem unlock_none (unused : s.guard? name = none) : s.unlock name = (s, .refused .noGuard) := by
  rw [unlock, guarded?_none unused]

theorem ask_eq (idle : s.waiter? t = none) (here : s.locks[i]? = some l) (unused : s.nameInUse name = false)
    (patience : Patience) : s.ask t name i patience = (s.await t ⟨name, i, patience⟩, .done) := by
  simp [ask, await, idle, here, unused]

theorem attempt_free (waiting : s.waiter? t = some w) (here : s.locks[w.lock]? = some l) (free : l.isLocked = false) :
    s.attempt t = (((s.dismiss t).unlock w.name).1.enter w.name ⟨w.lock, t⟩ l, .granted l.value) := by
  simp only [attempt, waiting, here, Lock.attempt_eq, free]
  rfl

theorem attempt_locked (waiting : s.waiter? t = some w) (here : s.locks[w.lock]? = some l) (locked : l.isLocked = true) :
    s.attempt t = (w.patience.refusal s.isCancelled).elim (s, .refused .blocked) fun cause =>
      (s.dismiss t, .failed cause) := by
  simp only [attempt, waiting, here, Lock.attempt_eq, locked, if_true]
  cases w.patience.refusal s.isCancelled with
  | none => rfl
  | some cause => rfl

theorem take_free (idle : s.waiter? t = none) (unused : s.nameInUse name = false) (here : s.locks[i]? = some l)
    (free : l.isLocked = false) (patience : Patience) :
    s.take t name i patience = (s.enter name ⟨i, t⟩ l, .reply (.granted l.value)) := by
  have fresh : s.guard? name = none := by simpa [nameInUse] using unused
  have granted := attempt_free (s := s.await t ⟨name, i, patience⟩) (await_waiter idle) here free
  rw [await_dismiss idle, unlock_none fresh] at granted
  simp only [take, ask_eq idle here unused, granted, replied]

theorem take_locked (idle : s.waiter? t = none) (unused : s.nameInUse name = false) (here : s.locks[i]? = some l)
    (locked : l.isLocked = true) (patience : Patience) :
    s.take t name i patience =
      (patience.refusal s.isCancelled).elim (s.await t ⟨name, i, patience⟩, .reply (.refused .blocked)) fun cause =>
        (s, .reply (.failed cause)) := by
  have answered : (s.await t ⟨name, i, patience⟩).attempt t = _ := attempt_locked (await_waiter idle) here locked
  rw [await_dismiss idle, show (s.await t _).isCancelled = s.isCancelled from rfl] at answered
  simp only [take, ask_eq idle here unused, answered, replied]
  cases patience.refusal s.isCancelled with
  | none => rfl
  | some cause => rfl

end LockSet
end BlockCache
