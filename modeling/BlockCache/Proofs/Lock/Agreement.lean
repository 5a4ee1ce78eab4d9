import BlockCache.Lock.Basic

namespace BlockCache.Lock

variable {α : Type} {l : Lock α} {t : Thread}

def Agrees (l : Lock α) : Prop := l.locked = l.holder.isSome

theorem free_agrees (value : α) : (free value).Agrees := rfl

theorem grant_agrees (l : Lock α) (t : Thread) : (l.grant t).Agrees := rfl

theorem unlock_agrees (l : Lock α) : l.unlock.Agrees := rfl

theorem Agrees.set (agrees : l.Agrees) (value : α) : (l.set value).Agrees := agrees

theorem Agrees.isLocked_eq (agrees : l.Agrees) : l.isLocked = l.holder.isSome := agrees

theorem Agrees.isLocked_eq_false_iff (agrees : l.Agrees) : l.isLocked = false ↔ l.holder = none := by
  rw [agrees.isLocked_eq, Option.isSome_eq_false_iff, Option.isNone_iff_eq_none]

theorem Agrees.locked_of_holder (agrees : l.Agrees) (holder : l.holder = some t) : l.isLocked = true := by
  rw [agrees.isLocked_eq, holder, Option.isSome_some]

theorem Agrees.heldBy_iff (agrees : l.Agrees) : l.heldBy t = true ↔ l.holder = some t := by
  rw [heldBy, Bool.and_eq_true, decide_eq_true_iff]
  exact ⟨And.right, fun holder => ⟨agrees.locked_of_holder holder, holder⟩⟩

end BlockCache.Lock
