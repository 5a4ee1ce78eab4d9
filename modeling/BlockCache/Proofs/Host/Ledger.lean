import BlockCache.Host.Act
import BlockCache.Proofs.Layout.Moves

/-!
# Ledgers

A ledger lists who refers to which slot: the leases, those of unanswered calls included, those who have a reference
without the lock, and the pins. `Ledger.Entered` is what a move of a cache changes in it, and `Entered.accounted` says
that the slots still agree with the ledger after the move.
-/

namespace BlockCache

def Pending.lease? (t : Thread) (p : Pending) : Option Lease :=
  match p.stage with
  | .loading i | .granted i => some ⟨p.cache, i, t⟩
  | _ => none

def Pending.awaited? (p : Pending) : Option (Nat × Nat) :=
  match p.stage with
  | .queued i => some (p.cache, i)
  | _ => none

structure Ledger where
  leases : List Lease
  /-- The references of those who do not have the lock: they wait for it, or have given it back. -/
  bare : List (Nat × Nat)
  pins : Nat → Nat → Nat

namespace Ledger

def holders (l : Ledger) (c i : Nat) : List Thread :=
  (l.leases.filter fun lease => (lease.cache, lease.slot) = (c, i)).map Lease.thread

def bareOn (l : Ledger) (c i : Nat) : Nat := l.bare.count (c, i)

end Ledger

structure Slot.Accounted (s : Slot) (l : Ledger) (c i : Nat) : Prop where
  holders : (l.holders c i).Perm s.data.holder.toList
  refcount : s.refcount = (l.holders c i).length + l.bareOn c i + l.pins c i
  pins : s.pins = UInt64.ofNat (l.pins c i)

namespace Ledger

/-- What a move of cache `c` changes in a ledger. -/
structure Entered (c : Nat) (l l' : Ledger) (move : Move) : Prop where
  leases :
    match move with
    | .grant i t => l'.leases.Perm (⟨c, i, t⟩ :: l.leases)
    | .unlock i | .finish i => ∃ t, l.leases.Perm (⟨c, i, t⟩ :: l'.leases)
    | _ => l'.leases.Perm l.leases
  bare :
    match move with
    | .hit i | .assign i _ _ | .unlock i => l'.bare.Perm ((c, i) :: l.bare)
    | .grant i _ | .giveUp i => l.bare.Perm ((c, i) :: l'.bare)
    | _ => l'.bare.Perm l.bare
  pins :
    match move with
    | .pin i => ∀ c' j, l'.pins c' j = l.pins c' j + if (c', j) = (c, i) then 1 else 0
    | .unpin i => ∀ c' j, l.pins c' j = l'.pins c' j + if (c', j) = (c, i) then 1 else 0
    | _ => l'.pins = l.pins

variable {l l' : Ledger} {c c' i j : Nat} {move : Move}

theorem holders_perm (leases : l'.leases.Perm l.leases) (c i : Nat) : (l'.holders c i).Perm (l.holders c i) :=
  (leases.filter _).map _

theorem holders_perm_here {t : Thread} (leases : l'.leases.Perm (⟨c, i, t⟩ :: l.leases)) :
    (l'.holders c i).Perm (t :: l.holders c i) := by
  simpa [holders] using (leases.filter fun lease => (lease.cache, lease.slot) = (c, i)).map Lease.thread

theorem holders_perm_other {t : Thread} (leases : l'.leases.Perm (⟨c, i, t⟩ :: l.leases))
    (other : (c', j) ≠ (c, i)) : (l'.holders c' j).Perm (l.holders c' j) := by
  have kept := (leases.filter fun lease => (lease.cache, lease.slot) = (c', j)).map Lease.thread
  rw [List.filter_cons, if_neg (by simpa using Ne.symm other)] at kept
  exact kept

theorem bareOn_eq (bare : l'.bare.Perm l.bare) (c i : Nat) : l'.bareOn c i = l.bareOn c i :=
  bare.count_eq _

theorem bareOn_here (bare : l'.bare.Perm ((c, i) :: l.bare)) :
    l'.bareOn c i = l.bareOn c i + 1 := by
  rw [bareOn, bare.count_eq, List.count_cons_self, bareOn]

theorem bareOn_other (bare : l'.bare.Perm ((c, i) :: l.bare)) (other : (c', j) ≠ (c, i)) :
    l'.bareOn c' j = l.bareOn c' j := by
  rw [bareOn, bare.count_eq, List.count_cons_of_ne (Ne.symm other), bareOn]

theorem Entered.holders_elsewhere (entered : Entered c l l' move) (other : (c', j) ≠ (c, move.slot)) :
    (l'.holders c' j).Perm (l.holders c' j) := by
  have leases := entered.leases
  cases move with
  | grant i t => exact holders_perm_other leases other
  | unlock i | finish i =>
      obtain ⟨t, leases⟩ := leases
      exact (holders_perm_other leases other).symm
  | _ => exact holders_perm leases c' j

theorem Entered.bareOn_elsewhere (entered : Entered c l l' move) (other : (c', j) ≠ (c, move.slot)) :
    l'.bareOn c' j = l.bareOn c' j := by
  have bare := entered.bare
  cases move with
  | hit | assign | unlock => exact bareOn_other bare other
  | grant | giveUp => exact (bareOn_other bare other).symm
  | _ => exact bareOn_eq bare c' j

theorem Entered.pins_elsewhere (entered : Entered c l l' move) (other : (c', j) ≠ (c, move.slot)) :
    l'.pins c' j = l.pins c' j := by
  have pins := entered.pins
  cases move with
  | pin i => exact (pins c' j).trans (if_neg other ▸ rfl)
  | unpin i => exact ((pins c' j).trans (if_neg other ▸ rfl)).symm
  | _ => exact congrFun (congrFun pins c') j

theorem Entered.accounted_elsewhere (entered : Entered c l l' move) (other : (c', j) ≠ (c, move.slot)) {s : Slot}
    (accounted : s.Accounted l c' j) : s.Accounted l' c' j := by
  have holders := entered.holders_elsewhere other
  have pins := entered.pins_elsewhere other
  refine ⟨holders.trans accounted.holders, ?_, by rw [pins, accounted.pins]⟩
  rw [holders.length_eq, entered.bareOn_elsewhere other, pins, accounted.refcount]

variable {L : Layout} {s : Slot}

theorem holders_of_unlocked (accounted : s.Accounted l c i) (unlocked : s.data.holder = none) : l.holders c i = [] := by
  simpa [unlocked] using accounted.holders

theorem holders_length_le (accounted : s.Accounted l c i) : (l.holders c i).length ≤ 1 := by
  rw [accounted.holders.length_eq]
  cases s.data.holder <;> simp

theorem Entered.holders_here (entered : Entered c l l' move) (ready : L.Ready s move)
    (accounted : s.Accounted l c move.slot) :
    (l'.holders c move.slot).Perm (move.change s).data.holder.toList := by
  have leases := entered.leases
  cases move with
  | grant i t =>
      have none : l.holders c i = [] := holders_of_unlocked accounted ready.2
      show (l'.holders c i).Perm [t]
      exact none ▸ holders_perm_here leases
  | unlock i | finish i =>
      obtain ⟨t, leases⟩ := leases
      have length : (l.holders c i).length = (l'.holders c i).length + 1 := (holders_perm_here leases).length_eq
      have bound : (l.holders c i).length ≤ 1 := holders_length_le accounted
      have none : l'.holders c i = [] := List.eq_nil_of_length_eq_zero (by omega)
      exact none ▸ .nil
  | _ => exact (holders_perm leases c _).trans accounted.holders

theorem Entered.holders_length (entered : Entered c l l' move) :
    match move with
    | .grant i _ => (l'.holders c i).length = (l.holders c i).length + 1
    | .unlock i | .finish i => (l.holders c i).length = (l'.holders c i).length + 1
    | move => (l'.holders c move.slot).length = (l.holders c move.slot).length := by
  have leases := entered.leases
  cases move with
  | grant i t => exact (holders_perm_here leases).length_eq
  | unlock i | finish i =>
      obtain ⟨t, leases⟩ := leases
      exact (holders_perm_here leases).length_eq
  | _ => exact (holders_perm leases c _).length_eq

theorem Entered.bareOn_count (entered : Entered c l l' move) :
    match move with
    | .hit i | .assign i _ _ | .unlock i => l'.bareOn c i = l.bareOn c i + 1
    | .grant i _ | .giveUp i => l.bareOn c i = l'.bareOn c i + 1
    | move => l'.bareOn c move.slot = l.bareOn c move.slot := by
  have bare := entered.bare
  cases move with
  | hit | assign | grant | unlock | giveUp => exact bareOn_here bare
  | _ => exact bareOn_eq bare c _

theorem Entered.pins_count (entered : Entered c l l' move) :
    match move with
    | .pin i => l'.pins c i = l.pins c i + 1
    | .unpin i => l.pins c i = l'.pins c i + 1
    | move => l'.pins c move.slot = l.pins c move.slot := by
  have pins := entered.pins
  cases move with
  | pin i | unpin i => simpa using pins c i
  | _ => exact congrFun (congrFun pins c) _

theorem Entered.refcount_here (entered : Entered c l l' move) (consistent : L.Consistent)
    (here : L.slots[move.slot]? = some s) (ready : L.Ready s move) (accounted : s.Accounted l c move.slot) :
    (move.change s).refcount =
      (l'.holders c move.slot).length + l'.bareOn c move.slot + l'.pins c move.slot := by
  have before := accounted.refcount
  have holders := entered.holders_length
  have bare := entered.bareOn_count
  have pins := entered.pins_count
  cases move with
  | assign i key origin =>
      have free := Layout.refcount_of_assign consistent here ready
      simp only [Move.change, Move.slot, Slot.occupy] at before holders bare pins ⊢
      omega
  | hit | pin =>
      simp only [Move.change, Move.slot, Slot.take] at before holders bare pins ⊢
      omega
  | unlock =>
      simp only [Move.change, Move.slot] at before holders bare pins ⊢
      omega
  | giveUp | finish | unpin =>
      simp only [Move.change, Move.slot, Slot.give] at before holders bare pins ⊢
      omega
  | grant | edit | load | keep =>
      simp only [Move.change, Move.slot, Slot.withBytes, Slot.validate] at before holders bare pins ⊢
      omega

theorem Entered.pins_here (entered : Entered c l l' move) (accounted : s.Accounted l c move.slot) :
    (move.change s).pins = UInt64.ofNat (l'.pins c move.slot) := by
  have before := accounted.pins
  have pins := entered.pins_count
  cases move with
  | pin i =>
      show s.pins + 1 = UInt64.ofNat (l'.pins c i)
      rw [pins, before, UInt64.ofNat_add]
      rfl
  | unpin i =>
      show s.pins - 1 = UInt64.ofNat (l'.pins c i)
      rw [before, Move.slot, pins, UInt64.ofNat_add]
      exact UInt64.add_sub_cancel _ _
  | _ => exact before.trans (congrArg UInt64.ofNat pins.symm)

theorem Entered.accounted (entered : Entered c l l' move) (consistent : L.Consistent)
    (here : L.slots[move.slot]? = some s) (ready : L.Ready s move) (accounted : s.Accounted l c move.slot) :
    (move.change s).Accounted l' c move.slot :=
  ⟨entered.holders_here ready accounted, entered.refcount_here consistent here ready accounted,
    entered.pins_here accounted⟩

end Ledger
end BlockCache
