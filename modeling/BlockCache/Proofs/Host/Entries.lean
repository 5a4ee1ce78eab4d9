import BlockCache.Proofs.Host.Ledger
import BlockCache.Proofs.Names

/-!
# Leases and calls of a host

A host keeps its leases by name and its calls by thread. Up to order, what they claim is the claim of one entry and
those of the others.
-/

namespace BlockCache

namespace Host

variable {δ : Type}

/-- The leases that have not ended, those of calls that have not been answered included. -/
def live (s : Host δ) : List Lease :=
  s.leases.map Prod.snd ++ s.calls.filterMap fun entry => entry.2.lease? entry.1

def waiting (s : Host δ) : List (Nat × Nat) := s.calls.filterMap fun entry => entry.2.awaited?

def bare (s : Host δ) : List (Nat × Nat) := s.waiting ++ s.parting

def ledger (s : Host δ) (pins : Nat → Nat → Nat) : Ledger := ⟨s.live, s.bare, pins⟩

variable {s s' : Host δ} {t : Thread} {p : Pending} {name : String} {lease : Lease}

theorem live_perm (calls : s.calls.Perm ((t, p) :: s'.calls)) (leases : s.leases = s'.leases) :
    s.live.Perm ((p.lease? t).toList ++ s'.live) := by
  have claims := calls.filterMap fun entry => entry.2.lease? entry.1
  rw [live, leases]
  refine (claims.append_left _).trans ?_
  rw [List.filterMap_cons]
  cases lease : p.lease? t with
  | none => exact .refl _
  | some lease => exact List.perm_middle

theorem waiting_perm (calls : s.calls.Perm ((t, p) :: s'.calls)) :
    s.waiting.Perm (p.awaited?.toList ++ s'.waiting) := by
  have claims := calls.filterMap fun entry => entry.2.awaited?
  refine claims.trans ?_
  rw [List.filterMap_cons]
  cases awaited : p.awaited? with
  | none => exact .refl _
  | some here => exact .refl _

theorem bare_perm (calls : s.calls.Perm ((t, p) :: s'.calls)) (parting : s.parting = s'.parting) :
    s.bare.Perm (p.awaited?.toList ++ s'.bare) := by
  rw [bare, bare, ← List.append_assoc, parting]
  exact (waiting_perm calls).append_right _

theorem calls_perm (threads : (s.calls.map Prod.fst).Nodup) (pending : s.pending? t = some p) :
    s.calls.Perm ((t, p) :: (s.removePending t).calls) :=
  lookup_perm threads pending

theorem setPending_perm (threads : (s.calls.map Prod.fst).Nodup) (pending : s.pending? t = some p) (p' : Pending) :
    (s.setPending t p').calls.Perm ((t, p') :: (s.removePending t).calls) :=
  replace_perm threads pending p'

theorem forget_live (names : (s.leases.map Prod.fst).Nodup) (held : s.lease? name = some lease) :
    s.live.Perm (lease :: (s.forget name).live) :=
  ((lookup_perm names held).map Prod.snd).append_right _

end Host
end BlockCache
