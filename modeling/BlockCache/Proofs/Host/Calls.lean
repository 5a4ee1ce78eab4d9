import BlockCache.Proofs.Host.Runs

/-!
# What becomes of a call

A call keeps its name, its cache and its block until it is answered. If the answer is a lease, it is one on the slot of
the block: `Sound.answer_lease`.
-/

namespace BlockCache

structure Pending.Continues (p p' : Pending) : Prop where
  name : p'.name = p.name
  cache : p'.cache = p.cache
  call : p'.call = p.call

theorem Pending.Continues.rfl {p : Pending} : p.Continues p := ⟨Eq.refl _, Eq.refl _, Eq.refl _⟩

theorem Pending.Continues.trans {p p₁ p' : Pending} (first : p.Continues p₁) (last : p₁.Continues p') :
    p.Continues p' :=
  ⟨last.name.trans first.name, last.cache.trans first.cache, last.call.trans first.call⟩

def Act.caller? : Act → Option Thread
  | start t .. | turn t | answer t => some t
  | _ => none

namespace Host

variable {δ : Type} {s : Host δ} {pins : Nat → Nat → Nat} {t : Thread} {p : Pending}

theorem Sound.view_granted (sound : s.Sound pins) (pending : s.pending? t = some p) {i : Nat}
    (granted : p.stage = .granted i) {s₁ : Host δ} (dropped : s.Dropped p.name s₁) :
    ∃ v, s₁.view ⟨p.cache, i, t⟩ = .lease v ∧ v.slot = i ∧ v.key = p.call.key ∧
      (p.call.loads = true → v.valid = true) := by
  have called : (t, p) ∈ s₁.calls := dropped.calls_eq ▸ mem_of_lookup pending
  obtain ⟨sl, here, key, valid⟩ := ((sound.dropped dropped).called _ called).slot (i := i) (by rw [granted]; rfl)
  exact ⟨_, view_eq here, rfl, key, valid granted⟩

variable [BlockDevice δ]

theorem Did.of_uncalled {act : Act} {done : Performed δ} (did : s.Did act done) (uncalled : act.caller? = none) :
    done.host.calls = s.calls ∧ done.host.leases ⊆ s.leases := by
  cases did with
  | started | turned | answered | denied => cases uncalled
  | finished ended =>
      obtain ⟨lease, m, d, cache, -, -, -, -, -, rfl⟩ := ended
      exact ⟨rfl, List.filter_sublist.subset⟩
  | wrote held there device flushed carried | pinned held there device moved carried
  | unpinned held there device moved carried =>
      subst carried
      exact ⟨rfl, List.Subset.refl _⟩
  | _ => exact ⟨rfl, List.Subset.refl _⟩

theorem Did.parting_eq {act : Act} {done : Performed δ} (did : s.Did act done) :
    done.host.parting = s.parting := by
  cases did with
  | answered pending granted dropped =>
      rcases dropped with ⟨-, rfl⟩ | ⟨lease, m, d, cache, -, -, -, -, -, rfl⟩ <;> rfl
  | finished ended reply =>
      obtain ⟨lease, m, d, cache, -, -, -, -, -, rfl⟩ := ended
      rfl
  | wrote held there device flushed carried | pinned held there device moved carried
  | unpinned held there device moved carried =>
      subst carried
      rfl
  | _ => rfl

theorem Did.pending_other {act : Act} {done : Performed δ} (did : s.Did act done) (other : act.caller? ≠ some t) :
    done.host.pending? t = s.pending? t := by
  have away {t' : Thread} (caller : act.caller? = some t') : t ≠ t' := fun same => other (same ▸ caller)
  cases caller : act.caller? with
  | none => exact congrArg (List.lookup t) (did.of_uncalled caller).1
  | some t' =>
      cases did with
      | refused => rfl
      | started => exact lookup_append_other _ (away rfl)
      | turned => exact lookup_replace_other _ (away rfl)
      | answered pending granted dropped =>
          exact (lookup_filter (away rfl)).trans (congrArg (List.lookup t) dropped.calls_eq)
      | denied => exact lookup_filter (away rfl)
      | stopped which => rcases which with rfl | rfl <;> cases caller
      | foreign op which => rcases which with rfl | rfl | rfl <;> cases caller
      | edited which => rcases which with ⟨offset, part, rfl⟩ | ⟨byte, rfl⟩ <;> cases caller
      | _ => cases caller

theorem Did.pending_cases {act : Act} {done : Performed δ} (did : s.Did act done)
    (after : done.host.pending? t = some p) :
    s.pending? t = some p ∨ p.stage = .looking ∨ ∃ p₀ m d turn, act = .turn t ∧ s.pending? t = some p₀ ∧
      s.mount? p₀.cache = some m ∧ s.devices[m.device]? = some d ∧
      p₀.call.Turned t s.isCancelled m.cache d p₀.stage turn ∧
      p = { p₀ with stage := turn.result, events := p₀.events ++ turn.events } := by
  by_cases mine : act.caller? = some t
  case neg => exact .inl ((did.pending_other mine).symm.trans after)
  cases did with
  | refused => exact .inl after
  | started idle =>
      cases mine
      simp only [pending?, List.lookup_append] at after
      rw [show s.calls.lookup t = none from idle] at after
      obtain rfl : _ = p := by simpa using after
      exact .inr (.inl rfl)
  | turned pending there device turned =>
      cases mine
      obtain rfl := Option.some.inj ((lookup_replace_same pending _).symm.trans after)
      exact .inr (.inr ⟨_, _, _, _, rfl, pending, there, device, turned, rfl⟩)
  | answered | denied =>
      cases mine
      exact absurd ((lookup_filter_same _ t).symm.trans after) nofun
  | stopped which => rcases which with rfl | rfl <;> cases mine
  | foreign op which => rcases which with rfl | rfl | rfl <;> cases mine
  | edited which => rcases which with ⟨offset, part, rfl⟩ | ⟨byte, rfl⟩ <;> cases mine
  | _ => cases mine

theorem Sound.did_pending (sound : s.Sound pins) {act : Act} {done : Performed δ} (did : s.Did act done)
    (pending : s.pending? t = some p) :
    (∃ p', done.host.pending? t = some p' ∧ p.Continues p') ∨
      act = .answer t ∧ done.reply.isRefused = false := by
  have kept {host : Host δ} (calls : host.calls = s.calls) : ∃ p', host.pending? t = some p' ∧ p.Continues p' :=
    ⟨p, (congrArg (List.lookup t) calls).trans pending, .rfl⟩
  cases did with
  | started =>
      refine .inl ⟨p, ?_, .rfl⟩
      simp only [pending?, List.lookup_append]
      rw [show s.calls.lookup t = some p from pending]
      rfl
  | @turned t' p₀ m d turn pending' there device turned =>
      refine .inl ?_
      by_cases same : t = t'
      · subst same
        obtain rfl : p = p₀ := Option.some.inj (pending.symm.trans pending')
        exact ⟨_, lookup_replace_same pending _, ⟨rfl, rfl, rfl⟩⟩
      · exact ⟨p, (lookup_replace_other _ same).trans pending, .rfl⟩
  | @answered t' p₀ i s₁ pending' granted dropped =>
      by_cases same : t = t'
      · subst same
        obtain ⟨v, view, -⟩ := sound.view_granted pending' granted dropped
        exact .inr ⟨rfl, by rw [view]; rfl⟩
      · refine .inl ⟨p, ?_, .rfl⟩
        exact (lookup_filter same).trans ((congrArg (List.lookup t) dropped.calls_eq).trans pending)
  | @denied t' p₀ why pending' failed =>
      by_cases same : t = t'
      · exact .inr ⟨by rw [same], rfl⟩
      · exact .inl ⟨p, (lookup_filter same).trans pending, .rfl⟩
  | finished ended reply => exact .inl (kept ended.calls_eq)
  | wrote held there device flushed carried | pinned held there device moved carried
  | unpinned held there device moved carried =>
      subst carried
      exact .inl (kept rfl)
  | _ => exact .inl (kept rfl)

theorem start_pending {name : String} {c : Nat} {call : Call} (accepted : (s.start t name c call).reply = .done) :
    (s.start t name c call).host.pending? t = some ⟨name, c, call, .looking, []⟩ := by
  have did := start_did s t name c call
  generalize s.start t name c call = done at did accepted ⊢
  cases did with
  | refused => cases accepted
  | stopped which => rcases which with pin | unpin <;> contradiction
  | foreign op which => rcases which with write | pin | unpin <;> contradiction
  | edited which => rcases which with ⟨offset, part, put⟩ | ⟨byte, fill⟩ <;> contradiction
  | started idle mounted free =>
      simp only [pending?, List.lookup_append]
      rw [show s.calls.lookup t = none from idle]
      simp

theorem Sound.answer_lease (sound : s.Sound pins) (pending : s.pending? t = some p) {v : Cache.View}
    (answered : (s.answer t).reply = .lease v) :
    v.key = p.call.key ∧ (p.call.loads = true → v.valid = true) ∧
      (s.answer t).host.lease? p.name = some ⟨p.cache, v.slot, t⟩ := by
  have did := sound.answer_did t
  generalize s.answer t = done at did answered ⊢
  cases did with
  | refused | denied => cases answered
  | stopped which => rcases which with pin | unpin <;> contradiction
  | foreign op which => rcases which with write | pin | unpin <;> contradiction
  | edited which => rcases which with ⟨offset, part, put⟩ | ⟨byte, fill⟩ <;> contradiction
  | answered pending' granted dropped =>
      obtain rfl := Option.some.inj (pending.symm.trans pending')
      obtain ⟨v', view, slot, key, valid⟩ := sound.view_granted pending granted dropped
      obtain rfl : v' = v := Reply.lease.inj (view.symm.trans answered)
      refine ⟨key, valid, ?_⟩
      simp only [lease?, List.lookup_append]
      rw [show List.lookup p.name _ = none from dropped.free, slot]
      simp

end Host
end BlockCache
