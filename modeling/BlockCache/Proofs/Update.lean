import BlockCache.Fault

namespace BlockCache.Update

variable {σ α β : Type} {s s' : σ}

theorem bind_ok {x : Update σ α} {a : α} (done : x s = .ok a s') (f : α → Update σ β) :
    (x >>= f) s = f a s' := by
  simp [bind, EStateM.bind, done]

theorem bind_error {x : Update σ α} {fault : Fault} (broken : x s = .error fault s')
    (f : α → Update σ β) : (x >>= f) s = .error fault s' := by
  simp [bind, EStateM.bind, broken]

@[simp] theorem pure_apply (a : α) : (pure a : Update σ α) s = .ok a s := rfl

@[simp] theorem modify_apply (change : σ → σ) : (modify change : Update σ Unit) s = .ok () (change s) := rfl

@[simp] theorem get_bind (f : σ → Update σ α) : (get >>= f) s = f s s := rfl

@[simp] theorem modify_bind (change : σ → σ) (f : Unit → Update σ α) :
    (modify change >>= f) s = f () (change s) := rfl

theorem elementAt_ok {xs : Array α} {i : Nat} {a : α} (here : xs[i]? = some a) :
    (elementAt xs i : Update σ α) s = .ok a s := by
  simp [elementAt, here]

theorem elementAt_beyond {xs : Array α} {i : Nat} (beyond : xs.size ≤ i) :
    (elementAt xs i : Update σ α) s = .error (.outOfRange xs.size i) s := by
  simp only [elementAt, Array.getElem?_eq_none beyond]
  rfl

variable {τ κ : Type}

theorem stateAfter_then (x : Update σ α) (b : β) :
    stateAfter (do let _ ← x; return b : Update σ β) s = stateAfter x s := by
  cases outcome : x s with
  | ok a s₁ => simp only [stateAfter, bind_ok outcome, outcome, pure_apply]
  | error fault s₁ => simp only [stateAfter, bind_error outcome, outcome]

theorem stateAfter_elementAt (xs : Array α) (i : Nat) : stateAfter (elementAt xs i : Update σ α) s = s := by
  rw [elementAt]
  split <;> rfl

theorem stateAfter_bind {x : Update σ α} {f : α → Update σ β} (first : stateAfter x s = s)
    (rest : ∀ a, stateAfter (f a) s = s) : stateAfter (x >>= f) s = s := by
  cases done : x s with
  | ok a s₁ =>
      obtain rfl : s₁ = s := by simpa only [stateAfter, done] using first
      rw [stateAfter, bind_ok done]
      exact rest a
  | error fault s₁ =>
      obtain rfl : s₁ = s := by simpa only [stateAfter, done] using first
      rw [stateAfter, bind_error done]

/-- The state after some commands. One that a fault ends leaves what it has done to the next. -/
def runAll (perform : κ → Update σ α) (commands : List κ) (s : σ) : σ :=
  commands.foldl (fun s command => stateAfter (perform command) s) s

def outcome (reply : Except Fault α) (s : σ) : EStateM.Result Fault σ α :=
  match reply with
  | .ok a => .ok a s
  | .error fault => .error fault s

theorem stateAfter_outcome {x : Update σ α} {reply : Except Fault α} (done : x s = outcome reply s') :
    stateAfter x s = s' := by
  rw [stateAfter, done]
  cases reply <;> rfl

def Admits (fits : τ → κ → Prop) (next : τ → κ → τ) : τ → List κ → Prop
  | _, [] => True
  | a, command :: commands => fits a command ∧ Admits fits next (next a command) commands

instance decidableAdmits (fits : τ → κ → Prop) [∀ a command, Decidable (fits a command)] (next : τ → κ → τ) :
    ∀ a commands, Decidable (Admits fits next a commands)
  | _, [] => isTrue trivial
  | a, command :: commands =>
      have := decidableAdmits fits next (next a command) commands
      inferInstanceAs (Decidable (fits a command ∧ Admits fits next (next a command) commands))

variable {perform : κ → Update σ α} {fits : τ → κ → Prop} {next : τ → κ → τ} {R : σ → τ → Prop}

theorem runAll_simulates
    (step : ∀ {s a command}, R s a → fits a command → R (stateAfter (perform command) s) (next a command))
    {commands : List κ} {a : τ} (start : R s a) (admits : Admits fits next a commands) :
    R (runAll perform commands s) (commands.foldl next a) := by
  induction commands generalizing s a with
  | nil => exact start
  | cons command commands ih =>
      obtain ⟨fit, admits⟩ := admits
      exact ih (step start fit) admits

theorem runAll_preserves {P : σ → Prop} (step : ∀ {s} command, P s → P (stateAfter (perform command) s))
    (commands : List κ) (start : P s) : P (runAll perform commands s) := by
  induction commands generalizing s with
  | nil => exact start
  | cons command commands ih => exact ih (step command start)

end BlockCache.Update
