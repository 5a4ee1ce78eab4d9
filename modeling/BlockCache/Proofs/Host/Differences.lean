import BlockCache.Proofs.Host.Steps

/-!
# What differs between hosts

A host with one cache or one device changed is compared with what an act makes of it, apart from what was reported:
`carry_unlogged`.
-/

namespace BlockCache.Host

variable {δ : Type}

/-- The host without what its caches have reported. -/
def unlogged (s : Host δ) : Host δ :=
  { s with mounts := s.mounts.map (Option.map fun m => { m with history := [] }) }

def onCache (s : Host δ) (c : Nat) (change : Cache → Cache) : Host δ :=
  { s with mounts := s.mounts.modify c (Option.map fun m => { m with cache := change m.cache }) }

def setDevice (s : Host δ) (k : Nat) (d : δ) : Host δ :=
  { s with devices := s.devices.setIfInBounds k d }

variable {s s' : Host δ} {c : Nat} {m : Mount} {cache : Cache} {d device : δ} {events : List Event}
  {f g : Cache → Cache}

theorem onCache_congr (there : s.mount? c = some m) (same : f m.cache = g m.cache) : s.onCache c f = s.onCache c g := by
  have mounts : s.mounts.modify c (Option.map fun m => { m with cache := f m.cache }) =
      s.mounts.modify c (Option.map fun m => { m with cache := g m.cache }) := by
    refine Array.ext_getElem? fun j => ?_
    simp only [Array.getElem?_modify]
    split
    · rename_i here
      subst here
      simp [mount?_eq_some.mp there, same]
    · rfl
  simp only [onCache, mounts]

theorem onCache_id (there : s.mount? c = some m) (same : f m.cache = m.cache) : s.onCache c f = s := by
  have mounts : s.mounts.modify c (Option.map fun m => { m with cache := m.cache }) = s.mounts := by
    refine Array.ext_getElem? fun j => ?_
    simp only [Array.getElem?_modify]
    split <;> simp
  rw [onCache_congr (g := id) there same]
  simp only [onCache, id, mounts]

theorem setDevice_self {k : Nat} (here : s.devices[k]? = some d) : s.setDevice k d = s := by
  rw [setDevice, setIfInBounds_self here]

theorem carry_unlogged (there : s.mount? c = some m) (changed : cache = f m.cache) :
    (s.carry c m cache device events).unlogged = ((s.onCache c f).setDevice m.device device).unlogged := by
  have inside := (Array.getElem?_eq_some_iff.mp (mount?_eq_some.mp there)).1
  have mounts : (s.mounts.setIfInBounds c (some { m with cache, history := events.reverse ++ m.history })).map
      (Option.map fun m => { m with history := [] }) =
        (s.mounts.modify c (Option.map fun m => { m with cache := f m.cache })).map
          (Option.map fun m => { m with history := [] }) := by
    refine Array.ext_getElem? fun j => ?_
    by_cases here : c = j
    · subst here
      rw [Array.getElem?_map, Array.getElem?_setIfInBounds_self_of_lt inside, Array.getElem?_map, Array.getElem?_modify,
        if_pos rfl, mount?_eq_some.mp there, changed]
      rfl
    · rw [Array.getElem?_map, Array.getElem?_setIfInBounds_ne here, Array.getElem?_map, Array.getElem?_modify,
        if_neg here]
  simp only [unlogged, carry, onCache, setDevice, mounts]

theorem carry_unlogged_same (there : s.mount? c = some m) (here : s.devices[m.device]? = some d)
    (changed : cache = f m.cache) : (s.carry c m cache d events).unlogged = (s.onCache c f).unlogged := by
  have kept : (s.onCache c f).devices[m.device]? = some d := here
  rw [carry_unlogged there changed, setDevice_self kept]

theorem carry_unlogged_idle (there : s.mount? c = some m) (here : s.devices[m.device]? = some d) :
    (s.carry c m m.cache d events).unlogged = s.unlogged := by
  have unchanged : (s.carry c m m.cache d events).unlogged = (s.onCache c id).unlogged :=
    carry_unlogged_same there here rfl
  rw [unchanged, onCache_id there rfl]

theorem carry_unlogged_again (there : s.mount? c = some m) (f : Cache → Cache) (events' : List Event) (d : δ) :
    (s.carry c m (f cache) device events).unlogged =
      (((s.carry c m cache d events').onCache c f).setDevice m.device device).unlogged := by
  have again := carry_carry s c m cache (f cache) d device events' events
  have there' : (s.carry c m cache d events').mount? c =
      some { m with cache, history := events'.reverse ++ m.history } := carry_same there
  have whole (events : List Event) : (s.carry c m (f cache) device events).unlogged =
      ((s.onCache c fun _ => f cache).setDevice m.device device).unlogged := carry_unlogged there rfl
  have last : ((s.carry c m cache d events').carry c { m with cache, history := events'.reverse ++ m.history }
      (f cache) device events).unlogged = _ := carry_unlogged there' rfl
  rw [whole, ← last, again, whole]

end BlockCache.Host
