import BlockCache.Host.Basic

namespace BlockCache

inductive BuildFailure
  | zero (measure : Config.Measure)
  | refused (cause : Error)
  | noDevice
deriving DecidableEq

structure Plan where
  capacity : Nat
  buckets : Nat
  blockSize : Nat
  exhaustion : Exhaustion

namespace Plan

def build (p : Plan) : Except BuildFailure Cache :=
  match Config.ofMeasures p.capacity p.buckets p.blockSize p.exhaustion with
  | .error measure => .error (.zero measure)
  | .ok config =>
      match Cache.build config with
      | .error cause => .error (.refused cause)
      | .ok cache => .ok cache

def buildOver (p : Plan) (device devices : Nat) : Except BuildFailure Cache :=
  if device < devices then p.build else .error .noDevice

end Plan

def Host.assemble {δ : Type} (devices : List δ) (plans : List (Nat × Plan)) : Host δ where
  devices := devices.toArray
  mounts := (plans.map fun (device, p) =>
    (p.buildOver device devices.length).toOption.map fun cache => ⟨cache, device, []⟩).toArray
  leases := []
  cancelled := []
  calls := []
  parting := []

end BlockCache
