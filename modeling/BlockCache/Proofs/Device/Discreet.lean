import BlockCache.Device.Disk
import BlockCache.Event

/-!
# Discreet devices

A device reports what it likes. A discreet one never reports what only a lookup of a cache does, so that such a report
in the log of a cache is one of the cache itself.
-/

namespace BlockCache

def Event.seeks : Event → Bool
  | hit .. | miss .. | evicting .. | stealing .. => true
  | _ => false

def Event.Quiet (told : List Event) : Prop := ∀ e ∈ told, e.seeks = false

class Discreet (δ : Type) [BlockDevice δ] : Prop where
  read : ∀ (d : δ) (key : Key) (buffer : Bytes), Event.Quiet (BlockDevice.read d key buffer).events
  write : ∀ (d : δ) (key : Key) (buffer : Bytes), Event.Quiet (BlockDevice.write d key buffer).events

theorem Event.Quiet.nil : Quiet [] := nofun

theorem Event.Quiet.append {told more : List Event} (first : Quiet told) (last : Quiet more) : Quiet (told ++ more) :=
  fun e member => (List.mem_append.mp member).elim (first e) (last e)

instance : Discreet RamDisk where
  read d key buffer := by
    have silent : (d.read key buffer).events = [] := by
      rw [RamDisk.read]
      repeat' split
      all_goals rfl
    exact silent ▸ .nil
  write d key buffer := by
    have silent : (d.write key buffer).events = [] := by
      rw [RamDisk.write]
      split <;> rfl
    exact silent ▸ .nil

theorem Announced.events_quiet {δ : Type} (d : Announced δ) {event : Label → Event}
    (discreet : ∀ label, (event label).seeks = false) : Event.Quiet (d.events event) := by
  cases label : d.label <;> simp [Event.Quiet, events, label, discreet]

variable {δ : Type} [BlockDevice δ] [Discreet δ]

instance : Discreet (Announced δ) where
  read d key buffer := (d.events_quiet fun _ => rfl).append (Discreet.read d.inner key buffer)
  write d key buffer := (d.events_quiet fun _ => rfl).append (Discreet.write d.inner key buffer)

instance : Discreet (Faulty δ) where
  read d key buffer := by
    simp only [BlockDevice.read]
    split
    · exact .nil
    · exact Discreet.read d.inner key buffer
  write d key buffer := by
    simp only [BlockDevice.write]
    split
    · exact .nil
    · exact Discreet.write d.inner key buffer

end BlockCache
