import BlockCache.Device.Basic

namespace BlockCache

structure Announced (δ : Type) where
  label : Option Label
  inner : δ
deriving DecidableEq

namespace Announced

variable {δ : Type}

def events (d : Announced δ) (event : Label → Event) : List Event :=
  (d.label.map event).toList

def announce (d : Announced δ) (event : Label → Event) (t : Transfer δ) : Transfer (Announced δ) :=
  { t.map fun inner => { d with inner } with events := d.events event ++ t.events }

instance [BlockDevice δ] : BlockDevice (Announced δ) where
  read d key buffer :=
    d.announce (.deviceRead · key buffer.length) (BlockDevice.read d.inner key buffer)
  write d key buffer :=
    d.announce (.deviceWrite · key buffer.length) (BlockDevice.write d.inner key buffer)

end Announced
end BlockCache
