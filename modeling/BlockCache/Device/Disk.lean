import BlockCache.Device.Announced
import BlockCache.Device.Faulty
import BlockCache.Device.RamDisk

namespace BlockCache

abbrev Disk := Faulty (Announced RamDisk)

namespace Disk

def make (disk : RamDisk) (label : Option Label) (plan : List PlannedFailure) : Disk :=
  ⟨plan, 0, 0, label, disk⟩

/-- The disk itself, of which nothing but its transfers can be seen if it is one of many made alike. -/
def memory? (d : Disk) : Option RamDisk :=
  if d.inner.label = some .numbered then none else some d.inner.inner

end Disk
end BlockCache
