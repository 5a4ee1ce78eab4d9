import BlockCache.Cache.Lease
import BlockCache.Device.Basic

namespace BlockCache

structure Turn (δ α : Type) where
  cache : Cache
  device : δ
  events : List Event
  result : α

namespace Turn

variable {δ α : Type}

def ofUpdate (update : Update Cache α) (c : Cache) (d : δ) : Turn δ (Option Failure) :=
  match update c with
  | .ok _ c => ⟨c, d, [], none⟩
  | .error fault c => ⟨c, d, fault.events, some (.fault fault)⟩

def afterTransfer (t : Transfer δ) (update : Update Cache α) (c : Cache) : Turn δ (Option Failure) :=
  match t.failure with
  | some failure => ⟨c, t.device, t.events, some failure.toFailure⟩
  | none =>
      let turn := ofUpdate update c t.device
      { turn with events := t.events ++ turn.events }

end Turn

namespace Cache

variable {δ : Type} [BlockDevice δ]

/-- Fills the bytes of a leased slot from the device. A failure leaves the slot invalid. -/
def fetch (i : Nat) (c : Cache) (d : δ) : Turn δ (Option Failure) :=
  match c.table.slots[i]? with
  | none => Turn.ofUpdate (onTable (Table.slot i)) c d
  | some s =>
      let t := BlockDevice.read d s.key s.data.value
      let filled := { c with table.slots := c.table.slots.setIfInBounds i (s.withBytes t.buffer) }
      Turn.afterTransfer t
        (do
          count fun n => { n with reads := n.reads + 1 }
          onTable (Table.validate i))
        filled

def flush (t : Thread) (i : Nat) (c : Cache) (d : δ) : Turn δ (Option Failure) :=
  match authorize .write t i c with
  | .error fault c => ⟨c, d, fault.events, some (.fault fault)⟩
  | .ok _ c =>
      match c.table.slots[i]? with
      | none => Turn.ofUpdate (onTable (Table.slot i)) c d
      | some s =>
          Turn.afterTransfer (BlockDevice.write d s.key s.data.value)
            (do
              count fun n => { n with writes := n.writes + 1 }
              onTable (Table.validate i))
            c

end Cache
end BlockCache
