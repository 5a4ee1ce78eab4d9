import BlockCache.Event
import BlockCache.Slot

namespace BlockCache

inductive TransferFailure
  | error (cause : Error)
  | breakdown (cause : Breakdown)
deriving DecidableEq

def TransferFailure.toFailure : TransferFailure → Failure
  | error cause => .error cause
  | breakdown cause => .fault (.device cause)

structure Transfer (δ : Type) where
  device : δ
  buffer : Bytes
  events : List Event
  failure : Option TransferFailure

class BlockDevice (δ : Type) where
  /-- Fills a buffer with a block. A read that fails may have changed the buffer. -/
  read : δ → Key → Bytes → Transfer δ
  write : δ → Key → Bytes → Transfer δ

def Transfer.map {δ ε : Type} (f : δ → ε) (t : Transfer δ) : Transfer ε where
  device := f t.device
  buffer := t.buffer
  events := t.events
  failure := t.failure

end BlockCache
