import BlockCache.Device.Basic

namespace BlockCache

/-- A disk in memory. Blocks that were never written read as zeros. -/
structure RamDisk where
  blockSize : Nat
  limit : Option UInt32
  blocks : List (Key × Bytes)
  reads : Nat
  writes : Nat
deriving DecidableEq

namespace RamDisk

def empty (blockSize : Nat) (limit : Option UInt32) : RamDisk := ⟨blockSize, limit, [], 0, 0⟩

def block (d : RamDisk) (key : Key) : Option Bytes := d.blocks.lookup key

/-- Why a transfer of `length` bytes is refused. A wrong length is noticed before a block past the end. -/
def refusal (d : RamDisk) (key : Key) (length : Nat) : Option IoError :=
  if length ≠ d.blockSize then
    some <| .custom .invalidInput <|
      "transfer of " ++ toString length ++ " bytes, block size is " ++ toString d.blockSize
  else if d.limit.any fun limit => limit ≤ key.block then some (.bare .unexpectedEof)
  else none

def read (d : RamDisk) (key : Key) (buffer : Bytes) : Transfer RamDisk :=
  match d.refusal key buffer.length with
  | some cause => ⟨d, buffer, [], some (.error (.io cause))⟩
  | none =>
      let d' := { d with reads := d.reads + 1 }
      match d.block key with
      | some bytes =>
          if bytes.length = buffer.length then ⟨d', bytes, [], none⟩
          else ⟨d', buffer, [], some (.breakdown (.lengthMismatch bytes.length buffer.length))⟩
      | none => ⟨d', List.replicate buffer.length 0, [], none⟩

def put (d : RamDisk) (key : Key) (bytes : Bytes) : RamDisk :=
  { d with blocks := (key, bytes) :: d.blocks.filter fun entry => entry.1 ≠ key }

def write (d : RamDisk) (key : Key) (buffer : Bytes) : Transfer RamDisk :=
  match d.refusal key buffer.length with
  | some cause => ⟨d, buffer, [], some (.error (.io cause))⟩
  | none => ⟨{ d.put key buffer with writes := d.writes + 1 }, buffer, [], none⟩

instance : BlockDevice RamDisk where
  read := read
  write := write

end RamDisk
end BlockCache
