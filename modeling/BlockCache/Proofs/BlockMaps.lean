import BlockCache.Device.Faulty
import BlockCache.Proofs.Device.Reads

/-!
# Disks as maps of blocks

A disk in memory has of each block what the last write of it brought that was carried out, whatever else was asked:
`disk_maps_blocks`. Which transfers are carried out does not depend on those before: `Command.Fits`.
-/

namespace BlockCache

namespace RamDisk

structure Command where
  direction : Direction
  key : Key
  buffer : Bytes
deriving DecidableEq

def perform (d : RamDisk) (c : Command) : Transfer RamDisk :=
  match c.direction with
  | .read => d.read c.key c.buffer
  | .write => d.write c.key c.buffer

def after (d : RamDisk) (commands : List Command) : RamDisk :=
  commands.foldl (fun d c => (d.perform c).device) d

def Command.Fits (blockSize : Nat) (limit : Option UInt32) (c : Command) : Prop :=
  c.buffer.length = blockSize ∧ ∀ l ∈ limit, c.key.block < l

instance (blockSize : Nat) (limit : Option UInt32) (c : Command) : Decidable (c.Fits blockSize limit) :=
  inferInstanceAs (Decidable (c.buffer.length = blockSize ∧ ∀ l ∈ limit, c.key.block < l))

/-- The bytes of the last write of a block among some commands, if there is one that was carried out. -/
def lastWritten (blockSize : Nat) (limit : Option UInt32) (history : List Command) (key : Key) : Option Bytes :=
  (history.reverse.find? fun c => c.direction = .write ∧ c.key = key ∧ c.Fits blockSize limit).map Command.buffer

structure Records (d : RamDisk) (blockSize : Nat) (limit : Option UInt32) (history : List Command) : Prop where
  blockSize_eq : d.blockSize = blockSize
  limit_eq : d.limit = limit
  blocks : ∀ key, d.block key = lastWritten blockSize limit history key
  regular : d.Regular
  reads : d.reads = history.countP fun c => c.direction = .read ∧ c.Fits blockSize limit
  writes : d.writes = history.countP fun c => c.direction = .write ∧ c.Fits blockSize limit

end RamDisk

def Transfer.FailsWith {δ : Type} (t : Transfer δ) (kind : IoKind) : Prop :=
  ∃ cause : IoError, t.failure = some (.error (.io cause)) ∧ cause.kind = kind

namespace RamDisk

structure Answers (d : RamDisk) (blockSize : Nat) (limit : Option UInt32) (history : List Command) (c : Command)
    (t : Transfer RamDisk) : Prop where
  misfit : t.FailsWith .invalidInput ↔ c.buffer.length ≠ blockSize
  pastEnd : t.FailsWith .unexpectedEof ↔ c.buffer.length = blockSize ∧ ∃ l ∈ limit, l ≤ c.key.block
  success : t.failure = none ↔ c.Fits blockSize limit
  unbroken : ∀ cause, t.failure ≠ some (.breakdown cause)
  traceless : t.failure ≠ none → t.device = d ∧ t.buffer = c.buffer
  filled : t.failure = none → c.direction = .read →
    t.buffer = (lastWritten blockSize limit history c.key).getD (List.replicate blockSize 0)
  spared : c.direction = .write → t.buffer = c.buffer

variable {d : RamDisk} {blockSize : Nat} {limit : Option UInt32} {history : List Command} {c : Command} {key : Key}

theorem Command.Fits.not_past (fits : c.Fits blockSize limit) : ¬ ∃ l ∈ limit, l ≤ c.key.block := by
  rintro ⟨l, limited, beyond⟩
  exact UInt32.not_le.mpr (fits.2 l limited) beyond

/-- Its length is looked at before its block. -/
inductive Performed (d : RamDisk) (c : Command) : Transfer RamDisk → Prop
  | misfit (cause : IoError) : cause.kind = .invalidInput → c.buffer.length ≠ d.blockSize →
      Performed d c ⟨d, c.buffer, [], some (.error (.io cause))⟩
  | pastEnd (l : UInt32) : c.buffer.length = d.blockSize → d.limit = some l → l ≤ c.key.block →
      Performed d c ⟨d, c.buffer, [], some (.error (.io (.bare .unexpectedEof)))⟩
  | read : c.Fits d.blockSize d.limit → c.direction = .read →
      Performed d c ⟨{ d with reads := d.reads + 1 }, d.content c.key, [], none⟩
  | write : c.Fits d.blockSize d.limit → c.direction = .write →
      Performed d c ⟨{ d.put c.key c.buffer with writes := d.writes + 1 }, c.buffer, [], none⟩

theorem perform_refused {cause : IoError} (refused : d.refusal c.key c.buffer.length = some cause) :
    d.perform c = ⟨d, c.buffer, [], some (.error (.io cause))⟩ := by
  obtain ⟨direction, key, buffer⟩ := c
  cases direction with
  | read => rw [perform, read, refused]
  | write => rw [perform, write, refused]

theorem Command.Fits.allowed (fits : c.Fits d.blockSize d.limit) : d.refusal c.key c.buffer.length = none := by
  have inside : ¬ d.limit.any fun l => l ≤ c.key.block := by
    intro past
    obtain ⟨l, limited, beyond⟩ := (Option.any_eq_true ..).mp past
    exact fits.not_past ⟨l, limited, of_decide_eq_true beyond⟩
  rw [refusal, if_neg (not_not.mpr fits.1), if_neg inside]

theorem perform_read (regular : d.Regular) (fits : c.Fits d.blockSize d.limit) (direction : c.direction = .read) :
    d.perform c = ⟨{ d with reads := d.reads + 1 }, d.content c.key, [], none⟩ := by
  rw [perform, direction]
  exact regular.read_eq fits.allowed

theorem perform_write (fits : c.Fits d.blockSize d.limit) (direction : c.direction = .write) :
    d.perform c = ⟨{ d.put c.key c.buffer with writes := d.writes + 1 }, c.buffer, [], none⟩ := by
  rw [perform, direction]
  exact write_eq fits.allowed

theorem Regular.performed (regular : d.Regular) (c : Command) : d.Performed c (d.perform c) := by
  by_cases length : c.buffer.length = d.blockSize
  · by_cases past : ∃ l ∈ d.limit, l ≤ c.key.block
    · obtain ⟨l, limited, beyond⟩ := past
      have found : d.limit.any fun l => l ≤ c.key.block :=
        (Option.any_eq_true ..).mpr ⟨l, limited, decide_eq_true beyond⟩
      have refused : d.refusal c.key c.buffer.length = some (.bare .unexpectedEof) := by
        rw [refusal, if_neg (not_not.mpr length), if_pos found]
      rw [perform_refused refused]
      exact .pastEnd l length limited beyond
    · have fits : c.Fits d.blockSize d.limit :=
        ⟨length, fun l limited => UInt32.not_le.mp fun beyond => past ⟨l, limited, beyond⟩⟩
      cases direction : c.direction with
      | read =>
          rw [perform_read regular fits direction]
          exact .read fits direction
      | write =>
          rw [perform_write fits direction]
          exact .write fits direction
  · obtain ⟨cause, refused, kind⟩ :
        ∃ cause, d.refusal c.key c.buffer.length = some cause ∧ cause.kind = .invalidInput :=
      ⟨_, by rw [refusal, if_pos length], rfl⟩
    rw [perform_refused refused]
    exact .misfit cause kind length

theorem lastWritten_concat (history : List Command) (c : Command) (key : Key) :
    lastWritten blockSize limit (history ++ [c]) key =
      if c.direction = .write ∧ c.key = key ∧ c.Fits blockSize limit then some c.buffer
      else lastWritten blockSize limit history key := by
  rw [lastWritten, List.reverse_append, List.reverse_singleton, List.singleton_append, List.find?_cons]
  split
  · rename_i last
    rw [if_pos (of_decide_eq_true last), Option.map_some]
  · rename_i other
    rw [if_neg (of_decide_eq_false other), lastWritten]

theorem isSome_lastWritten : (lastWritten blockSize limit history key).isSome ↔
    ∃ c ∈ history, c.direction = .write ∧ c.key = key ∧ c.Fits blockSize limit := by
  simp [lastWritten]

theorem empty_records (blockSize : Nat) (limit : Option UInt32) :
    (empty blockSize limit).Records blockSize limit [] where
  blockSize_eq := rfl
  limit_eq := rfl
  blocks _ := rfl
  regular := empty_regular blockSize limit
  reads := rfl
  writes := rfl

theorem Records.refused (records : d.Records blockSize limit history) (unfit : ¬ c.Fits blockSize limit) :
    d.Records blockSize limit (history ++ [c]) where
  blockSize_eq := records.blockSize_eq
  limit_eq := records.limit_eq
  blocks key := by rw [records.blocks, lastWritten_concat, if_neg fun last => unfit last.2.2]
  regular := records.regular
  reads := by simp [records.reads, List.countP_append, unfit]
  writes := by simp [records.writes, List.countP_append, unfit]

theorem Records.read (records : d.Records blockSize limit history) (fits : c.Fits blockSize limit)
    (direction : c.direction = .read) :
    Records { d with reads := d.reads + 1 } blockSize limit (history ++ [c]) where
  blockSize_eq := records.blockSize_eq
  limit_eq := records.limit_eq
  blocks key := by
    rw [lastWritten_concat, if_neg fun last => by simp [direction] at last, ← records.blocks]
    rfl
  regular := records.regular
  reads := by simp [records.reads, List.countP_append, fits, direction]
  writes := by simp [records.writes, List.countP_append, direction]

theorem Records.write (records : d.Records blockSize limit history) (fits : c.Fits blockSize limit)
    (direction : c.direction = .write) :
    Records { d.put c.key c.buffer with writes := d.writes + 1 } blockSize limit (history ++ [c]) where
  blockSize_eq := records.blockSize_eq
  limit_eq := records.limit_eq
  blocks key := by
    have put : (d.put c.key c.buffer).block key = _ := block_put d c.key c.buffer key
    rw [lastWritten_concat, ← records.blocks]
    refine put.trans ?_
    simp [direction, fits, eq_comm]
  regular := records.regular.put c.key (fits.1.trans records.blockSize_eq.symm)
  reads := by simp [put, records.reads, List.countP_append, direction]
  writes := by simp [records.writes, List.countP_append, fits, direction]

theorem Records.step (records : d.Records blockSize limit history) (c : Command) :
    (d.perform c).device.Records blockSize limit (history ++ [c]) := by
  obtain rfl := records.blockSize_eq
  obtain rfl := records.limit_eq
  have performed := records.regular.performed c
  -- the outcome is told by `performed` alone from here on
  generalize d.perform c = t at performed ⊢
  cases performed with
  | misfit cause kind length => exact records.refused fun fits => length fits.1
  | pastEnd l length limited beyond => exact records.refused fun fits => fits.not_past ⟨l, limited, beyond⟩
  | read fits direction => exact records.read fits direction
  | write fits direction => exact records.write fits direction

theorem Records.run (records : d.Records blockSize limit history) (commands : List Command) :
    (d.after commands).Records blockSize limit (history ++ commands) := by
  induction commands generalizing d history with
  | nil => simpa [after] using records
  | cons c commands ih => simpa [after] using ih (records.step c)

theorem Records.content_eq (records : d.Records blockSize limit history) (key : Key) :
    d.content key = (lastWritten blockSize limit history key).getD (List.replicate blockSize 0) := by
  rw [content, records.blocks, records.blockSize_eq]

theorem answers_refused {cause : IoError} (unfit : ¬ c.Fits blockSize limit)
    (misfit : cause.kind = .invalidInput ↔ c.buffer.length ≠ blockSize)
    (pastEnd : cause.kind = .unexpectedEof ↔ c.buffer.length = blockSize ∧ ∃ l ∈ limit, l ≤ c.key.block) :
    d.Answers blockSize limit history c ⟨d, c.buffer, [], some (.error (.io cause))⟩ where
  misfit := by simpa [Transfer.FailsWith] using misfit
  pastEnd := by simpa [Transfer.FailsWith] using pastEnd
  success := by simpa using unfit
  unbroken := by simp
  traceless _ := ⟨rfl, rfl⟩
  filled := by simp
  spared _ := rfl

theorem answers_carried {d' : RamDisk} {buffer : Bytes} (fits : c.Fits blockSize limit)
    (filled : c.direction = .read →
      buffer = (lastWritten blockSize limit history c.key).getD (List.replicate blockSize 0))
    (spared : c.direction = .write → buffer = c.buffer) :
    d.Answers blockSize limit history c ⟨d', buffer, [], none⟩ where
  misfit := by simp [Transfer.FailsWith, fits.1]
  pastEnd := iff_of_false (by simp [Transfer.FailsWith]) fun past => fits.not_past past.2
  success := by simpa using fits
  unbroken := by simp
  traceless := by simp
  filled _ := filled
  spared := spared

theorem Records.answers (records : d.Records blockSize limit history) (c : Command) :
    d.Answers blockSize limit history c (d.perform c) := by
  have content := records.content_eq c.key
  obtain rfl := records.blockSize_eq
  obtain rfl := records.limit_eq
  have performed := records.regular.performed c
  generalize d.perform c = t at performed ⊢
  cases performed with
  | misfit cause kind length =>
      exact answers_refused (fun fits => length fits.1) (by simp [kind, length]) (by simp [kind, length])
  | pastEnd l length limited beyond =>
      have past : ∃ l ∈ d.limit, l ≤ c.key.block := ⟨l, limited, beyond⟩
      exact answers_refused (fun fits => fits.not_past past) (by simp [IoError.kind, length])
        (iff_of_true rfl ⟨length, past⟩)
  | read fits direction => exact answers_carried fits (fun _ => content) (by simp [direction])
  | write fits direction => exact answers_carried fits (by simp [direction]) fun _ => rfl

end RamDisk

/-- After any commands, a disk in memory has of each block what was last written to it, counts what was carried out, and
answers the next command accordingly. -/
theorem disk_maps_blocks (blockSize : Nat) (limit : Option UInt32) (history : List RamDisk.Command) :
    let d := (RamDisk.empty blockSize limit).after history
    d.Records blockSize limit history ∧
      (∀ key, (d.block key).isSome ↔
        ∃ c ∈ history, c.direction = .write ∧ c.key = key ∧ c.Fits blockSize limit) ∧
      ∀ c, d.Answers blockSize limit history c (d.perform c) := by
  intro d
  have records : d.Records blockSize limit history := (RamDisk.empty_records blockSize limit).run history
  refine ⟨records, fun key => ?_, records.answers⟩
  rw [records.blocks]
  exact RamDisk.isSome_lastWritten

example :
    let d := (RamDisk.empty 2 (some 4)).after
      [⟨.write, ⟨0, 3⟩, [1, 2]⟩, ⟨.write, ⟨0, 3⟩, [5]⟩, ⟨.write, ⟨0, 4⟩, [6, 7]⟩, ⟨.write, ⟨1, 3⟩, [8, 9]⟩]
    (d.perform ⟨.read, ⟨0, 3⟩, [0, 0]⟩).buffer = [1, 2] ∧ d.writes = 2 := by decide

end BlockCache
