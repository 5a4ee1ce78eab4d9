import BlockCache.Proofs.Host.Calls
import BlockCache.Proofs.Host.Reading

/-!
# A single client

What a client does that has a cache to itself, and what it sees: `Single.step` says that the clients' view of the blocks
decides it, unless no slot is free.
-/

namespace BlockCache

inductive Command
  | read (name : String) (key : Key)
  | get (name : String) (offset : Nat) (length : Option Nat)
  | put (name : String) (offset : Nat) (part : Bytes)
  | fill (name : String) (byte : UInt8)
  | write (name : String)
  | release (name : String)
  | drop (name : String)
  | pin (name : String)
  | unpin (name : String)

namespace Host

variable {δ : Type} [BlockDevice δ]

def command (s : Host δ) : Command → Performed δ
  | .read name key => s.lease 0 name 0 ⟨key, .block, true⟩
  | .get name offset length => s.perform (.get name offset length)
  | .put name offset part => s.perform (.put name offset part)
  | .fill name byte => s.perform (.fill name byte)
  | .write name => s.perform (.write 0 0 name)
  | .release name => s.perform (.finish 0 name (.released (some 0)))
  | .drop name => s.perform (.finish 0 name .dropped)
  | .pin name => s.perform (.pin 0 0 name)
  | .unpin name => s.perform (.unpin 0 0 name)

/-- What a command shows of the data: the bytes that were asked for, or those under the lease on a block that was read,
or why there are none. -/
def shown (done : Performed δ) : Command → Option Reply
  | .read name _ => some <|
      match done.reply with
      | .lease _ => .bytes (((done.host.lease? name).map done.host.bytes).getD [])
      | reply => reply
  | .get .. => some done.reply
  | _ => none

def Starved (done : Performed δ) : Command → Prop
  | .read .. => done.reply = .refused .blocked ∨ done.reply = .failed (.fault (.stop .exhausted))
  | _ => False

end Host

namespace Clients

def get (v : Clients) (name : String) (offset : Nat) (length : Option Nat) : Reply :=
  match v.held name with
  | none => .refused .noLease
  | some (_, bytes) =>
      let length := length.getD (bytes.length - offset)
      if bytes.length < offset + length then .refused .outOfBounds else .bytes ((bytes.drop offset).take length)

def read (v : Clients) (disk : RamDisk) (name : String) (key : Key) : Clients × Reply :=
  if (v.held name).isSome then (v, .refused .nameInUse)
  else
    match disk.unreadable key with
    | some why => (v, .failed why)
    | none => (v.lease name key, .bytes (v.saved key))

/-- What a command does to what the client sees, and what it shows. -/
def command (v : Clients) (disk : RamDisk) : Command → Clients × Option Reply
  | .read name key => ((v.read disk name key).1, some (v.read disk name key).2)
  | .get name offset length => (v, some (v.get name offset length))
  | .put name offset part => (v.put name offset part, none)
  | .fill name byte => (v.edit name fun bytes => List.replicate bytes.length byte, none)
  | .write name => (v.save name, none)
  | .release name | .drop name => (v.forget name, none)
  | .pin _ | .unpin _ => (v, none)

/-- A client asks for no block that it has leased, and ends a lease only once the bytes under it are those that were
written last. -/
def Allows (v : Clients) : Command → Prop
  | .read _ key => ∀ name bytes, v.held name ≠ some (key, bytes)
  | .release name | .drop name => ∀ key bytes, v.held name = some (key, bytes) → bytes = v.saved key
  | _ => True

end Clients

namespace Host

structure Single (s : Host RamDisk) (disk : RamDisk) (v : Clients) : Prop where
  serves : s.Serves disk v
  sound : ∃ pins, s.Sound pins
  mounted : (s.mount? 0).isSome = true
  idle : s.calls = []
  own : ∀ entry ∈ s.leases, entry.2.thread = 0

variable {s : Host RamDisk} {disk : RamDisk} {v v' : Clients} {pins : Nat → Nat → Nat} {act : Act} {name : String}

theorem Single.perform (single : s.Single disk v) (uncalled : act.caller? = none)
    (serves : (s.perform act).host.Serves disk v') : (s.perform act).host.Single disk v' := by
  obtain ⟨pins, sound⟩ := single.sound
  obtain ⟨calls, leases⟩ := (sound.perform_did act).of_uncalled uncalled
  obtain ⟨m, there⟩ := Option.isSome_iff_exists.mp single.mounted
  obtain ⟨m', there', -⟩ := sound.perform_mounted act there
  obtain ⟨pins', sound', -⟩ := sound.did (sound.perform_did act)
  exact ⟨serves, ⟨pins', sound'⟩, by rw [there']; rfl, calls.trans single.idle, fun entry member =>
    single.own entry (leases member)⟩

theorem Single.finish (single : s.Single disk v) {ending : Ending}
    (ends : ending = .released (some 0) ∨ ending = .dropped)
    (saved : ∀ key bytes, v.held name = some (key, bytes) → bytes = v.saved key) :
    (s.perform (.finish 0 name ending)).host.Single disk (v.forget name) := by
  obtain ⟨pins, sound⟩ := single.sound
  refine single.perform rfl ?_
  rcases single.serves.seen sound name with ⟨free, unknown⟩ | ⟨lease, -, held, -⟩
  · rw [Clients.forget_unknown unknown]
    rcases ends with rfl | rfl <;>
      simpa [Host.perform, Host.finish, finishBy, callOn, drop, onLease, free, refuse] using single.serves
  · rcases ends with rfl | rfl
    · obtain ⟨told, s', reply, events, ended, done⟩ :=
        sound.release_ended held (show (s.mount? ((some 0).getD lease.cache)).isSome = true from single.mounted) 0
      simpa only [Host.perform, done] using single.serves.ended sound ended saved
    · rcases sound.drop_cases name with ⟨free, -⟩ | ⟨s', ended, done⟩
      · exact absurd (free.symm.trans held) (by simp)
      · simpa only [Host.perform, Host.finish, finishBy, done] using single.serves.ended sound ended saved

theorem Single.get (single : s.Single disk v) (offset : Nat) (length : Option Nat) :
    (s.get name offset length).reply = v.get name offset length := by
  obtain ⟨pins, sound⟩ := single.sound
  rcases single.serves.seen sound name with ⟨free, unknown⟩ | ⟨lease, sl, held, -, bytes, -, known⟩
  · simp [Host.get, Clients.get, free, unknown, refuse]
  · simp only [Host.get, Clients.get, held, known, bytes]
    split <;> rfl

theorem Single.read (single : s.Single disk v) {key : Key} (unleased : ∀ name bytes, v.held name ≠ some (key, bytes))
    (fed : ¬ Starved (s.command (.read name key)) (.read name key)) :
    (s.command (.read name key)).host.Single disk (v.read disk name key).1 ∧
      shown (s.command (.read name key)) (.read name key) = some (v.read disk name key).2 := by
  obtain ⟨pins, sound⟩ := single.sound
  obtain ⟨m, there⟩ := Option.isSome_iff_exists.mp single.mounted
  cases known : v.held name with
  | some seen =>
      obtain ⟨lease, -, held, -⟩ := single.serves.under sound known
      have refused : s.command (.read name key) = s.refuse .nameInUse := by
        simp [command, Host.lease, start, pending?, single.idle, there, nameInUse, held, refuse]
      rw [refused]
      simp [Clients.read, known, shown, refuse, single]
  | none =>
      obtain ⟨acts, run⟩ := lease_run s 0 name 0 ⟨key, .block, true⟩
      obtain ⟨pins', sound'⟩ := sound.run acts
      rw [← run] at sound'
      rcases single.serves.read sound there single.idle 0 known unleased with ⟨hungry, -⟩ | ⟨idle, leases, answered⟩
      · exact absurd hungry fed
      · have own (entry : String × Lease) (member : entry ∈ (s.command (.read name key)).host.leases) :
            entry.2.thread = 0 := (leases entry member).elim (single.own entry) id
        obtain ⟨m', there', -⟩ := sound.run_mounted acts there
        have mounted : ((s.command (.read name key)).host.mount? 0).isSome = true := by
          rw [command, run, there']
          rfl
        simp only [Clients.read, known, Option.isSome_none, Bool.false_eq_true, if_false]
        cases unreadable : disk.unreadable key with
        | some why =>
            rw [unreadable] at answered
            obtain ⟨failed, serves⟩ := answered
            exact ⟨⟨serves, ⟨pins', sound'⟩, mounted, idle, own⟩, by simp [shown, command, failed]⟩
        | none =>
            rw [unreadable] at answered
            obtain ⟨⟨view, leased⟩, serves⟩ := answered
            refine ⟨⟨serves, ⟨pins', sound'⟩, mounted, idle, own⟩, ?_⟩
            obtain ⟨lease, -, held, -, -, -, bytes, -⟩ := serves.under sound' Clients.lease_same
            simp [shown, command, leased, held, bytes]

theorem Single.step (single : s.Single disk v) {command : Command} (allowed : v.Allows command)
    (fed : ¬ Starved (s.command command) command) :
    (s.command command).host.Single disk (v.command disk command).1 ∧
      shown (s.command command) command = (v.command disk command).2 := by
  obtain ⟨pins, sound⟩ := single.sound
  cases command with
  | read name key => exact single.read allowed fed
  | get name offset length =>
      exact ⟨single.perform rfl (single.serves.quiet sound rfl), congrArg some (single.get offset length)⟩
  | put name offset part => exact ⟨single.perform rfl (single.serves.put sound offset part), rfl⟩
  | fill name byte => exact ⟨single.perform rfl (single.serves.fill sound byte), rfl⟩
  | write name =>
      have own (lease : Lease) (held : s.lease? name = some lease) : lease.thread = 0 :=
        single.own _ (mem_of_lookup held)
      exact ⟨single.perform rfl (single.serves.write sound own), rfl⟩
  | release name => exact ⟨single.finish (.inl rfl) allowed, rfl⟩
  | drop name => exact ⟨single.finish (.inr rfl) allowed, rfl⟩
  | pin name | unpin name => exact ⟨single.perform rfl (single.serves.quiet sound rfl), rfl⟩

end Host
end BlockCache
