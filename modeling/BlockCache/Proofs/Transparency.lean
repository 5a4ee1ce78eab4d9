import BlockCache.Proofs.Host.Commands

/-!
# What caches hide

Nobody can tell from the data of which size a cache is, how its slots are dealt, and what it does when no slot is free:
`geometry_unseen`.
-/

namespace BlockCache

namespace Host

variable {δ : Type} [BlockDevice δ]

def obey (s : Host δ) (program : List Command) : Host δ :=
  program.foldl (fun s command => (s.command command).host) s

def shows (s : Host δ) : List Command → List (Option Reply)
  | [] => []
  | command :: program => shown (s.command command) command :: (s.command command).host.shows program

/-- No command of a program is stopped or left waiting for want of a free slot. -/
def Feeds (s : Host δ) : List Command → Prop
  | [] => True
  | command :: program => ¬ Starved (s.command command) command ∧ (s.command command).host.Feeds program

instance (done : Performed δ) : (command : Command) → Decidable (Starved done command)
  | .read .. => inferInstanceAs (Decidable (_ ∨ _))
  | .get .. | .put .. | .fill .. | .write _ | .release _ | .drop _ | .pin _ | .unpin _ => .isFalse id

instance decidableFeeds : (s : Host δ) → (program : List Command) → Decidable (s.Feeds program)
  | _, [] => .isTrue trivial
  | s, command :: program =>
      have := (s.command command).host.decidableFeeds program
      inferInstanceAs (Decidable (_ ∧ _))

end Host

namespace Clients

def obey (v : Clients) (disk : RamDisk) (program : List Command) : Clients :=
  program.foldl (fun v command => (v.command disk command).1) v

def shows (v : Clients) (disk : RamDisk) : List Command → List (Option Reply)
  | [] => []
  | command :: program => (v.command disk command).2 :: (v.command disk command).1.shows disk program

def Careful (v : Clients) (disk : RamDisk) : List Command → Prop
  | [] => True
  | command :: program => v.Allows command ∧ (v.command disk command).1.Careful disk program

end Clients

namespace Host

variable {s : Host RamDisk} {disk d : RamDisk} {plan : Plan} {v : Clients} {program : List Command}

theorem Single.obey (single : s.Single disk v) (careful : v.Careful disk program) (feeds : s.Feeds program) :
    (s.obey program).Single disk (v.obey disk program) ∧ s.shows program = v.shows disk program := by
  induction program generalizing s v with
  | nil => exact ⟨single, rfl⟩
  | cons command program ih =>
      obtain ⟨single₁, shown⟩ := single.step careful.1 feeds.1
      obtain ⟨single', shows⟩ := ih single₁ careful.2 feeds.2
      exact ⟨single', by rw [Host.shows, Clients.shows, shown, shows]⟩

theorem assemble_single {cache : Cache} (like : d.Like disk) (blockSize : plan.blockSize = disk.blockSize)
    (built : plan.build = .ok cache) : (assemble [d] [(0, plan)]).Single disk (.fresh disk) where
  serves := assemble_serves like blockSize
  sound := ⟨_, assemble_sound _ _⟩
  mounted := by simp [mount?, assemble, Plan.buildOver, built, Except.toOption]
  idle := rfl
  own _ member := nomatch member

end Host

/-- Two caches of any size over disks with the same blocks show the same bytes to a program, and the same errors, unless
one of them has no free slot for it. A lease starts with the bytes that were written last, or with those that were on
the disk, and at the end the disks have the same blocks. -/
theorem geometry_unseen {disk disk' : RamDisk} {plan plan' : Plan} {cache cache' : Cache}
    (content : disk'.content = disk.content) (limit : disk'.limit = disk.limit)
    (blockSize : disk'.blockSize = disk.blockSize) (fits : plan.blockSize = disk.blockSize)
    (fits' : plan'.blockSize = disk.blockSize) (built : plan.build = .ok cache) (built' : plan'.build = .ok cache')
    {program : List Command} (careful : (Clients.fresh disk).Careful disk program)
    (feeds : (Host.assemble [disk] [(0, plan)]).Feeds program)
    (feeds' : (Host.assemble [disk'] [(0, plan')]).Feeds program) :
    let host := Host.assemble [disk] [(0, plan)]
    let host' := Host.assemble [disk'] [(0, plan')]
    let clients := Clients.fresh disk
    host.shows program = host'.shows program ∧ host.shows program = clients.shows disk program ∧
      ∃ d d', (host.obey program).devices[0]? = some d ∧ (host'.obey program).devices[0]? = some d' ∧
        d.content = d'.content ∧ d.content = (clients.obey disk program).saved := by
  intro host host' clients
  have like : disk'.Like disk :=
    ⟨blockSize, funext fun key => RamDisk.unreadable_congr blockSize limit (by rw [content]), content⟩
  obtain ⟨single, shows⟩ := (Host.assemble_single ⟨rfl, rfl, rfl⟩ fits built).obey careful feeds
  obtain ⟨single', shows'⟩ := (Host.assemble_single like fits' built').obey careful feeds'
  obtain ⟨d, device, -, -, saved⟩ := single.serves.device
  obtain ⟨d', device', -, -, saved'⟩ := single'.serves.device
  exact ⟨shows.trans shows'.symm, shows, d, d', device, device', saved.trans saved'.symm, saved⟩

/-- A block is changed, given up and read again; one of the caches has kept it, the other has not. One read is past the
end of the disk. -/
theorem geometry_unseen_after_eviction :
    let disk := RamDisk.empty 2 (some 6)
    let program : List Command := [.read "a" ⟨0, 3⟩, .put "a" 1 [7], .write "a", .pin "a", .unpin "a", .release "a",
      .read "a" ⟨0, 9⟩, .read "b" ⟨0, 5⟩, .drop "b", .read "b" ⟨0, 3⟩, .get "b" 0 none, .fill "b" 1]
    let host := Host.assemble [disk] [(0, ⟨1, 1, 2, .wait⟩)]
    let host' := Host.assemble [disk] [(0, ⟨4, 3, 2, .stop⟩)]
    host.shows program = host'.shows program ∧
      ((host.obey program).usage 0).hits = 0 ∧ ((host'.obey program).usage 0).hits = 1 ∧
      host.shows program = [some (.bytes [0, 0]), none, none, none, none, none,
        some (.failed (.error (.io (.bare .unexpectedEof)))), some (.bytes [0, 0]), none, some (.bytes [0, 7]),
        some (.bytes [0, 7]), none] := by
  intro disk program host host'
  have careful : (Clients.fresh disk).Careful disk program := by
    have found : disk.unreadable ⟨0, 3⟩ = none ∧ disk.unreadable ⟨0, 5⟩ = none := by decide +kernel
    have past : disk.unreadable ⟨0, 9⟩ = some (.error (.io (.bare .unexpectedEof))) := by decide +kernel
    have zeros : disk.content = fun _ => [0, 0] := rfl
    simp [program, Clients.Careful, Clients.Allows, Clients.command, Clients.read, Clients.fresh, Clients.lease,
      Clients.put, Clients.edit, Clients.save, Clients.forget, Host.overwrite, found, past, zeros]
    -- Each read is left, for which no other name has the block.
    grind
  have feeds : host.Feeds program := by decide +kernel
  have feeds' : host'.Feeds program := by decide +kernel
  obtain ⟨same, shows, -⟩ := geometry_unseen rfl rfl rfl rfl rfl rfl rfl careful feeds feeds'
  exact ⟨same, by decide +kernel, by decide +kernel, shows.trans (by decide +kernel)⟩

end BlockCache
