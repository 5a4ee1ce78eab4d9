import BlockCache.Proofs.Accounting
import BlockCache.Proofs.Host.Crew
import BlockCache.Proofs.Host.Reading

/-!
# Visits of many threads

In whatever order the threads of a crew act, no visit is lost and none is counted twice: `visits_add_up`.
-/

namespace BlockCache

structure Crew where
  host : Host RamDisk
  visitors : List Visitor

namespace Crew

def step (crew : Crew) (i : Nat) : Crew :=
  match crew.visitors[i]? with
  | none => crew
  | some x =>
      match x.act? (crew.host.pending? x.thread) with
      | none => crew
      | some act =>
          let done := crew.host.perform act
          ⟨done.host, crew.visitors.set i (x.told done.reply)⟩

def run (crew : Crew) (schedule : List Nat) : Crew := schedule.foldl step crew

def Home (crew : Crew) : Prop := ∀ x ∈ crew.visitors, x.phase = .away ∧ x.todo = []

instance (crew : Crew) : Decidable crew.Home := inferInstanceAs (Decidable (∀ x ∈ crew.visitors, _))

def Lost (crew : Crew) : Prop := ∃ x ∈ crew.visitors, x.phase = .lost

variable {crew : Crew} {i : Nat} {schedule : List Nat} {disk : RamDisk} {visits made : List Key} {v : Clients}

theorem step_cases (crew : Crew) (i : Nat) : crew.step i = crew ∨ ∃ before x after act,
    crew.visitors = before ++ x :: after ∧ x.act? (crew.host.pending? x.thread) = some act ∧
      crew.step i = ⟨(crew.host.perform act).host, before ++ x.told (crew.host.perform act).reply :: after⟩ := by
  rw [step]
  cases here : crew.visitors[i]? with
  | none => exact .inl rfl
  | some x =>
      cases acts : x.act? (crew.host.pending? x.thread) with
      | none => exact .inl (by simp [acts])
      | some act =>
          obtain ⟨bound, rfl⟩ := List.getElem?_eq_some_iff.mp here
          refine .inr ⟨crew.visitors.take i, _, crew.visitors.drop (i + 1), act, ?_, acts, ?_⟩
          · simp
          · simp [acts, List.set_eq_take_append_cons_drop, bound]

theorem Lost.step (lost : crew.Lost) (i : Nat) : (crew.step i).Lost := by
  rcases crew.step_cases i with same | ⟨before, x, after, act, visitors, acts, stepped⟩
  · rw [same]
    exact lost
  · obtain ⟨z, member, failed⟩ := lost
    rw [stepped]
    rcases Host.mem_middle.mp (visitors ▸ member) with rfl | other
    · rw [Visitor.act?, failed] at acts
      cases acts
    · exact ⟨z, Host.mem_middle.mpr (.inr other), failed⟩

theorem Lost.run (lost : crew.Lost) (schedule : List Nat) : (crew.run schedule).Lost := by
  induction schedule generalizing crew with
  | nil => exact lost
  | cons i schedule ih => exact ih (lost.step i)

theorem step_runs (runs : crew.host.Runs crew.visitors disk visits v made) (i : Nat) :
    (crew.step i).Lost ∨ ∃ v made, (crew.step i).host.Runs (crew.step i).visitors disk visits v made := by
  rcases crew.step_cases i with same | ⟨before, x, after, act, visitors, acts, stepped⟩
  · rw [same]
    exact .inr ⟨v, made, runs⟩
  · rw [visitors] at runs
    rw [stepped]
    rcases runs.step acts with failed | goesOn
    · exact .inl ⟨_, Host.mem_middle.mpr (.inl rfl), failed⟩
    · exact .inr goesOn

theorem run_runs (runs : crew.host.Runs crew.visitors disk visits v made) (schedule : List Nat) :
    (crew.run schedule).Lost ∨
      ∃ v made, (crew.run schedule).host.Runs (crew.run schedule).visitors disk visits v made := by
  induction schedule generalizing crew v made with
  | nil => exact .inr ⟨v, made, runs⟩
  | cons i schedule ih =>
      rcases step_runs runs i with lost | ⟨v₁, made₁, runs₁⟩
      · exact .inl (lost.run schedule)
      · exact ih runs₁

theorem Home.not_lost (home : crew.Home) : ¬ crew.Lost := by
  rintro ⟨x, member, failed⟩
  exact absurd (failed.symm.trans (home x member).1) nofun

end Crew

namespace Host

variable {s : Host RamDisk} {crew : List Visitor} {disk : RamDisk} {visits made : List Key} {v : Clients}

theorem Runs.quiet (runs : s.Runs crew disk visits v made) (away : ∀ x ∈ crew, x.phase = .away) :
    s.calls = [] ∧ s.leases = [] ∧ ∀ name, v.held name = none := by
  have idle (x : Visitor) (member : x ∈ crew) : s.pending? x.thread = none ∧ v.held x.name = none :=
    (runs.each x member).of_away (away x member)
  have unheld (name : String) : v.held name = none := by
    by_contra held
    obtain ⟨x, member, rfl⟩ := List.mem_map.mp (runs.holders name held)
    exact held (idle x member).2
  refine ⟨List.eq_nil_iff_forall_not_mem.mpr fun (t, p) member => ?_,
    List.eq_nil_iff_forall_not_mem.mpr fun (name, lease) member => ?_, unheld⟩
  · have called : s.pending? t = some p := lookup_of_mem runs.sound.threads member
    obtain ⟨x, inCrew, rfl⟩ := List.mem_map.mp (runs.callers t (by rw [called]; nofun))
    exact absurd ((idle x inCrew).1.symm.trans called) nofun
  · have held : s.lease? name = some lease := lookup_of_mem runs.sound.names member
    exact absurd ((runs.serves.unused runs.sound (unheld name)).symm.trans held) nofun

theorem Sound.ring_of_quiet {m : Mount} (sound : s.Sound fun _ _ => 0) (there : s.mount? 0 = some m)
    (some : 0 < m.cache.capacity) (calls : s.calls = []) (leases : s.leases = []) (whole : s.parting = []) :
    ∃ b, m.cache.table.layout.ring b ≠ [] := by
  have inTable : m.cache.table.slots[0]? = Option.some _ := Array.getElem?_eq_getElem some
  have free := sound.references ((slot?_eq there 0).trans inTable)
  simp only [live, waiting, calls, leases, whole] at free
  have member := ((sound.tables there).consistent.ringed inTable _).mpr ⟨free, rfl⟩
  exact ⟨_, List.ne_nil_of_mem member⟩

theorem assemble_runs {plan : Plan} {cache : Cache} (built : plan.build = .ok cache)
    (blockSize : plan.blockSize = disk.blockSize) (away : ∀ x ∈ crew, x.phase = .away)
    (threads : (crew.map Visitor.thread).Nodup) (names : (crew.map Visitor.name).Nodup) :
    (assemble [disk] [(0, plan)]).Runs crew disk (crew.flatMap Visitor.todo) (.fresh disk) [] := by
  have there : (assemble [disk] [(0, plan)]).mount? 0 = some ⟨cache, 0, []⟩ := by
    simp [mount?, assemble, Plan.buildOver, built, Except.toOption]
  obtain ⟨-, config, -, -, -, -, rfl⟩ :=
    Plan.buildOver_ok (show plan.buildOver 0 1 = .ok cache by simp [Plan.buildOver, built])
  have usage : (assemble [disk] [(0, plan)]).usage 0 = .zero := by
    rw [Host.usage, there]
    rfl
  refine ⟨assemble_serves ⟨rfl, rfl, rfl⟩ blockSize, assemble_sound _ _, ⟨_, there, ?_⟩, rfl, threads, names,
    fun x member => ?_, fun t called => absurd rfl called, fun name held => absurd rfl held, fun key => ?_, by simp,
    ?_, ?_, ?_⟩
  · exact (Cache.fresh_capacity config).symm ▸ config.capacity_pos
  · obtain ⟨t, name, phase, todo⟩ := x
    obtain rfl : phase = .away := away _ member
    exact .away
  · have same : (fun byte : UInt8 => byte + UInt8.ofNat 0) = id := funext UInt8.add_zero
    rw [List.count_nil, same, List.modifyHead_id]
    rfl
  · rw [List.nil_append]
    exact .of_eq (List.flatMap_congr fun x member => by simp [Visitor.unwritten, away x member])
  · rw [usage]
    rfl
  · rw [usage, show Usage.zero.lookups = 0 from rfl, Nat.zero_add]
    exact congrArg List.length (List.flatMap_congr fun x member => by simp [Visitor.unlooked, away x member])

end Host

/-- When all visits of a crew are over, whatever the order in which its members acted, the first byte of each block is
larger by the number of visits to the block, on the disk and for those who read it, and the other bytes are as before.
The cache has looked up and written one block for each visit. -/
theorem visits_add_up {disk : RamDisk} {plan : Plan} {cache : Cache} (built : plan.build = .ok cache)
    (blockSize : plan.blockSize = disk.blockSize) {visitors : List Visitor} (away : ∀ x ∈ visitors, x.phase = .away)
    (threads : (visitors.map Visitor.thread).Nodup) (names : (visitors.map Visitor.name).Nodup) (schedule : List Nat)
    (home : (Crew.run ⟨Host.assemble [disk] [(0, plan)], visitors⟩ schedule).Home) :
    let host := (Crew.run ⟨Host.assemble [disk] [(0, plan)], visitors⟩ schedule).host
    let visits := visitors.flatMap Visitor.todo
    let total (key : Key) := (disk.content key).modifyHead (· + UInt8.ofNat (visits.count key))
    (∃ d, host.devices[0]? = some d ∧ ∀ key, d.content key = total key) ∧
      (∀ key ∈ visits, disk.unreadable key = none) ∧
      (∀ (t : Thread) (name : String) (key : Key), disk.unreadable key = none →
        let read := host.lease t name 0 ⟨key, .block, true⟩
        ∃ view lease, read.reply = .lease view ∧ read.host.lease? name = some lease ∧
          read.host.bytes lease = total key) ∧
      (host.usage 0).hits + (host.usage 0).misses = visits.length ∧ (host.usage 0).writes = visits.length := by
  intro host visits total
  let crew : Crew := ⟨Host.assemble [disk] [(0, plan)], visitors⟩
  have start : crew.host.Runs crew.visitors disk visits (.fresh disk) [] :=
    Host.assemble_runs built blockSize away threads names
  rcases Crew.run_runs start schedule with lost | ⟨v, made, runs⟩
  · exact absurd lost home.not_lost
  obtain ⟨calls, leases, unheld⟩ := runs.quiet fun x member => (home x member).1
  have written := runs.unwritten
  rw [List.flatMap_eq_nil_iff.mpr fun x member => by simp [Visitor.unwritten, home x member],
    List.append_nil] at written
  have saved (key : Key) : v.saved key = total key := by
    rw [runs.content, written.count_eq]
  have lookups : (host.usage 0).lookups = visits.length := by
    have lookups := runs.lookups
    rwa [List.flatMap_eq_nil_iff.mpr fun x member => by simp [Visitor.unlooked, home x member]] at lookups
  obtain ⟨d, device, -, -, content⟩ := runs.serves.device
  refine ⟨⟨d, device, fun key => content ▸ saved key⟩,
    fun key member => runs.readable key (written.mem_iff.mpr member),
    fun t name key readable => ?_, lookups, runs.writes.trans written.length_eq⟩
  obtain ⟨m, there, some⟩ := runs.mounted
  obtain ⟨b, free⟩ := runs.sound.ring_of_quiet there some calls leases runs.whole
  rcases runs.serves.read runs.sound there calls t (unheld name) (by simp [unheld]) with
    ⟨-, full⟩ | ⟨-, -, answered⟩
  · exact absurd (full b) free
  · rw [readable] at answered
    obtain ⟨⟨view, leased⟩, serves⟩ := answered
    obtain ⟨acts, run⟩ := Host.lease_run host t name 0 ⟨key, .block, true⟩
    obtain ⟨pins, sound⟩ := runs.sound.run acts
    obtain ⟨lease, -, held, -, -, -, bytes, -⟩ := serves.under (run ▸ sound) Clients.lease_same
    exact ⟨view, lease, leased, held, bytes.trans (saved key)⟩

theorem visits_add_up_in_turns :
    let disk := (RamDisk.empty 2 (some 6)).put ⟨0, 3⟩ [254, 9]
    let visitors : List Visitor := [⟨0, "a", .away, [⟨0, 3⟩, ⟨0, 3⟩]⟩, ⟨1, "b", .away, [⟨0, 4⟩, ⟨0, 3⟩]⟩]
    let schedule := (List.replicate 40 [0, 1]).flatten
    let host := (Crew.run ⟨Host.assemble [disk] [(0, ⟨1, 1, 2, .wait⟩)], visitors⟩ schedule).host
    (∃ d, host.devices[0]? = some d ∧ d.content ⟨0, 3⟩ = [1, 9] ∧ d.content ⟨0, 4⟩ = [1, 0]) ∧
      (∃ lease, (host.lease 7 "c" 0 ⟨⟨0, 3⟩, .block, true⟩).host.lease? "c" = some lease ∧
        (host.lease 7 "c" 0 ⟨⟨0, 3⟩, .block, true⟩).host.bytes lease = [1, 9]) ∧
      (host.usage 0).hits + (host.usage 0).misses = 4 ∧ (host.usage 0).writes = 4 := by
  intro disk visitors schedule host
  have home : (Crew.run ⟨Host.assemble [disk] [(0, ⟨1, 1, 2, .wait⟩)], visitors⟩ schedule).Home := by decide +kernel
  obtain ⟨⟨d, device, content⟩, readable, read, lookups, writes⟩ :=
    visits_add_up rfl rfl (by decide) (by decide) (by decide) _ home
  obtain ⟨view, lease, -, held, bytes⟩ := read 7 "c" ⟨0, 3⟩ (readable _ (by decide))
  exact ⟨⟨d, device, (content _).trans (by decide), (content _).trans (by decide)⟩,
    ⟨lease, held, bytes.trans (by decide)⟩, lookups, writes⟩

end BlockCache
