import BlockCache.Proofs.Host.Served
import BlockCache.Proofs.Host.Tally

/-!
# Visitors

A crew of visitors uses one cache. Each of them makes its visits one after another, one act at a time, and any other may
act between two of its acts. `Runs` is what a crew preserves until a visit fails.
-/

namespace BlockCache

inductive Phase
  | away
  | calling
  | leased
  | seen (byte : UInt8)
  | changed
  | written
  | lost
deriving DecidableEq

structure Visitor where
  thread : Thread
  name : String
  phase : Phase
  todo : List Key
deriving DecidableEq

def Phase.after : Phase → Reply → Phase
  | away, .done | calling, .done => calling
  | calling, .lease _ => leased
  | leased, .bytes [byte] => seen byte
  | seen _, .done => changed
  | changed, .lease _ => written
  | written, .done => away
  | _, _ => lost

def Stage.isOver : Stage → Bool
  | granted _ | failed _ => true
  | _ => false

namespace Visitor

/-- What a visitor does next, whose call is as given. It waits as long as its call does. -/
def act? (x : Visitor) (pending : Option Pending) : Option Act :=
  match x.phase, x.todo with
  | .away, [] => none
  | .away, key :: _ => some (.start x.thread x.name 0 ⟨key, .block, true⟩)
  | .calling, _ => some (if pending.any fun p => p.stage.isOver then .answer x.thread else .turn x.thread)
  | .leased, _ => some (.get x.name 0 (some 1))
  | .seen byte, _ => some (.put x.name 0 [byte + 1])
  | .changed, _ => some (.write x.thread 0 x.name)
  | .written, _ => some (.finish x.thread x.name (.released (some 0)))
  | .lost, _ => none

def told (x : Visitor) (reply : Reply) : Visitor :=
  { x with
    phase := x.phase.after reply
    todo := if x.phase = .written then x.todo.tail else x.todo }

def unwritten (x : Visitor) : List Key := if x.phase = .written then x.todo.tail else x.todo

def unlooked (x : Visitor) (pending : Option Pending) : List Key :=
  match x.phase with
  | .away => x.todo
  | .calling => if pending.any fun p => p.stage.looked then x.todo.tail else x.todo
  | _ => x.todo.tail

inductive At (saved : Key → Bytes) : Visitor → Option Pending → Option (Key × Bytes) → Prop
  | away {t : Thread} {name : String} {todo : List Key} : At saved ⟨t, name, .away, todo⟩ none none
  | calling {t : Thread} {name : String} {key : Key} {rest : List Key} {p : Pending} (named : p.name = name)
      (cache : p.cache = 0) (call : p.call = ⟨key, .block, true⟩) :
      At saved ⟨t, name, .calling, key :: rest⟩ (some p) none
  | leased {t : Thread} {name : String} {key : Key} {rest : List Key} :
      At saved ⟨t, name, .leased, key :: rest⟩ none (some (key, saved key))
  | seen {t : Thread} {name : String} {key : Key} {rest : List Key} {byte : UInt8}
      (first : (saved key).head? = some byte) :
      At saved ⟨t, name, .seen byte, key :: rest⟩ none (some (key, saved key))
  | changed {t : Thread} {name : String} {key : Key} {rest : List Key} :
      At saved ⟨t, name, .changed, key :: rest⟩ none (some (key, (saved key).modifyHead (· + 1)))
  | written {t : Thread} {name : String} {key : Key} {rest : List Key} :
      At saved ⟨t, name, .written, key :: rest⟩ none (some (key, saved key))

variable {x : Visitor} {pending : Option Pending} {held : Option (Key × Bytes)} {saved saved' : Key → Bytes}

@[simp] theorem told_thread (x : Visitor) (reply : Reply) : (x.told reply).thread = x.thread := rfl

@[simp] theorem told_name (x : Visitor) (reply : Reply) : (x.told reply).name = x.name := rfl

theorem unlooked_calling (t : Thread) (name : String) (key : Key) (rest : List Key) (p : Pending) :
    (unlooked ⟨t, name, .calling, key :: rest⟩ (some p)).length + p.stage.looked.toNat = rest.length + 1 := by
  cases looked : p.stage.looked <;> simp [unlooked, looked]

theorem At.congr (there : x.At saved pending held)
    (same : ∀ key bytes, held = some (key, bytes) → saved' key = saved key) : x.At saved' pending held := by
  cases there with
  | away => exact .away
  | calling named cache call => exact .calling named cache call
  | leased => rw [← same _ _ rfl]; exact .leased
  | seen first => rw [← same _ _ rfl] at first ⊢; exact .seen first
  | changed => rw [← same _ _ rfl]; exact .changed
  | written => rw [← same _ _ rfl]; exact .written

theorem At.of_away (there : x.At saved pending held) (away : x.phase = .away) : pending = none ∧ held = none := by
  cases there with
  | away => exact ⟨rfl, rfl⟩
  | calling | leased | seen | changed | written => cases away

end Visitor

namespace Host

/-- What holds while a crew makes its visits to some blocks over a disk and none of them has failed: what the clients
see, and the blocks that were written. -/
structure Runs (s : Host RamDisk) (crew : List Visitor) (disk : RamDisk) (visits : List Key) (v : Clients)
    (made : List Key) : Prop where
  serves : s.Serves disk v
  sound : s.Sound fun _ _ => 0
  mounted : ∃ m, s.mount? 0 = some m ∧ 0 < m.cache.capacity
  whole : s.parting = []
  threads : (crew.map Visitor.thread).Nodup
  names : (crew.map Visitor.name).Nodup
  each : ∀ x ∈ crew, x.At v.saved (s.pending? x.thread) (v.held x.name)
  callers : ∀ t, s.pending? t ≠ none → t ∈ crew.map Visitor.thread
  holders : ∀ name, v.held name ≠ none → name ∈ crew.map Visitor.name
  content : ∀ key, v.saved key = (disk.content key).modifyHead (· + UInt8.ofNat (made.count key))
  readable : ∀ key ∈ made, disk.unreadable key = none
  unwritten : (made ++ crew.flatMap Visitor.unwritten).Perm visits
  writes : (s.usage 0).writes = made.length
  lookups : (s.usage 0).lookups + (crew.flatMap fun x => x.unlooked (s.pending? x.thread)).length = visits.length

variable {s : Host RamDisk} {before after : List Visitor} {x : Visitor} {disk : RamDisk} {visits made made' : List Key}
  {v v' : Clients} {act : Act}

theorem mem_middle {α : Type} {before after : List α} {x z : α} :
    z ∈ before ++ x :: after ↔ z = x ∨ z ∈ before ++ after := by
  simp [or_left_comm]

theorem others_of_nodup {α β : Type} {f : α → β} {before after : List α} {x : α}
    (distinct : ((before ++ x :: after).map f).Nodup) (z : α) (member : z ∈ before ++ after) : f z ≠ f x := by
  rw [List.map_append, List.map_cons, List.nodup_middle, ← List.map_append] at distinct
  exact fun same => (List.nodup_cons.mp distinct).1 (same ▸ List.mem_map_of_mem member)

theorem Runs.perform {done : Performed RamDisk} (runs : s.Runs (before ++ x :: after) disk visits v made)
    (performed : s.perform act = done) (mine : act.caller? = none ∨ act.caller? = some x.thread)
    (unpinned : ∀ c i, act.pinned? s done.reply ≠ some (c, i) ∧ act.unpinned? s done.reply ≠ some (c, i))
    (serves : done.host.Serves disk v') (held : ∀ name ≠ x.name, v'.held name = v.held name)
    (saved : ∀ name ≠ x.name, ∀ key bytes, v.held name = some (key, bytes) → v'.saved key = v.saved key)
    (there : (x.told done.reply).At v'.saved (done.host.pending? x.thread) (v'.held x.name))
    (content : ∀ key, v'.saved key = (disk.content key).modifyHead (· + UInt8.ofNat (made'.count key)))
    (readable : ∀ key ∈ made', disk.unreadable key = none)
    (unwritten : (made' ++ (x.told done.reply).unwritten).Perm (made ++ x.unwritten))
    (writes : (done.host.usage 0).writes = made'.length)
    (lookups : (done.host.usage 0).lookups + ((x.told done.reply).unlooked (done.host.pending? x.thread)).length =
      (s.usage 0).lookups + (x.unlooked (s.pending? x.thread)).length) :
    done.host.Runs (before ++ x.told done.reply :: after) disk visits v' made' := by
  have did : s.Did act done := performed ▸ runs.sound.perform_did act
  obtain ⟨pins, sound, count⟩ := runs.sound.did did
  obtain ⟨m, there₀, some⟩ := runs.mounted
  obtain ⟨m', there', same⟩ := runs.sound.perform_mounted act there₀
  have pending {t : Thread} (other : t ≠ x.thread) : done.host.pending? t = s.pending? t := by
    refine did.pending_other fun caller => ?_
    rcases mine with none | own
    · exact absurd (none.symm.trans caller) nofun
    · exact other (Option.some.inj (caller.symm.trans own))
  have threads := others_of_nodup runs.threads
  have names := others_of_nodup runs.names
  have away (z : Visitor) (member : z ∈ before ++ after) :
      done.host.pending? z.thread = s.pending? z.thread ∧ v'.held z.name = v.held z.name :=
    ⟨pending (threads z member), held z.name (names z member)⟩
  refine ⟨serves, ?_, ⟨m', performed ▸ there', same.capacity ▸ some⟩, did.parting_eq.trans runs.whole, ?_, ?_,
    fun z member => ?_, fun t called => ?_, fun name leased => ?_, content, readable, ?_, writes, ?_⟩
  · have none : pins = fun _ _ => 0 := funext fun c => funext fun i => by
      have count := count c i
      rw [if_neg (unpinned c i).1, if_neg (unpinned c i).2] at count
      exact count
    exact none ▸ sound
  · simpa [Visitor.told_thread] using runs.threads
  · simpa [Visitor.told_name] using runs.names
  · rcases mem_middle.mp member with rfl | other
    · rwa [Visitor.told_thread, Visitor.told_name]
    · obtain ⟨call, lease⟩ := away z other
      rw [call, lease]
      exact (runs.each z (mem_middle.mpr (.inr other))).congr (saved z.name (names z other))
  · by_cases own : t = x.thread
    · simp [own, Visitor.told_thread]
    · simpa [Visitor.told_thread] using runs.callers t (pending own ▸ called)
  · by_cases own : name = x.name
    · simp [own, Visitor.told_name]
    · simpa [Visitor.told_name] using runs.holders name (held name own ▸ leased)
  · refine .trans (List.perm_iff_count.mpr fun key => ?_) runs.unwritten
    have here := unwritten.count_eq key
    simp only [List.flatMap_append, List.flatMap_cons, List.count_append] at here ⊢
    omega
  · have elsewhere : (before ++ after).flatMap (fun z => z.unlooked (done.host.pending? z.thread)) =
        (before ++ after).flatMap fun z => z.unlooked (s.pending? z.thread) :=
      List.flatMap_congr fun z member => by rw [(away z member).1]
    have elsewhere := congrArg List.length elsewhere
    have total := runs.lookups
    simp only [List.flatMap_append, List.flatMap_cons, List.length_append, Visitor.told_thread] at elsewhere total ⊢
    omega

theorem Runs.perform_unsaved {done : Performed RamDisk} (runs : s.Runs (before ++ x :: after) disk visits v made)
    (performed : s.perform act = done) (mine : act.caller? = none ∨ act.caller? = some x.thread)
    (unpinned : ∀ c i, act.pinned? s done.reply ≠ some (c, i) ∧ act.unpinned? s done.reply ≠ some (c, i))
    (serves : done.host.Serves disk v') (held : ∀ name ≠ x.name, v'.held name = v.held name)
    (saved : v'.saved = v.saved)
    (there : (x.told done.reply).At v.saved (done.host.pending? x.thread) (v'.held x.name))
    (unwritten : (x.told done.reply).unwritten = x.unwritten) (writes : (done.host.usage 0).writes = (s.usage 0).writes)
    (lookups : (done.host.usage 0).lookups + ((x.told done.reply).unlooked (done.host.pending? x.thread)).length =
      (s.usage 0).lookups + (x.unlooked (s.pending? x.thread)).length) :
    done.host.Runs (before ++ x.told done.reply :: after) disk visits v' made :=
  runs.perform performed mine unpinned serves held (fun _ _ _ _ _ => by rw [saved]) (saved ▸ there)
    (fun key => saved ▸ runs.content key) runs.readable (unwritten ▸ .refl _) (writes.trans runs.writes) lookups

def GoesOn (done : Performed RamDisk) (before : List Visitor) (x : Visitor) (after : List Visitor) (disk : RamDisk)
    (visits : List Key) : Prop :=
  (x.told done.reply).phase = .lost ∨
    ∃ v made, done.host.Runs (before ++ x.told done.reply :: after) disk visits v made

variable {t : Thread} {name : String} {key : Key} {rest todo : List Key} {p : Pending} {byte : UInt8}

theorem Runs.visitor (runs : s.Runs (before ++ x :: after) disk visits v made) :
    x.At v.saved (s.pending? x.thread) (v.held x.name) :=
  runs.each x (mem_middle.mpr (.inl rfl))

theorem Runs.start (runs : s.Runs (before ++ ⟨t, name, .away, key :: rest⟩ :: after) disk visits v made)
    (free : v.held name = none) :
    GoesOn (s.perform (.start t name 0 ⟨key, .block, true⟩)) before ⟨t, name, .away, key :: rest⟩ after disk
      visits := by
  have did := runs.sound.perform_did (.start t name 0 ⟨key, .block, true⟩)
  have serves := runs.serves.quiet runs.sound (show (Act.start t name 0 ⟨key, .block, true⟩).quiet = true from rfl)
  generalize performed : s.perform (.start t name 0 ⟨key, .block, true⟩) = done at did serves
  cases did with
  | refused | foreign => exact .inl rfl
  | started idle mounted unused =>
      have called : (s.calls ++ [(t, (⟨name, 0, ⟨key, .block, true⟩, .looking, []⟩ : Pending))]).lookup t =
          some ⟨name, 0, ⟨key, .block, true⟩, .looking, []⟩ := by
        rw [List.lookup_append, show s.calls.lookup t = none from idle]
        simp
      refine .inr ⟨v, made, runs.perform_unsaved performed (.inr rfl) (by simp [Act.pinned?, Act.unpinned?]) serves
        (fun _ _ => rfl) rfl ?_ rfl rfl ?_⟩
      · show (Visitor.mk t name .calling (key :: rest)).At v.saved (List.lookup t (s.calls ++ _)) (v.held name)
        rw [called, free]
        exact .calling rfl rfl rfl
      · show (s.usage 0).lookups +
          (Visitor.unlooked ⟨t, name, .calling, key :: rest⟩ (List.lookup t (s.calls ++ _))).length = _
        rw [called]
        rfl
  | stopped which => rcases which with pin | unpin <;> contradiction
  | edited which => rcases which with ⟨offset, part, put⟩ | ⟨byte, fill⟩ <;> contradiction

theorem Runs.turn (runs : s.Runs (before ++ ⟨t, name, .calling, key :: rest⟩ :: after) disk visits v made)
    (pending : s.pending? t = some p) (named : p.name = name) (cache : p.cache = 0)
    (call : p.call = ⟨key, .block, true⟩) (free : v.held name = none) :
    GoesOn (s.perform (.turn t)) before ⟨t, name, .calling, key :: rest⟩ after disk visits := by
  have serves := runs.serves.quiet runs.sound (show (Act.turn t).quiet = true from rfl)
  obtain ⟨p', pending', continues, reply, lookups, writes⟩ := runs.sound.turn_counted pending (by rw [call])
  rw [cache] at lookups writes
  generalize performed : s.perform (.turn t) = done at serves pending' reply lookups writes
  have told : Visitor.told ⟨t, name, .calling, key :: rest⟩ done.reply = ⟨t, name, .calling, key :: rest⟩ := by
    rw [reply]
    rfl
  refine .inr ⟨v, made, runs.perform_unsaved performed (.inr rfl) (by simp [Act.pinned?, Act.unpinned?]) serves
    (fun _ _ => rfl) rfl ?_ (by rw [told]) writes ?_⟩
  · rw [told, pending', free]
    exact .calling (continues.name.trans named) (continues.cache.trans cache) (continues.call.trans call)
  · rw [told, pending', pending]
    have now := Visitor.unlooked_calling t name key rest p
    have next := Visitor.unlooked_calling t name key rest p'
    omega

theorem Runs.answer (runs : s.Runs (before ++ ⟨t, name, .calling, key :: rest⟩ :: after) disk visits v made)
    (pending : s.pending? t = some p) (named : p.name = name)
    (call : p.call = ⟨key, .block, true⟩) (free : v.held name = none) (isOver : p.stage.isOver = true) :
    GoesOn (s.perform (.answer t)) before ⟨t, name, .calling, key :: rest⟩ after disk visits := by
  cases stage : p.stage with
  | failed why =>
      have denied : s.perform (.answer t) = ⟨s.removePending t, .failed why, p.events⟩ := by
        simp [Host.perform, Host.answer, pending, stage]
      exact .inl (by rw [denied]; rfl)
  | granted i =>
      have unused : s.lease? p.name = none := runs.serves.unused runs.sound (named ▸ free)
      obtain ⟨⟨view, leased⟩, serves⟩ := runs.serves.answered runs.sound pending stage (by rw [call]) unused
      rw [named, call] at serves
      have answered := answer_eq pending stage unused
      have idle : (s.answer t).host.pending? t = none := by
        rw [answered]
        exact lookup_filter_same s.calls t
      have usage : (s.answer t).host.usage 0 = s.usage 0 := by
        rw [answered]
        rfl
      have told : Visitor.told ⟨t, name, .calling, key :: rest⟩ (s.answer t).reply =
          ⟨t, name, .leased, key :: rest⟩ := by
        rw [leased]
        rfl
      have performed : s.perform (.answer t) = s.answer t := rfl
      rw [performed]
      refine .inr ⟨v.lease name key, made, runs.perform_unsaved performed (.inr rfl) (by simp [Act.pinned?, Act.unpinned?]) serves
        (fun _ other => Clients.lease_other other) rfl ?_ (by rw [told]; rfl) (by rw [usage]) ?_⟩
      · rw [told, idle, Clients.lease_same]
        exact .leased
      · rw [told, usage, pending]
        simp [Visitor.unlooked, stage, Stage.looked]
  | looking | starved | queued | loading => simp [stage, Stage.isOver] at isOver

theorem Runs.use {phase : Phase} (runs : s.Runs (before ++ ⟨t, name, phase, key :: rest⟩ :: after) disk visits v made)
    (phase' : Phase) (idle : s.pending? t = none) (uncalled : act.caller? = none)
    (unpinned : ∀ c i, act.pinned? s (s.perform act).reply ≠ some (c, i) ∧
      act.unpinned? s (s.perform act).reply ≠ some (c, i))
    (serves : (s.perform act).host.Serves disk v') (held : ∀ other ≠ name, v'.held other = v.held other)
    (saved : v'.saved = v.saved)
    (told : Visitor.told ⟨t, name, phase, key :: rest⟩ (s.perform act).reply = ⟨t, name, phase', key :: rest⟩)
    (there : Visitor.At v.saved ⟨t, name, phase', key :: rest⟩ none (v'.held name))
    (unsaved : act.saves 0 (s.perform act).reply = false)
    (unwritten : Visitor.unwritten ⟨t, name, phase', key :: rest⟩ = Visitor.unwritten ⟨t, name, phase, key :: rest⟩)
    (unlooked : Visitor.unlooked ⟨t, name, phase', key :: rest⟩ none =
      Visitor.unlooked ⟨t, name, phase, key :: rest⟩ none) :
    GoesOn (s.perform act) before ⟨t, name, phase, key :: rest⟩ after disk visits := by
  have did := runs.sound.perform_did act
  have still : (s.perform act).host.pending? t = none :=
    (did.pending_other (by rw [uncalled]; nofun)).trans idle
  obtain ⟨lookups, writes⟩ := did.counted uncalled 0
  rw [unsaved] at writes
  refine .inr ⟨v', made, runs.perform_unsaved rfl (.inl uncalled) unpinned serves held saved ?_ ?_ writes ?_⟩
  · rw [told, still]
    exact there
  · rw [told, unwritten]
  · rw [told, still, idle, unlooked, lookups]

theorem Runs.get (runs : s.Runs (before ++ ⟨t, name, .leased, key :: rest⟩ :: after) disk visits v made)
    (idle : s.pending? t = none) (lease : v.held name = some (key, v.saved key)) :
    GoesOn (s.perform (.get name 0 (some 1))) before ⟨t, name, .leased, key :: rest⟩ after disk visits := by
  obtain ⟨lease', -, held, -, -, -, bytes, -⟩ := runs.serves.under runs.sound lease
  have serves := runs.serves.quiet runs.sound (show (Act.get name 0 (some 1)).quiet = true from rfl)
  cases content : v.saved key with
  | nil =>
      have short : s.perform (.get name 0 (some 1)) = s.refuse .outOfBounds := by
        simp [Host.perform, Host.get, held, bytes, content]
      exact .inl (by rw [short]; rfl)
  | cons byte tail =>
      have got : (s.perform (.get name 0 (some 1))).reply = .bytes [byte] := by
        simp [Host.perform, Host.get, held, bytes, content]
      refine runs.use (.seen byte) idle rfl (by simp [Act.pinned?, Act.unpinned?]) serves (fun _ _ => rfl) rfl (by rw [got]; rfl)
        ?_ rfl rfl rfl
      rw [lease]
      exact .seen (by rw [content]; rfl)

theorem Runs.put (runs : s.Runs (before ++ ⟨t, name, .seen byte, key :: rest⟩ :: after) disk visits v made)
    (idle : s.pending? t = none) (lease : v.held name = some (key, v.saved key))
    (first : (v.saved key).head? = some byte) :
    GoesOn (s.perform (.put name 0 [byte + 1])) before ⟨t, name, .seen byte, key :: rest⟩ after disk visits := by
  obtain ⟨tail, content⟩ := List.head?_eq_some_iff.mp first
  have more : overwrite 0 [byte + 1] (v.saved key) = (v.saved key).modifyHead (· + 1) := by simp [overwrite, content]
  obtain ⟨lease', -, held, -, -, -, bytes, -⟩ := runs.serves.under runs.sound lease
  have put : s.perform (.put name 0 [byte + 1]) = s.edit name (overwrite 0 [byte + 1]) := by
    simp [Host.perform, Host.put, held, bytes, content]
  obtain ⟨reply, serves⟩ := runs.serves.edited runs.sound lease (overwrite 0 [byte + 1]) (by simp [overwrite, content])
  rw [← put] at reply serves
  refine runs.use .changed idle rfl (by simp [Act.pinned?, Act.unpinned?]) serves
    (fun _ other => Clients.edit_other other _) rfl (by rw [reply]; rfl) ?_ (by rw [reply]; rfl) rfl rfl
  rw [Clients.edit_same lease, more]
  exact .changed

theorem Runs.write (runs : s.Runs (before ++ ⟨t, name, .changed, key :: rest⟩ :: after) disk visits v made)
    (idle : s.pending? t = none) (lease : v.held name = some (key, (v.saved key).modifyHead (· + 1))) :
    GoesOn (s.perform (.write t 0 name)) before ⟨t, name, .changed, key :: rest⟩ after disk visits := by
  have did := runs.sound.perform_did (.write t 0 name)
  have still : (s.perform (.write t 0 name)).host.pending? t = none := (did.pending_other nofun).trans idle
  obtain ⟨lookups, writes⟩ := did.counted rfl 0
  cases reply : (s.perform (.write t 0 name)).reply with
  | lease view =>
      have told : Visitor.told ⟨t, name, .changed, key :: rest⟩ (s.perform (.write t 0 name)).reply =
          ⟨t, name, .written, key :: rest⟩ := by rw [reply]; rfl
      have saved := Clients.save_saved lease
      have kept := v.save_held name
      refine .inr ⟨v.save name, key :: made, runs.perform rfl (.inl rfl) (by simp [Act.pinned?, Act.unpinned?])
        (runs.serves.wrote runs.sound reply) (fun other _ => by rw [kept]) (fun name' other key' bytes known => ?_) ?_
        (fun key' => ?_) (fun key' member => ?_) ?_ ?_ ?_⟩
      · have different : key' ≠ key := fun same => other (runs.serves.distinct runs.sound known (same ▸ lease))
        rw [saved, if_neg different]
      · have more : (v.save name).saved key = (v.saved key).modifyHead (· + 1) := by rw [saved, if_pos rfl]
        rw [told, still, kept, lease, ← more]
        exact .written
      · rw [saved]
        by_cases same : key' = key
        · subst same
          rw [if_pos rfl, runs.content, List.modifyHead_modifyHead, List.count_cons_self, UInt8.ofNat_add]
          simp only [Function.comp_def, UInt8.add_assoc]
          rfl
        · rw [if_neg same, runs.content, List.count_cons_of_ne (Ne.symm same)]
      · rcases List.mem_cons.mp member with rfl | earlier
        · exact runs.serves.readable runs.sound lease
        · exact runs.readable key' earlier
      · rw [told]
        exact List.perm_middle.symm
      · rw [writes, reply, runs.writes]
        rfl
      · rw [told, still, idle, lookups]
        rfl
  | done | bytes | failed | refused => exact .inl (by rw [reply]; rfl)

theorem Runs.finish (runs : s.Runs (before ++ ⟨t, name, .written, key :: rest⟩ :: after) disk visits v made)
    (idle : s.pending? t = none) (lease : v.held name = some (key, v.saved key)) :
    GoesOn (s.perform (.finish t name (.released (some 0)))) before ⟨t, name, .written, key :: rest⟩ after disk
      visits := by
  have did := runs.sound.perform_did (.finish t name (.released (some 0)))
  have still : (s.perform (.finish t name (.released (some 0)))).host.pending? t = none :=
    (did.pending_other nofun).trans idle
  obtain ⟨lookups, writes⟩ := did.counted rfl 0
  obtain ⟨lease', -, held, -⟩ := runs.serves.under runs.sound lease
  obtain ⟨m, there, -⟩ := runs.mounted
  obtain ⟨told, s', reply, events, ended, done⟩ :=
    runs.sound.release_ended held (show (s.mount? ((some 0).getD lease'.cache)).isSome = true by simp [there]) t
  have performed : s.perform (.finish t name (.released (some 0))) = ⟨s', reply, events⟩ := done
  rw [performed] at still lookups writes ⊢
  cases reply with
  | done =>
      have serves := runs.serves.ended runs.sound ended fun key' bytes known => by
        obtain ⟨rfl, rfl⟩ : key = key' ∧ v.saved key = bytes := by simpa [lease] using known
        rfl
      refine .inr ⟨v.forget name, made, runs.perform_unsaved performed (.inl rfl) (by simp [Act.pinned?, Act.unpinned?]) serves
        (fun _ other => Clients.forget_other other) rfl ?_ rfl writes ?_⟩
      · rw [still, Clients.forget_same]
        exact .away
      · rw [still, idle, lookups]
        rfl
  | lease | bytes | failed | refused => exact .inl rfl

theorem Runs.step (runs : s.Runs (before ++ x :: after) disk visits v made)
    (acts : x.act? (s.pending? x.thread) = some act) :
    GoesOn (s.perform act) before x after disk visits := by
  have there := runs.visitor
  generalize call : s.pending? x.thread = pending at there acts
  generalize lease : v.held x.name = held at there
  cases there with
  | @away t name todo =>
      cases todo with
      | nil => cases acts
      | cons key rest =>
          cases acts
          exact runs.start lease
  | @calling t name key rest p named cache call' =>
      cases acts
      simp only [Option.any_some]
      cases isOver : p.stage.isOver with
      | true => exact runs.answer call named call' lease isOver
      | false => exact runs.turn call named cache call' lease
  | leased =>
      cases acts
      exact runs.get call lease
  | seen first =>
      cases acts
      exact runs.put call lease first
  | changed =>
      cases acts
      exact runs.write call lease
  | written =>
      cases acts
      exact runs.finish call lease

end Host
end BlockCache
