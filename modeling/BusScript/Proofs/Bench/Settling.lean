import Mathlib.Data.List.Nodup
import BusScript.Proofs.Bench.Loads

/-!
# How preloads end

A preload either puts its image into the store of its target, which is listed then, or leaves all
stores and the list as they were; one record of the log says which (`Finished`). Whatever the model
is asked for comes down to moves: buses and clock, which no preload sees but by the shared store,
the start of a preload, and the run of one that is pending. By induction over them a preload is
pending until it has run once, and it is finished from then on, so that every wait for it reports
completion (`preload_all_or_nothing`).
-/

namespace BusScript.Model

/-! ## One preload -/

/-- No store is changed, and no target is listed. -/
structure World.Kept (before after : World) : Prop where
  shared : after.shared = before.shared
  memories : after.memories = before.memories
  loaded : after.loaded = before.loaded

/-- How a preload ends: it is loaded, or it failed and nothing is changed. -/
inductive Finished (setup : Setup) (load : Load) (before after : World) (record : LogRecord) : Prop
  | loaded {target : Target} {image : Image} :
      target? setup before load.target = some target →
      readImage setup (imagePath setup load.dataFile) = .ok image →
      after.store? target = (before.store? target).map (image.load setup.wordBytes) →
      (∀ other, other ≠ target → after.store? other = before.store? other) →
      after.loaded = before.loaded ++ [load.target] →
      record.level = .info → Finished setup load before after record
  | failed :
      target? setup before load.target = none ∨
        (∃ fault, readImage setup (imagePath setup load.dataFile) = .error fault) →
      before.Kept after →
      record.level = .error → Finished setup load before after record

theorem World.store?_changeTarget_of_ne (world : World) {target other : Target}
    (apart : other ≠ target) (change : Store → Store) :
    (world.changeTarget target change).store? other = world.store? other := by
  cases target with
  | shared =>
    cases other with
    | shared => exact absurd rfl apart
    | named name => rfl
  | named path =>
    cases other with
    | shared => rfl
    | named name =>
      have elsewhere : name ≠ path := fun same => apart (congrArg Target.named same)
      unfold store? changeTarget
      dsimp only
      induction world.memories with
      | nil => rfl
      | cons memory rest ih =>
        obtain ⟨own, store⟩ := memory
        by_cases here : own = name
        · subst here
          simp [elsewhere]
        · by_cases there : own = path <;> simpa [here, there, Ne.symm elsewhere] using ih

/-- A preload ends in one of the two ways, whatever is pending meanwhile and however many turns it
has had. -/
theorem finished_runLoad (setup : Setup) (world : World) (load : Load) (turns : ℕ)
    (pending left : List Load) :
    Finished setup { load with turns } { world with pending }
      { (runLoad setup world load).1 with pending := left } (runLoad setup world load).2 := by
  unfold runLoad
  cases known : target? setup world load.target with
  | none => exact .failed (.inl known) ⟨rfl, rfl, rfl⟩ rfl
  | some target =>
    dsimp only
    cases read : readImage setup (imagePath setup load.dataFile) with
    | error fault => exact .failed (.inr ⟨fault, read⟩) ⟨rfl, rfl, rfl⟩ rfl
    | ok image =>
      refine .loaded known read ?_ (fun other apart => ?_) ?_ rfl
      · exact world.store?_changeTarget target _
      · exact world.store?_changeTarget_of_ne apart _
      · cases target <;> rfl

theorem started_runLoad (setup : Setup) (world : World) (load : Load) :
    (runLoad setup world load).1.started = world.started := by
  unfold runLoad
  cases target? setup world load.target with
  | none => rfl
  | some target =>
    dsimp only
    cases readImage setup (imagePath setup load.dataFile) with
    | error fault => rfl
    | ok image => cases target <;> rfl

/-! ## Moves -/

/-- The preloads that are pending, without the turns they have had. -/
def World.queue (world : World) : List Load :=
  world.pending.map fun load => { load with turns := 0 }

/-- Pending preloads were started and are told apart by their handles. -/
structure World.Queued (world : World) : Prop where
  started : ∀ load ∈ world.queue, load.handle < world.started
  apart : (world.queue.map (·.handle)).Nodup

/-- One move of the model, with what it writes to the log. -/
inductive Move (setup : Setup) : World → World → List LogRecord → Prop
  /-- The buses and the clock reach the shared store and the counters only. -/
  | pass {before after : World} :
      after.memories = before.memories → after.loaded = before.loaded →
      after.started = before.started → after.queue = before.queue → Move setup before after []
  | start {before after : World} {target dataFile : String} :
      before.Kept after → after.started = before.started + 1 →
      after.queue = before.queue ++ [{ handle := before.started, target, dataFile }] →
      Move setup before after []
  /-- A pending preload runs, and is pending no more. -/
  | run {before after : World} {load : Load} {front behind : List Load} {record : LogRecord} :
      before.queue = front ++ load :: behind → Finished setup load before after record →
      after.started = before.started → after.queue = front ++ behind →
      Move setup before after [record]

/-- Moves one after the other, with all that they write to the log. -/
inductive Moves (setup : Setup) (start : World) : World → List LogRecord → Prop
  | none : Moves setup start start []
  | move {before after : World} {logs told : List LogRecord} :
      Moves setup start before logs → Move setup before after told →
        Moves setup start after (logs ++ told)

/-- The preload was started and has come to its end. -/
def World.IsOver (world : World) (handle : Nat) : Prop :=
  handle < world.started ∧ handle ∉ world.queue.map (·.handle)

theorem isFinished_iff {world : World} {handle : Nat} :
    isFinished world handle = true ↔ world.IsOver handle := by
  simp [isFinished, World.IsOver, World.queue]

section

variable {setup : Setup} {world before after : World} {logs told : List LogRecord}

theorem Move.moves (move : Move setup before after told) : Moves setup before after told :=
  Moves.none.move move

theorem Moves.trans (first : Moves setup world before logs) (rest : Moves setup before after told) :
    Moves setup world after (logs ++ told) := by
  induction rest with
  | none => rwa [List.append_nil]
  | move _ move ih =>
    rw [← List.append_assoc]
    exact ih.move move

/-- What writes nothing to the log runs no preload, so no memory is loaded by it. -/
theorem Move.unloaded (move : Move setup before after []) :
    after.memories = before.memories ∧ after.loaded = before.loaded := by
  cases move with
  | pass memories loaded _ _ => exact ⟨memories, loaded⟩
  | start kept _ _ => exact ⟨kept.memories, kept.loaded⟩

theorem Moves.unloaded (moves : Moves setup before after logs) (silent : logs = []) :
    after.memories = before.memories ∧ after.loaded = before.loaded := by
  induction moves with
  | none => exact ⟨rfl, rfl⟩
  | move _ move ih =>
    obtain ⟨quiet, rfl⟩ := List.append_eq_nil_iff.mp silent
    obtain ⟨memories, loaded⟩ := ih quiet
    exact ⟨move.unloaded.1.trans memories, move.unloaded.2.trans loaded⟩

theorem Move.queued (move : Move setup before after told) (queued : before.Queued) :
    after.Queued := by
  obtain ⟨started, apart⟩ := queued
  cases move with
  | pass _ _ count queue =>
    constructor
    · rwa [queue, count]
    · rwa [queue]
  | start _ count queue =>
    constructor
    · intro load member
      rw [queue] at member
      rw [count]
      rcases List.mem_append.mp member with earlier | last
      · exact Nat.lt_succ_of_lt (started load earlier)
      · rw [List.mem_singleton.mp last]
        exact Nat.lt_succ_self _
    · rw [queue, List.map_append, List.map_singleton, ← List.concat_eq_append]
      refine apart.concat fun member => ?_
      obtain ⟨load, earlier, same⟩ := List.mem_map.mp member
      exact absurd same (Nat.ne_of_lt (started load earlier))
  | run split _ count queue =>
    have fewer : after.queue.Sublist before.queue := by
      rw [queue, split]
      exact (List.Sublist.refl _).append (List.sublist_cons_self _ _)
    constructor
    · intro load member
      rw [count]
      exact started load (fewer.subset member)
    · exact (fewer.map _).nodup apart

/-- A preload that has come to its end is never pending again. -/
theorem Move.isOver (move : Move setup before after told) {handle : Nat}
    (ended : before.IsOver handle) : after.IsOver handle := by
  obtain ⟨started, absent⟩ := ended
  cases move with
  | pass _ _ count queue =>
    refine ⟨by rwa [count], ?_⟩
    rwa [queue]
  | start _ count queue =>
    refine ⟨by omega, fun member => ?_⟩
    rw [queue, List.map_append, List.map_singleton, List.mem_append, List.mem_singleton] at member
    exact member.elim absent (Nat.ne_of_lt started)
  | run split _ count queue =>
    refine ⟨by rwa [count], fun member => absent ?_⟩
    rw [split]
    rw [queue] at member
    exact ((List.Sublist.refl _).append (List.sublist_cons_self _ _)).map _ |>.subset member

theorem Moves.isOver (moves : Moves setup before after told) {handle : ℕ}
    (ended : before.IsOver handle) : after.IsOver handle := by
  induction moves with
  | none => exact ended
  | move _ move ih => exact move.isOver ih

/-- What has become of a preload: it is pending, or it has run and is over. -/
inductive Fate (setup : Setup) (load : Load) (start later : World) (logs : List LogRecord) : Prop
  | pending : load ∈ later.queue → Fate setup load start later logs
  | ended {before after : World} {earlier rest : List LogRecord} {record : LogRecord} :
      Moves setup start before earlier → load ∈ before.queue →
      Finished setup load before after record → after.IsOver load.handle →
      Moves setup after later rest → logs = earlier ++ record :: rest →
      Fate setup load start later logs

/-- A move leaves a pending preload pending, unless it is the run of this one. -/
theorem Move.fate (move : Move setup before after told) (queued : before.Queued) {load : Load}
    (pending : load ∈ before.queue) : Fate setup load before after told := by
  cases move with
  | pass _ _ _ queue => exact .pending (by rwa [queue])
  | start _ _ queue => exact .pending (by rw [queue]; exact List.mem_append_left _ pending)
  | @run other front behind record split finished count queue =>
    by_cases same : load = other
    · subst same
      refine .ended .none pending finished ⟨?_, ?_⟩ .none rfl
      · rw [count]
        exact queued.started load pending
      · have apart := queued.apart
        rw [split, List.map_append, List.map_cons, List.nodup_middle] at apart
        rw [queue, List.map_append]
        exact (List.nodup_cons.mp apart).1
    · rw [split] at pending
      refine .pending ?_
      rw [queue]
      rcases List.mem_append.mp pending with earlier | later
      · exact List.mem_append_left _ earlier
      · exact List.mem_append_right _ (List.mem_of_ne_of_mem same later)

theorem Moves.fate (moves : Moves setup world after logs) (queued : world.Queued) {load : Load}
    (pending : load ∈ world.queue) : after.Queued ∧ Fate setup load world after logs := by
  induction moves with
  | none => exact ⟨queued, .pending pending⟩
  | move moves move ih =>
    obtain ⟨queued, fate⟩ := ih
    refine ⟨move.queued queued, ?_⟩
    cases fate with
    | pending waiting =>
      cases move.fate queued waiting with
      | pending waiting => exact .pending waiting
      | ended begun waiting finished ended more split =>
        refine .ended (moves.trans begun) waiting finished ended more ?_
        rw [split, List.append_assoc]
    | ended begun waiting finished ended more split =>
      refine .ended begun waiting finished ended (more.move move) ?_
      rw [split, List.append_assoc, List.cons_append]

end

/-! ## Effects -/

section

variable (setup : Setup)

/-- Preloads that are taken from the pending ones run one after the other, and the others stay. -/
theorem moves_runLoads (taken : Load → Bool) (stay pending : List Load) (world : World) :
    Moves setup { world with pending := stay ++ pending }
      { (runLoads setup world (pending.filter taken)).1 with
        pending := stay ++ pending.filter fun load => !taken load }
      (runLoads setup world (pending.filter taken)).2 := by
  induction pending generalizing stay world with
  | nil => exact .none
  | cons load rest ih =>
    cases chosen : taken load with
    | true =>
      rw [List.filter_cons_of_pos chosen, List.filter_cons_of_neg (by simp [chosen])]
      have run : Move setup { world with pending := stay ++ load :: rest }
          { (runLoad setup world load).1 with pending := stay ++ rest }
          [(runLoad setup world load).2] := by
        refine .run (List.map_append ..) (finished_runLoad setup world load 0 _ _)
          (started_runLoad setup world load) (List.map_append ..)
      exact run.moves.trans (ih stay (runLoad setup world load).1)
    | false =>
      rw [List.filter_cons_of_neg (by simp [chosen]), List.filter_cons_of_pos (by simp [chosen])]
      have later := ih (stay ++ [load]) world
      rwa [List.append_assoc, List.append_assoc] at later

theorem moves_finishLoads (world : World) :
    Moves setup world (finishLoads setup world).1 (finishLoads setup world).2 := by
  have all := moves_runLoads setup (fun _ => true) [] world.pending world
  simpa [finishLoads] using all

theorem moves_yieldTo (times : ℕ) (world : World) :
    Moves setup world (yieldTo setup times world).1 (yieldTo setup times world).2 := by
  unfold yieldTo
  cases setup.pace with
  | seconds count => exact .none
  | turn turn =>
    have counted : Move setup world { world with
        pending := world.pending.map fun load =>
          { load with turns := load.turns + times } } [] := by
      refine .pass rfl rfl rfl ?_
      unfold World.queue
      rw [List.map_map]
      rfl
    dsimp only
    rw [List.partition_eq_filter_filter]
    exact counted.moves.trans (moves_runLoads setup (fun load => turn ≤ load.turns) [] _ world)

theorem moves_passCycles (cycles : ℕ) (world : World) :
    Moves setup world (passCycles setup cycles world).1 (passCycles setup cycles world).2 := by
  unfold passCycles
  split
  · exact .none
  · have counted : Move setup world { world with cycles := world.cycles + cycles } [] :=
      .pass rfl rfl rfl rfl
    exact counted.moves.trans (moves_yieldTo setup cycles _)

theorem moves_tick (bus : Bus) (beats : ℤ) (world : World) :
    Moves setup world (tick setup bus beats world).1 (tick setup bus beats world).2 := by
  have pass {counted : World} (move : Move setup world counted []) :
      Moves setup world
        (if setup.clocked then passCycles setup (beats * setup.latency).toNat counted
          else yieldTo setup 1 counted).1
        (if setup.clocked then passCycles setup (beats * setup.latency).toNat counted
          else yieldTo setup 1 counted).2 := by
    split
    · exact move.moves.trans (moves_passCycles setup _ counted)
    · exact move.moves.trans (moves_yieldTo setup 1 counted)
  unfold tick
  cases bus with
  | ahb => exact pass (.pass rfl rfl rfl rfl)
  | axi => exact pass (.pass rfl rfl rfl rfl)

theorem moves_write (burst : Burst) (address : ℤ) (shape : Shape) (words : List ℤ)
    (world : World) :
    Moves setup world (write setup burst address shape words world).state
      (write setup burst address shape words world).logs := by
  unfold write
  cases burst.beatBytes? setup.axiWidth shape with
  | none => exact .none
  | some bytes =>
    dsimp only
    split
    · have stored : Move setup world
          { world with shared := world.shared.writeBeats burst address bytes words } [] :=
        .pass rfl rfl rfl rfl
      exact stored.moves.trans (moves_tick setup burst.bus words.length _)
    · exact .none

theorem moves_read (burst : Burst) (address : ℤ) (shape : Shape) (length : ℤ) (world : World) :
    Moves setup world (read setup burst address shape length world).state
      (read setup burst address shape length world).logs := by
  unfold read
  cases burst.beatBytes? setup.axiWidth shape with
  | none => exact .none
  | some bytes =>
    dsimp only
    split
    · exact moves_tick setup burst.bus (length + 1) world
    · exact moves_tick setup burst.bus (length + 1) world

theorem moves_transactor (call : BusCall) (world : World) :
    Moves setup world (transactor setup call world).state (transactor setup call world).logs := by
  cases call with
  | write address data burst shape =>
    cases beats : beatsOf? burst shape with
    | none =>
      rw [transactor, beats]
      exact .none
    | some beats' =>
      rw [transactor, beats]
      exact moves_write setup burst address shape (List.replicate beats' data) world
  | read address burst shape => exact moves_read setup burst address shape 0 world
  | writeBurst address beats burst shape => exact moves_write setup burst address shape beats world
  | readBurst address burst length shape => exact moves_read setup burst address shape length world

theorem moves_wait (handle : ℕ) (bound : TimeBound) (world : World) :
    Moves setup world ((loader setup).wait handle bound world).state
      ((loader setup).wait handle bound world).logs := by
  show Moves setup world (waitForLoad setup handle bound world).2.1
    (waitForLoad setup handle bound world).2.2
  unfold waitForLoad
  cases setup.pace with
  | turn turn =>
    dsimp only
    split
    · exact .none
    · exact moves_finishLoads setup world
  | seconds count =>
    dsimp only
    split
    · exact .none
    · split
      · exact moves_finishLoads setup world
      · exact .none

theorem moves_request (target dataFile : String) (world : World) :
    Moves setup world ((loader setup).request target dataFile world).state
      ((loader setup).request target dataFile world).logs :=
  Move.moves (.start ⟨rfl, rfl, rfl⟩ rfl (List.map_append ..))

end

/-- What the bench of the model comes to, asked for one thing after the other. -/
inductive Served (setup : Setup) (start : World) : World → List LogRecord → Prop
  | none : Served setup start start []
  | call {world : World} {logs : List LogRecord} (call : BusCall) :
      Served setup start world logs →
      Served setup start (transactor setup call world).state
        (logs ++ (transactor setup call world).logs)
  | cycles {world : World} {logs : List LogRecord} (cycles : ℕ) :
      Served setup start world logs →
      Served setup start (clock setup cycles world).state (logs ++ (clock setup cycles world).logs)
  | preload {world : World} {logs : List LogRecord} (target dataFile : String) :
      Served setup start world logs →
      Served setup start ((loader setup).request target dataFile world).state
        (logs ++ ((loader setup).request target dataFile world).logs)
  | wait {world : World} {logs : List LogRecord} (handle : ℕ) (bound : TimeBound) :
      Served setup start world logs →
      Served setup start ((loader setup).wait handle bound world).state
        (logs ++ ((loader setup).wait handle bound world).logs)

theorem Served.moves {setup : Setup} {start world : World} {logs : List LogRecord}
    (served : Served setup start world logs) : Moves setup start world logs := by
  induction served with
  | none => exact .none
  | call call _ ih => exact ih.trans (moves_transactor setup call _)
  | cycles cycles _ ih => exact ih.trans (moves_passCycles setup cycles _)
  | preload target dataFile _ ih => exact ih.trans (moves_request setup target dataFile _)
  | wait handle bound _ ih => exact ih.trans (moves_wait setup handle bound _)

/-! ## Waits -/

/-- The seconds that a wait for a pending preload has to go beyond to see it complete. -/
def Setup.patience (setup : Setup) (load : Load) : Float :=
  match setup.pace with
  | .turn turn => if turn ≤ load.turns + 1 then 0 else turnSeconds
  | .seconds count => count

section

variable {setup : Setup} {world : World}

theorem wait_of_isOver {handle : ℕ} (ended : world.IsOver handle) (bound : TimeBound) :
    ((loader setup).wait handle bound world).result = .ok true := by
  have finished : isFinished world handle = true := isFinished_iff.mpr ended
  show Except.ok (waitForLoad setup handle bound world).1 = _
  unfold waitForLoad
  cases setup.pace with
  | turn turn =>
    dsimp only
    rw [finished]
    split <;> rfl
  | seconds count =>
    dsimp only
    rw [finished]
    rfl

theorem World.Queued.eq_of_handle (queued : world.Queued) {load other : Load}
    (pending : load ∈ world.pending) (also : other ∈ world.pending)
    (same : other.handle = load.handle) : other = load := by
  have apart : (world.pending.map (·.handle)).Nodup := by
    have apart := queued.apart
    rwa [World.queue, List.map_map] at apart
  exact List.inj_on_of_nodup_map apart also pending same

theorem isFinished_of_pending {load : Load} (pending : load ∈ world.pending) :
    isFinished world load.handle = false := by
  rw [Bool.eq_false_iff, ne_eq, isFinished_iff]
  rintro ⟨-, absent⟩
  rw [World.queue, List.map_map] at absent
  exact absent (List.mem_map_of_mem pending)

theorem wait_of_pending (queued : world.Queued) {load : Load} (pending : load ∈ world.pending)
    (bound : TimeBound) :
    ((loader setup).wait load.handle bound world).result =
      .ok (decide (setup.patience load < seconds bound)) := by
  have unfinished := isFinished_of_pending pending
  show Except.ok (waitForLoad setup load.handle bound world).1 = _
  unfold waitForLoad Setup.patience
  cases setup.pace with
  | turn turn =>
    have last : (world.pending.all fun other =>
        decide (other.handle ≠ load.handle) || decide (turn ≤ other.turns + 1)) =
          decide (turn ≤ load.turns + 1) := by
      rw [Bool.eq_iff_iff, List.all_eq_true, decide_eq_true_eq]
      constructor
      · intro all
        simpa using all load pending
      · intro near other also
        by_cases same : other.handle = load.handle
        · rw [queued.eq_of_handle pending also same]
          simp [near]
        · simp [same]
    dsimp only
    rw [unfinished, last]
    simp
  | seconds count =>
    dsimp only
    rw [unfinished]
    by_cases enough : count < seconds bound <;> simp [enough]

/-- After a wait that is long enough none is pending. -/
theorem queue_of_wait {load : Load} (pending : load ∈ world.pending) {bound : TimeBound}
    (long : setup.patience load < seconds bound) :
    ((loader setup).wait load.handle bound world).state.queue = [] := by
  have unfinished := isFinished_of_pending pending
  show (waitForLoad setup load.handle bound world).2.1.queue = []
  unfold Setup.patience at long
  unfold waitForLoad
  cases pace : setup.pace with
  | turn turn =>
    dsimp only
    rw [unfinished]
    rfl
  | seconds count =>
    rw [pace] at long
    dsimp only
    rw [unfinished, if_neg Bool.false_ne_true, if_pos long]
    rfl

/-- A preload is pending until it has run once. Then it was either loaded, which is one record and
one more target in the list, or it failed, which is one record and changes nothing. Either way it is
done from then on, and a wait for it reports completion. -/
theorem preload_all_or_nothing (setup : Setup) {world : World} (queued : world.Queued)
    (target dataFile : String) :
    ∃ asked, (loader setup).request target dataFile world = ⟨.ok world.started, asked, []⟩ ∧
      world.Kept asked ∧
      ∀ later logs, Served setup asked later logs →
        ((loader setup).done world.started later = false ∧
          ∃ load ∈ later.pending, load.handle = world.started ∧ load.target = target ∧
            load.dataFile = dataFile ∧
            ∀ bound, ((loader setup).wait world.started bound later).result =
                .ok (decide (setup.patience load < seconds bound)) ∧
              (setup.patience load < seconds bound →
                (loader setup).done world.started
                  ((loader setup).wait world.started bound later).state = true)) ∨
        ∃ before after earlier record rest,
          Moves setup asked before earlier ∧ (loader setup).done world.started before = false ∧
          Finished setup { handle := world.started, target, dataFile } before after record ∧
          (loader setup).done world.started after = true ∧ Moves setup after later rest ∧
          logs = earlier ++ record :: rest ∧
          (loader setup).done world.started later = true ∧
          ∀ bound, ((loader setup).wait world.started bound later).result = .ok true := by
  let load : Load := { handle := world.started, target, dataFile }
  let asked : World :=
    { world with started := world.started + 1, pending := world.pending ++ [load] }
  have begun : Move setup world asked [] := .start ⟨rfl, rfl, rfl⟩ rfl (List.map_append ..)
  have waiting : load ∈ asked.queue := by
    unfold World.queue
    rw [List.map_append]
    exact List.mem_append_right _ List.mem_cons_self
  refine ⟨asked, rfl, ⟨rfl, rfl, rfl⟩, fun later logs served => ?_⟩
  obtain ⟨queued, fate⟩ := served.moves.fate (begun.queued queued) waiting
  cases fate with
  | pending waiting =>
    left
    obtain ⟨own, pending, same⟩ := List.mem_map.mp waiting
    have handle : own.handle = world.started := congrArg Load.handle same
    rw [← handle]
    refine ⟨isFinished_of_pending pending, own, pending, rfl, congrArg Load.target same,
      congrArg Load.dataFile same, fun bound => ⟨wait_of_pending queued pending bound, ?_⟩⟩
    intro long
    have empty := queue_of_wait pending long
    cases ((moves_wait setup own.handle bound later).fate queued waiting).2 with
    | pending waiting =>
      rw [empty] at waiting
      cases waiting
    | ended _ _ _ ended more _ =>
      have ended := more.isOver ended
      exact isFinished_iff.mpr (handle ▸ ended)
  | ended first waiting finished ended more split =>
    right
    obtain ⟨own, pending, same⟩ := List.mem_map.mp waiting
    have handle : own.handle = world.started := congrArg Load.handle same
    have ended' := more.isOver ended
    refine ⟨_, _, _, _, _, first, handle ▸ isFinished_of_pending pending, finished,
      isFinished_iff.mpr ended, more, split, isFinished_iff.mpr ended', wait_of_isOver ended'⟩

/-- An image with a bad item behind two good words: after one cycle its preload has failed, nothing
has come to the memory, and a wait reports completion. -/
theorem preload_of_bad_image_ends :
    let setup : Setup :=
      { axiWidth := 64
        files := ⟨[(["a.hex"], .file (Text.Utf8.encode "11 22 xyz".toList))]⟩ }
    let world : World := { memories := [("top.rom", {})] }
    let asked : World := ((loader setup).request "top.rom" "a.hex" world).state
    world.Queued ∧
      (∃ before after record, Moves setup asked before [] ∧ before.Kept after ∧
        Moves setup after (clock setup 1 asked).state [] ∧ record.level = .error ∧
        (clock setup 1 asked).logs = [record]) ∧
      (clock setup 1 asked).state.memories = [("top.rom", {})] ∧
      (clock setup 1 asked).state.loaded = [] ∧
      ∀ bound,
        ((loader setup).wait world.started bound (clock setup 1 asked).state).result =
          .ok true := by
  intro setup world asked
  have queued : world.Queued := ⟨List.forall_mem_nil _, List.nodup_nil⟩
  have bad : readImage setup (imagePath setup "a.hex") = .error (.malformed ⟨1, "xyz"⟩) := by
    decide +kernel
  have done : (loader setup).done world.started (clock setup 1 asked).state = true := by
    decide +kernel
  have told : (clock setup 1 asked).logs.length = 1 := by decide +kernel
  obtain ⟨_, same, begun, course⟩ := preload_all_or_nothing setup queued "top.rom" "a.hex"
  obtain rfl : asked = _ := congrArg Response.state same
  rcases course _ _ (.cycles 1 .none) with ⟨undone, -⟩ | ⟨before, after, earlier, record, rest,
    first, -, finished, -, more, split, -, reported⟩
  · rw [done] at undone
    cases undone
  · -- The one record is that of the preload, so nothing else has run.
    rw [List.nil_append] at split
    obtain ⟨rfl, rfl⟩ : earlier = [] ∧ rest = [] := by
      rw [split, List.length_append, List.length_cons] at told
      exact ⟨List.eq_nil_of_length_eq_zero (by omega), List.eq_nil_of_length_eq_zero (by omega)⟩
    rw [List.nil_append] at split
    cases finished with
    | loaded _ read =>
      have read : readImage setup (imagePath setup "a.hex") = .ok _ := read
      rw [bad] at read
      cases read
    | failed _ kept level =>
      obtain ⟨memories, loaded⟩ := first.unloaded rfl
      obtain ⟨behind, listed⟩ := more.unloaded rfl
      have stores : (clock setup 1 asked).state.memories = world.memories :=
        behind.trans (kept.memories.trans (memories.trans begun.memories))
      have list : (clock setup 1 asked).state.loaded = world.loaded :=
        listed.trans (kept.loaded.trans (loaded.trans begun.loaded))
      exact ⟨queued, ⟨before, after, record, first, kept, more, level, split⟩, stores, list,
        reported⟩

end

end BusScript.Model
