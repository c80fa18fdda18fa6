import BusScript.Proofs.Command.Containment
import BusScript.Proofs.Run.Faults

/-!
# Runs that reach their end

In surroundings that answer, and under the policy to let the last preload win, script errors are the
only faults of an action (`failsWith_execute`), and a script error does not end a run. So only a
line that gives no script error can: a run reaches the end of a script exactly if no line of it
counts too far (`Grammar.CountsTooLong`). Each line is then carried out once, or in error and
counted.
-/

namespace BusScript

/-- Surroundings that always answer: what is attached never fails, and a read of one beat gives at
least one. -/
structure Bench.Answers {σ : Type} (bench : Bench σ) : Prop where
  call : ∀ {bus transactor}, bench.transactor? bus = some transactor →
    ∀ call world, ∃ reply, (transactor call world).result = .ok reply
  beat : ∀ {bus transactor}, bench.transactor? bus = some transactor →
    ∀ address burst shape world,
      (transactor (.readBurst address burst 0 shape) world).result ≠ .ok []
  clock : ∀ {clock}, bench.clock = some clock →
    ∀ cycles world, ∃ done, (clock cycles world).result = .ok done
  request : ∀ {loader}, bench.loader = some loader →
    ∀ target dataFile world, ∃ handle, (loader.request target dataFile world).result = .ok handle
  wait : ∀ {loader}, bench.loader = some loader →
    ∀ handle bound world, ∃ completed, (loader.wait handle bound world).result = .ok completed

/-- The fault is a script error. -/
def RunFault.IsScript (fault : RunFault) : Prop :=
  ∃ error, fault = .script error

namespace Engine

open Run

variable {σ : Type} {e : Engine σ} {F : RunFault → Prop}

/-! ## Faults of actions -/

theorem failsWith_answered {α : Type} {effect : Effect σ α}
    (answers : ∀ world, ∃ reply, (effect world).result = .ok reply) :
    FailsWith PreloadState.Sound F (ask effect) := by
  refine failsWith_ask fun world reason failed => ?_
  obtain ⟨reply, answered⟩ := answers world
  rw [answered] at failed
  cases failed

section

variable (answers : e.bench.Answers) (lastWins : e.config.preloadPolicy = .lastWins)

include answers lastWins

/-- The coordinator of a bench that answers never fails where all is known of the preload in
progress, and then all is known of the next one. -/
theorem failsWith_coordinator {coordinator : Coordinator σ}
    (attached : e.coordinator? = some coordinator) (reason : String) (p : Preload) :
    FailsWith PreloadState.Sound F (coordinator.waitOutstanding reason) ∧
      FailsWith PreloadState.Sound F (coordinator.request p) := by
  obtain ⟨loader, loads, rfl⟩ := Option.map_eq_some_iff.mp attached
  have wait (handle : Nat) (world : σ) (reason : CallFault)
      (failed : (loader.wait handle e.config.preloadTimeout world).result = .error reason) :
      F (.call reason) := by
    obtain ⟨completed, answered⟩ := answers.wait loads handle e.config.preloadTimeout world
    cases answered.symm.trans failed
  have request (world : σ) (reason : CallFault)
      (failed : (loader.request p.target p.dataFile world).result = .error reason) :
      F (.call reason) := by
    obtain ⟨handle, answered⟩ := answers.request loads p.target p.dataFile world
    cases answered.symm.trans failed
  have goes (stops : e.config.preloadPolicy = .abort) (message : String) :
      F (.preloadTimeout message) := by
    cases lastWins.symm.trans stops
  have whole (state : PreloadState) (sound : state.Sound) (broken : ¬state.Sound) (name : String) :
      F (.missing name) :=
    absurd sound broken
  exact ⟨Coordinator.failsWith_waitOutstanding wait goes whole reason fun waited => waited.sound,
    Coordinator.failsWith_request wait goes whole p request fun requested => requested.sound⟩

theorem failsWith_settle : FailsWith PreloadState.Sound F e.settle := by
  unfold settle
  cases attached : e.coordinator? with
  | none => exact failsWith_pure
  | some coordinator =>
    have wait : FailsWith PreloadState.Sound F coordinator.settle :=
      (failsWith_coordinator answers lastWins attached "end of script" ⟨"", "", none⟩).1
    exact wait.bind fun _ => failsWith_pure

/-- On a bench that answers only script errors are left. -/
theorem mayFail_script (line : Option Int) :
    e.MayFail line PreloadState.Sound RunFault.IsScript where
  script _ := ⟨_, rfl⟩
  call attached call := failsWith_answered (answers.call attached call)
  beats attached none := absurd none (answers.beat attached _ _ _ _)
  cycles attached count := failsWith_answered (answers.clock attached count)
  request attached p := (failsWith_coordinator answers lastWins attached "" p).2

theorem failsWith_execute (action : Action) :
    FailsWith PreloadState.Sound RunFault.IsScript (e.execute action) :=
  (mayFail_script answers lastWins action.line).execute

/-! ## Lines -/

/-- Only a line that counts too far ends a run. -/
theorem failsWith_executeLine {text : String} (line : Option Int)
    (short : ¬e.grammar.CountsTooLong text) :
    FailsWith PreloadState.Sound F (e.executeLine text line) := by
  have performs : FailsWith PreloadState.Sound RunFault.IsScript (e.perform text line) := by
    have contained : Grammar.Contained (e.grammar.parse text line) :=
      Grammar.contained_parse_iff.mpr short
    unfold perform
    cases parsed : e.parse text line with
    | ok action => exact failsWith_execute answers lastWins action
    | error fault =>
      cases fault with
      | script error => exact failsWith_throw ⟨error, rfl⟩
      | countTooLong digits => exact absurd parsed (contained digits)
  intro s r t sound ended
  cases r with
  | ok _ =>
    refine ⟨?_, trivial⟩
    rcases executeLine_ok_iff.mp ended with performed | ⟨error, m, failed, rfl⟩
    · exact (performs s (.ok ()) t sound performed).1
    · exact (performs s (.error (.script error)) m sound failed).1
  | error fault =>
    obtain ⟨failed, other⟩ := executeLine_error_iff.mp ended
    obtain ⟨error, rfl⟩ := (performs s (.error fault) t sound failed).2
    exact absurd rfl (other error)

theorem failsWith_executeLines {lines : List (Nat × String)}
    (short : ∀ number text, (number, text) ∈ lines → ¬e.grammar.CountsTooLong text) :
    FailsWith PreloadState.Sound F (e.executeLines lines) := by
  induction lines with
  | nil => exact failsWith_pure
  | cons first rest ih =>
    obtain ⟨number, text⟩ := first
    have here := short number text List.mem_cons_self
    refine (failsWith_executeLine answers lastWins (some (number : Int)) here).bind fun _ => ?_
    exact ih fun number text later => short number text (List.mem_cons_of_mem _ later)

end

/-! ## Sequences of lines -/

theorem executeLine_ne_ok {text : String} {line : Option Int} {s t : RunState σ} {u : Unit}
    (long : e.grammar.CountsTooLong text) : e.executeLine text line s ≠ .ok u t := by
  have fault : ¬Grammar.Contained (e.grammar.parse text line) := by
    rw [Grammar.contained_parse_iff]
    exact not_not_intro long
  obtain ⟨digits, parsed⟩ :
      ∃ digits, e.grammar.parse text line = .error (.countTooLong digits) := by
    by_contra none
    exact fault fun digits equal => none ⟨digits, equal⟩
  have failed : e.executeLine text line s = .error (.countTooLong digits) s := by
    refine executeLine_error_iff.mpr ⟨?_, fun error equal => by cases equal⟩
    exact perform_error_iff.mpr (.inl ⟨_, parsed, rfl, rfl⟩)
  rw [failed]
  intro equal
  cases equal

theorem short_of_executeLines {lines : List (Nat × String)} {s t : RunState σ}
    (ended : e.executeLines lines s = .ok () t) :
    ∀ number text, (number, text) ∈ lines → ¬e.grammar.CountsTooLong text := by
  induction lines generalizing s with
  | nil =>
    intro number text member
    cases member
  | cons first rest ih =>
    obtain ⟨_, m, line, ended⟩ := bind_ok_iff.mp ended
    intro number text member
    rcases List.mem_cons.mp member with rfl | later
    · exact fun long => executeLine_ne_ok long line
    · exact ih ended number text later

/-- Lines taken one by one: each is carried out, or in error and counted. -/
inductive OneByOne (e : Engine σ) : List (Nat × String) → Nat → RunState σ → RunState σ → Prop
  | none (s : RunState σ) : OneByOne e [] 0 s s
  | carried {number : Nat} {text : String} {rest : List (Nat × String)} {errors : Nat}
      {action : Action} {s m t : RunState σ} :
      e.parse text (some number) = .ok action → e.execute action s = .ok () m →
      OneByOne e rest errors m t → OneByOne e ((number, text) :: rest) errors s t
  | inError {number : Nat} {text : String} {rest : List (Nat × String)} {errors : Nat}
      {error : ScriptError} {s m t : RunState σ} :
      e.perform text (some number) s = .error (.script error) m →
      OneByOne e rest errors (counted error m) t →
      OneByOne e ((number, text) :: rest) (errors + 1) s t

theorem exists_oneByOne_of_executeLines {lines : List (Nat × String)} {s t : RunState σ}
    (ended : e.executeLines lines s = .ok () t) : ∃ errors, OneByOne e lines errors s t := by
  induction lines generalizing s with
  | nil =>
    obtain ⟨-, rfl⟩ := pure_ok_iff.mp ended
    exact ⟨0, .none s⟩
  | cons first rest ih =>
    obtain ⟨number, text⟩ := first
    obtain ⟨_, m, line, ended⟩ := bind_ok_iff.mp ended
    obtain ⟨errors, later⟩ := ih ended
    rcases executeLine_ok_iff.mp line with performed | ⟨error, n, failed, rfl⟩
    · obtain ⟨action, parsed, executed⟩ := perform_ok_iff.mp performed
      exact ⟨errors, .carried parsed executed later⟩
    · exact ⟨errors + 1, .inError failed later⟩

/-- The errors of a run are the lines in error. -/
theorem OneByOne.errors_eq {lines : List (Nat × String)} {errors : Nat} {s t : RunState σ}
    (lineByLine : OneByOne e lines errors s t) :
    t.results.errors = s.results.errors + errors := by
  induction lineByLine with
  | none s => rfl
  | carried parsed executed later ih =>
    obtain ⟨status, scored, record, message, -, -, -, results⟩ := carried_of_execute executed
    rw [ih, results, Results.errors_counted, if_neg scored]
    omega
  | inError failed later ih =>
    rename_i error s m t
    have one : (counted error m).results.errors = s.results.errors + 1 := by
      rw [counted, (unfinished_of_perform failed).results_eq, Results.recordError]
    rw [ih, one]
    omega

/-! ## Runs -/

open Script

theorem errors_of_settle {s t : RunState σ} (ended : e.settle s = .ok () t) :
    t.results.errors = s.results.errors := by
  rcases (counted_of_settle ended).1 with same | timeout
  · rw [same]
  · rw [timeout, Results.recordTimeout]

/-- Resolving a line gives an action or a script error exactly if the line does not count too far.
So a run in surroundings that answer reaches the end of its script exactly if no line counts too
far, and then it has taken each line once, the lines in error being the errors it counted. It starts
where all is known of the preload in progress, if there is one. -/
theorem run_ends_iff (answers : e.bench.Answers) (lastWins : e.config.preloadPolicy = .lastWins)
    {tree : Tree} {source rest : Source} {lines : List (Nat × String)}
    (readable : source.readAll tree = (lines, none, rest)) (s : RunState σ)
    (sound : s.preloads.Sound) :
    (∀ (grammar : Grammar) (text : String) (line : Option Int),
      ((∃ action, grammar.parse text line = .ok action) ∨
        ∃ error, grammar.parse text line = .error (.script error)) ↔
          ¬grammar.CountsTooLong text) ∧
      ((∃ results t errors log last, e.run tree source s = .ok results t ∧
          OneByOne e lines errors { s with log } last ∧
          results.errors = s.results.errors + errors) ↔
        ∀ number text, (number, text) ∈ lines → ¬e.grammar.CountsTooLong text) := by
  refine ⟨fun grammar text line => ?_, ?_⟩
  · rw [← Grammar.contained_iff, Grammar.contained_parse_iff]
  · rw [run_of_readable readable]
    constructor
    · rintro ⟨results, t, errors, log, last, ended, -⟩
      obtain ⟨_, first, said, ended⟩ := bind_ok_iff.mp ended
      obtain ⟨_, m, executed, -⟩ := bind_ok_iff.mp ended
      exact short_of_executeLines executed
    · intro short
      have carried : FailsWith PreloadState.Sound (fun _ => False) (e.executeLines lines) :=
        failsWith_executeLines answers lastWins short
      obtain ⟨_, m, executed, kept⟩ := exists_ok_of_failsWith_false carried (s := { s with
        log := s.log.push ⟨.info, .engine, s!"Running stimulus script {source.name}"⟩ }) sound
      obtain ⟨_, t, settled, -⟩ := exists_ok_of_failsWith_false
        (failsWith_settle answers lastWins) kept
      obtain ⟨errors, lineByLine⟩ := exists_oneByOne_of_executeLines executed
      refine ⟨t.results, t, errors, _, m, ?_, lineByLine, ?_⟩
      · exact bind_ok_iff.mpr ⟨(), _, say_apply _ _ _ s, bind_ok_iff.mpr ⟨(), m, executed,
          bind_ok_iff.mpr ⟨(), t, settled, rfl⟩⟩⟩
      · rw [errors_of_settle settled, lineByLine.errors_eq]

/-- One wait without cycles and one read without a transactor: the second line is in error. -/
theorem run_ends_without_bench :
    ∃ results t errors log last,
      Engine.run { bench := ({} : Bench Unit) } {} (.ofText "WAIT 0\n# idle\nAHB READ 0")
          { world := () } = .ok results t ∧
        OneByOne { bench := {} } [(1, "WAIT 0"), (3, "AHB READ 0")] errors
          { world := (), log } last ∧
        results.errors = errors := by
  have readable : Source.readAll {} (.ofText "WAIT 0\n# idle\nAHB READ 0") =
      ([(1, "WAIT 0"), (3, "AHB READ 0")], none, ⟨.text [], 3⟩) := by decide +kernel
  have answers : Bench.Answers ({} : Bench Unit) := by
    constructor
    case call =>
      intro bus transactor attached
      cases bus <;> cases attached
    case beat =>
      intro bus transactor attached
      cases bus <;> cases attached
    all_goals
      intro _ attached
      cases attached
  have wait : Grammar.parse {} "WAIT 0" none = .ok (.wait { cycles := 0 }) := by decide +kernel
  have read : Grammar.parse {} "AHB READ 0" none = .ok (.transaction {
      operation := .read, address := 0, burst := .ahb .single, width := 32
      size := some .word }) := by decide +kernel
  have ends := (run_ends_iff (e := { bench := {} }) answers rfl readable { world := () }
    (PreloadState.sound_of_idle rfl)).2
  simp only [Nat.zero_add] at ends
  refine ends.mpr ?_
  intro number text member
  rw [← Grammar.contained_parse_iff, Grammar.contained_iff]
  simp only [List.mem_cons, Prod.mk.injEq, List.not_mem_nil, or_false] at member
  rcases member with ⟨-, rfl⟩ | ⟨-, rfl⟩
  · exact .inl ⟨_, wait⟩
  · exact .inl ⟨_, read⟩

/-- A wait of so many cycles that the count has 4301 digits. -/
def endlessWait : String :=
  "WAIT " ++ String.ofList (List.replicate 4301 '1')

/-- The line gives neither an action nor a script error, and carrying it out ends the run. -/
theorem endlessWait_not_contained :
    (¬((∃ action, Grammar.parse {} endlessWait (some 1) = .ok action) ∨
        ∃ error, Grammar.parse {} endlessWait (some 1) = .error (.script error))) ∧
      ∀ (s t : RunState Unit) (u : Unit),
        executeLine { bench := {} } endlessWait (some 1) s ≠ .ok u t := by
  have long : IsOverlong (String.ofList (List.replicate 4301 '1')) := by
    constructor
    · rw [String.toList_ofList, List.all_replicate]
      decide
    · rw [String.toList_ofList, List.length_replicate]
      decide
  have counts (grammar : Grammar) : grammar.CountsTooLong endlessWait :=
    Grammar.countsTooLong_of_wait long grammar
  constructor
  · rw [← Grammar.contained_iff, Grammar.contained_parse_iff]
    exact not_not_intro (counts {})
  · intro s t u
    exact executeLine_ne_ok (counts _)

end Engine

end BusScript
