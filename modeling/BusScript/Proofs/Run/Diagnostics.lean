import BusScript.Bench.Recording
import BusScript.Proofs.Command.Faults
import BusScript.Proofs.Run.Faults

/-!
# Diagnostics of lines

A script error names the line that it is about, wherever it comes from: the grammar knows the line,
and whatever is refused later is refused under the line of its action (`RunFault.At`). The engine
itself logs it once, and nothing before it: whatever else was written to the log comes from other
parts of the engine or from the bench (`Told`).
-/

namespace BusScript

/-! ## Errors of a line -/

/-- The error names a line: in its message, in front of the reason and the token, and for good. -/
structure ScriptError.Names (error : ScriptError) (n : Int) : Prop where
  line : error.line = some n
  message : error.message = s!"line {n}: " ++ (error.cause.reason ++
    match error.cause.token? with
    | none => ""
    | some token => s!" ('{token}')")
  kept : ∀ line, error.atLine line = error

theorem ScriptError.names_of_told {error : ScriptError} {n : Int} (line : error.line = some n)
    (told : error.Told) : error.Names n where
  line := line
  message := by
    rw [told, line, Cause.text]
    cases error.cause.token? with
    | none => exact congrArg (s!"line {n}: " ++ ·) String.append_empty.symm
    | some token =>
      refine congrArg (s!"line {n}: " ++ ·) ?_
      show error.cause.reason ++ " ('" ++ token ++ "')" =
        error.cause.reason ++ (" ('" ++ token ++ "')")
      simp only [String.append_assoc]
  kept other := by
    rw [ScriptError.atLine, line]

/-- A script error is one of this line, and tells it. -/
def RunFault.At (line : Option Int) (fault : RunFault) : Prop :=
  ∀ error, fault = .script error → error.line = line ∧ error.Told

theorem Run.failsAt_of_unscripted {σ α : Type} {I : PreloadState → Prop} {x : Run σ α}
    {line : Option Int} (never : Run.FailsWith I RunFault.Unscripted x) :
    Run.FailsWith I (RunFault.At line) x := by
  intro s r t holds ended
  obtain ⟨kept, unscripted⟩ := never s r t holds ended
  cases r with
  | ok a => exact ⟨kept, trivial⟩
  | error fault => exact ⟨kept, fun error equal => absurd equal (unscripted error)⟩

/-! ## The bench in the log -/

/-- Something that the bench writes to the log when it is asked for a call or for cycles. -/
inductive Bench.Writes {σ : Type} (bench : Bench σ) (record : LogRecord) : Prop
  | call {bus : Bus} {transactor : Transactor σ} {call : BusCall} {world : σ} :
      bench.transactor? bus = some transactor → record ∈ (transactor call world).logs →
      bench.Writes record
  | cycles {clock : Nat → Effect σ Unit} {count : Nat} {world : σ} :
      bench.clock = some clock → record ∈ (clock count world).logs → bench.Writes record

namespace Engine

open Run

variable {σ α : Type} {e : Engine σ} {line : Option Int}

/-! ## Lines of actions -/

/-- Whatever refuses an action does so under the line of the action: neither the bench nor the
coordinator of preloads comes up with a script error. -/
theorem mayFail_at (e : Engine σ) (line : Option Int) :
    e.MayFail line (fun _ => True) (RunFault.At line) where
  script cause error equal := by
    cases equal
    exact ⟨rfl, rfl⟩
  call _ _ := failsAt_of_unscripted failsWith_ask_unscripted
  beats _ _ error equal := by cases equal
  cycles _ _ := failsAt_of_unscripted failsWith_ask_unscripted
  request {coordinator} _ p := failsAt_of_unscripted (coordinator.failsWith_request_unscripted p)

/-- A script error that a line ends in is one of this line, and tells it. -/
theorem line_and_told_of_perform {text : String} {s u : RunState σ} {error : ScriptError}
    (failed : e.perform text line s = .error (.script error) u) :
    error.line = line ∧ error.Told := by
  rcases perform_error_iff.mp failed with ⟨fault, refused, equal, -⟩ | ⟨action, parsed, failed⟩
  · cases fault with
    | script found =>
      cases equal
      exact Grammar.line_and_told_of_parse refused
    | countTooLong digits => cases equal
  · rw [← (Grammar.wellFormed_of_parse parsed).line_eq]
    exact failsWith_true_iff.mp (mayFail_at e action.line).execute s _ u failed error rfl

/-! ## The log -/

/-- Of what was added to the log nothing is of the engine itself, unless the bench wrote it. -/
def Told (bench : Bench σ) (s t : RunState σ) : Prop :=
  ∃ told : Array LogRecord, t.log = s.log ++ told ∧
    ∀ record ∈ told, record.logger = .engine → bench.Writes record

theorem told_of_log_eq {bench : Bench σ} {s t : RunState σ} (same : t.log = s.log) :
    Told bench s t := by
  refine ⟨#[], same.trans Array.append_empty.symm, fun record member => ?_⟩
  exact absurd member (Array.not_mem_empty record)

instance (bench : Bench σ) : Std.Refl (Told bench) where
  refl _ := told_of_log_eq rfl

instance (bench : Bench σ) : IsTrans _ (Told bench) where
  trans _ _ _ first later := by
    obtain ⟨told, log, written⟩ := first
    obtain ⟨more, logged, writes⟩ := later
    refine ⟨told ++ more, by rw [logged, log, Array.append_assoc], fun record member => ?_⟩
    rcases Array.mem_append.mp member with earlier | later
    · exact written record earlier
    · exact writes record later

theorem keeps_ask_told {effect : Effect σ α}
    (writes : ∀ world, ∀ record ∈ (effect world).logs, e.bench.Writes record) :
    Keeps (Told e.bench) (ask effect) := by
  have told (s : RunState σ) : Told e.bench s { s with
      world := (effect s.world).state
      log := s.log ++ (effect s.world).logs.toArray } :=
    ⟨_, rfl, fun record member _ => writes s.world record (List.mem_toArray.mp member)⟩
  intro s
  constructor
  · intro a t ended
    obtain ⟨-, rfl⟩ := ask_ok_iff.mp ended
    exact told s
  · intro fault t ended
    obtain ⟨reason, -, -, rfl⟩ := ask_error_iff.mp ended
    exact told s

theorem keeps_say_told {level : LogLevel} {logger : Logger} {message : String}
    (other : logger ≠ .engine) :
    Keeps (Told e.bench) (say level logger message : Run σ Unit) := by
  refine keeps_modify fun s => ⟨#[⟨level, logger, message⟩], rfl, fun record member engine => ?_⟩
  obtain rfl := Array.mem_singleton.mp member
  exact absurd engine other

theorem keeps_emit_told (record : TraceRecord) :
    Keeps (Told e.bench) (emit record : Run σ Unit) := by
  unfold emit
  exact (keeps_say_told (by decide)).bind fun _ => keeps_modify fun _ => told_of_log_eq rfl

theorem keeps_enter_told (verdict : Verdict) :
    Keeps (Told e.bench) (enter verdict : Run σ Unit) := by
  have counted : Keeps (Told e.bench) (count (·.record verdict) : Run σ Unit) :=
    keeps_modify fun _ => told_of_log_eq rfl
  refine counted.bind fun _ => ?_
  cases verdict with
  | pass => exact keeps_pure
  | fail failure => exact keeps_say_told (by decide)

theorem readsKeep_told : e.ReadsKeep (Told e.bench) where
  read attached := keeps_ask_told fun _ _ member => .call attached member
  readBurst attached := keeps_ask_told fun _ _ member => .call attached member
  clock attached := keeps_ask_told fun _ _ member => .cycles attached member

theorem keeps_transaction_told (t : Transaction) : Keeps (Told e.bench) (e.transaction t) := by
  rw [transaction_eq]
  have dispatched : Keeps (Told e.bench) (e.dispatch t) :=
    keeps_dispatch_of fun _ attached _ => keeps_ask_told fun _ _ member => .call attached member
  refine dispatched.bind fun observed => Keeps.bind ?concluded fun _ => ?refused
  case concluded =>
    cases observed with
    | none => exact keeps_emit_told _
    | some data =>
      refine Keeps.bind ?_ fun status => keeps_emit_told _
      unfold check
      split
      · exact keeps_pure
      · cases t.score data with
        | none => exact keeps_pure
        | some verdict => exact (keeps_enter_told verdict).bind fun _ => keeps_pure
  case refused =>
    unfold refuseMismatch
    cases t.mismatch with
    | some mismatch => exact keeps_throw
    | none => exact keeps_pure

/-- Before a line ends in a script error, the engine itself has written nothing to the log. -/
theorem told_of_perform {text : String} {s u : RunState σ} {error : ScriptError}
    (failed : e.perform text line s = .error (.script error) u) : Told e.bench s u := by
  rcases perform_error_iff.mp failed with ⟨_, -, -, rfl⟩ | ⟨action, -, failed⟩
  · exact Std.Refl.refl u
  · cases action with
    | transaction t => exact (keeps_transaction_told t s).2 _ u failed
    | poll p =>
      have kept : Keeps (Told e.bench) (e.poll p) :=
        (readsKeep_told.pollReads p {} _).bind fun _ =>
          (keeps_enter_told _).bind fun _ => keeps_emit_told _
      exact (kept s).2 _ u failed
    | wait w =>
      have kept : Keeps (Told e.bench) (e.wait w) :=
        (readsKeep_told.waitCycles w.cycles w.line).bind fun _ => keeps_emit_told _
      exact (kept s).2 _ u failed
    | preload p =>
      rw [(untouched_of_preload failed).1]
      exact Std.Refl.refl s

/-! ## Diagnostics -/

/-- A line counts an error only if it ends in a script error. -/
theorem exists_error_of_counts {text : String} {s t : RunState σ} {r : Except RunFault Unit}
    (ended : Ends (e.executeLine text line) s r t) (counts : t.results.errors ≠ s.results.errors) :
    r = .ok () ∧ ∃ error u, e.perform text line s = .error (.script error) u ∧
      t = counted error u := by
  cases r with
  | ok _ =>
    refine ⟨rfl, ?_⟩
    rcases executeLine_ok_iff.mp ended with performed | ⟨error, u, failed, rfl⟩
    · obtain ⟨status, compared, _, message, -, -, -, results⟩ := carried_of_perform performed
      rw [results, Results.errors_counted, if_neg compared] at counts
      exact absurd rfl counts
    · exact ⟨error, u, failed, rfl⟩
  | error fault =>
    rcases uncounted_or_timeout_of_perform (executeLine_error_iff.mp ended).1 with same | timeout
    · exact absurd (congrArg Results.errors same) counts
    · exact absurd (congrArg Results.errors timeout) counts

/-- An error that the parser finds, or that carrying out a line counts, names the line. The engine
logs it once, and nothing else that it writes itself, unless the bench writes under its name. -/
theorem diagnostics_name_their_line (e : Engine σ) (n : Int) (text : String) :
    (∀ error, e.parse text (some n) = .error (.script error) → error.Names n) ∧
    ∀ s r t, Ends (e.executeLine text (some n)) s r t → t.results.errors ≠ s.results.errors →
      r = .ok () ∧ ∃ error u, e.perform text (some n) s = .error (.script error) u ∧
        error.Names n ∧ t.results = s.results.recordError ∧
        (∃ told : Array LogRecord,
          t.log = (s.log ++ told).push ⟨.error, .engine, error.message⟩ ∧
          ∀ record ∈ told, record.logger = .engine → e.bench.Writes record) ∧
        ((∀ record, e.bench.Writes record → record.logger ≠ .engine) →
          t.log.filter (·.logger = .engine) =
            (s.log.filter (·.logger = .engine)).push ⟨.error, .engine, error.message⟩) := by
  refine ⟨fun error refused => ?parsed, fun s r t ended counts => ?carried⟩
  case parsed =>
    obtain ⟨line, told⟩ := Grammar.line_and_told_of_parse refused
    exact ScriptError.names_of_told line told
  case carried =>
    obtain ⟨rfl, error, u, failed, rfl⟩ := exists_error_of_counts ended counts
    obtain ⟨line, message⟩ := line_and_told_of_perform failed
    obtain ⟨told, log, written⟩ := told_of_perform failed
    have results : (counted error u).results = s.results.recordError :=
      congrArg Results.recordError (unfinished_of_perform failed).results_eq
    have logged : (counted error u).log =
        (s.log ++ told).push ⟨.error, .engine, error.message⟩ :=
      congrArg (Array.push · _) log
    refine ⟨rfl, error, u, failed, ScriptError.names_of_told line message, results,
      ⟨told, logged, written⟩, fun silent => ?_⟩
    have none : told.filter (·.logger = .engine) = #[] := by
      refine Array.filter_eq_empty_iff.mpr fun record member engine => ?_
      have engine : record.logger = .engine := of_decide_eq_true engine
      exact silent record (written record member engine) engine
    rw [logged]
    refine (Array.filter_push_of_pos rfl (Array.size_push _)).trans ?_
    rw [Array.filter_append Array.size_append, none, Array.append_empty]

/-- A read of two beats that expects one word is carried out, and its line named in one error. -/
theorem mismatched_read_names_its_line :
    let e : Engine Recording.World := { bench := { axi := some Recording.axi } }
    ∃ (t : RunState Recording.World) (error : ScriptError),
      e.executeLine "AXI READ 0x20 INCR 1 0x5" (some 7) { world := {} } = .ok () t ∧
      t.traces.size = 1 ∧ t.results.errors = 1 ∧ error.Names 7 ∧
      error.cause = .beatMismatch (.axiRead 1 1) ∧
      t.log.filter (·.logger = .engine) = #[⟨.error, .engine, error.message⟩] := by
  intro e
  have parsed : e.parse "AXI READ 0x20 INCR 1 0x5" (some 7) = .ok (.transaction {
      operation := .read, address := 0x20, burst := .axi .incr, width := 64, length := 1
      line := some 7, mismatch := some (.axiRead 1 1) }) := by decide +kernel
  have failed : e.perform "AXI READ 0x20 INCR 1 0x5" (some 7) { world := {} } =
      .error (.script { cause := .beatMismatch (.axiRead 1 1), line := some 7 }) _ :=
    perform_error_iff.mpr (.inr ⟨_, parsed, rfl⟩)
  have ended : e.executeLine "AXI READ 0x20 INCR 1 0x5" (some 7) { world := {} } = .ok () _ :=
    executeLine_ok_iff.mpr (.inr ⟨_, _, failed, rfl⟩)
  obtain ⟨-, error, u, found, names, -, -, logged⟩ :=
    (diagnostics_name_their_line e 7 "AXI READ 0x20 INCR 1 0x5").2 _ (.ok ()) _ ended
      Nat.one_ne_zero
  have silent : ∀ record, e.bench.Writes record → record.logger ≠ .engine := by
    intro record writes
    cases writes with
    | @call bus transactor call world attached member =>
      cases bus with
      | ahb => cases attached
      | axi =>
        cases attached
        cases member
    | cycles attached member => cases attached
  cases found.symm.trans failed
  refine ⟨_, _, ended, rfl, rfl, names, rfl, (logged silent).trans ?_⟩
  rw [Array.filter_empty]
  rfl

end Engine

end BusScript
