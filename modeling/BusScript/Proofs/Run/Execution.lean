import BusScript.Proofs.Command.WellFormed
import BusScript.Proofs.Run.Lines
import BusScript.Proofs.Run.Preloads
import BusScript.Proofs.Run.Reading

/-!
# What carrying out an action counts

An action that is carried out adds one record to the trace, and the counters follow the status of
that record (`Recorded`). A script error comes before anything is counted, or behind the record of a
read that cannot be compared (`Unfinished`).
-/

namespace BusScript

/-- The counters after a record of a status. A read that is not compared counts as an error, and the
message of a failure is kept. -/
def Results.counted (results : Results) (status : Status) (message : String) : Results :=
  match status with
  | .done => results
  | .pass => results.recordPass
  | .fail => results.recordFail message
  | .unscored => results.recordError
  | .timeout => results.recordTimeout

namespace Results

variable (results : Results) (status : Status) (message : String)

theorem passed_counted : (results.counted status message).passed =
    results.passed + if status = .pass then 1 else 0 := by
  cases status <;> rfl

theorem failed_counted : (results.counted status message).failed =
    results.failed + if status = .fail then 1 else 0 := by
  cases status <;> rfl

theorem timeouts_counted : (results.counted status message).timeouts =
    results.timeouts + if status = .timeout then 1 else 0 := by
  cases status <;> rfl

theorem errors_counted : (results.counted status message).errors =
    results.errors + if status = .unscored then 1 else 0 := by
  cases status <;> rfl

theorem total_counted (sum : results.total = results.passed + results.failed) :
    (results.counted status message).total =
      (results.counted status message).passed + (results.counted status message).failed := by
  cases status with
  | pass =>
    show results.total + 1 = results.passed + 1 + results.failed
    omega
  | fail =>
    show results.total + 1 = results.passed + (results.failed + 1)
    omega
  | _ => exact sum

end Results

theorem Status.name_inj {a b : Status} : a.name = b.name ↔ a = b := by
  cases a <;> cases b <;> decide

namespace Engine

open Run

variable {σ : Type} {e : Engine σ}

/-! ## Records -/

/-- A record of a line and a status is added, and the counters follow the status. -/
def Recorded (line : Option Int) (status : Status) (s t : RunState σ) : Prop :=
  ∃ record message, record.line = line ∧ record.status = some status.name ∧
    t.traces = s.traces.push record ∧ t.results = s.results.counted status message

/-- A record is added, of any status but that of a read that is not compared. -/
def Carried (line : Option Int) (s t : RunState σ) : Prop :=
  ∃ status, status ≠ .unscored ∧ Recorded line status s t

theorem Carried.after {line : Option Int} {s m t : RunState σ} (later : Carried line m t)
    (first : Uncounted s m) : Carried line s t := by
  obtain ⟨status, compared, record, message, number, named, traces, results⟩ := later
  refine ⟨status, compared, record, message, number, named, ?_, ?_⟩
  · rw [traces, first.2]
  · rw [results, first.1]

/-- What was done before a script error: nothing that counts, or a read that is not compared was
traced. -/
def Unfinished (line : Option Int) (s t : RunState σ) : Prop :=
  Uncounted s t ∨
    ∃ record, record.line = line ∧ record.status = some Status.unscored.name ∧
      t.traces = s.traces.push record ∧ t.results = s.results

/-! ## Parts that do not count -/

theorem readsKeep_uncounted : e.ReadsKeep Uncounted where
  read _ := keeps_ask_uncounted
  readBurst _ := keeps_ask_uncounted
  clock _ := keeps_ask_uncounted

/-- Carrying out a transaction keeps what the calls of its transactor keep. -/
theorem keeps_dispatch_of {R : RunState σ → RunState σ → Prop} [Std.Refl R] [IsTrans _ R]
    {t : Transaction} (asked : ∀ transactor, e.bench.transactor? t.bus = some transactor →
      ∀ call, Keeps R (ask (transactor call))) : Keeps R (e.dispatch t) := by
  unfold dispatch
  refine keeps_transactor_bind fun transactor attached => ?_
  split
  · exact (asked transactor attached _).bind fun _ => keeps_pure
  · exact (asked transactor attached _).bind fun _ => keeps_pure
  · exact (asked transactor attached _).bind fun _ => keeps_pure
  · exact (asked transactor attached _).bind fun _ => keeps_pure

theorem keeps_dispatch (t : Transaction) : Keeps Uncounted (e.dispatch t) :=
  keeps_dispatch_of fun _ _ _ => keeps_ask_uncounted

/-! ## Transactions -/

theorem check_of_mismatch {t : Transaction} (mismatch : t.mismatch.isSome) (observed : Data)
    (s : RunState σ) : check t observed s = .ok .unscored s := by
  unfold check
  rw [if_pos mismatch]
  rfl

/-- The counters follow the status of a check. -/
theorem check_of_compared {t : Transaction} (compared : t.mismatch = none) (observed : Data)
    (s : RunState σ) : ∃ status message log, status ≠ .unscored ∧
      check t observed s =
        .ok status { s with results := s.results.counted status message, log } := by
  unfold check
  rw [compared]
  cases t.score observed with
  | none => exact ⟨.done, "", s.log, by decide, rfl⟩
  | some verdict =>
    obtain ⟨log, entered⟩ := exists_enter_apply verdict s
    cases verdict with
    | pass => exact ⟨.pass, "", log, by decide, bind_ok_iff.mpr ⟨(), _, entered, rfl⟩⟩
    | fail failure =>
      exact ⟨.fail, failure.message, log, by decide, bind_ok_iff.mpr ⟨(), _, entered, rfl⟩⟩

theorem isSome_of_dispatch {t : Transaction} {observed : Option Data} {s m : RunState σ}
    (reads : t.operation = .burstRead ∨ t.operation = .read ∧ t.bus = .axi)
    (ended : e.dispatch t s = .ok observed m) : observed.isSome := by
  unfold dispatch at ended
  obtain ⟨transactor, _, -, ended⟩ := bind_ok_iff.mp ended
  rcases reads with burst | ⟨single, bus⟩
  · simp only [burst] at ended
    obtain ⟨beats, -, rfl, -⟩ := ask_map_ok_iff.mp ended
    rfl
  · simp only [single, bus] at ended
    obtain ⟨beats, -, rfl, -⟩ := ask_map_ok_iff.mp ended
    rfl

/-- Check what a transaction observed, and trace it. -/
def conclude (t : Transaction) (observed : Option Data) : Run σ Unit :=
  match observed with
  | some data => do
    let status ← check t data
    Run.emit (.ofTransaction t data status)
  | none => Run.emit (.ofTransaction t t.payload .done)

/-- Refuse a transaction whose beats cannot be compared. -/
def refuseMismatch (t : Transaction) : Run σ Unit :=
  match t.mismatch with
  | some mismatch => reject (.beatMismatch mismatch) t.line
  | none => pure ()

theorem transaction_eq (t : Transaction) :
    e.transaction t = (do
      let observed ← e.dispatch t
      conclude t observed
      refuseMismatch t) := by
  unfold transaction refuseMismatch
  refine congrArg _ (funext fun observed => ?_)
  cases observed with
  | some data => cases t.mismatch <;> simp only [conclude, bind_assoc]
  | none => cases t.mismatch <;> rfl

theorem keeps_refuseMismatch (t : Transaction) : Keeps Eq (refuseMismatch t : Run σ Unit) := by
  unfold refuseMismatch
  cases t.mismatch with
  | some mismatch => exact keeps_throw
  | none => exact keeps_pure

/-- Whatever a check comes to, what was observed is traced. -/
theorem exists_conclude_apply (t : Transaction) (observed : Option Data) (s : RunState σ) :
    ∃ status results log, conclude t observed s = .ok () { s with
      results
      traces := s.traces.push (.ofTransaction t (observed.or t.payload) status)
      log } := by
  cases observed with
  | none =>
    obtain ⟨log, emitted⟩ := exists_emit_apply (.ofTransaction t t.payload .done) s
    exact ⟨.done, s.results, log, emitted⟩
  | some data =>
    have checked : ∃ status results log,
        check t data s = .ok status { s with results, log } := by
      cases mismatch : t.mismatch with
      | some found =>
        have some : t.mismatch.isSome := by rw [mismatch, Option.isSome_some]
        exact ⟨.unscored, s.results, s.log, check_of_mismatch some data s⟩
      | none =>
        obtain ⟨status, message, log, -, checked⟩ := check_of_compared mismatch data s
        exact ⟨status, _, log, checked⟩
    obtain ⟨status, results, log, checked⟩ := checked
    obtain ⟨log, emitted⟩ :=
      exists_emit_apply (.ofTransaction t data status) { s with results, log }
    exact ⟨status, results, log, bind_ok_iff.mpr ⟨status, _, checked, emitted⟩⟩

theorem carried_of_conclude {t : Transaction} (compared : t.mismatch = none)
    (observed : Option Data) (s : RunState σ) :
    ∃ u, conclude t observed s = .ok () u ∧ Carried t.line s u := by
  cases observed with
  | some data =>
    obtain ⟨status, message, log, scored, checked⟩ := check_of_compared compared data s
    obtain ⟨_, emitted⟩ := exists_emit_apply (.ofTransaction t data status)
      { s with results := s.results.counted status message, log }
    refine ⟨_, bind_ok_iff.mpr ⟨status, _, checked, emitted⟩, status, scored, ?_⟩
    exact ⟨_, message, rfl, rfl, rfl, rfl⟩
  | none =>
    obtain ⟨_, emitted⟩ := exists_emit_apply (.ofTransaction t t.payload .done) s
    exact ⟨_, emitted, .done, by decide, _, "", rfl, rfl, rfl, rfl⟩

theorem carried_of_transaction {t : Transaction} {s u : RunState σ}
    (ended : e.transaction t s = .ok () u) : Carried t.line s u := by
  rw [transaction_eq] at ended
  obtain ⟨observed, m, dispatched, ended⟩ := bind_ok_iff.mp ended
  obtain ⟨_, n, concluded, ended⟩ := bind_ok_iff.mp ended
  have before := ((keeps_dispatch t) s).1 _ _ dispatched
  unfold refuseMismatch at ended
  cases mismatch : t.mismatch with
  | some found =>
    rw [mismatch] at ended
    cases ended
  | none =>
    rw [mismatch] at ended
    cases ended
    obtain ⟨u, equal, carried⟩ := carried_of_conclude mismatch observed m
    rw [equal] at concluded
    cases concluded
    exact carried.after before

theorem unfinished_of_transaction {t : Transaction} {s u : RunState σ} {fault : RunFault}
    (reads : t.mismatch.isSome →
      t.operation = .burstRead ∨ t.operation = .read ∧ t.bus = .axi)
    (ended : e.transaction t s = .error fault u) : Unfinished t.line s u := by
  rw [transaction_eq] at ended
  rcases bind_error_iff.mp ended with ended | ⟨observed, m, dispatched, ended⟩
  · exact .inl (((keeps_dispatch t) s).2 _ _ ended)
  · have before := ((keeps_dispatch t) s).1 _ _ dispatched
    cases mismatch : t.mismatch with
    | none =>
      obtain ⟨n, concluded, -⟩ := carried_of_conclude mismatch observed m
      rcases bind_error_iff.mp ended with ended | ⟨_, _, -, ended⟩
      · rw [concluded] at ended
        cases ended
      · rw [refuseMismatch, mismatch] at ended
        cases ended
    | some found =>
      have some : t.mismatch.isSome := by rw [mismatch, Option.isSome_some]
      obtain ⟨data, rfl⟩ := Option.isSome_iff_exists.mp (isSome_of_dispatch (reads some) dispatched)
      have concluded : ∃ log, conclude t (.some data) m = .ok () { m with
          traces := m.traces.push (.ofTransaction t data .unscored), log } := by
        obtain ⟨log, emitted⟩ := exists_emit_apply (.ofTransaction t data .unscored) m
        exact ⟨log, bind_ok_iff.mpr ⟨_, _, check_of_mismatch some data m, emitted⟩⟩
      obtain ⟨log, concluded⟩ := concluded
      rcases bind_error_iff.mp ended with ended | ⟨_, n, equal, ended⟩
      · rw [concluded] at ended
        cases ended
      · rw [concluded] at equal
        cases equal
        rw [refuseMismatch, mismatch] at ended
        cases ended
        refine .inr ⟨.ofTransaction t data .unscored, rfl, rfl, ?_, before.1⟩
        rw [← before.2]

/-! ## Waits, polls and preloads -/

theorem carried_of_wait {w : Wait} {s u : RunState σ} (ended : e.wait w s = .ok () u) :
    Carried w.line s u := by
  obtain ⟨_, m, waited, ended⟩ := bind_ok_iff.mp ended
  have before := ((readsKeep_uncounted.waitCycles w.cycles w.line) s).1 _ _ waited
  obtain ⟨log, rfl⟩ := exists_log_of_emit ended
  exact Carried.after ⟨.done, by decide, _, "", rfl, rfl, rfl, rfl⟩ before

theorem uncounted_of_wait {w : Wait} {s u : RunState σ} {fault : RunFault}
    (ended : e.wait w s = .error fault u) : Uncounted s u := by
  rcases bind_error_iff.mp ended with ended | ⟨_, m, -, ended⟩
  · exact ((readsKeep_uncounted.waitCycles w.cycles w.line) s).2 _ _ ended
  · exact absurd ended emit_ne_error

theorem carried_of_poll {p : Poll} {s u : RunState σ} (ended : e.poll p s = .ok () u) :
    Carried p.line s u := by
  obtain ⟨outcome, m, polled, ended⟩ := bind_ok_iff.mp ended
  have before := ((readsKeep_uncounted.pollReads p {} _) s).1 _ _ polled
  obtain ⟨_, n, scored, ended⟩ := bind_ok_iff.mp ended
  obtain ⟨_, rfl⟩ := exists_log_of_enter scored
  obtain ⟨_, rfl⟩ := exists_log_of_emit ended
  refine Carried.after (m := m) ?_ before
  refine ⟨if outcome.matched then .pass else .fail, ?_, _, ?_, rfl, rfl, rfl, ?_⟩
  · cases outcome.matched <;> decide
  · exact Failure.message ⟨p.protocol, p.line, p.width,
      .poll p.address outcome.reads p.expected p.mask outcome.observed⟩
  · cases matched : outcome.matched with
    | true => simp [Poll.score, Results.record, Results.counted]
    | false => simp [Poll.score, Results.record, Results.counted]

theorem uncounted_of_poll {p : Poll} {s u : RunState σ} {fault : RunFault}
    (ended : e.poll p s = .error fault u) : Uncounted s u := by
  rcases bind_error_iff.mp ended with ended | ⟨outcome, m, -, ended⟩
  · exact ((readsKeep_uncounted.pollReads p {} _) s).2 _ _ ended
  · rcases bind_error_iff.mp ended with ended | ⟨_, n, -, ended⟩
    · exact absurd ended enter_ne_error
    · exact absurd ended emit_ne_error

theorem carried_of_preload {p : Preload} {s u : RunState σ} (ended : e.preload p s = .ok () u) :
    Carried p.line s u := by
  unfold preload at ended
  cases coordinated : e.coordinator? with
  | none =>
    rw [coordinated] at ended
    cases ended
  | some coordinator =>
    rw [coordinated] at ended
    obtain ⟨completed, m, requested, ended⟩ := bind_ok_iff.mp ended
    obtain ⟨results, traces⟩ := Coordinator.counted_of_request requested
    obtain ⟨log, rfl⟩ := exists_log_of_emit ended
    refine ⟨if completed then .done else .timeout, ?_, .ofPreload p completed, "", rfl, rfl, ?_, ?_⟩
    · cases completed <;> decide
    · rw [← traces]
    · cases completed with
      | true => exact results
      | false => exact results

/-- Only the lack of a loader is a script error of a preload. -/
theorem untouched_of_preload {p : Preload} {s u : RunState σ} {error : ScriptError}
    (ended : e.preload p s = .error (.script error) u) : u = s ∧ e.bench.loader = none := by
  unfold preload at ended
  cases coordinated : e.coordinator? with
  | none =>
    rw [coordinated] at ended
    cases ended
    exact ⟨rfl, Option.map_eq_none_iff.mp coordinated⟩
  | some coordinator =>
    rw [coordinated] at ended
    rcases bind_error_iff.mp ended with ended | ⟨completed, m, -, ended⟩
    · have unscripted := failsWith_true_iff.mp (coordinator.failsWith_request_unscripted p)
      exact absurd rfl (unscripted s _ u ended error)
    · exact absurd ended emit_ne_error

/-- The wait at the end of a script is that for the outstanding preload, if there is a loader. -/
theorem waited_of_settle {s t : RunState σ} {r : Except RunFault Unit}
    (ended : Ends e.settle s r t) :
    t = s ∨ ∃ coordinator q, e.coordinator? = some coordinator ∧
      Coordinator.Waited coordinator s q t := by
  unfold settle at ended
  cases attached : e.coordinator? with
  | none =>
    rw [attached] at ended
    have none : Ends (pure () : Run σ Unit) s (.ok ()) s := rfl
    exact .inl (ended.unique none).2
  | some coordinator =>
    rw [attached] at ended
    rcases ends_bind_iff.mp ended with ⟨completed, m, waited, ended⟩ | ⟨fault, -, waited⟩
    · have last : Ends (pure () : Run σ Unit) m (.ok ()) m := rfl
      rw [(ended.unique last).2]
      exact .inr ⟨coordinator, _, rfl, Coordinator.waited_of_waitOutstanding waited⟩
    · exact .inr ⟨coordinator, _, rfl, Coordinator.waited_of_waitOutstanding waited⟩

/-- The wait at the end of a script counts no more than a timeout, whatever it comes to. -/
theorem uncounted_or_timeout_of_settle {s t : RunState σ} {r : Except RunFault Unit}
    (ended : Ends e.settle s r t) :
    (t.results = s.results ∨ t.results = s.results.recordTimeout) ∧ t.traces = s.traces := by
  rcases waited_of_settle ended with rfl | ⟨coordinator, q, -, waited⟩
  · exact ⟨.inl rfl, rfl⟩
  · exact waited.uncounted_or_timeout

theorem counted_of_settle {s t : RunState σ} (ended : e.settle s = .ok () t) :
    (t.results = s.results ∨ t.results = s.results.recordTimeout) ∧ t.traces = s.traces :=
  uncounted_or_timeout_of_settle (r := .ok ()) ended

/-! ## Actions -/

theorem carried_of_execute {action : Action} {s u : RunState σ}
    (ended : e.execute action s = .ok () u) : Carried action.line s u := by
  cases action with
  | transaction t => exact carried_of_transaction ended
  | poll p => exact carried_of_poll ended
  | wait w => exact carried_of_wait ended
  | preload p => exact carried_of_preload ended

theorem unfinished_of_execute {action : Action} {line : Option Int} {s u : RunState σ}
    {error : ScriptError} (formed : action.WellFormed e.grammar line)
    (ended : e.execute action s = .error (.script error) u) : Unfinished line s u := by
  cases action with
  | transaction t =>
    have formed : t.WellFormed e.grammar line := formed
    rw [← formed.line]
    exact unfinished_of_transaction (fun some => (formed.mismatch some).2) ended
  | poll p => exact .inl (uncounted_of_poll ended)
  | wait w => exact .inl (uncounted_of_wait ended)
  | preload p =>
    rw [(untouched_of_preload ended).1]
    exact .inl ⟨rfl, rfl⟩

/-! ## Lines -/

theorem carried_of_perform {text : String} {line : Option Int} {s t : RunState σ}
    (performed : e.perform text line s = .ok () t) : Carried line s t := by
  obtain ⟨action, parsed, executed⟩ := perform_ok_iff.mp performed
  rw [← (Grammar.wellFormed_of_parse parsed).line_eq]
  exact carried_of_execute executed

theorem unfinished_of_perform {text : String} {line : Option Int} {s t : RunState σ}
    {error : ScriptError} (failed : e.perform text line s = .error (.script error) t) :
    Unfinished line s t := by
  rcases perform_error_iff.mp failed with ⟨fault, -, -, rfl⟩ | ⟨action, parsed, executed⟩
  · exact .inl ⟨rfl, rfl⟩
  · exact unfinished_of_execute (Grammar.wellFormed_of_parse parsed) executed

theorem Unfinished.results_eq {line : Option Int} {s t : RunState σ}
    (unfinished : Unfinished line s t) : t.results = s.results := by
  rcases unfinished with ⟨results, -⟩ | ⟨_, -, -, -, results⟩
  · exact results
  · exact results

theorem uncounted_or_timeout_of_preload {p : Preload} {fault : RunFault} {s t : RunState σ}
    (failed : e.preload p s = .error fault t) :
    t.results = s.results ∨ t.results = s.results.recordTimeout := by
  unfold preload at failed
  cases coordinated : e.coordinator? with
  | none =>
    rw [coordinated] at failed
    cases failed
    exact .inl rfl
  | some coordinator =>
    rw [coordinated] at failed
    rcases bind_error_iff.mp failed with failed | ⟨completed, m, -, failed⟩
    · exact (Coordinator.requested_of_request (r := .error fault) failed).uncounted_or_timeout.1
    · exact absurd failed emit_ne_error

/-- Whatever fault a line ends in, no more than a timeout has been counted by then. -/
theorem uncounted_or_timeout_of_perform {text : String} {line : Option Int} {fault : RunFault}
    {s t : RunState σ} (failed : e.perform text line s = .error fault t) :
    t.results = s.results ∨ t.results = s.results.recordTimeout := by
  rcases perform_error_iff.mp failed with ⟨found, -, -, rfl⟩ | ⟨action, parsed, executed⟩
  · exact .inl rfl
  · have formed := Grammar.wellFormed_of_parse parsed
    cases action with
    | transaction transaction =>
      have formed : transaction.WellFormed e.grammar line := formed
      exact .inl (unfinished_of_transaction (fun some => (formed.mismatch some).2)
        executed).results_eq
    | poll p => exact .inl (uncounted_of_poll executed).1
    | wait w => exact .inl (uncounted_of_wait executed).1
    | preload p => exact uncounted_or_timeout_of_preload executed

end Engine

end BusScript
