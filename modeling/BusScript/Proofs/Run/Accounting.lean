import BusScript.Proofs.Run.Execution

/-!
# Accounting of a run

The counters of a run agree with its trace: each counts the records of a status, and the errors are
the lines that left no record and those whose record could not be compared. A line comes to one of
two things. Either it leaves the trace as it is and counts as an error (`Rejected`), or it adds one
record and the counters follow the status of that (`Recorded`). The induction over the lines of a
run is `accounted_of_lines`.
-/

namespace BusScript.Engine

open Run

variable {σ : Type} {e : Engine σ}

/-! ## Lines -/

/-- An error is counted, and the trace does not change. -/
def Rejected (s t : RunState σ) : Prop :=
  t.results = s.results.recordError ∧ t.traces = s.traces

/-- A line that leaves the run going is rejected or recorded. -/
theorem rejected_or_recorded {text : String} {line : Option Int} {s t : RunState σ}
    (ended : e.executeLine text line s = .ok () t) :
    Rejected s t ∨ ∃ status, Recorded line status s t := by
  rcases executeLine_ok_iff.mp ended with performed | ⟨error, m, failed, rfl⟩
  · obtain ⟨status, -, recorded⟩ := carried_of_perform performed
    exact .inr ⟨status, recorded⟩
  · rcases unfinished_of_perform failed with
      ⟨results, traces⟩ | ⟨record, number, status, traces, results⟩
    · exact .inl ⟨congrArg Results.recordError results, traces⟩
    · refine .inr ⟨.unscored, record, "", number, status, traces, ?_⟩
      exact congrArg Results.recordError results

/-! ## Runs -/

/-- How many records have a status. -/
def countStatus (status : Status) (traces : Array TraceRecord) : Nat :=
  traces.toList.countP fun record => record.status = some status.name

theorem countStatus_push (status : Status) (traces : Array TraceRecord) (record : TraceRecord) :
    countStatus status (traces.push record) =
      countStatus status traces + if record.status = some status.name then 1 else 0 := by
  simp only [countStatus, Array.toList_push, List.countP_append, List.countP_singleton,
    decide_eq_true_eq]

/-- The counters agree with the trace of a run over some lines. -/
structure Accounted (lines : List (Option Int)) (s : RunState σ) : Prop where
  passed : s.results.passed = countStatus .pass s.traces
  failed : s.results.failed = countStatus .fail s.traces
  total : s.results.total = s.results.passed + s.results.failed
  timeouts : s.results.timeouts = countStatus .timeout s.traces
  errors : (s.results.errors : Int) =
    lines.length - s.traces.size + countStatus .unscored s.traces
  /-- Each line has at most one record, and the records stand in the order of their lines. -/
  ordered : (s.traces.toList.map (·.line)).Sublist lines

theorem Accounted.rejected {lines : List (Option Int)} {line : Option Int} {s t : RunState σ}
    (before : Accounted lines s) (step : Rejected s t) : Accounted (lines ++ [line]) t := by
  obtain ⟨results, traces⟩ := step
  constructor
  · rw [results, traces]
    exact before.passed
  · rw [results, traces]
    exact before.failed
  · rw [results]
    exact before.total
  · rw [results, traces]
    exact before.timeouts
  · have errors := before.errors
    have one : t.results.errors = s.results.errors + 1 := by rw [results, Results.recordError]
    rw [one, traces, List.length_append, List.length_singleton]
    omega
  · rw [traces]
    exact before.ordered.trans (List.sublist_append_left lines [line])

theorem Accounted.recorded {lines : List (Option Int)} {line : Option Int} {status : Status}
    {s t : RunState σ} (before : Accounted lines s) (step : Recorded line status s t) :
    Accounted (lines ++ [line]) t := by
  obtain ⟨record, message, number, named, traces, results⟩ := step
  have more (wanted : Status) : countStatus wanted t.traces =
      countStatus wanted s.traces + if status = wanted then 1 else 0 := by
    rw [traces, countStatus_push, named]
    simp only [Option.some.injEq, Status.name_inj]
  constructor
  · rw [more, ← before.passed, results, Results.passed_counted]
  · rw [more, ← before.failed, results, Results.failed_counted]
  · rw [results]
    exact Results.total_counted _ _ _ before.total
  · rw [more, ← before.timeouts, results, Results.timeouts_counted]
  · have errors := before.errors
    have size : t.traces.size = s.traces.size + 1 := by rw [traces, Array.size_push]
    rw [more, size, results, Results.errors_counted, List.length_append, List.length_singleton]
    omega
  · rw [traces, Array.toList_push, List.map_append, List.map_singleton, number]
    exact before.ordered.append (List.Sublist.refl [line])

/-- What every line keeps, kept by a run. -/
theorem accounted_of_lines {calls : List (String × Option Int)} {s t : RunState σ}
    (results : s.results = {}) (traces : s.traces = #[]) (run : e.Lines calls s t) :
    Accounted (calls.map (·.2)) t := by
  induction run with
  | none s =>
    constructor
    all_goals simp [results, traces, countStatus]
  | call before ended ih =>
    rw [List.map_append, List.map_singleton]
    rcases rejected_or_recorded ended with rejected | ⟨status, recorded⟩
    · exact (ih results traces).rejected rejected
    · exact (ih results traces).recorded recorded

/-! ## Growth -/

/-- No counter has become less, and no record has been taken back. -/
structure Grown (s t : RunState σ) : Prop where
  total : s.results.total ≤ t.results.total
  passed : s.results.passed ≤ t.results.passed
  failed : s.results.failed ≤ t.results.failed
  errors : s.results.errors ≤ t.results.errors
  timeouts : s.results.timeouts ≤ t.results.timeouts
  aborted : t.results.aborted = s.results.aborted
  traces : s.traces.toList <+: t.traces.toList

theorem Grown.refl (s : RunState σ) : Grown s s :=
  ⟨Nat.le_refl _, Nat.le_refl _, Nat.le_refl _, Nat.le_refl _, Nat.le_refl _, rfl,
    List.prefix_refl _⟩

theorem Grown.trans {s m t : RunState σ} (first : Grown s m) (later : Grown m t) : Grown s t where
  total := Nat.le_trans first.total later.total
  passed := Nat.le_trans first.passed later.passed
  failed := Nat.le_trans first.failed later.failed
  errors := Nat.le_trans first.errors later.errors
  timeouts := Nat.le_trans first.timeouts later.timeouts
  aborted := later.aborted.trans first.aborted
  traces := first.traces.trans later.traces

theorem Rejected.grown {s t : RunState σ} (step : Rejected s t) : Grown s t := by
  obtain ⟨results, traces⟩ := step
  constructor
  case traces => exact traces ▸ List.prefix_refl _
  all_goals simp [results, Results.recordError]

theorem Recorded.grown {line : Option Int} {status : Status} {s t : RunState σ}
    (step : Recorded line status s t) : Grown s t := by
  obtain ⟨record, message, -, -, traces, results⟩ := step
  constructor
  case traces =>
    rw [traces, Array.toList_push]
    exact List.prefix_append _ _
  all_goals
    rw [results]
    cases status <;> simp [Results.counted, Results.recordPass, Results.recordFail,
      Results.recordError, Results.recordTimeout]

theorem grown_of_lines {calls : List (String × Option Int)} {s t : RunState σ}
    (run : e.Lines calls s t) : Grown s t := by
  induction run with
  | none s => exact .refl s
  | call before ended ih =>
    rcases rejected_or_recorded ended with rejected | ⟨status, recorded⟩
    · exact ih.trans rejected.grown
    · exact ih.trans recorded.grown

/-- A run that is not fine does not become so. -/
theorem Grown.not_ok {s t : RunState σ} (grown : Grown s t) {strict : Bool}
    (bad : s.results.ok strict = false) : t.results.ok strict = false := by
  have failed := grown.failed
  have errors := grown.errors
  have timeouts := grown.timeouts
  simp only [Results.ok, grown.aborted, Bool.and_eq_false_iff, Bool.not_eq_false',
    decide_eq_false_iff_not, Bool.and_eq_true, Bool.or_eq_true, decide_eq_true_eq] at bad ⊢
  rcases bad with (aborted | some) | ⟨demanding, more | more⟩
  · exact .inl (.inl aborted)
  · exact .inl (.inr (by omega))
  · exact .inr ⟨demanding, .inl (by omega)⟩
  · exact .inr ⟨demanding, .inr (by omega)⟩

/-- After every line of a run the counters agree with the trace, the next line adds one record of
its own number or none, and from then on no counter becomes less and a run that is not fine does not
become so. -/
theorem lines_accounted {calls later : List (String × Option Int)} {s t u : RunState σ}
    (results : s.results = {}) (traces : s.traces = #[]) (run : e.Lines calls s t)
    (onward : e.Lines later t u) :
    Accounted (calls.map (·.2)) t ∧
      (∀ text line v, e.executeLine text line t = .ok () v →
        v.traces = t.traces ∨ ∃ record, record.line = line ∧ v.traces = t.traces.push record) ∧
      Grown t u ∧ ∀ strict, t.results.ok strict = false → u.results.ok strict = false := by
  have grown := grown_of_lines onward
  refine ⟨accounted_of_lines results traces run, ?_, grown, fun strict => grown.not_ok⟩
  intro text line v ended
  rcases rejected_or_recorded ended with ⟨-, same⟩ | ⟨_, record, _, number, -, more, -⟩
  · exact .inl same
  · exact .inr ⟨record, number, more⟩

theorem lines_accounted_without_bench :
    ∃ t u : RunState Unit,
      Lines { bench := {} } [("WAIT 0", some 1), ("WAIT", some 2)] { world := () } t ∧
        Lines { bench := {} } [("AHB READ 0", some 3)] t u ∧
        t.results.errors = 1 ∧ t.traces.size = 1 ∧ Accounted [some 1, some 2] t ∧ Grown t u := by
  have idle : parse { bench := ({} : Bench Unit) } "WAIT 0" (some 1) =
      .ok (.wait { cycles := 0, line := some 1 }) := by decide +kernel
  have cycle : parse { bench := ({} : Bench Unit) } "WAIT" (some 2) =
      .ok (.wait { cycles := 1, line := some 2 }) := by decide +kernel
  have read : parse { bench := ({} : Bench Unit) } "AHB READ 0" (some 3) =
      .ok (.transaction {
        operation := .read, address := 0, burst := .ahb .single, width := 32
        size := some .word, line := some 3 }) := by decide +kernel
  have traced (s : RunState Unit) :
      ∃ log, executeLine { bench := {} } "WAIT 0" (some 1) s = .ok () { s with
        traces := s.traces.push (.ofWait { cycles := 0, line := some 1 }), log } :=
    ⟨_, executeLine_ok_iff.mpr (.inl (perform_ok_iff.mpr ⟨_, idle, rfl⟩))⟩
  have clockless (s : RunState Unit) :
      ∃ log, executeLine { bench := {} } "WAIT" (some 2) s =
        .ok () { s with results := s.results.recordError, log } :=
    ⟨_, executeLine_ok_iff.mpr (.inr ⟨_, s, perform_error_iff.mpr (.inr ⟨_, cycle, rfl⟩), rfl⟩)⟩
  have alone (s : RunState Unit) :
      ∃ log, executeLine { bench := {} } "AHB READ 0" (some 3) s =
        .ok () { s with results := s.results.recordError, log } :=
    ⟨_, executeLine_ok_iff.mpr (.inr ⟨_, s, perform_error_iff.mpr (.inr ⟨_, read, rfl⟩), rfl⟩)⟩
  obtain ⟨_, first⟩ := traced { world := () }
  obtain ⟨_, second⟩ := clockless _
  obtain ⟨_, third⟩ := alone _
  have run := Lines.call (.call (.none _) first) second
  have onward := Lines.call (.none _) third
  obtain ⟨accounted, -, grown, -⟩ := lines_accounted rfl rfl run onward
  exact ⟨_, _, run, onward, rfl, rfl, accounted, grown⟩

end BusScript.Engine
