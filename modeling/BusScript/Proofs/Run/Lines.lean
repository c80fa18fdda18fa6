import BusScript.Proofs.Run.Outcome
import BusScript.Proofs.Script.Reading
import BusScript.Run.Engine

/-!
# Carrying out lines

A line is carried out, or it is in error and counted, or it ends the run: `executeLine_ok_iff` and
`executeLine_error_iff` are these cases, and all else about lines starts from them. `Lines` is any
sequence of calls for lines in which none ends the run. A run carries out the lines that its source
gives, and then waits for a preload.
-/

namespace BusScript

namespace Engine

variable {σ : Type} {e : Engine σ}

/-! ## One line -/

/-- The state after a script error was counted. -/
def counted (error : ScriptError) (s : RunState σ) : RunState σ :=
  { s with
    results := s.results.recordError
    log := s.log.push ⟨.error, .engine, error.message⟩ }

theorem perform_ok_iff {text : String} {line : Option Int} {s t : RunState σ} :
    e.perform text line s = .ok () t ↔
      ∃ action, e.parse text line = .ok action ∧ e.execute action s = .ok () t := by
  unfold perform
  cases e.parse text line with
  | ok action => simp
  | error fault => simp [Run.throw_ne_ok]

theorem perform_error_iff {text : String} {line : Option Int} {s t : RunState σ}
    {fault : RunFault} :
    e.perform text line s = .error fault t ↔
      (∃ found, e.parse text line = .error found ∧ fault = .ofCommandFault found ∧ t = s) ∨
        ∃ action, e.parse text line = .ok action ∧ e.execute action s = .error fault t := by
  unfold perform
  cases e.parse text line with
  | ok action => simp
  | error found => simp [Run.throw_error_iff, eq_comm]

theorem executeLine_apply (text : String) (line : Option Int) (s : RunState σ) :
    e.executeLine text line s = match e.perform text line s with
      | .ok _ t => .ok () t
      | .error (.script error) m => .ok () (counted error m)
      | .error fault m => .error fault m := by
  show EStateM.tryCatch _ _ s = _
  unfold EStateM.tryCatch
  cases e.perform text line s with
  | ok a m => rfl
  | error fault m => cases fault <;> rfl

/-- A line leaves the run going if it is carried out or in error. -/
theorem executeLine_ok_iff {text : String} {line : Option Int} {s t : RunState σ} :
    e.executeLine text line s = .ok () t ↔
      e.perform text line s = .ok () t ∨
        ∃ error m, e.perform text line s = .error (.script error) m ∧ t = counted error m := by
  rw [executeLine_apply]
  cases e.perform text line s with
  | ok a m => simp
  | error fault m =>
    cases fault with
    | script error =>
      constructor
      · intro equal
        cases equal
        exact .inr ⟨error, m, rfl, rfl⟩
      · rintro (equal | ⟨_, _, equal, rfl⟩)
        · cases equal
        · cases equal
          rfl
    | _ => simp

/-- The action is carried out, or it ends in a script error. -/
def Passed (e : Engine σ) (action : Action) (s t : RunState σ) : Prop :=
  e.execute action s = .ok () t ∨ ∃ error, e.execute action s = .error (.script error) t

/-- A line that leaves the run going asks for nothing, or for an action that passes. All else that
it changes are the counters and the log. -/
theorem passed_of_executeLine {text : String} {line : Option Int} {s t : RunState σ}
    (ended : e.executeLine text line s = .ok () t) :
    ((∃ fault, e.parse text line = .error fault) ∧ t.world = s.world) ∨
      ∃ action u, e.parse text line = .ok action ∧ e.Passed action s u ∧ t.world = u.world ∧
        t.traces = u.traces := by
  rcases executeLine_ok_iff.mp ended with performed | ⟨error, m, failed, rfl⟩
  · obtain ⟨action, parsed, executed⟩ := perform_ok_iff.mp performed
    exact .inr ⟨action, t, parsed, .inl executed, rfl, rfl⟩
  · rcases perform_error_iff.mp failed with ⟨found, refused, -, rfl⟩ | ⟨action, parsed, executed⟩
    · exact .inl ⟨⟨found, refused⟩, rfl⟩
    · exact .inr ⟨action, m, parsed, .inr ⟨error, executed⟩, rfl, rfl⟩

/-- A line ends the run with any fault but a script error. -/
theorem executeLine_error_iff {text : String} {line : Option Int} {s t : RunState σ}
    {fault : RunFault} :
    e.executeLine text line s = .error fault t ↔
      e.perform text line s = .error fault t ∧ ∀ error, fault ≠ .script error := by
  rw [executeLine_apply]
  cases e.perform text line s with
  | ok a m => simp
  | error found m =>
    cases found with
    | script error =>
      simp only [reduceCtorEq, EStateM.Result.error.injEq, false_iff, not_and, and_imp]
      intro equal _ other
      exact other error equal.symm
    | _ =>
      constructor
      · intro equal
        cases equal
        exact ⟨rfl, fun error same => by cases same⟩
      · rintro ⟨equal, -⟩
        exact equal

/-! ## Sequences of lines -/

theorem executeLines_append (before after : List (Nat × String)) :
    e.executeLines (before ++ after) = e.executeLines before >>= fun _ => e.executeLines after := by
  induction before with
  | nil => rfl
  | cons first before ih =>
    obtain ⟨number, text⟩ := first
    rw [List.cons_append, executeLines, executeLines, ih, bind_assoc]

/-- Lines end the run at one of them, behind others that are carried out or in error. -/
theorem executeLines_error_iff {lines : List (Nat × String)} {s t : RunState σ}
    {fault : RunFault} :
    e.executeLines lines s = .error fault t ↔
      ∃ (before after : List (Nat × String)) (number : Nat) (text : String) (m : RunState σ),
        lines = before ++ (number, text) :: after ∧ e.executeLines before s = .ok () m ∧
          e.executeLine text (some number) m = .error fault t := by
  constructor
  · intro stopped
    induction lines generalizing s with
    | nil => exact absurd stopped Run.pure_ne_error
    | cons first lines ih =>
      obtain ⟨number, text⟩ := first
      rcases Run.bind_error_iff.mp stopped with here | ⟨_, m, passed, stopped⟩
      · exact ⟨[], lines, number, text, s, rfl, rfl, here⟩
      · obtain ⟨before, after, last, line, n, rfl, carried, here⟩ := ih stopped
        exact ⟨(number, text) :: before, after, last, line, n, rfl,
          Run.bind_ok_iff.mpr ⟨_, m, passed, carried⟩, here⟩
  · rintro ⟨before, after, number, text, m, rfl, carried, stopped⟩
    rw [executeLines_append]
    exact Run.bind_error_iff.mpr (.inr ⟨_, m, carried, Run.bind_error_iff.mpr (.inl stopped)⟩)

/-- Calls for lines, none of which ends the run. -/
inductive Lines (e : Engine σ) : List (String × Option Int) → RunState σ → RunState σ → Prop
  | none (s : RunState σ) : Lines e [] s s
  | call {calls : List (String × Option Int)} {s m t : RunState σ} {text : String}
      {line : Option Int} :
      Lines e calls s m → e.executeLine text line m = .ok () t →
        Lines e (calls ++ [(text, line)]) s t

theorem Lines.append {before after : List (String × Option Int)} {s m t : RunState σ}
    (first : e.Lines before s m) (later : e.Lines after m t) : e.Lines (before ++ after) s t := by
  induction later with
  | none s => rwa [List.append_nil]
  | call later ended ih =>
    rw [← List.append_assoc]
    exact .call (ih first) ended

/-- The lines of a script are calls under their numbers. -/
theorem lines_of_executeLines {script : List (Nat × String)} {s t : RunState σ}
    (ended : e.executeLines script s = .ok () t) :
    e.Lines (script.map fun (number, text) => (text, some (number : Int))) s t := by
  induction script generalizing s with
  | nil =>
    obtain ⟨-, rfl⟩ := Run.pure_ok_iff.mp ended
    exact .none s
  | cons first script ih =>
    obtain ⟨number, text⟩ := first
    obtain ⟨_, m, line, rest⟩ := Run.bind_ok_iff.mp ended
    have one : e.Lines [(text, some (number : Int))] s m := .call (.none s) line
    exact one.append (ih rest)

/-! ## Runs -/

open Script

/-- The run of a script that can be read to its end. -/
theorem run_of_readable {tree : Tree} {source rest : Source} {lines : List (Nat × String)}
    (readable : source.readAll tree = (lines, none, rest)) :
    e.run tree source = do
      Run.say .info .engine s!"Running stimulus script {source.name}"
      e.executeLines lines
      e.settle
      return (← get).results := by
  unfold run
  cases opens : source.opened tree with
  | error fault =>
    rw [Source.readAll, opens] at readable
    cases readable
  | ok opened =>
    simp only [Source.readAll_of_opened opens, readable, (Source.opened_of_opened opens).2]

/-- A run of such a script that ends has carried out its lines and then waited for a preload. -/
theorem exists_settle_of_run {tree : Tree} {source rest : Source} {lines : List (Nat × String)}
    {results : Results} {s t : RunState σ}
    (readable : source.readAll tree = (lines, none, rest))
    (ended : e.run tree source s = .ok results t) :
    ∃ log m, e.executeLines lines { s with log } = .ok () m ∧ e.settle m = .ok () t ∧
      results = t.results := by
  rw [run_of_readable readable] at ended
  obtain ⟨_, first, said, ended⟩ := Run.bind_ok_iff.mp ended
  cases said
  obtain ⟨_, m, carried, ended⟩ := Run.bind_ok_iff.mp ended
  obtain ⟨_, last, settled, ended⟩ := Run.bind_ok_iff.mp ended
  cases ended
  exact ⟨_, m, carried, settled, rfl⟩

/-- A run that ends carries out all lines that its source gives. What it does before and after that
leaves the bench and the trace as they are, but for the wait for a preload. -/
theorem executeLines_of_run {tree : Tree} {source : Source} {results : Results}
    {s t : RunState σ} (ended : e.run tree source s = .ok results t) :
    ∃ log m n, e.executeLines (source.readAll tree).1 { s with log } = .ok () m ∧
      n.world = m.world ∧ n.traces = m.traces ∧ (e.settle n = .ok () t ∨ t = n) := by
  unfold run at ended
  cases opens : source.opened tree with
  | error fault =>
    have nothing : (source.readAll tree).1 = [] := by rw [Source.readAll, opens]
    rw [opens] at ended
    rw [nothing]
    cases fault with
    | nul => cases ended
    | _ =>
      cases ended
      refine ⟨s.log, s, _, rfl, ?_, ?_, .inr rfl⟩
      · rfl
      · rfl
  | ok opened =>
    simp only [opens, Source.readAll_of_opened opens] at ended
    have settled {n : RunState σ} (ended : (do
        e.settle
        return (← get).results) n = .ok results t) : e.settle n = .ok () t := by
      obtain ⟨_, last, settled, ended⟩ := Run.bind_ok_iff.mp ended
      cases ended
      exact settled
    obtain ⟨_, first, said, ended⟩ := Run.bind_ok_iff.mp ended
    cases said
    obtain ⟨_, m, carried, ended⟩ := Run.bind_ok_iff.mp ended
    cases fault : (source.readAll tree).2.1 with
    | none =>
      simp only [fault] at ended
      exact ⟨_, m, m, carried, rfl, rfl, .inl (settled ended)⟩
    | some fault =>
      simp only [fault] at ended
      obtain ⟨_, n, aborted, ended⟩ := Run.bind_ok_iff.mp ended
      cases aborted
      refine ⟨_, m, _, carried, ?_, ?_, .inl (settled ended)⟩
      · rfl
      · rfl

end Engine

end BusScript
