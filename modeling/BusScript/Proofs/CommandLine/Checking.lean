import BusScript.Proofs.Run.OnModel
import BusScript.Proofs.Script.Numbers

/-!
# What a check tells of a run

A check looks at lines with the grammar alone. It tells of every line that the grammar refuses, and
a run on the memory model counts just these errors and one more for each read that cannot be
compared with the beats expected of it, which a check lets pass (`errors_of_checked_run`). So a
script that a check finds nothing in can still count errors when it is run.
-/

namespace BusScript.CommandLine

open Script Run

/-- The findings hold an error on the line of a number. -/
def Findings.Tell (findings : Findings) (number : Nat) : Prop :=
  ∃ error ∈ findings.errors, error.line = some (number : Int)

instance (findings : Findings) (number : Nat) : Decidable (findings.Tell number) :=
  inferInstanceAs (Decidable (∃ error ∈ findings.errors, error.line = some (number : Int)))

/-! ## Findings -/

/-- A check finds the refusals of the grammar, unless a line counts too far. -/
theorem diagnose_eq {grammar : Grammar} {lines : List (Nat × String)}
    (contained : ∀ line ∈ lines, Grammar.Contained (grammar.parse line.2 (some line.1))) :
    diagnose grammar lines =
      { lines := lines.length, errors := lines.filterMap grammar.refusal? } := by
  induction lines with
  | nil => rfl
  | cons line lines ih =>
    obtain ⟨number, text⟩ := line
    have here := contained (number, text) List.mem_cons_self
    have rest := ih fun line member => contained line (List.mem_cons_of_mem _ member)
    unfold diagnose
    rw [rest, List.filterMap_cons, List.length_cons]
    cases parsed : grammar.parse text (some (number : Int)) with
    | ok action =>
      have accepted : grammar.refusal? (number, text) = none := by
        unfold Grammar.refusal?
        rw [parsed]
      rw [accepted]
    | error fault =>
      cases fault with
      | script error => rw [Grammar.refusal?_eq_some_iff.mpr parsed]
      | countTooLong digits => exact absurd parsed (here digits)

/-- The findings hold an error on a line exactly if the grammar refuses the line. -/
theorem tell_diagnose_iff {grammar : Grammar} {lines : List (Nat × String)} {number : Nat}
    {text : String} (distinct : (lines.map (·.1)).Nodup)
    (contained : ∀ line ∈ lines, Grammar.Contained (grammar.parse line.2 (some line.1)))
    (member : (number, text) ∈ lines) :
    (diagnose grammar lines).Tell number ↔ (grammar.refusal? (number, text)).isSome := by
  rw [diagnose_eq contained]
  constructor
  · rintro ⟨error, found, named⟩
    obtain ⟨⟨other, words⟩, among, refused⟩ := List.mem_filterMap.mp found
    have line := (Grammar.line_and_told_of_parse (Grammar.refusal?_eq_some_iff.mp refused)).1
    rw [named] at line
    obtain rfl : number = other := Int.ofNat.inj (Option.some.inj line)
    cases List.inj_on_of_nodup_map distinct member among rfl
    rw [refused, Option.isSome_some]
  · intro refused
    obtain ⟨error, refused⟩ := Option.isSome_iff_exists.mp refused
    refine ⟨error, List.mem_filterMap.mpr ⟨_, member, refused⟩, ?_⟩
    exact (Grammar.line_and_told_of_parse (Grammar.refusal?_eq_some_iff.mp refused)).1

/-! ## Checks -/

section

variable {tree : Tree} {script : String} {width : AxiWidth} {lines : List (Nat × String)}
  {rest : Source} {findings : Findings}

/-- A check of a script that can be read to its end tells of what it finds. -/
theorem check_eq (readable : (Source.ofFile script).readAll tree = (lines, none, rest))
    (found : diagnose { axiWidth := width } lines = findings) (quiet : findings.crash = none) :
    check tree script width = {
      exitCode := if findings.errors.isEmpty then 0 else failureCode
      stdout := plainLine s!"{script}: {findings.lines} commands, {findings.errors.length} errors"
      stderr := String.join (findings.errors.map fun error =>
        plainLine s!"{script}:{error.message}")
      tree } := by
  unfold check
  simp only [readable, found, quiet]

theorem exitCode_check_eq_zero_iff
    (readable : (Source.ofFile script).readAll tree = (lines, none, rest))
    (found : diagnose { axiWidth := width } lines = findings) (quiet : findings.crash = none) :
    (check tree script width).exitCode = 0 ↔ findings.errors.length = 0 := by
  rw [check_eq readable found quiet, List.length_eq_zero_iff, ← List.isEmpty_iff]
  dsimp only
  cases findings.errors.isEmpty <;> decide

end

/-! ## Lines -/

section

variable {σ : Type} {e : Engine σ} {grammar : Grammar} {lines : List (Nat × String)}
  {s t : RunState σ} (same : grammar.axiWidth = e.grammar.axiWidth)

include same

/-- No line of a run that reached its end counts too far, in any grammar of its width. -/
theorem contained_of_executeLines (ended : e.executeLines lines s = .ok () t) :
    ∀ line ∈ lines, Grammar.Contained (grammar.parse line.2 (some line.1)) := by
  rintro ⟨number, text⟩ member digits long
  have contained : Grammar.Contained (e.grammar.parse text (some (number : Int))) :=
    Grammar.contained_parse_iff.mpr (Engine.short_of_executeLines ended number text member)
  exact contained digits ((Grammar.parse_eq_error_iff_of_axiWidth same).mp long)

/-- A line counts an error on a complete bench exactly if one of its number is found, or it asks for
a read that cannot be compared. -/
theorem errors_of_diagnosed_line (complete : e.bench.Complete) {number : Nat} {text : String}
    (distinct : (lines.map (·.1)).Nodup)
    (contained : ∀ line ∈ lines, Grammar.Contained (grammar.parse line.2 (some line.1)))
    (member : (number, text) ∈ lines) (ended : e.executeLine text (some number) s = .ok () t) :
    t.results.errors = s.results.errors +
      if (diagnose grammar lines).Tell number ∨ e.grammar.unscored (number, text) then 1
      else 0 := by
  have told := tell_diagnose_iff distinct contained member
  rw [Grammar.refusal?_of_axiWidth same] at told
  rw [Engine.errors_of_executeLine complete ended]
  exact congrArg (s.results.errors + ·) (if_congr (or_congr_left told.symm) rfl rfl)

end

/-! ## Checks and runs -/

/-- A run on the memory model that reaches its end, and a check of the same script at the same
width. The check ends too, and a line counts an error in the run exactly if the check tells of one
or the line asks for a read that cannot be compared with the beats expected of it. So the run counts
the errors of the check and those reads, and it counts none exactly if the check succeeds and there
is no such read. -/
theorem errors_of_checked_run {setup : Model.Setup} {e : Engine Model.World}
    (model : e.OnModel setup) {tree : Tree} {script : String} {source kept rest : Source}
    {lines : List (Nat × String)} {world : Model.World} {results : Results}
    {final : RunState Model.World}
    (checkable : (Source.ofFile script).readAll tree = (lines, none, kept))
    (runnable : source.readAll tree = (lines, none, rest))
    (ended : e.run tree source { world } = .ok results final) :
    let findings := diagnose { axiWidth := e.config.axiWidth } lines
    let outcome := check tree script e.config.axiWidth
    outcome.crash = none ∧
      (∀ before (number : Nat) text after, lines = before ++ (number, text) :: after →
        ∃ log m n, e.executeLines before { world, log } = .ok () m ∧
          e.executeLine text (some number) m = .ok () n ∧
          n.results.errors = m.results.errors +
            if findings.Tell number ∨ e.grammar.unscored (number, text) then 1 else 0) ∧
      results.errors = findings.errors.length + lines.countP e.grammar.unscored ∧
      (results.errors = 0 ↔
        outcome.exitCode = 0 ∧ ∀ line ∈ lines, e.grammar.unscored line = false) ∧
      ((∀ line ∈ lines, e.grammar.unscored line = false) →
        outcome.stdout =
          plainLine s!"{script}: {lines.length} commands, {results.errors} errors") := by
  intro findings outcome
  obtain ⟨log, m, carried, settled, rfl⟩ := Engine.exists_settle_of_run runnable ended
  have same : ({ axiWidth := e.config.axiWidth } : Grammar).axiWidth = e.grammar.axiWidth := rfl
  have contained := contained_of_executeLines same carried
  have found : findings = _ := diagnose_eq contained
  have quiet : findings.crash = none := congrArg Findings.crash found
  have count : final.results.errors =
      findings.errors.length + lines.countP e.grammar.unscored := by
    rw [Engine.errors_of_settle settled, Engine.errors_of_executeLines model.complete carried,
      found, Grammar.refusal?_of_axiWidth same]
    exact congrArg (· + _) (Nat.zero_add _)
  have scored : lines.countP e.grammar.unscored = 0 ↔
      ∀ line ∈ lines, e.grammar.unscored line = false := by
    simp only [List.countP_eq_zero, Bool.not_eq_true]
  have checked : outcome = _ := check_eq checkable rfl quiet
  refine ⟨congrArg Outcome.crash checked, ?_, count, ?_, ?_⟩
  · intro before number text after split
    have distinct : (lines.map (·.1)).Nodup := by
      have distinct := Source.nodup_numbers_readAll tree source
      rwa [runnable] at distinct
    have member : (number, text) ∈ lines := by
      rw [split]
      exact List.mem_append_right before List.mem_cons_self
    rw [split, Engine.executeLines_append] at carried
    obtain ⟨_, n, earlier, carried⟩ := bind_ok_iff.mp carried
    obtain ⟨_, u, line, -⟩ := bind_ok_iff.mp carried
    exact ⟨log, n, u, earlier, line,
      errors_of_diagnosed_line same model.complete distinct contained member line⟩
  · have success : outcome.exitCode = 0 ↔ findings.errors.length = 0 :=
      exitCode_check_eq_zero_iff checkable rfl quiet
    rw [count, success, ← scored]
    omega
  · intro compared
    have lengths : findings.lines = lines.length := congrArg Findings.lines found
    rw [checked, count, scored.mpr compared, Nat.add_zero]
    dsimp only
    rw [lengths]

/-- A place with one script in it. -/
def scriptTree (text : String) : Tree :=
  ⟨[(["script"], .file (Text.Utf8.encode text.toList))]⟩

/-- A script of a line that is refused, a read of two beats with one to expect, and a plain read. -/
def mixedScript : Tree :=
  scriptTree "WAIT x\n# pause\nAXI READ 0 INCR 1 1\nAHB READ 0"

/-- The check tells of one line, and the run counts two. -/
theorem errors_of_checked_program :
    ∃ results final,
      (engine mixedScript ⟨0, ["script"]⟩ {}).run mixedScript (.ofFile "script") { world := {} } =
          .ok results final ∧
        results.errors = 2 ∧ (check mixedScript "script" .w64).crash = none ∧
        (check mixedScript "script" .w64).exitCode = failureCode := by
  have readable : (Source.ofFile "script").readAll mixedScript =
      ([(1, "WAIT x"), (3, "AXI READ 0 INCR 1 1"), (4, "AHB READ 0")], none,
        ⟨.file "script" none, 4⟩) := by decide +kernel
  have found : (diagnose {} [(1, "WAIT x"), (3, "AXI READ 0 INCR 1 1"), (4, "AHB READ 0")]).errors =
      [{ cause := .malformedCount "cycle count" "x", line := some 1 }] := by decide +kernel
  have unscored : [(1, "WAIT x"), (3, "AXI READ 0 INCR 1 1"), (4, "AHB READ 0")].countP
      (engine mixedScript ⟨0, ["script"]⟩ {}).grammar.unscored = 1 := by decide +kernel
  have ends : (match (engine mixedScript ⟨0, ["script"]⟩ {}).run mixedScript (.ofFile "script")
      { world := {} } with
      | .ok _ _ => true
      | .error _ _ => false) = true := by decide +kernel
  split at ends
  · rename_i results final ended
    obtain ⟨quiet, -, count, -⟩ := errors_of_checked_run
      (Engine.onModel_program mixedScript ⟨0, ["script"]⟩ {}) readable readable ended
    have lengths := congrArg List.length found
    refine ⟨results, final, ended, ?_, quiet, by decide +kernel⟩
    rw [count, unscored]
    exact congrArg (· + 1) lengths
  · cases ends

/-- A read of two beats with one to expect, and nothing else. -/
def mismatchedScript : Tree :=
  scriptTree "AXI READ 0x0 INCR 1 0x1\n"

/-- The check succeeds, and the run counts an error. -/
theorem mismatched_read_passes_check :
    (check mismatchedScript "script" .w64).exitCode = 0 ∧
      (check mismatchedScript "script" .w64).stdout = "script: 1 commands, 0 errors\n" ∧
      ∃ results final,
        (engine mismatchedScript ⟨0, ["script"]⟩ {}).run mismatchedScript (.ofFile "script")
            { world := {} } = .ok results final ∧
          results.errors = 1 := by
  refine ⟨by decide +kernel, by decide +kernel, ?_⟩
  have ends : (match (engine mismatchedScript ⟨0, ["script"]⟩ {}).run mismatchedScript
      (.ofFile "script") { world := {} } with
      | .ok results _ => results.errors == 1
      | .error _ _ => false) = true := by decide +kernel
  split at ends
  · rename_i results final ended
    exact ⟨results, final, ended, beq_iff_eq.mp ends⟩
  · cases ends

end BusScript.CommandLine
