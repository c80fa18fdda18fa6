import BusScript.Proofs.Run.Lines

/-!
# What whole runs keep

A relation that the lines of a run keep, and the wait at its end, is kept by the whole run
(`Engine.keeps_run`): between the lines only the counters and the log change.
-/

namespace BusScript.Engine

open Run Script

variable {σ : Type} {e : Engine σ} {R : RunState σ → RunState σ → Prop}

theorem keeps_perform [Std.Refl R] {text : String} {line : Option Int}
    (executed : ∀ action, e.parse text line = .ok action → Keeps R (e.execute action)) :
    Keeps R (e.perform text line) := by
  unfold perform
  cases parsed : e.parse text line with
  | ok action => exact executed action parsed
  | error fault => exact keeps_throw

variable [IsTrans _ R] (noted : ∀ s results log, R s { s with results, log })

include noted

/-- An error in a line changes the counters and the log, no more. -/
theorem keeps_executeLine {text : String} {line : Option Int}
    (performed : Keeps R (e.perform text line)) : Keeps R (e.executeLine text line) := by
  intro s
  constructor
  · intro a t ended
    rcases executeLine_ok_iff.mp ended with ended | ⟨error, m, failed, rfl⟩
    · exact (performed s).1 _ _ ended
    · exact trans_of R ((performed s).2 _ m failed) (noted m _ _)
  · intro fault t ended
    exact (performed s).2 fault t (executeLine_error_iff.mp ended).1

theorem keeps_executeLines [Std.Refl R] (lines : List (Nat × String))
    (performed : ∀ text line, Keeps R (e.perform text line)) : Keeps R (e.executeLines lines) := by
  induction lines with
  | nil => exact keeps_pure
  | cons line rest ih =>
    obtain ⟨number, text⟩ := line
    exact (keeps_executeLine noted (performed text _)).bind fun _ => ih

theorem keeps_abort (message : String) : Keeps R (abort message : Run σ Unit) :=
  (keeps_modify fun s => noted s _ s.log).bind fun _ => keeps_modify fun s => noted s s.results _

/-- A run keeps what its lines keep, and the wait at its end. -/
theorem keeps_run [Std.Refl R] (tree : Tree) (source : Source)
    (performed : ∀ text line, Keeps R (e.perform text line)) (settled : Keeps R e.settle) :
    Keeps R (e.run tree source) := by
  have result : Keeps R (do return (← get).results : Run σ Results) :=
    keeps_get.bind fun _ => keeps_pure
  unfold run
  cases source.opened tree with
  | error fault =>
    cases fault with
    | nul => exact keeps_throw
    | _ => exact (keeps_abort noted _).bind fun _ => result
  | ok opened =>
    dsimp only
    generalize opened.readAll tree = read
    obtain ⟨lines, fault, -⟩ := read
    refine Keeps.bind (keeps_modify fun s => noted s s.results _) fun _ => ?_
    refine (keeps_executeLines noted lines performed).bind fun _ => ?_
    cases fault with
    | none => exact settled.bind fun _ => result
    | some fault => exact (keeps_abort noted _).bind fun _ => settled.bind fun _ => result

end BusScript.Engine
