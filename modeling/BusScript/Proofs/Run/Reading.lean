import BusScript.Proofs.Run.Outcome
import BusScript.Run.Engine

/-!
# Parts that only read

Waiting for cycles and polling ask the bench for no more than cycles and reads. A relation that
these keep is kept by them (`Engine.ReadsKeep`), however long the poll.
-/

namespace BusScript.Engine

open Run

variable {σ : Type} {e : Engine σ} {R : RunState σ → RunState σ → Prop}

/-- Reads of the bench and cycles of its clock keep a relation. -/
structure ReadsKeep (e : Engine σ) (R : RunState σ → RunState σ → Prop) : Prop where
  read : ∀ {bus transactor address burst shape}, e.bench.transactor? bus = some transactor →
    Keeps R (ask (transactor (.read address burst shape)))
  readBurst : ∀ {bus transactor address burst length shape},
    e.bench.transactor? bus = some transactor →
      Keeps R (ask (transactor (.readBurst address burst length shape)))
  clock : ∀ {clock cycles}, e.bench.clock = some clock → Keeps R (ask (clock cycles))

theorem transactor_ok_iff {bus : Bus} {line : Option Int} {transactor : Transactor σ}
    {s t : RunState σ} :
    e.transactor bus line s = .ok transactor t ↔
      e.bench.transactor? bus = some transactor ∧ s = t := by
  unfold Engine.transactor
  cases e.bench.transactor? bus with
  | some attached => simp [pure_ok_iff]
  | none => simp [reject, throw_ne_ok]

variable [Std.Refl R]

/-- What follows the choice of a transactor is asked of one that is attached. -/
theorem keeps_transactor_bind {α : Type} {bus : Bus} {line : Option Int}
    {f : Transactor σ → Run σ α}
    (later : ∀ transactor, e.bench.transactor? bus = some transactor → Keeps R (f transactor)) :
    Keeps R (e.transactor bus line >>= f) := by
  unfold Engine.transactor
  cases attached : e.bench.transactor? bus with
  | some transactor => exact later transactor attached
  | none =>
    show Keeps R (reject (.noTransactor bus) line : Run σ α)
    exact keeps_throw

theorem ReadsKeep.waitCycles (reads : e.ReadsKeep R) (cycles : Nat) (line : Option Int) :
    Keeps R (e.waitCycles cycles line) := by
  unfold Engine.waitCycles
  split
  · exact keeps_pure
  · split
    · exact keeps_throw
    · rename_i attached
      exact reads.clock attached

variable [IsTrans _ R]

theorem ReadsKeep.readWord (reads : e.ReadsKeep R) (p : Poll) : Keeps R (e.readWord p) := by
  unfold Engine.readWord
  refine keeps_transactor_bind fun transactor attached => ?_
  cases p.bus with
  | ahb => exact reads.read attached
  | axi =>
    refine (reads.readBurst attached).bind fun beats => ?_
    cases beats with
    | nil => exact keeps_throw
    | cons word rest => exact keeps_pure

theorem ReadsKeep.pollReads (reads : e.ReadsKeep R) (p : Poll) (sofar : PollOutcome)
    (remaining : Nat) : Keeps R (e.pollReads p sofar remaining) := by
  induction remaining generalizing sofar with
  | zero => exact keeps_pure
  | succ remaining ih =>
    unfold Engine.pollReads
    refine (reads.readWord p).bind fun word => ?_
    dsimp only
    split
    · exact keeps_pure
    · split
      · exact (reads.waitCycles _ _).bind fun _ => ih _
      · exact ih _

end BusScript.Engine
