import BusScript.Proofs.Run.Execution

/-!
# Faults of actions

What an action can fail with follows from what its parts can fail with: a script error under the
line of the action, or whatever the bench fails with. `MayFail` lists these parts for any kind of
faults, and an action has no other ones.
-/

namespace BusScript.Engine

open Run

variable {σ α : Type} {e : Engine σ} {I : PreloadState → Prop} {F : RunFault → Prop}

/-- The faults that actions of a line can end in are of a kind, as long as something holds of the
preloads. -/
structure MayFail (e : Engine σ) (line : Option Int) (I : PreloadState → Prop)
    (F : RunFault → Prop) : Prop where
  script : ∀ cause, F (.script { cause, line })
  call : ∀ {bus transactor}, e.bench.transactor? bus = some transactor →
    ∀ call, FailsWith I F (ask (transactor call))
  /-- A poll that is answered with no beats. -/
  beats : ∀ {bus transactor address burst shape world},
    e.bench.transactor? bus = some transactor →
      (transactor (.readBurst address burst 0 shape) world).result = .ok [] → F .noBeats
  cycles : ∀ {clock}, e.bench.clock = some clock → ∀ count, FailsWith I F (ask (clock count))
  request : ∀ {coordinator}, e.coordinator? = some coordinator →
    ∀ p, FailsWith I F (coordinator.request p)

variable {line : Option Int}

theorem MayFail.reject (may : e.MayFail line I F) {cause : Cause} :
    FailsWith I F (reject cause line : Run σ α) :=
  failsWith_throw (may.script cause)

theorem MayFail.transactor_bind (may : e.MayFail line I F) {bus : Bus}
    {f : Transactor σ → Run σ α}
    (later : ∀ transactor, e.bench.transactor? bus = some transactor →
      FailsWith I F (f transactor)) :
    FailsWith I F (e.transactor bus line >>= f) := by
  unfold Engine.transactor
  cases attached : e.bench.transactor? bus with
  | some transactor => exact later transactor attached
  | none =>
    show FailsWith I F (Engine.reject (.noTransactor bus) line : Run σ α)
    exact may.reject

/-! ## Transactions -/

theorem MayFail.dispatch {t : Transaction} (may : e.MayFail t.line I F) :
    FailsWith I F (e.dispatch t) := by
  unfold Engine.dispatch
  refine may.transactor_bind fun transactor attached => ?_
  split
  · exact (may.call attached _).bind fun _ => failsWith_pure
  · exact (may.call attached _).bind fun _ => failsWith_pure
  · exact (may.call attached _).bind fun _ => failsWith_pure
  · exact (may.call attached _).bind fun _ => failsWith_pure

/-- No check fails on its own. -/
theorem failsWith_conclude (t : Transaction) (observed : Option Data) :
    FailsWith I F (conclude t observed : Run σ Unit) := by
  refine failsWith_of_apply fun s => ?_
  obtain ⟨status, results, log, ended⟩ := exists_conclude_apply t observed s
  exact ⟨(), _, ended, id⟩

theorem MayFail.transaction {t : Transaction} (may : e.MayFail t.line I F) :
    FailsWith I F (e.transaction t) := by
  rw [transaction_eq]
  refine may.dispatch.bind fun observed => (failsWith_conclude t observed).bind fun _ => ?_
  unfold refuseMismatch
  cases t.mismatch with
  | some mismatch => exact may.reject
  | none => exact failsWith_pure

/-! ## Waits and polls -/

theorem MayFail.waitCycles (may : e.MayFail line I F) (cycles : Nat) :
    FailsWith I F (e.waitCycles cycles line) := by
  unfold Engine.waitCycles
  split
  · exact failsWith_pure
  · split
    · exact may.reject
    · rename_i attached
      exact may.cycles attached _

theorem MayFail.wait {w : Wait} (may : e.MayFail w.line I F) : FailsWith I F (e.wait w) :=
  (may.waitCycles w.cycles).bind fun _ => failsWith_emit

theorem MayFail.readWord {p : Poll} (may : e.MayFail p.line I F) :
    FailsWith I F (e.readWord p) := by
  unfold Engine.readWord
  refine may.transactor_bind fun transactor attached => ?_
  cases p.bus with
  | ahb => exact may.call attached _
  | axi =>
    intro s r t holds ended
    rcases ends_bind_iff.mp ended with ⟨beats, m, asked, ended⟩ | ⟨fault, rfl, failed⟩
    · have kept := (may.call attached _ s _ m holds asked).1
      cases beats with
      | nil =>
        obtain ⟨none, -⟩ := ask_ok_iff.mp asked
        exact failsWith_throw (may.beats attached none) m r t kept ended
      | cons word rest => exact failsWith_pure m r t kept ended
    · exact may.call attached _ s (.error fault) t holds failed

theorem MayFail.pollReads {p : Poll} (may : e.MayFail p.line I F) (sofar : PollOutcome)
    (remaining : Nat) : FailsWith I F (e.pollReads p sofar remaining) := by
  induction remaining generalizing sofar with
  | zero => exact failsWith_pure
  | succ remaining ih =>
    unfold Engine.pollReads
    refine may.readWord.bind fun word => ?_
    dsimp only
    split
    · exact failsWith_pure
    · split
      · exact (may.waitCycles _).bind fun _ => ih _
      · exact ih _

theorem MayFail.poll {p : Poll} (may : e.MayFail p.line I F) : FailsWith I F (e.poll p) :=
  (may.pollReads {} _).bind fun _ => failsWith_enter.bind fun _ => failsWith_emit

/-! ## Actions -/

theorem MayFail.preload {p : Preload} (may : e.MayFail p.line I F) :
    FailsWith I F (e.preload p) := by
  unfold Engine.preload
  cases attached : e.coordinator? with
  | none => exact may.reject
  | some coordinator => exact (may.request attached p).bind fun _ => failsWith_emit

theorem MayFail.execute {action : Action} (may : e.MayFail action.line I F) :
    FailsWith I F (e.execute action) := by
  cases action with
  | transaction t => exact MayFail.transaction may
  | poll p => exact MayFail.poll may
  | wait w => exact MayFail.wait may
  | preload p => exact MayFail.preload may

end BusScript.Engine
