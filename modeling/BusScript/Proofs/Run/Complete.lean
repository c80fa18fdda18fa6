import BusScript.Proofs.Command.Faults
import BusScript.Proofs.Run.Completion
import BusScript.Proofs.Run.Rejection

/-!
# Benches that lack nothing

Where both buses, a clock and a loader are attached, carrying out an action ends in no script error
but that of a read that cannot be compared. The errors that lines count are then those that the
grammar holds against them, one for a line it refuses and one for a read without a score
(`errors_of_executeLine`), whatever the bench answers.
-/

namespace BusScript

/-- A bench with both buses, a clock and a loader. -/
structure Bench.Complete {σ : Type} (bench : Bench σ) : Prop where
  transactor : ∀ bus, bench.transactor? bus ≠ none
  clock : bench.clock ≠ none
  loader : bench.loader ≠ none

namespace Engine

open Run

variable {σ : Type} {e : Engine σ} {s t : RunState σ}

/-! ## Actions -/

/-- A transaction that is carried out to its end has nothing against its check. -/
theorem compared_of_transaction {transaction : Transaction}
    (ended : e.transaction transaction s = .ok () t) : transaction.mismatch = none := by
  rw [transaction_eq] at ended
  obtain ⟨observed, m, -, ended⟩ := bind_ok_iff.mp ended
  obtain ⟨_, n, -, ended⟩ := bind_ok_iff.mp ended
  unfold refuseMismatch at ended
  cases mismatch : transaction.mismatch with
  | none => rfl
  | some found =>
    rw [mismatch] at ended
    exact absurd ended throw_ne_ok

/-- A transaction that passes on an attached bus was carried out there and traced. -/
theorem dispatched_of_passed {transaction : Transaction}
    (attached : e.bench.transactor? transaction.bus ≠ none)
    (passed : e.Passed (.transaction transaction) s t) :
    ∃ observed m status, e.dispatch transaction s = .ok observed m ∧ t.world = m.world ∧
      t.traces = s.traces.push
        (.ofTransaction transaction (observed.or transaction.payload) status) := by
  have concluded {observed : Option Data} {m n : RunState σ}
      (dispatched : e.dispatch transaction s = .ok observed m)
      (ended : conclude transaction observed m = .ok () n) :
      ∃ status, n.world = m.world ∧ n.traces = s.traces.push
        (.ofTransaction transaction (observed.or transaction.payload) status) := by
    obtain ⟨status, results, log, equal⟩ := exists_conclude_apply transaction observed m
    rw [equal] at ended
    cases ended
    have before := ((keeps_dispatch transaction) s).1 _ _ dispatched
    exact ⟨status, rfl, by rw [← before.2]⟩
  rcases passed with ended | ⟨error, ended⟩
  · have ended : e.transaction transaction s = .ok () t := ended
    rw [transaction_eq] at ended
    obtain ⟨observed, m, dispatched, ended⟩ := bind_ok_iff.mp ended
    obtain ⟨_, n, done, ended⟩ := bind_ok_iff.mp ended
    obtain rfl := ((keeps_refuseMismatch transaction) n).1 _ _ ended
    obtain ⟨status, traced⟩ := concluded dispatched done
    exact ⟨observed, m, status, dispatched, traced⟩
  · have ended : e.transaction transaction s = .error (.script error) t := ended
    rw [transaction_eq] at ended
    rcases bind_error_iff.mp ended with ended | ⟨observed, m, dispatched, ended⟩
    · exact absurd (untouched_of_dispatch ended).2 attached
    · obtain ⟨status, results, log, done⟩ := exists_conclude_apply transaction observed m
      rcases bind_error_iff.mp ended with ended | ⟨_, n, done, ended⟩
      · rw [done] at ended
        cases ended
      · obtain rfl := ((keeps_refuseMismatch transaction) n).2 _ _ ended
        obtain ⟨status, traced⟩ := concluded dispatched done
        exact ⟨observed, m, status, dispatched, traced⟩

section

variable (complete : e.bench.Complete) {error : ScriptError}

include complete

theorem mismatch_of_transaction {transaction : Transaction}
    (failed : e.transaction transaction s = .error (.script error) t) :
    transaction.mismatch.isSome := by
  rw [transaction_eq] at failed
  rcases bind_error_iff.mp failed with failed | ⟨observed, m, -, failed⟩
  · exact absurd (untouched_of_dispatch failed).2 (complete.transactor transaction.bus)
  · obtain ⟨status, results, log, concluded⟩ := exists_conclude_apply transaction observed m
    rw [bind_apply concluded] at failed
    unfold refuseMismatch at failed
    cases mismatch : transaction.mismatch with
    | none =>
      rw [mismatch] at failed
      exact absurd failed pure_ne_error
    | some found => rfl

/-- Only a read that cannot be compared is in error once it was parsed. -/
theorem mismatch_of_execute {action : Action}
    (failed : e.execute action s = .error (.script error) t) :
    ∃ transaction, action = .transaction transaction ∧ transaction.mismatch.isSome := by
  cases action with
  | transaction transaction => exact ⟨transaction, rfl, mismatch_of_transaction complete failed⟩
  | poll p =>
    rcases untouched_or_cutShort_of_poll failed with ⟨-, missing⟩ | short
    · exact absurd missing (complete.transactor p.bus)
    · exact absurd short.clock complete.clock
  | wait w => exact absurd (untouched_of_wait failed).2 complete.clock
  | preload p => exact absurd (untouched_of_preload failed).2 complete.loader

/-! ## Lines -/

/-- A line counts an error exactly if the grammar holds one against it. -/
theorem errors_of_executeLine {number : Nat} {text : String}
    (ended : e.executeLine text (some number) s = .ok () t) :
    t.results.errors = s.results.errors +
      if (e.grammar.refusal? (number, text)).isSome ∨ e.grammar.unscored (number, text) then 1
      else 0 := by
  rcases executeLine_ok_iff.mp ended with performed | ⟨error, m, failed, rfl⟩
  · obtain ⟨action, parsed, executed⟩ := perform_ok_iff.mp performed
    obtain ⟨status, compared, _, message, -, -, -, results⟩ := carried_of_execute executed
    have parsed : e.grammar.parse text (some (number : Int)) = .ok action := parsed
    have accepted : ¬(e.grammar.refusal? (number, text)).isSome := by
      intro refused
      obtain ⟨error, refused⟩ := Option.isSome_iff_exists.mp refused
      cases parsed.symm.trans (Grammar.refusal?_eq_some_iff.mp refused)
    have scored : ¬e.grammar.unscored (number, text) := by
      intro unscored
      obtain ⟨transaction, same, mismatch⟩ := Grammar.unscored_iff.mp unscored
      cases parsed.symm.trans same
      rw [compared_of_transaction executed] at mismatch
      cases mismatch
    rw [results, Results.errors_counted, if_neg compared, if_neg (not_or.mpr ⟨accepted, scored⟩)]
  · have results : (counted error m).results = s.results.recordError :=
      congrArg Results.recordError (unfinished_of_perform failed).results_eq
    have held : (e.grammar.refusal? (number, text)).isSome ∨ e.grammar.unscored (number, text) := by
      rcases perform_error_iff.mp failed with ⟨found, refused, equal, -⟩ | ⟨action, parsed, failed⟩
      · cases found with
        | script found =>
          have refused := Grammar.refusal?_eq_some_iff.mpr refused
          exact .inl (Option.isSome_of_mem refused)
        | countTooLong digits => cases equal
      · obtain ⟨transaction, rfl, mismatch⟩ := mismatch_of_execute complete failed
        exact .inr (Grammar.unscored_iff.mpr ⟨transaction, parsed, mismatch⟩)
    rw [results, if_pos held, Results.recordError]

theorem errors_of_executeLines {lines : List (Nat × String)}
    (ended : e.executeLines lines s = .ok () t) :
    t.results.errors = s.results.errors + (lines.filterMap e.grammar.refusal?).length +
      lines.countP e.grammar.unscored := by
  induction lines generalizing s with
  | nil =>
    obtain ⟨-, rfl⟩ := pure_ok_iff.mp ended
    rfl
  | cons line lines ih =>
    obtain ⟨number, text⟩ := line
    obtain ⟨_, m, first, rest⟩ := bind_ok_iff.mp ended
    have one := errors_of_executeLine complete first
    have others := ih rest
    rw [List.countP_cons, List.filterMap_cons]
    cases refused : e.grammar.refusal? (number, text) with
    | some error =>
      have scored : e.grammar.unscored (number, text) = false :=
        Grammar.unscored_eq_false_of_refusal? (by rw [refused, Option.isSome_some])
      simp only [refused, scored, Option.isSome_some, true_or, if_true] at one
      simp only [scored, List.length_cons, Bool.false_eq_true, if_false]
      omega
    | none =>
      simp only [refused, Option.isSome_none, Bool.false_eq_true, false_or] at one
      dsimp only
      omega

end

end Engine

end BusScript
