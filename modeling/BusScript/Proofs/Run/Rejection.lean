import BusScript.Bench.Recording
import BusScript.Proofs.Bench.Noted
import BusScript.Proofs.Run.Accounting

/-!
# Lines in error ask for nothing

A line that counts as an error and leaves no record has changed nothing else: what it lacks is
looked for before the bench is asked. There is one exception. A poll looks for the clock between two
reads only, so without one it makes a read before it is refused (`CutShort`).
-/

namespace BusScript

/-- The read that a poll repeats. -/
def Poll.readCall (p : Poll) : BusCall :=
  match p.bus with
  | .ahb => .read p.address (.ahb .single) (.size (some .word))
  | .axi => .readBurst p.address (.axi .incr) 0 (.size none)

namespace Engine

open Run

variable {σ : Type} {e : Engine σ} {s u : RunState σ} {error : ScriptError}

/-! ## Transactions -/

theorem untouched_of_transactor_bind {α : Type} {bus : Bus} {line : Option Int}
    {f : Transactor σ → Run σ α}
    (asked : ∀ transactor, FailsWith (fun _ => True) RunFault.Unscripted (f transactor))
    (failed : (e.transactor bus line >>= f) s = .error (.script error) u) :
    u = s ∧ e.bench.transactor? bus = none := by
  rcases bind_error_iff.mp failed with missing | ⟨transactor, m, -, failed⟩
  · unfold Engine.transactor at missing
    cases attached : e.bench.transactor? bus with
    | some transactor =>
      rw [attached] at missing
      exact absurd missing pure_ne_error
    | none =>
      rw [attached] at missing
      exact ⟨(throw_error_iff.mp missing).2.symm, rfl⟩
  · exact absurd rfl (failsWith_true_iff.mp (asked transactor) m _ u failed error)

/-- Only the lack of a transactor is a script error of a bus operation. -/
theorem untouched_of_dispatch {t : Transaction}
    (failed : e.dispatch t s = .error (.script error) u) :
    u = s ∧ e.bench.transactor? t.bus = none := by
  unfold dispatch at failed
  refine untouched_of_transactor_bind (fun transactor => ?_) failed
  split
  · exact failsWith_ask_unscripted.bind fun _ => failsWith_pure
  · exact failsWith_ask_unscripted.bind fun _ => failsWith_pure
  · exact failsWith_ask_unscripted.bind fun _ => failsWith_pure
  · exact failsWith_ask_unscripted.bind fun _ => failsWith_pure

/-- A transaction that is refused after it was carried out has left a record. -/
theorem untouched_or_traced_of_transaction {t : Transaction}
    (failed : e.transaction t s = .error (.script error) u) :
    u = s ∨ ∃ record, u.traces = s.traces.push record := by
  rw [transaction_eq] at failed
  rcases bind_error_iff.mp failed with failed | ⟨observed, m, dispatched, failed⟩
  · exact .inl (untouched_of_dispatch failed).1
  · obtain ⟨_, traces⟩ := ((keeps_dispatch t) s).1 _ _ dispatched
    obtain ⟨status, results, log, concluded⟩ := exists_conclude_apply t observed m
    rw [bind_apply concluded] at failed
    have same := ((keeps_refuseMismatch t) _).2 _ _ failed
    refine .inr ⟨.ofTransaction t (observed.or t.payload) status, ?_⟩
    rw [← same, ← traces]

/-! ## Waits and polls -/

/-- Only the lack of a clock is a script error of a wait. -/
theorem untouched_of_waitCycles {cycles : Nat} {line : Option Int}
    (failed : e.waitCycles cycles line s = .error (.script error) u) :
    u = s ∧ e.bench.clock = none ∧ cycles ≠ 0 := by
  unfold waitCycles at failed
  split at failed
  · exact absurd failed pure_ne_error
  · rename_i some
    cases attached : e.bench.clock with
    | none =>
      rw [attached] at failed
      exact ⟨(throw_error_iff.mp failed).2.symm, rfl, some⟩
    | some clock =>
      rw [attached] at failed
      exact absurd rfl (failsWith_true_iff.mp failsWith_ask_unscripted s _ u failed error)

theorem clock_of_waitCycles {cycles : Nat} {line : Option Int}
    (waited : e.waitCycles cycles line s = .ok () u) : cycles = 0 ∨ e.bench.clock ≠ none := by
  unfold waitCycles at waited
  split at waited
  · exact .inl ‹_›
  · cases attached : e.bench.clock with
    | none =>
      rw [attached] at waited
      exact absurd waited throw_ne_ok
    | some clock => exact .inr (Option.some_ne_none clock)

theorem untouched_of_wait {w : Wait} (failed : e.wait w s = .error (.script error) u) :
    u = s ∧ e.bench.clock = none := by
  rcases bind_error_iff.mp failed with failed | ⟨_, m, -, failed⟩
  · obtain ⟨same, clockless, -⟩ := untouched_of_waitCycles failed
    exact ⟨same, clockless⟩
  · exact absurd failed emit_ne_error

theorem untouched_of_readWord {p : Poll}
    (failed : e.readWord p s = .error (.script error) u) :
    u = s ∧ e.bench.transactor? p.bus = none := by
  unfold readWord at failed
  refine untouched_of_transactor_bind (fun transactor => ?_) failed
  cases p.bus with
  | ahb => exact failsWith_ask_unscripted
  | axi =>
    refine failsWith_ask_unscripted.bind fun beats => ?_
    cases beats with
    | nil => exact failsWith_throw fun _ equal => by cases equal
    | cons word rest => exact failsWith_pure

theorem attached_of_readWord {p : Poll} {word : Int} (read : e.readWord p s = .ok word u) :
    ∃ transactor, e.bench.transactor? p.bus = some transactor := by
  unfold readWord at read
  obtain ⟨transactor, m, attached, -⟩ := bind_ok_iff.mp read
  exact ⟨transactor, (transactor_ok_iff.mp attached).1⟩

/-- A poll was refused after its first read, which missed: there is no clock to wait for the
second. -/
structure CutShort (e : Engine σ) (p : Poll) (s u : RunState σ) : Prop where
  clock : e.bench.clock = none
  interval : e.config.pollInterval ≠ 0
  limit : 2 ≤ p.maxPolls.getD 0
  read : ∃ word, e.readWord p s = .ok word u ∧
    Number.bitAnd word p.mask ≠ Number.bitAnd p.expected p.mask

/-- A poll that is refused has made no read or one: with the second it has a clock. -/
theorem untouched_or_one_read_of_pollReads {p : Poll} {sofar : PollOutcome} {remaining : Nat}
    (failed : e.pollReads p sofar remaining s = .error (.script error) u) :
    (u = s ∧ e.bench.transactor? p.bus = none) ∨
      (e.bench.clock = none ∧ e.config.pollInterval ≠ 0 ∧ 2 ≤ remaining ∧
        ∃ word, e.readWord p s = .ok word u ∧
          Number.bitAnd word p.mask ≠ Number.bitAnd p.expected p.mask) := by
  induction remaining generalizing s sofar with
  | zero => exact absurd failed pure_ne_error
  | succ remaining ih =>
    unfold pollReads at failed
    rcases bind_error_iff.mp failed with failed | ⟨word, m, read, failed⟩
    · exact .inl (untouched_of_readWord failed)
    · dsimp only at failed
      split at failed
      · exact absurd failed pure_ne_error
      · rename_i missed
        split at failed
        · rename_i more
          rcases bind_error_iff.mp failed with failed | ⟨_, n, waited, failed⟩
          · obtain ⟨rfl, clockless, some⟩ := untouched_of_waitCycles failed
            exact .inr ⟨clockless, some, by omega, word, read, missed⟩
          · -- The first read found a transactor and the wait a clock, so nothing is lacking.
            rcases ih failed with ⟨-, missing⟩ | ⟨clockless, some, -⟩
            · obtain ⟨transactor, attached⟩ := attached_of_readWord read
              rw [missing] at attached
              cases attached
            · rcases clock_of_waitCycles waited with none | attached
              · exact absurd none some
              · exact absurd clockless attached
        · rename_i last
          obtain rfl : remaining = 0 := by omega
          exact absurd failed pure_ne_error

theorem untouched_or_cutShort_of_poll {p : Poll}
    (failed : e.poll p s = .error (.script error) u) :
    (u = s ∧ e.bench.transactor? p.bus = none) ∨ e.CutShort p s u := by
  rcases bind_error_iff.mp failed with failed | ⟨outcome, m, -, failed⟩
  · rcases untouched_or_one_read_of_pollReads failed with
      untouched | ⟨clockless, some, more, word, read, missed⟩
    · exact .inl untouched
    · exact .inr ⟨clockless, some, by omega, word, read, missed⟩
  · rcases bind_error_iff.mp failed with failed | ⟨_, n, -, failed⟩
    · exact absurd failed enter_ne_error
    · exact absurd failed emit_ne_error

/-! ## Lines -/

/-- What a line in error can have done: nothing, a record that shows what it did, or the one read of
a poll without a clock. -/
theorem untouched_or_traced_or_cutShort_of_perform {text : String} {line : Option Int}
    (failed : e.perform text line s = .error (.script error) u) :
    u = s ∨ (∃ record, u.traces = s.traces.push record) ∨
      ∃ p, e.parse text line = .ok (.poll p) ∧ e.CutShort p s u := by
  rcases perform_error_iff.mp failed with ⟨fault, -, -, same⟩ | ⟨action, parsed, executed⟩
  · exact .inl same
  · cases action with
    | transaction t =>
      rcases untouched_or_traced_of_transaction executed with same | traced
      · exact .inl same
      · exact .inr (.inl traced)
    | poll p =>
      rcases untouched_or_cutShort_of_poll executed with ⟨same, -⟩ | short
      · exact .inl same
      · exact .inr (.inr ⟨p, parsed, short⟩)
    | wait w => exact .inl (untouched_of_wait executed).1
    | preload p => exact .inl (untouched_of_preload executed).1

/-- A poll reads from the transactor of its bus. -/
theorem answered_of_readWord {e : Engine σ} {p : Poll} {s u : RunState (Noted σ)} {word : Int}
    (read : e.noted.readWord p s = .ok word u) :
    ∃ plain reply, e.bench.transactor? p.bus = some plain ∧
      (plain p.readCall s.world.world).result = .ok reply ∧
      u.world = (plain.noted p.bus p.readCall s.world).state ∧ u.preloads = s.preloads := by
  unfold readWord at read
  obtain ⟨transactor, m, chosen, read⟩ := bind_ok_iff.mp read
  obtain ⟨noted, rfl⟩ := transactor_ok_iff.mp chosen
  obtain ⟨plain, attached, rfl⟩ := transactor?_noted_eq_some_iff.mp noted
  refine ⟨plain, ?_⟩
  unfold Poll.readCall
  cases bus : p.bus with
  | ahb =>
    simp only [bus] at read attached
    obtain ⟨answered, rfl⟩ := ask_ok_iff.mp read
    exact ⟨word, attached, answered, rfl, rfl⟩
  | axi =>
    simp only [bus] at read attached
    obtain ⟨beats, m, asked, read⟩ := bind_ok_iff.mp read
    obtain ⟨answered, rfl⟩ := ask_ok_iff.mp asked
    cases beats with
    | nil => exact absurd read throw_ne_ok
    | cons first rest =>
      obtain ⟨-, rfl⟩ := pure_ok_iff.mp read
      exact ⟨first :: rest, attached, answered, rfl, rfl⟩

/-- A read of a noted bench leaves its note, and changes nothing else but the log and what the bench
is in. -/
theorem noted_of_readWord {e : Engine σ} {p : Poll} {s u : RunState (Noted σ)} {word : Int}
    (read : e.noted.readWord p s = .ok word u) :
    u.world.history = s.world.history ++ [.call p.bus p.readCall] ∧ u.preloads = s.preloads := by
  obtain ⟨plain, reply, -, -, world, preloads⟩ := answered_of_readWord read
  exact ⟨by rw [world]; rfl, preloads⟩

/-! ## Rejected lines -/

/-- A line that leaves no record counts an error and nothing else, and changes no preload. It asks
the bench for nothing, unless it is a poll on an attached bus, of two reads or more, with cycles to
wait for between them and no clock: that has made its first read. -/
theorem untraced_line_asks_nothing (e : Engine σ) {text : String} {line : Option Int}
    {s t : RunState (Noted σ)} (ended : e.noted.executeLine text line s = .ok () t)
    (untraced : t.traces = s.traces) :
    t.results = s.results.recordError ∧ t.preloads = s.preloads ∧
      (t.world = s.world ∨
        e.bench.clock = none ∧ e.config.pollInterval ≠ 0 ∧
          ∃ p, e.parse text line = .ok (.poll p) ∧ 2 ≤ p.maxPolls.getD 0 ∧
            (e.bench.transactor? p.bus).isSome ∧
            t.world.history = s.world.history ++ [.call p.bus p.readCall]) := by
  have grown {record : TraceRecord} : s.traces ≠ s.traces.push record := by
    intro equal
    have size := congrArg Array.size equal
    rw [Array.size_push] at size
    omega
  rcases executeLine_ok_iff.mp ended with performed | ⟨error, u, failed, rfl⟩
  · obtain ⟨_, -, record, _, -, -, traced, -⟩ := carried_of_perform performed
    exact absurd (untraced.symm.trans traced) grown
  · have results : (counted error u).results = s.results.recordError :=
      congrArg Results.recordError (unfinished_of_perform failed).results_eq
    refine ⟨results, ?_⟩
    rcases untouched_or_traced_or_cutShort_of_perform failed with
      rfl | ⟨record, traced⟩ | ⟨p, parsed, short⟩
    · exact ⟨rfl, .inl rfl⟩
    · exact absurd (untraced.symm.trans traced) grown
    · obtain ⟨word, read, -⟩ := short.read
      obtain ⟨history, preloads⟩ := noted_of_readWord read
      obtain ⟨transactor, attached⟩ := attached_of_readWord read
      have attached : e.bench.noted.transactor? p.bus = some transactor := attached
      rw [Bench.transactor?_noted, Option.map_eq_some_iff] at attached
      obtain ⟨plain, attached, -⟩ := attached
      refine ⟨preloads, .inr ⟨?_, short.interval, p, parsed, short.limit, ?_, history⟩⟩
      · exact Option.map_eq_none_iff.mp short.clock
      · rw [attached, Option.isSome_some]

/-- Without a transactor a read is refused, whatever else there is. -/
theorem untraced_read_asks_nothing :
    ∃ s t : RunState (Noted Recording.World),
      executeLine (noted { bench := { clock := some Recording.clock } }) "AHB READ 0" (some 1) s =
          .ok () t ∧
        t.results.errors = 1 ∧ t.preloads = s.preloads ∧ t.world = s.world := by
  let e : Engine Recording.World := { bench := { clock := some Recording.clock } }
  have read : e.noted.parse "AHB READ 0" (some 1) =
      .ok (.transaction {
        operation := .read, address := 0, burst := .ahb .single, width := 32
        size := some .word, line := some 1 }) := by decide +kernel
  have ended : e.noted.executeLine "AHB READ 0" (some 1) { world := ⟨{}, []⟩ } = .ok () _ :=
    executeLine_ok_iff.mpr (.inr ⟨_, _, perform_error_iff.mpr (.inr ⟨_, read, rfl⟩), rfl⟩)
  obtain ⟨results, preloads, same | ⟨clockless, -⟩⟩ := untraced_line_asks_nothing e ended rfl
  · exact ⟨_, _, ended, rfl, preloads, same⟩
  · cases clockless

/-- A poll without a clock is rejected with its first read made, and no record shows the read. -/
theorem clockless_poll_asks_bus :
    ∃ t : RunState (Noted Recording.World),
      executeLine (noted { bench := { ahb := some Recording.ahb } }) "AHB POLL 0x40 0x1 0x1 2"
          (some 1) { world := ⟨{}, []⟩ } = .ok () t ∧
        t.results.errors = 1 ∧ t.traces = #[] ∧
        t.world.history = [.call .ahb (.read 64 (.ahb .single) (.size (some .word)))] := by
  let e : Engine Recording.World := { bench := { ahb := some Recording.ahb } }
  have poll : e.noted.parse "AHB POLL 0x40 0x1 0x1 2" (some 1) =
      .ok (.poll {
        bus := .ahb, address := 64, expected := 1, mask := 1, maxPolls := some 2, width := 32
        line := some 1 }) := by decide +kernel
  have ended : e.noted.executeLine "AHB POLL 0x40 0x1 0x1 2" (some 1) { world := ⟨{}, []⟩ } =
      .ok () _ :=
    executeLine_ok_iff.mpr (.inr ⟨_, _, perform_error_iff.mpr (.inr ⟨_, poll, rfl⟩), rfl⟩)
  exact ⟨_, ended, rfl, rfl, rfl⟩

end Engine

end BusScript
