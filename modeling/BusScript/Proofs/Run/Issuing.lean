import BusScript.Proofs.Memory.Transfer
import BusScript.Proofs.Run.Calls
import BusScript.Proofs.Run.Complete
import BusScript.Proofs.Run.Parallel

/-!
# What a run issues

The calls that transactors receive and the cycles that the clock is asked for are those of the lines
that the grammar accepts, line by line (`Engine.Issuing`). A transaction is one call and a wait one
wait. A poll repeats one read, with a wait before each read but the first. All other lines issue
nothing, and nothing is issued between lines.

Whatever else is to be counted along with the calls and waits is counted the same way, answer by
answer (`Engine.Tallies`): a tally that the single answers keep is one of the whole run.
-/

namespace BusScript

/-- Asked of a transactor or of the clock. -/
def Asked.isIssued : Asked → Bool
  | .call .. | .cycles _ => true
  | .preload .. | .completion .. => false

/-- The call that a transactor was asked for. -/
def Asked.callOn? (bus : Bus) : Asked → Option BusCall
  | .call other request => if other = bus then some request else none
  | _ => none

/-- All calls are issued. -/
theorem filterMap_callOn?_issued (bus : Bus) (asked : List Asked) :
    (asked.filter Asked.isIssued).filterMap (Asked.callOn? bus) =
      asked.filterMap (Asked.callOn? bus) := by
  rw [List.filterMap_filter]
  exact List.filterMap_congr fun ask _ => by cases ask <;> rfl

/-- The benches are near each other and were asked for the same. -/
structure Noted.Near {σ τ : Type} (near : σ → τ → Prop) (a : Noted σ) (b : Noted τ) : Prop where
  world : near a.world b.world
  history : b.history = a.history

/-- The burst of a call is one of the bus, and a read of a burst is one of a beat or more. -/
def BusCall.IsOn (bus : Bus) : BusCall → Prop
  | .write _ _ burst _ | .read _ burst _ | .writeBurst _ _ burst _ => burst.bus = bus
  | .readBurst _ burst length _ => burst.bus = bus ∧ 0 ≤ length

theorem Transaction.WellFormed.isOn {t : Transaction} {grammar : Grammar} {line : Option Int}
    (formed : t.WellFormed grammar line) {call : BusCall} (called : t.call? = some call) :
    call.IsOn t.bus := by
  have beats := formed.beats_pos
  unfold Transaction.beats at beats
  unfold Transaction.call? at called
  split at called
  · cases called
    exact rfl
  · cases called
    exact rfl
  · cases called
    exact rfl
  · cases called
    exact ⟨rfl, by omega⟩
  · cases called
    exact ⟨rfl, by omega⟩
  · cases called

theorem Poll.isOn_readCall (p : Poll) : p.readCall.IsOn p.bus := by
  unfold readCall
  cases p.bus with
  | ahb => exact rfl
  | axi => exact ⟨rfl, le_refl 0⟩

/-! ## Histories -/

section

variable {σ : Type}

/-- The history goes on, and what it adds issues some calls and waits. -/
def Issues (asks : List Asked) (before after : Noted σ) : Prop :=
  ∃ asked, after.history = before.history ++ asked ∧ asked.filter Asked.isIssued = asks

theorem Issues.append {first later : List Asked} {before middle after : Noted σ}
    (start : Issues first before middle) (rest : Issues later middle after) :
    Issues (first ++ later) before after := by
  obtain ⟨asked, history, issued⟩ := start
  obtain ⟨more, longer, others⟩ := rest
  refine ⟨asked ++ more, ?_, ?_⟩
  · rw [longer, history, List.append_assoc]
  · rw [List.filter_append, issued, others]

end

namespace Engine

open Run

variable {σ : Type} {e : Engine σ} {R : List Asked → Noted σ → Noted σ → Prop}

/-- A relation of the noted bench before and after some calls and waits for cycles. It starts from
nothing, goes on with more of them, and grows by each that the bench answers. Preloads are nothing
to it. -/
structure Tallies (e : Engine σ) (R : List Asked → Noted σ → Noted σ → Prop) : Prop where
  refl : ∀ world, R [] world world
  append : ∀ {first later before middle after}, R first before middle → R later middle after →
    R (first ++ later) before after
  call : ∀ {bus plain call reply} {world : Noted σ}, e.bench.transactor? bus = some plain →
    call.IsOn bus → (plain call world.world).result = .ok reply →
      R [.call bus call] world (plain.noted bus call world).state
  cycles : ∀ {clock}, e.bench.clock = some clock → ∀ count world,
    R [.cycles count] world (Effect.noted (clock count) (fun _ => .cycles count) world).state
  request : ∀ {loader}, e.bench.loader = some loader → ∀ target file world,
    R [] world (loader.noted.request target file world).state
  wait : ∀ {loader}, e.bench.loader = some loader → ∀ handle bound world,
    R [] world (loader.noted.wait handle bound world).state

/-- What is issued is a tally. -/
theorem tallies_issues : e.Tallies Issues where
  refl _ := ⟨[], (List.append_nil _).symm, rfl⟩
  append := Issues.append
  call _ _ _ := ⟨_, rfl, rfl⟩
  cycles _ _ _ := ⟨_, rfl, rfl⟩
  request _ _ _ _ := ⟨_, rfl, rfl⟩
  wait _ _ _ _ := ⟨_, rfl, rfl⟩

/-! ## Parts of actions -/

namespace Tallies

theorem reflexive (tallies : e.Tallies R) : Std.Refl (R []) :=
  ⟨tallies.refl⟩

theorem transitive (tallies : e.Tallies R) : IsTrans (Noted σ) (R []) :=
  ⟨fun _ _ _ => tallies.append⟩

theorem dispatch (tallies : e.Tallies R) {t : Transaction} {line : Option Int}
    {observed : Option Data} {s m : RunState (Noted σ)} (formed : t.WellFormed e.grammar line)
    (ended : e.noted.dispatch t s = .ok observed m) :
    ∃ call, t.call? = some call ∧ R [.call t.bus call] s.world m.world := by
  obtain ⟨call, called, same⟩ := formed.dispatch_eq (Noted σ)
  rw [same] at ended
  obtain ⟨transactor, _, chosen, ended⟩ := bind_ok_iff.mp ended
  obtain ⟨noted, rfl⟩ := transactor_ok_iff.mp chosen
  obtain ⟨plain, attached, rfl⟩ := transactor?_noted_eq_some_iff.mp noted
  obtain ⟨reply, answered, -, rfl⟩ := ask_map_ok_iff.mp ended
  exact ⟨call, called, tallies.call attached (formed.isOn called) answered⟩

theorem waitCycles (tallies : e.Tallies R) {cycles : Nat} {line : Option Int}
    {s t : RunState (Noted σ)} (ended : e.noted.waitCycles cycles line s = .ok () t) :
    R (cyclesAsked cycles) s.world t.world := by
  unfold Engine.waitCycles at ended
  unfold cyclesAsked
  split at ended
  · rename_i none
    obtain ⟨-, rfl⟩ := pure_ok_iff.mp ended
    rw [if_pos none]
    exact tallies.refl s.world
  · rename_i some
    rw [if_neg some]
    cases noted : e.noted.bench.clock with
    | none =>
      rw [noted] at ended
      exact absurd ended throw_ne_ok
    | some clock =>
      rw [noted] at ended
      obtain ⟨plain, attached, rfl⟩ := Option.map_eq_some_iff.mp noted
      obtain ⟨-, rfl⟩ := ask_ok_iff.mp ended
      exact tallies.cycles attached cycles s.world

/-- A poll that may read makes a read or more. -/
theorem pollReads (tallies : e.Tallies R) {p : Poll} {sofar outcome : PollOutcome}
    {remaining : Nat} {s t : RunState (Noted σ)}
    (ended : e.noted.pollReads p sofar remaining s = .ok outcome t) (some : 1 ≤ remaining) :
    ∃ reads, 1 ≤ reads ∧ reads ≤ remaining ∧
      R (p.asked e.config.pollInterval reads) s.world t.world := by
  induction remaining generalizing s sofar with
  | zero => omega
  | succ remaining ih =>
    unfold Engine.pollReads at ended
    obtain ⟨word, m, read, ended⟩ := bind_ok_iff.mp ended
    have first : R [.call p.bus p.readCall] s.world m.world := by
      obtain ⟨plain, reply, attached, answered, world, -⟩ := answered_of_readWord read
      rw [world]
      exact tallies.call attached p.isOn_readCall answered
    dsimp only at ended
    split at ended
    · obtain ⟨-, rfl⟩ := pure_ok_iff.mp ended
      exact ⟨1, le_refl 1, by omega, first⟩
    · split at ended
      · rename_i more
        obtain ⟨_, n, waited, ended⟩ := bind_ok_iff.mp ended
        obtain ⟨reads, some, few, rest⟩ := ih ended (by omega)
        obtain ⟨others, rfl⟩ := Nat.exists_eq_add_of_le' some
        have more := tallies.append first (tallies.append (tallies.waitCycles waited) rest)
        exact ⟨others + 2, by omega, by omega, more⟩
      · rename_i last
        obtain rfl : remaining = 0 := by omega
        obtain ⟨-, rfl⟩ := pure_ok_iff.mp ended
        exact ⟨1, le_refl 1, le_refl 1, first⟩

theorem keeps_settle (tallies : e.Tallies R) : Keeps (OnWorld (R [])) e.noted.settle := by
  have := tallies.reflexive
  have := tallies.transitive
  unfold settle coordinator?
  cases noted : e.noted.bench.loader with
  | none => exact keeps_pure
  | some loader =>
    obtain ⟨plain, attached, rfl⟩ := Option.map_eq_some_iff.mp noted
    refine (Coordinator.keeps_waitOutstanding _ fun handle world => ?_).bind fun _ => keeps_pure
    exact tallies.wait attached handle _ world

theorem keeps_preload (tallies : e.Tallies R) (p : Preload) :
    Keeps (OnWorld (R [])) (e.noted.preload p) := by
  have := tallies.reflexive
  have := tallies.transitive
  unfold preload coordinator?
  cases noted : e.noted.bench.loader with
  | none => exact keeps_throw
  | some loader =>
    obtain ⟨plain, attached, rfl⟩ := Option.map_eq_some_iff.mp noted
    refine (Coordinator.keeps_request p (fun handle world => ?_) fun world => ?_).bind
      fun _ => keeps_emit_onWorld
    · exact tallies.wait attached handle _ world
    · exact tallies.request attached p.target p.dataFile world

end Tallies

/-! ## Lines -/

/-- What a numbered line issues: a transaction its call, a wait its cycles, a poll one or more reads
with waits between them, and every other line nothing. -/
inductive Issuing (e : Engine σ) (line : Nat × String) : List Asked → Prop
  | transaction {t : Transaction} {call : BusCall} :
    e.parse line.2 (some line.1) = .ok (.transaction t) → t.call? = some call →
      Issuing e line [.call t.bus call]
  | poll {p : Poll} {reads : Nat} :
    e.parse line.2 (some line.1) = .ok (.poll p) → 1 ≤ reads → reads ≤ p.maxPolls.getD 0 →
      Issuing e line (p.asked e.config.pollInterval reads)
  | wait {w : Wait} :
    e.parse line.2 (some line.1) = .ok (.wait w) → Issuing e line (cyclesAsked w.cycles)
  | preload {p : Preload} : e.parse line.2 (some line.1) = .ok (.preload p) → Issuing e line []
  | refused {fault : CommandFault} :
    e.parse line.2 (some line.1) = .error fault → Issuing e line []

/-- What a line issues is fixed, but for the reads of a poll. -/
theorem Issuing.eq {line : Nat × String} {asks others : List Asked} (issuing : e.Issuing line asks)
    (other : e.Issuing line others)
    (unpolled : ∀ p, e.parse line.2 (some line.1) ≠ .ok (.poll p)) : asks = others := by
  cases issuing with
  | transaction parsed called =>
    cases other with
    | transaction same found => cases parsed.symm.trans same; cases called.symm.trans found; rfl
    | poll same => cases parsed.symm.trans same
    | wait same => cases parsed.symm.trans same
    | preload same => cases parsed.symm.trans same
    | refused same => cases parsed.symm.trans same
  | poll parsed => exact absurd parsed (unpolled _)
  | wait parsed =>
    cases other with
    | transaction same => cases parsed.symm.trans same
    | poll same => cases parsed.symm.trans same
    | wait same => cases parsed.symm.trans same; rfl
    | preload same => cases parsed.symm.trans same
    | refused same => cases parsed.symm.trans same
  | preload parsed =>
    cases other with
    | transaction same => cases parsed.symm.trans same
    | poll same => cases parsed.symm.trans same
    | wait same => cases parsed.symm.trans same
    | preload same => rfl
    | refused same => rfl
  | refused parsed =>
    cases other with
    | transaction same => cases parsed.symm.trans same
    | poll same => cases parsed.symm.trans same
    | wait same => cases parsed.symm.trans same
    | preload same => rfl
    | refused same => rfl

/-- What lines without polls issue is fixed. -/
theorem issuing_lines_eq {lines : List (Nat × String)} {asks others : List (List Asked)}
    (issuing : List.Forall₂ e.Issuing lines asks) (other : List.Forall₂ e.Issuing lines others)
    (unpolled : ∀ line ∈ lines, ∀ p, e.parse line.2 (some line.1) ≠ .ok (.poll p)) :
    asks = others := by
  induction issuing generalizing others with
  | nil => exact (List.forall₂_nil_left_iff.mp other).symm
  | cons first _ ih =>
    obtain ⟨unpolled, later⟩ := List.forall_mem_cons.mp unpolled
    obtain ⟨found, rest, same, remaining, rfl⟩ := List.forall₂_cons_left_iff.mp other
    rw [first.eq same unpolled, ih remaining later]

/-- Both buses and a clock are attached, and polls may read. -/
structure Driven (e : Engine σ) : Prop where
  transactor : ∀ bus, e.bench.transactor? bus ≠ none
  clock : e.bench.clock ≠ none
  limit : 1 ≤ e.config.maxPolls

variable {s t : RunState (Noted σ)}

theorem Driven.transactor_noted (driven : e.Driven) (bus : Bus) :
    e.noted.bench.transactor? bus ≠ none := by
  rw [noted, Bench.transactor?_noted]
  exact fun missing => driven.transactor bus (Option.map_eq_none_iff.mp missing)

theorem Driven.clock_noted (driven : e.Driven) : e.noted.bench.clock ≠ none :=
  fun missing => driven.clock (Option.map_eq_none_iff.mp missing)

variable (tallies : e.Tallies R)

include tallies

theorem Driven.tallied_of_poll (driven : e.Driven) {p : Poll} {line : Option Int}
    (formed : p.WellFormed e.grammar line) (passed : e.noted.Passed (.poll p) s t) :
    ∃ reads : Nat, 1 ≤ reads ∧ reads ≤ p.maxPolls.getD 0 ∧
      R (p.asked e.config.pollInterval reads) s.world t.world := by
  have positive : e.grammar.LimitPositive :=
    ⟨e.config.maxPolls, rfl, by exact_mod_cast driven.limit⟩
  obtain ⟨limit, stated, some⟩ := formed.maxPolls positive
  have limit : p.maxPolls.getD 0 = limit := by rw [stated, Option.getD_some]
  rcases passed with ended | ⟨error, failed⟩
  · obtain ⟨outcome, m, polled, ended⟩ := bind_ok_iff.mp ended
    obtain ⟨_, n, scored, ended⟩ := bind_ok_iff.mp ended
    obtain ⟨_, rfl⟩ := exists_log_of_enter scored
    obtain ⟨_, rfl⟩ := exists_log_of_emit ended
    obtain ⟨reads, one, few, tallied⟩ := tallies.pollReads polled (by omega)
    exact ⟨reads, one, by omega, tallied⟩
  · rcases untouched_or_cutShort_of_poll failed with ⟨-, missing⟩ | short
    · exact absurd missing (driven.transactor_noted p.bus)
    · exact absurd short.clock driven.clock_noted

theorem Driven.tallied_of_wait (driven : e.Driven) {w : Wait}
    (passed : e.noted.Passed (.wait w) s t) : R (cyclesAsked w.cycles) s.world t.world := by
  rcases passed with ended | ⟨error, failed⟩
  · obtain ⟨⟨⟩, m, waited, ended⟩ := bind_ok_iff.mp ended
    obtain ⟨_, rfl⟩ := exists_log_of_emit ended
    have tallied := tallies.waitCycles waited
    exact tallied
  · exact absurd (untouched_of_wait failed).2 driven.clock_noted

theorem tallied_of_preload {p : Preload} (passed : e.noted.Passed (.preload p) s t) :
    R [] s.world t.world := by
  rcases passed with ended | ⟨error, failed⟩
  · exact (tallies.keeps_preload p s).1 _ _ ended
  · exact (tallies.keeps_preload p s).2 _ _ failed

/-- A line that leaves the run going is tallied with what it asks for. -/
theorem Driven.tallied_of_executeLine (driven : e.Driven) {line : Nat × String}
    (ended : e.noted.executeLine line.2 (some line.1) s = .ok () t) :
    ∃ asks, e.Issuing line asks ∧ R asks s.world t.world := by
  rcases passed_of_executeLine ended with
    ⟨⟨fault, refused⟩, world⟩ | ⟨action, u, parsed, passed, world, -⟩
  · rw [world]
    exact ⟨[], .refused refused, tallies.refl s.world⟩
  · rw [world]
    have parsed : e.parse line.2 (some line.1) = .ok action := parsed
    have formed : action.WellFormed e.grammar (some line.1) := Grammar.wellFormed_of_parse parsed
    cases action with
    | transaction transaction =>
      obtain ⟨observed, m, status, dispatched, world, -⟩ :=
        dispatched_of_passed (driven.transactor_noted transaction.bus) passed
      obtain ⟨call, called, tallied⟩ := tallies.dispatch formed dispatched
      rw [world]
      exact ⟨_, .transaction parsed called, tallied⟩
    | poll p =>
      obtain ⟨reads, one, few, tallied⟩ := driven.tallied_of_poll tallies formed passed
      exact ⟨_, .poll parsed one few, tallied⟩
    | wait w => exact ⟨_, .wait parsed, driven.tallied_of_wait tallies passed⟩
    | preload p => exact ⟨_, .preload parsed, tallied_of_preload tallies passed⟩

/-- Lines are tallied with what they ask for, one after the other. -/
theorem Driven.tallied_of_executeLines (driven : e.Driven) {lines : List (Nat × String)}
    (ended : e.noted.executeLines lines s = .ok () t) :
    ∃ asks, List.Forall₂ e.Issuing lines asks ∧ R asks.flatten s.world t.world := by
  induction lines generalizing s with
  | nil =>
    obtain ⟨-, rfl⟩ := pure_ok_iff.mp ended
    exact ⟨[], .nil, tallies.refl s.world⟩
  | cons line lines ih =>
    obtain ⟨_, m, first, rest⟩ := bind_ok_iff.mp ended
    obtain ⟨asks, issuing, tallied⟩ := driven.tallied_of_executeLine tallies first
    obtain ⟨others, later, more⟩ := ih rest
    exact ⟨asks :: others, .cons issuing later, tallies.append tallied more⟩

/-- The run of a source is tallied with what its lines ask for, and with nothing before, between or
behind them. -/
theorem Driven.tallied_of_run (driven : e.Driven) {tree : Tree} {source : Script.Source}
    {results : Results} (ended : e.noted.run tree source s = .ok results t) :
    ∃ asks, List.Forall₂ e.Issuing (source.readAll tree).1 asks ∧
      R asks.flatten s.world t.world := by
  obtain ⟨log, m, n, carried, world, -, settled⟩ := executeLines_of_run ended
  obtain ⟨asks, issuing, tallied⟩ := driven.tallied_of_executeLines tallies carried
  refine ⟨asks, issuing, ?_⟩
  rcases settled with settled | rfl
  · have still := (tallies.keeps_settle n).1 _ _ settled
    rw [OnWorld, world] at still
    have whole := tallies.append tallied still
    rwa [List.append_nil] at whole
  · rw [world]
    exact tallied

omit tallies

/-! ## Other answers -/

section

variable {τ : Type} {near : σ → τ → Prop} {told : Prop}

theorem agree_noted {α : Type} {effect : Effect σ α} {other : Effect τ α}
    (agree : Effect.Agree near told effect other) {note : Option α → Asked}
    (same : told ∨ ∀ x y, note x = note y) :
    Effect.Agree (Noted.Near near) told (effect.noted note) (other.noted note) := by
  intro a b states
  obtain ⟨worlds, answers⟩ := agree a.world b.world states.world
  have notes : note (other b.world).result.toOption = note (effect a.world).result.toOption := by
    rcases same with told | constant
    · rcases answers with ⟨x, y, here, there, equal⟩ | ⟨fault, here, there⟩
      · rw [here, there, equal told]
      · rw [here, there]
    · exact constant _ _
  refine ⟨⟨worlds, ?_⟩, answers⟩
  show b.history ++ [_] = a.history ++ [_]
  rw [states.history, notes]

theorem Twin.noted {other : Engine τ} (twin : e.Twin near told other) :
    e.noted.Twin (Noted.Near near) told other.noted where
  config := twin.config
  clock := by
    have clocks := twin.clock
    unfold Engine.noted Bench.noted
    generalize e.bench.clock = x at clocks ⊢
    generalize other.bench.clock = y at clocks ⊢
    cases clocks with
    | none => exact .none
    | some agree => exact .some fun cycles => agree_noted (agree cycles) (.inl trivial)
  loader := by
    have loaders := twin.loader
    unfold Engine.noted Bench.noted
    generalize e.bench.loader = x at loaders ⊢
    generalize other.bench.loader = y at loaders ⊢
    cases loaders with
    | none => exact .none
    | some loader =>
      refine .some ⟨fun target file => ?_, fun handle a b states => ?_, fun handle bound => ?_⟩
      · exact agree_noted (loader.request target file) (.inl trivial)
      · exact loader.done handle a.world b.world states.world
      · exact agree_noted (loader.wait handle bound) (.inl trivial)
  transactor bus := by
    have attached := twin.transactor bus
    rw [Engine.noted, Engine.noted, Bench.transactor?_noted, Bench.transactor?_noted]
    generalize e.bench.transactor? bus = x at attached ⊢
    generalize other.bench.transactor? bus = y at attached ⊢
    cases attached with
    | none => exact .none
    | some agree =>
      exact .some fun call => agree_noted (agree call) (.inr fun _ _ => rfl)

end

/-! ## Runs -/

open Script

theorem Driven.issues_of_run (driven : e.Driven) {tree : Tree} {source : Source} {results : Results}
    (ended : e.noted.run tree source s = .ok results t) :
    ∃ asks, List.Forall₂ e.Issuing (source.readAll tree).1 asks ∧
      Issues asks.flatten s.world t.world :=
  driven.tallied_of_run tallies_issues ended

/-- A run that ends asks the transactors and the clock for what its lines issue, line by line in the
order of the script, so each transactor for its own calls among these. If no line is a poll, the run
ends as well on benches that keep other states and whose transactors answer with other values, and
then it has asked for the same. -/
theorem run_issues_lines (driven : e.Driven) {tree : Tree} {source : Source} {results : Results}
    (ended : e.noted.run tree source s = .ok results t) :
    (∃ asked asks, t.world.history = s.world.history ++ asked ∧
      List.Forall₂ e.Issuing (source.readAll tree).1 asks ∧
      asked.filter Asked.isIssued = asks.flatten ∧
      ∀ bus, asked.filterMap (Asked.callOn? bus) =
        asks.flatMap (List.filterMap (Asked.callOn? bus))) ∧
    ((∀ line ∈ (source.readAll tree).1, ∀ p, e.parse line.2 (some line.1) ≠ .ok (.poll p)) →
      ∀ {τ : Type} (other : Engine τ) (near : σ → τ → Prop), e.Twin near False other →
        ∀ start : RunState (Noted τ), s.world.Near near start.world →
          start.preloads = s.preloads →
          ∃ found u, other.noted.run tree source start = .ok found u ∧
            t.world.Near near u.world) := by
  constructor
  · obtain ⟨asks, issuing, asked, history, issued⟩ := driven.issues_of_run ended
    refine ⟨asked, asks, history, issuing, issued, fun bus => ?_⟩
    rw [← filterMap_callOn?_issued, issued, List.filterMap_flatten, List.flatMap_def]
  · intro unpolled τ other near twin start worlds preloads
    have preloads : start.preloads = s.preloads.mapLine id := by
      rw [preloads, PreloadState.mapLine_id]
    have abreast : Abreast (Noted.Near near) False id 0 s start :=
      ⟨worlds, preloads, False.elim, False.elim⟩
    have pair := twin.noted.parallel_run
      (fun line member p polls => unpolled line member p polls) (fun _ _ => rfl) s start
      abreast
    obtain ⟨found, u, ends, -, last⟩ := pair.of_ok ended
    exact ⟨found, u, ends, last.world⟩

/-- A transactor whose state says what it answers with, and moves on with each call. -/
def answering (answer : σ → Int) (next : σ → σ) : Transactor σ
  | .write .. => fun world => ⟨.ok (), next world, []⟩
  | .read .. => fun world => ⟨.ok (answer world), next world, []⟩
  | .writeBurst .. => fun world => ⟨.ok (), next world, []⟩
  | .readBurst _ _ length _ => fun world =>
    ⟨.ok (List.replicate (beatCount length) (answer world)), next world, []⟩

/-- An engine with such a transactor on both buses and a clock. -/
def answeringEngine (answer : σ → Int) (next : σ → σ) : Engine σ where
  bench := {
    ahb := some (answering answer next)
    axi := some (answering answer next)
    clock := some fun _ world => ⟨.ok (), world, []⟩ }

theorem driven_answeringEngine (answer : σ → Int) (next : σ → σ) :
    (answeringEngine answer next).Driven where
  transactor bus := by cases bus <;> exact Option.some_ne_none _
  clock := Option.some_ne_none _
  limit := Nat.le_add_left 1 999

theorem twin_answeringEngine {τ : Type} (answer : σ → Int) (next : σ → σ) (other : τ → Int)
    (after : τ → τ) : (answeringEngine answer next).Twin (fun _ _ => True) False
      (answeringEngine other after) where
  config := rfl
  clock := .some fun _ _ _ _ => ⟨trivial, .inl ⟨(), (), rfl, rfl, fun _ => rfl⟩⟩
  loader := .none
  transactor bus := by
    have agree (call : BusCall) : Effect.Agree (fun _ _ => True) False
        (answering answer next call) (answering other after call) := by
      intro a b _
      refine ⟨trivial, .inl ?_⟩
      cases call <;> exact ⟨_, _, rfl, rfl, False.elim⟩
    cases bus <;> exact .some agree

/-- All words read are zero. -/
def silentEngine : Engine Unit :=
  answeringEngine (fun _ => 0) id

/-- The words read count the calls. -/
def countingEngine : Engine Nat :=
  answeringEngine Int.ofNat Nat.succ

/-- A write, a refused line, a wait and a read that expects too few words issue two calls with a
wait between them, whatever is read. -/
theorem run_issues_two_calls :
    let script := Source.ofText
      "AHB WRITE 0x10 0xAB\nAHB ERASE 0x10\nWAIT 3\nAXI READ 0x20 INCR 1 0x5"
    ∃ results final found last,
      silentEngine.noted.run {} script { world := ⟨(), []⟩ } = .ok results final ∧
      countingEngine.noted.run {} script { world := ⟨0, []⟩ } = .ok found last ∧
      last.world.history = final.world.history ∧
      final.world.history.filter Asked.isIssued = [
        .call .ahb (.write 0x10 0xAB (.ahb .single) (.size (some .word))),
        .cycles 3,
        .call .axi (.readBurst 0x20 (.axi .incr) 1 (.size none))] ∧
      final.world.history.filterMap (Asked.callOn? .axi) =
        [.readBurst 0x20 (.axi .incr) 1 (.size none)] := by
  intro script
  have readable : (script.readAll {}).1 = [(1, "AHB WRITE 0x10 0xAB"), (2, "AHB ERASE 0x10"),
      (3, "WAIT 3"), (4, "AXI READ 0x20 INCR 1 0x5")] := by decide +kernel
  obtain ⟨write, writes, onAhb, written⟩ : ∃ t,
      silentEngine.parse "AHB WRITE 0x10 0xAB" (some 1) = .ok (.transaction t) ∧ t.bus = .ahb ∧
      t.call? = some (.write 0x10 0xAB (.ahb .single) (.size (some .word))) :=
    ⟨_, rfl, rfl, rfl⟩
  obtain ⟨fault, refuses⟩ : ∃ fault,
      silentEngine.parse "AHB ERASE 0x10" (some 2) = .error fault := ⟨_, rfl⟩
  obtain ⟨wait, waits, three⟩ : ∃ w,
      silentEngine.parse "WAIT 3" (some 3) = .ok (.wait w) ∧ w.cycles = 3 := ⟨_, rfl, rfl⟩
  obtain ⟨fetch, fetches, onAxi, fetched⟩ : ∃ t,
      silentEngine.parse "AXI READ 0x20 INCR 1 0x5" (some 4) = .ok (.transaction t) ∧ t.bus = .axi ∧
      t.call? = some (.readBurst 0x20 (.axi .incr) 1 (.size none)) :=
    ⟨_, rfl, rfl, rfl⟩
  have unpolled : ∀ line ∈ (script.readAll {}).1, ∀ p,
      silentEngine.parse line.2 (some line.1) ≠ .ok (.poll p) := by
    rw [readable]
    intro line member p polls
    simp only [List.mem_cons, List.not_mem_nil, or_false] at member
    rcases member with rfl | rfl | rfl | rfl
    · cases writes.symm.trans polls
    · cases refuses.symm.trans polls
    · cases waits.symm.trans polls
    · cases fetches.symm.trans polls
  have ends : (match silentEngine.noted.run {} script { world := ⟨(), []⟩ } with
      | .ok _ _ => true
      | .error _ _ => false) = true := by decide +kernel
  split at ends
  · rename_i results final ended
    obtain ⟨⟨asked, asks, history, issuing, issued, onBus⟩, same⟩ :=
      run_issues_lines (driven_answeringEngine _ _) ended
    obtain ⟨found, last, others, world⟩ := same unpolled countingEngine _
      (twin_answeringEngine _ _ _ _) { world := ⟨0, []⟩ } ⟨trivial, rfl⟩ rfl
    rw [readable] at issuing unpolled
    have fixed : asks = [
        [.call write.bus (.write 0x10 0xAB (.ahb .single) (.size (some .word)))], [],
        cyclesAsked wait.cycles,
        [.call fetch.bus (.readBurst 0x20 (.axi .incr) 1 (.size none))]] :=
      issuing_lines_eq issuing
        (.cons (.transaction writes written) (.cons (.refused refuses) (.cons (.wait waits)
          (.cons (.transaction fetches fetched) .nil)))) unpolled
    rw [onAhb, onAxi, three] at fixed
    rw [List.nil_append] at history
    rw [← history, fixed] at issued onBus
    exact ⟨results, final, found, last, ended, others, world.history, issued, onBus .axi⟩
  · exact absurd ends (by decide)

end Engine

end BusScript
