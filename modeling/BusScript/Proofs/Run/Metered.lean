import BusScript.Proofs.Bench.Spending
import BusScript.Proofs.Run.Issuing
import BusScript.Proofs.Run.OnModel

/-!
# Time on the memory model

What a run on the memory model costs, where one clock counts the cycles of both buses and of waits.
The clock moves on by the cycles of the lines and by nothing else (`Action.cost`), and each bus
counts its calls, one for each, whatever their beats. The notes of the run (`Engine.noted`) say
which calls these are and how many reads a poll made.
-/

namespace BusScript

/-! ## What is asked for -/

/-- The beats that a call moves. A single write on AXI moves as many as its length says. -/
def BusCall.beats : BusCall → Nat
  | .write _ _ burst shape => (Model.beatsOf? burst shape).getD 0
  | .read .. => 1
  | .writeBurst _ words _ _ => words.length
  | .readBurst _ _ length _ => beatCount length

/-- The cycles that go by for what is asked, at so many cycles for a beat. -/
def Asked.cost (latency : Nat) : Asked → Nat
  | .call _ request => latency * request.beats
  | .cycles count => count
  | .preload .. | .completion .. => 0

def Asked.isCall : Asked → Bool
  | .call .. => true
  | .cycles _ | .preload .. | .completion .. => false

/-- The noted bench is in the state of the bench. -/
def Noted.Of {σ : Type} (world : σ) (noted : Noted σ) : Prop :=
  noted.world = world

/-- The state of a run where notes are taken, and none has been taken yet. -/
def RunState.noted {σ : Type} (s : RunState σ) : RunState (Noted σ) :=
  { s with world := ⟨s.world, []⟩ }

/-! ## What actions take -/

/-- The cycles that an action takes, at so many cycles for a beat and so many between the reads of a
poll. A poll takes those of the reads it made and of the pauses between them. -/
def Action.cost (latency interval reads : Nat) : Action → Nat
  | .transaction t => match t.bus, t.operation with
    | .ahb, .write | .ahb, .read => latency
    | _, _ => latency * beatCount t.length
  | .poll _ => latency * reads + interval * (reads - 1)
  | .wait w => w.cycles
  | .preload _ => 0

/-- The cycles that a numbered line takes which asked for some calls and waits. A line that the
grammar refuses takes none. -/
def Engine.lineCost {σ : Type} (e : Engine σ) (latency : Nat) (line : Nat × String)
    (asks : List Asked) : Nat :=
  match e.parse line.2 (some line.1) with
  | .ok action => action.cost latency e.config.pollInterval (asks.countP Asked.isCall)
  | .error _ => 0

section

variable {t : Transaction} {grammar : Grammar} {line : Option Int}

theorem Transaction.WellFormed.length_eq_zero (formed : t.WellFormed grammar line)
    (bus : t.bus = .ahb) (single : t.operation = .write ∨ t.operation = .read) :
    t.length = 0 := by
  have one := formed.beats_eq_one bus single
  unfold beats at one
  omega

/-- A transaction moves its beats in one call, whichever call that is. -/
theorem Transaction.WellFormed.beats_of_call? (formed : t.WellFormed grammar line)
    {call : BusCall} (called : t.call? = some call) : call.beats = beatCount t.length := by
  unfold call? at called
  split at called
  · rename_i operation _
    cases called
    cases burst : t.burst with
    | ahb kind =>
      have bus : t.bus = .ahb := by rw [bus, burst, Burst.bus]
      rw [formed.length_eq_zero bus (.inl operation)]
      rfl
    | axi kind =>
      have bus : t.bus = .axi := by rw [bus, burst, Burst.bus]
      rw [shape, bus]
      rfl
  · rename_i words operation given
    cases called
    have payload := formed.payload
    rw [PayloadFits, operation, given] at payload
    have count : (words.length : Int) = t.length + 1 := payload.1
    rw [beatCount, ← count]
    rfl
  · rename_i operation bus _
    cases called
    rw [formed.length_eq_zero bus (.inr operation)]
    rfl
  · cases called
    rfl
  · cases called
    rfl
  · cases called

/-- A single transfer on AHB is of one beat, so there the number of beats says the same. -/
theorem Transaction.WellFormed.cost_eq (formed : t.WellFormed grammar line)
    (latency interval reads : Nat) :
    (Action.transaction t).cost latency interval reads = latency * beatCount t.length := by
  unfold Action.cost
  dsimp only
  split
  · rename_i bus operation
    rw [formed.length_eq_zero bus (.inl operation)]
    exact (Nat.mul_one latency).symm
  · rename_i bus operation
    rw [formed.length_eq_zero bus (.inr operation)]
    exact (Nat.mul_one latency).symm
  · rfl

end

theorem Poll.beats_readCall (p : Poll) : p.readCall.beats = 1 := by
  unfold readCall
  cases p.bus <;> rfl

theorem cost_cyclesAsked (latency cycles : Nat) :
    ((cyclesAsked cycles).map (Asked.cost latency)).sum = cycles := by
  unfold cyclesAsked
  split
  · rename_i none
    rw [none]
    rfl
  · rfl

theorem countP_cyclesAsked (cycles : Nat) : (cyclesAsked cycles).countP Asked.isCall = 0 := by
  unfold cyclesAsked
  split <;> rfl

/-- A poll takes the cycles of its reads, and a pause between each two. -/
theorem Poll.cost_asked (p : Poll) (latency interval reads : Nat) :
    ((p.asked interval reads).map (Asked.cost latency)).sum =
      latency * reads + interval * (reads - 1) := by
  have read : Asked.cost latency (.call p.bus p.readCall) = latency := by
    rw [Asked.cost, p.beats_readCall, Nat.mul_one]
  induction reads using Poll.asked.induct with
  | case1 => rfl
  | case2 => simp [asked, read]
  | case3 reads ih =>
    have time : ((p.asked interval (reads + 2)).map (Asked.cost latency)).sum =
        latency + (interval + (latency * (reads + 1) + interval * reads)) := by
      rw [asked, List.cons_append, List.map_cons, List.sum_cons, List.map_append, List.sum_append,
        cost_cyclesAsked, ih, read, Nat.add_sub_cancel]
    rw [time]
    show _ = latency * (reads + 2) + interval * (reads + 1)
    ring

theorem Poll.countP_asked (p : Poll) (interval reads : Nat) :
    (p.asked interval reads).countP Asked.isCall = reads := by
  induction reads using Poll.asked.induct with
  | case1 => rfl
  | case2 => rfl
  | case3 reads ih =>
    rw [asked, List.cons_append, List.countP_cons_of_pos rfl, List.countP_append,
      countP_cyclesAsked, ih, Nat.zero_add]

namespace Model

/-- A call on its bus that is answered takes the cycles of its beats and counts once. -/
theorem spends_transactor {setup : Setup} (clocked : setup.clocked) {bus : Bus} {call : BusCall}
    (on : call.IsOn bus) {world : World} {reply : call.Reply}
    (answered : (transactor setup call world).result = .ok reply) :
    Spends (setup.latency.toNat * call.beats) (oneOn bus) world
      (transactor setup call world).state := by
  cases call with
  | write address data burst shape =>
    obtain rfl : burst.bus = bus := on
    cases counted : beatsOf? burst shape with
    | none =>
      simp only [transactor, counted] at answered
      cases answered
    | some beats =>
      simp only [transactor, BusCall.beats, counted, Option.getD_some] at answered ⊢
      have spent := spends_write clocked answered
      rwa [List.length_replicate] at spent
  | read address burst shape =>
    obtain rfl : burst.bus = bus := on
    exact spends_read clocked (le_refl 0) (read_of_transactor_read answered)
  | writeBurst address words burst shape =>
    obtain rfl : burst.bus = bus := on
    exact spends_write clocked answered
  | readBurst address burst length shape =>
    obtain ⟨rfl, some⟩ := on
    exact spends_read clocked some answered

end Model

namespace Engine

open Run Script Model

/-! ## Lines -/

section

variable {σ : Type} {e : Engine σ} {latency : Nat}

theorem Issuing.cost {line : Nat × String} {asks : List Asked} (issuing : e.Issuing line asks) :
    (asks.map (Asked.cost latency)).sum = e.lineCost latency line asks := by
  unfold lineCost
  cases issuing with
  | @transaction t call parsed called =>
    have formed : t.WellFormed e.grammar (some line.1) := Grammar.wellFormed_of_parse parsed
    rw [parsed, List.map_singleton, List.sum_singleton]
    show latency * call.beats = (Action.transaction t).cost latency _ _
    rw [formed.beats_of_call? called, formed.cost_eq]
  | @poll p reads parsed some few =>
    rw [parsed, p.cost_asked, p.countP_asked]
    rfl
  | wait parsed =>
    rw [parsed, cost_cyclesAsked]
    rfl
  | preload parsed =>
    rw [parsed]
    rfl
  | refused parsed =>
    rw [parsed]
    rfl

/-- Lines cost what they ask for, one after the other. -/
theorem cost_flatten {lines : List (Nat × String)} {asks : List (List Asked)}
    (issuing : List.Forall₂ e.Issuing lines asks) :
    (asks.flatten.map (Asked.cost latency)).sum =
      (List.zipWith (e.lineCost latency) lines asks).sum := by
  induction issuing with
  | nil => rfl
  | cons first _ ih =>
    rw [List.flatten_cons, List.map_append, List.sum_append, List.zipWith_cons_cons,
      List.sum_cons, first.cost, ih]

end

/-! ## Runs with notes -/

section

variable {σ : Type}

/-- A bench answers with notes as it does without. -/
theorem agree_noted_self {α : Type} (effect : Effect σ α) (note : Option α → Asked) :
    Effect.Agree Noted.Of True effect (effect.noted note) := by
  rintro _ noted rfl
  refine ⟨rfl, ?_⟩
  cases answer : (effect noted.world).result with
  | ok value => exact .inl ⟨value, value, rfl, answer, fun _ => rfl⟩
  | error fault => exact .inr ⟨fault, rfl, answer⟩

theorem twin_noted (e : Engine σ) : e.Twin Noted.Of True e.noted where
  config := rfl
  clock := by
    unfold noted Bench.noted
    cases e.bench.clock with
    | none => exact .none
    | some clock => exact .some fun cycles => agree_noted_self (clock cycles) _
  loader := by
    unfold noted Bench.noted
    cases e.bench.loader with
    | none => exact .none
    | some loader =>
      refine .some ⟨fun target file => ?_, ?_, fun handle bound => ?_⟩
      · exact agree_noted_self (loader.request target file) _
      · rintro handle _ noted rfl
        rfl
      · exact agree_noted_self (loader.wait handle bound) _
  transactor bus := by
    rw [noted, Bench.transactor?_noted]
    cases e.bench.transactor? bus with
    | none => exact .none
    | some transactor => exact .some fun call => agree_noted_self (transactor call) _

/-- A run that ends does so as well where notes are taken. -/
theorem exists_noted_run {e : Engine σ} {tree : Tree} {source : Source} {results : Results}
    {s t : RunState σ} (ended : e.run tree source s = .ok results t) :
    ∃ found final, e.noted.run tree source s.noted = .ok found final ∧
      final.world.world = t.world := by
  have traces : s.traces.map (TraceRecord.mapLine id) = s.traces := Array.map_id s.traces
  have start : Abreast Noted.Of True id 0 s s.noted :=
    ⟨rfl, s.preloads.mapLine_id.symm, fun _ => ⟨s.results.lastError, rfl⟩, fun _ => traces.symm⟩
  have parallel : Parallel (Abreast Noted.Of True id 0) (fun a b => True → a.Ahead 0 b)
      (e.run tree source) (e.noted.run tree source) :=
    e.twin_noted.parallel_run (fun _ _ _ _ => trivial) fun _ _ => rfl
  obtain ⟨found, final, noted, -, last⟩ := (parallel s s.noted start).of_ok ended
  exact ⟨found, final, noted, last.world⟩

end

/-! ## Runs on one clock -/

variable {setup : Setup} {e : Engine World}

/-- Both buses of the engine are those of the memory model, and count the cycles of the engine's
clock. Preloads are those of the model, if there are any. -/
structure OnClock (setup : Setup) (e : Engine World) : Prop where
  transactor : ∀ bus, e.bench.transactor? bus = some (Model.transactor setup)
  clock : e.bench.clock = some (Model.clock setup)
  loader : ∀ {loader}, e.bench.loader = some loader → loader = Model.loader setup
  clocked : setup.clocked
  limit : 1 ≤ e.config.maxPolls

theorem OnModel.onClock (model : e.OnModel setup) (clocked : setup.clocked)
    (limit : 1 ≤ e.config.maxPolls) : e.OnClock setup where
  transactor bus := by
    rw [model.bench]
    cases bus <;> rfl
  clock := by rw [model.bench]; rfl
  loader attached := by
    rw [model.bench] at attached
    exact (Option.some.inj attached).symm
  clocked := clocked
  limit := limit

theorem OnClock.driven (timed : e.OnClock setup) : e.Driven where
  transactor bus := by
    rw [timed.transactor]
    exact Option.some_ne_none _
  clock := by
    rw [timed.clock]
    exact Option.some_ne_none _
  limit := timed.limit

/-- The calls and waits that are issued are paid for: their cycles go by on the clock, and each call
counts once on its bus. -/
def Metered (latency : Nat) (asks : List Asked) (before after : Noted World) : Prop :=
  Issues asks before after ∧
    Spends (asks.map (Asked.cost latency)).sum
      (fun bus => (asks.filterMap (Asked.callOn? bus)).length) before.world after.world

theorem OnClock.tallies (timed : e.OnClock setup) :
    e.Tallies (Metered setup.latency.toNat) where
  refl world := ⟨(tallies_issues (e := e)).refl world, Still.refl world.world⟩
  append := by
    rintro first later before middle after ⟨issued, spent⟩ ⟨more, rest⟩
    refine ⟨issued.append more, ?_⟩
    have whole := spent.append rest
    simp only [List.map_append, List.sum_append, List.filterMap_append, List.length_append]
    exact whole
  call := by
    intro bus plain call reply world attached on answered
    obtain rfl := Option.some.inj ((timed.transactor bus).symm.trans attached)
    refine ⟨tallies_issues.call attached on answered, ?_⟩
    have cost : ([Asked.call bus call].map (Asked.cost setup.latency.toNat)).sum =
        setup.latency.toNat * call.beats := List.sum_singleton
    have once : (fun other => ([Asked.call bus call].filterMap (Asked.callOn? other)).length) =
        oneOn bus := by
      funext other
      by_cases same : bus = other
      · simp [Asked.callOn?, oneOn, same]
      · simp [Asked.callOn?, oneOn, same]
    rw [cost, once]
    exact spends_transactor timed.clocked on answered
  cycles := by
    intro clock attached count world
    obtain rfl := Option.some.inj (timed.clock.symm.trans attached)
    exact ⟨tallies_issues.cycles attached count world, spends_passCycles count world.world⟩
  request := by
    intro loader attached target file world
    cases timed.loader attached
    exact ⟨tallies_issues.request attached target file world,
      @still_request setup target file world.world⟩
  wait := by
    intro loader attached handle bound world
    cases timed.loader attached
    exact ⟨tallies_issues.wait attached handle bound world,
      still_waitForLoad handle bound world.world⟩

/-- Where a run on the memory model ends well, the clock has moved on by the cycles of its lines,
and each bus has counted one transfer for each call that the engine made to it. The calls are those
that the notes of the run show, and they are those that its lines ask for. A latency below zero
lets no cycles go by. -/
theorem cycles_and_transfers_of_run (timed : e.OnClock setup) {tree : Tree} {source : Source}
    {results : Results} {s t : RunState World} (ended : e.run tree source s = .ok results t) :
    ∃ found final asks, e.noted.run tree source s.noted = .ok found final ∧
      final.world.world = t.world ∧
      List.Forall₂ e.Issuing (source.readAll tree).1 asks ∧
      final.world.history.filter Asked.isIssued = asks.flatten ∧
      t.world.cycles = s.world.cycles +
        (List.zipWith (e.lineCost setup.latency.toNat) (source.readAll tree).1 asks).sum ∧
      ∀ bus, t.world.transfers bus = s.world.transfers bus +
        (final.world.history.filterMap (Asked.callOn? bus)).length := by
  obtain ⟨found, final, noted, world⟩ := exists_noted_run ended
  obtain ⟨asks, issuing, ⟨asked, history, issued⟩, spent⟩ :=
    timed.driven.tallied_of_run timed.tallies noted
  rw [world] at spent
  obtain rfl : final.world.history = asked := history
  refine ⟨found, final, asks, noted, world, issuing, issued, ?_, fun bus => ?_⟩
  · rw [spent.cycles, cost_flatten issuing]
    rfl
  · rw [spent.transfers, ← issued, filterMap_callOn?_issued]
    rfl

/-- Two cycles a beat: a write of four beats, a poll that reads three times in vain, a wait, a line
that is refused and a read of two beats that is not compared. -/
theorem cycles_and_transfers_of_five_lines :
    let engine : Engine World := { bench := Model.bench { axiWidth := 64, latency := 2 } }
    let script := Source.ofText
      "AXI WRITE 0 1 INCR 3\nAHB POLL 4 7 0xFF 3\nWAIT 5\nAHB ERASE\nAXI READ 0x20 INCR 1 0x5"
    ∃ results final found last asks, engine.run {} script { world := {} } = .ok results final ∧
      engine.noted.run {} script { world := ⟨{}, []⟩ } = .ok found last ∧
      (List.zipWith (engine.lineCost 2) (script.readAll {}).1 asks).sum = 8 + 26 + 5 + 0 + 4 ∧
      last.world.history.filter Asked.isIssued = asks.flatten ∧
      (last.world.history.filterMap (Asked.callOn? .ahb)).length = 3 ∧
      (last.world.history.filterMap (Asked.callOn? .axi)).length = 2 := by
  intro engine script
  have ends : (match engine.run {} script { world := {} } with
      | .ok _ final =>
        (final.world.cycles, final.world.ahbTransfers, final.world.axiTransfers) == (43, 3, 2)
      | .error _ _ => false) = true := by decide +kernel
  split at ends
  · rename_i results final ended
    obtain ⟨cycles, onAhb, onAxi⟩ :
        final.world.cycles = 43 ∧ final.world.ahbTransfers = 3 ∧ final.world.axiTransfers = 2 := by
      simpa using ends
    have model : engine.OnModel { axiWidth := 64, latency := 2 } := ⟨rfl, rfl⟩
    obtain ⟨found, last, asks, noted, -, -, issued, clock, transfers⟩ :=
      cycles_and_transfers_of_run (model.onClock rfl (by decide)) ended
    rw [cycles] at clock
    have ahb := (transfers .ahb).symm.trans onAhb
    have axi := (transfers .axi).symm.trans onAxi
    refine ⟨results, final, found, last, asks, ended, noted, ?_, issued, ?_, ?_⟩
    · exact (clock.trans (Nat.zero_add _)).symm
    · exact (Nat.zero_add _).symm.trans ahb
    · exact (Nat.zero_add _).symm.trans axi
  · cases ends

end Engine

end BusScript
