import BusScript.Proofs.Command.Numbering
import BusScript.Proofs.Run.Calls

/-!
# Runs side by side

Two runs that do the same to their benches although their lines stand under other numbers, or
although their transactors answer with other values. The benches keep states of their own, which
stay near each other in a way that the effects on both sides respect (`Effect.Agree`). Such runs
stay `Abreast`, part by part: a part on one side ends as its counterpart does on the other
(`Run.Parallel`). What is observed decides on nothing but counters and trace, except in a poll, so
without polls the values on either side need not be the same.
-/

namespace BusScript

/-! ## Other numbers -/

section

variable (renumber : Option Int → Option Int)

def PreloadState.mapLine (state : PreloadState) : PreloadState :=
  { state with lastRequest := state.lastRequest.map (Preload.mapLine renumber) }

theorem PreloadState.mapLine_id (state : PreloadState) : state.mapLine id = state := by
  obtain ⟨running, completion, - | last⟩ := state <;> rfl

def TraceRecord.mapLine (record : TraceRecord) : TraceRecord :=
  { record with line := renumber record.line }

def Verdict.mapLine : Verdict → Verdict
  | .pass => .pass
  | .fail failure => .fail { failure with line := renumber failure.line }

theorem Verdict.passed_mapLine (verdict : Verdict) :
    (verdict.mapLine renumber).passed = verdict.passed := by
  cases verdict <;> rfl

theorem Transaction.score_mapLine (t : Transaction) (observed : Data) :
    (t.mapLine renumber).score observed = (t.score observed).map (Verdict.mapLine renumber) := by
  have word (expected observed : Int) : (t.mapLine renumber).scoreWord expected observed =
      (t.scoreWord expected observed).mapLine renumber := by
    unfold scoreWord
    split <;> rfl
  have beats (expected observed : List Int) : (t.mapLine renumber).scoreBeats expected observed =
      (t.scoreBeats expected observed).mapLine renumber := by
    unfold scoreBeats
    split
    · rfl
    · split <;> rfl
  have same : (t.mapLine renumber).expected = t.expected := rfl
  unfold score
  rw [same]
  cases t.expected with
  | none => rfl
  | some expected =>
    cases expected with
    | word expected =>
      cases observed with
      | word observed => exact congrArg some (word expected observed)
      | beats observed => exact congrArg some (beats [expected] observed)
    | beats expected => exact congrArg some (beats expected observed.toList)

end

theorem Transaction.isSome_score (t : Transaction) (observed : Data) :
    (t.score observed).isSome = t.expected.isSome := by
  unfold score
  rw [Option.isSome_map]

/-- The counters are the same but for more errors and the message of the last failure. -/
def Results.Ahead (errors : Nat) (results other : Results) : Prop :=
  ∃ message, other =
    { results with errors := results.errors + errors, lastError := message }

theorem Results.Ahead.record {errors : Nat} {results other : Results} {verdict found : Verdict}
    (ahead : results.Ahead errors other) (same : found.passed = verdict.passed) :
    (results.record verdict).Ahead errors (other.record found) := by
  obtain ⟨message, rfl⟩ := ahead
  cases verdict with
  | pass =>
    cases found with
    | pass => exact ⟨message, rfl⟩
    | fail failure => cases same
  | fail failure =>
    cases found with
    | pass => cases same
    | fail failure => exact ⟨failure.message, rfl⟩

theorem Results.Ahead.recordError {errors : Nat} {results other : Results}
    (ahead : results.Ahead errors other) : results.recordError.Ahead errors other.recordError := by
  obtain ⟨message, rfl⟩ := ahead
  refine ⟨message, ?_⟩
  rw [Results.recordError, Results.recordError]
  dsimp only
  rw [Nat.add_right_comm]

/-- Faults that may tell of other lines. -/
inductive RunFault.Alike : RunFault → RunFault → Prop
  | script (error other : ScriptError) : Alike (.script error) (.script other)
  | preloadTimeout (message other : String) :
    Alike (.preloadTimeout message) (.preloadTimeout other)
  | same {fault : RunFault} : fault.Unscripted → Alike fault fault

/-! ## Effects -/

section

variable {σ τ α : Type} {near : σ → τ → Prop} {told : Prop}

/-- From near states, two effects lead to near states and fail alike. They answer alike if that is
`told`. -/
def Effect.Agree (near : σ → τ → Prop) (told : Prop) (effect : Effect σ α) (other : Effect τ α) :
    Prop :=
  ∀ a b, near a b → near (effect a).state (other b).state ∧
    ((∃ x y, (effect a).result = .ok x ∧ (other b).result = .ok y ∧ (told → y = x)) ∨
      ∃ fault, (effect a).result = .error fault ∧ (other b).result = .error fault)

theorem Effect.Agree.refl (effect : Effect σ α) : Effect.Agree Eq told effect effect := by
  rintro world _ rfl
  refine ⟨rfl, ?_⟩
  cases result : (effect world).result with
  | ok a => exact .inl ⟨a, a, rfl, rfl, fun _ => rfl⟩
  | error fault => exact .inr ⟨fault, rfl, rfl⟩

/-- Two loaders that do and answer the same. -/
structure Loader.Twin (near : σ → τ → Prop) (loader : Loader σ) (other : Loader τ) : Prop where
  request : ∀ target file,
    Effect.Agree near True (loader.request target file) (other.request target file)
  done : ∀ handle a b, near a b → other.done handle b = loader.done handle a
  wait : ∀ handle bound, Effect.Agree near True (loader.wait handle bound) (other.wait handle bound)

theorem Loader.Twin.refl (loader : Loader σ) : loader.Twin Eq loader := by
  refine ⟨fun target file => .refl _, ?_, fun handle bound => .refl _⟩
  rintro handle world _ rfl
  rfl

end

namespace Run

variable {σ τ α β γ δ : Type}

/-! ## States -/

/-- Two states of runs: their benches are in near states, and their preloads are the same under
other line numbers. Where what is observed is `seen` to be the same, so are the counters, but for
some errors, and the trace. -/
structure Abreast (near : σ → τ → Prop) (seen : Prop) (renumber : Option Int → Option Int)
    (errors : Nat) (s : RunState σ) (t : RunState τ) : Prop where
  world : near s.world t.world
  preloads : t.preloads = s.preloads.mapLine renumber
  results : seen → s.results.Ahead errors t.results
  traces : seen → t.traces = s.traces.map (TraceRecord.mapLine renumber)

/-! ## Parts -/

/-- Two ends of parts: both with a value, or both with a fault. -/
inductive Paired (R F : RunState σ → RunState τ → Prop) (V : α → β → Prop) :
    EStateM.Result RunFault (RunState σ) α → EStateM.Result RunFault (RunState τ) β → Prop
  | ok {a b s t} : V a b → R s t → Paired R F V (.ok a s) (.ok b t)
  | error {fault other s t} : RunFault.Alike fault other → F s t →
      Paired R F V (.error fault s) (.error other t)

/-- From related states the parts come to the same end, in related states. -/
def Parallel (R : RunState σ → RunState τ → Prop) (V : α → β → Prop) (x : Run σ α) (y : Run τ β) :
    Prop :=
  ∀ s t, R s t → Paired R R V (x s) (y t)

section

variable {R S F G : RunState σ → RunState τ → Prop} {V : α → β → Prop}

theorem Paired.imp {W : α → β → Prop} {p : EStateM.Result RunFault (RunState σ) α}
    {q : EStateM.Result RunFault (RunState τ) β} (pair : Paired R F V p q)
    (values : ∀ a b, V a b → W a b) (ends : ∀ s t, R s t → S s t)
    (faults : ∀ s t, F s t → G s t) : Paired S G W p q := by
  cases pair with
  | ok value states => exact .ok (values _ _ value) (ends _ _ states)
  | error alike states => exact .error alike (faults _ _ states)

theorem Paired.of_ok {p : EStateM.Result RunFault (RunState σ) α}
    {q : EStateM.Result RunFault (RunState τ) β} {a : α} {s : RunState σ} (pair : Paired R F V p q)
    (ended : p = .ok a s) : ∃ b t, q = .ok b t ∧ V a b ∧ R s t := by
  cases pair with
  | ok value states =>
    cases ended
    exact ⟨_, _, rfl, value, states⟩
  | error => cases ended

theorem Paired.of_error {p : EStateM.Result RunFault (RunState σ) α}
    {q : EStateM.Result RunFault (RunState τ) β} {fault : RunFault} {s : RunState σ}
    (pair : Paired R F V p q) (ended : p = .error fault s) :
    ∃ other t, q = .error other t ∧ fault.Alike other ∧ F s t := by
  cases pair with
  | ok => cases ended
  | error alike states =>
    cases ended
    exact ⟨_, _, rfl, alike, states⟩

theorem Parallel.imp {W : α → β → Prop} {x : Run σ α} {y : Run τ β} (parallel : Parallel R V x y)
    (weaker : ∀ a b, V a b → W a b) : Parallel R W x y :=
  fun s t related => (parallel s t related).imp weaker (fun _ _ => id) fun _ _ => id

variable {W : γ → δ → Prop}

/-- What follows on both sides starts from the ends of what came before. -/
theorem Paired.bind {x : Run σ α} {y : Run τ β} {f : α → Run σ γ} {g : β → Run τ δ}
    {s : RunState σ} {t : RunState τ} (first : Paired R F V (x s) (y t))
    (later : ∀ a b m n, V a b → R m n → Paired S F W (f a m) (g b n)) :
    Paired S F W ((x >>= f) s) ((y >>= g) t) := by
  show Paired S F W (EStateM.bind x f s) (EStateM.bind y g t)
  unfold EStateM.bind
  generalize x s = p at first ⊢
  generalize y t = q at first ⊢
  cases first with
  | ok value states => exact later _ _ _ _ value states
  | error alike states => exact .error alike states

theorem Parallel.bind {x : Run σ α} {y : Run τ β} {f : α → Run σ γ} {g : β → Run τ δ}
    (first : Parallel R V x y) (later : ∀ a b, V a b → Parallel R W (f a) (g b)) :
    Parallel R W (x >>= f) (y >>= g) :=
  fun s t related => (first s t related).bind fun a b m n value => later a b value m n

theorem parallel_pure {a : α} {b : β} (values : V a b) :
    Parallel R V (pure a : Run σ α) (pure b) :=
  fun _ _ related => .ok values related

theorem parallel_throw {fault other : RunFault} (alike : fault.Alike other) :
    Parallel R V (throw fault : Run σ α) (throw other : Run τ β) :=
  fun _ _ related => .error alike related

theorem parallel_modify {change : RunState σ → RunState σ} {other : RunState τ → RunState τ}
    (related : ∀ s t, R s t → R (change s) (other t)) :
    Parallel R (fun _ _ => True) (modify change : Run σ Unit) (modify other : Run τ Unit) :=
  fun s t before => .ok trivial (related s t before)

/-- Parts whose states are looked at go on in parallel if they do from each pair of states. -/
theorem parallel_get_bind {f : RunState σ → Run σ α} {g : RunState τ → Run τ β}
    (later : ∀ s t, R s t → Paired R R V (f s s) (g t t)) :
    Parallel R V (get >>= f) (get >>= g) :=
  later

end

section

variable {near : σ → τ → Prop} {seen : Prop} {renumber : Option Int → Option Int} {errors : Nat}

theorem parallel_ask {told : Prop} {effect : Effect σ α} {other : Effect τ α}
    (agree : Effect.Agree near told effect other) :
    Parallel (Abreast near seen renumber errors) (fun a b => told → b = a) (ask effect)
      (ask other) := by
  intro s t abreast
  obtain ⟨world, results⟩ := agree s.world t.world abreast.world
  have related (log more : Array LogRecord) : Abreast near seen renumber errors
      { s with world := (effect s.world).state, log }
      { t with world := (other t.world).state, log := more } :=
    ⟨world, abreast.preloads, abreast.results, abreast.traces⟩
  unfold ask
  rcases results with ⟨a, b, here, there, same⟩ | ⟨fault, here, there⟩
  · dsimp only
    rw [here, there]
    exact .ok same (related _ _)
  · dsimp only
    rw [here, there]
    exact .error (.same fun _ equal => by cases equal) (related _ _)

theorem parallel_ask_same {effect : Effect σ α} {other : Effect τ α}
    (agree : Effect.Agree near True effect other) :
    Parallel (Abreast near seen renumber errors) (fun a b => b = a) (ask effect) (ask other) :=
  (parallel_ask agree).imp fun _ _ same => same trivial

theorem parallel_say (level : LogLevel) (logger : Logger) (message other : String) :
    Parallel (Abreast near seen renumber errors) (fun _ _ => True)
      (say level logger message : Run σ Unit) (say level logger other : Run τ Unit) :=
  parallel_modify fun _ _ abreast =>
    ⟨abreast.world, abreast.preloads, abreast.results, abreast.traces⟩

theorem parallel_count {change other : Results → Results}
    (ahead : seen → ∀ a b, a.Ahead errors b → (change a).Ahead errors (other b)) :
    Parallel (Abreast near seen renumber errors) (fun _ _ => True) (count change : Run σ Unit)
      (count other : Run τ Unit) :=
  parallel_modify fun s t abreast => ⟨abreast.world, abreast.preloads,
    fun same => ahead same s.results t.results (abreast.results same), abreast.traces⟩

/-- Verdicts that agree on passing are entered alike. -/
theorem parallel_enter {verdict other : Verdict} (same : seen → other.passed = verdict.passed) :
    Parallel (Abreast near seen renumber errors) (fun _ _ => True) (enter verdict : Run σ Unit)
      (enter other : Run τ Unit) := by
  intro s t abreast
  obtain ⟨log, left⟩ := exists_enter_apply verdict s
  obtain ⟨more, right⟩ := exists_enter_apply other t
  rw [left, right]
  exact .ok trivial ⟨abreast.world, abreast.preloads,
    fun here => (abreast.results here).record (same here), abreast.traces⟩

theorem parallel_emit {record other : TraceRecord}
    (same : seen → other = record.mapLine renumber) :
    Parallel (Abreast near seen renumber errors) (fun _ _ => True) (emit record : Run σ Unit)
      (emit other : Run τ Unit) := by
  refine (parallel_say _ _ _ _).bind fun _ _ _ => parallel_modify fun s t abreast => ?_
  refine ⟨abreast.world, abreast.preloads, abreast.results, fun seen => ?_⟩
  rw [Array.map_push, abreast.traces seen, same seen]

end

end Run

/-! ## Preloads -/

namespace Coordinator

open Run

variable {σ τ : Type} {near : σ → τ → Prop} {seen : Prop} {renumber : Option Int → Option Int}
  {errors : Nat} {c : Coordinator σ} {d : Coordinator τ}

/-- Two coordinators of one policy, with loaders that do and answer the same. -/
structure Twin (near : σ → τ → Prop) (c : Coordinator σ) (d : Coordinator τ) : Prop where
  loader : c.loader.Twin near d.loader
  timeout : d.timeout = c.timeout
  policy : d.policy = c.policy

theorem parallel_change {f g : PreloadState → PreloadState}
    (same : ∀ state, g (state.mapLine renumber) = (f state).mapLine renumber) :
    Parallel (Abreast near seen renumber errors) (fun _ _ => True) (change f : Run σ Unit)
      (change g : Run τ Unit) := by
  refine parallel_modify fun s t abreast => ⟨abreast.world, ?_, abreast.results, abreast.traces⟩
  rw [abreast.preloads]
  exact same s.preloads

theorem parallel_release :
    Parallel (Abreast near seen renumber errors) (fun _ _ => True) (release : Run σ Unit)
      (release : Run τ Unit) :=
  Parallel.bind (parallel_change fun _ => rfl) fun _ _ _ => parallel_change fun _ => rfl

theorem parallel_missing {α : Type} {V : α → α → Prop} (name : String) :
    Parallel (Abreast near seen renumber errors) V (throw (.missing name) : Run σ α)
      (throw (.missing name) : Run τ α) :=
  parallel_throw (.same nofun)

variable (twin : c.Twin near d)

include twin

theorem Twin.parallel_poll :
    Parallel (Abreast near seen renumber errors) (fun _ _ => True) c.poll d.poll := by
  unfold Coordinator.poll
  refine parallel_get_bind fun s t abreast => ?_
  rw [abreast.preloads]
  obtain ⟨running, completion, last⟩ := s.preloads
  cases running with
  | false => exact .ok trivial abreast
  | true =>
    cases completion with
    | none => exact .ok trivial abreast
    | some handle =>
      dsimp only [PreloadState.mapLine]
      rw [twin.loader.done handle _ _ abreast.world]
      cases c.loader.done handle s.world with
      | false => exact .ok trivial abreast
      | true =>
        cases last with
        | none => exact parallel_missing _ s t abreast
        | some last =>
          exact ((parallel_say _ _ _ _).bind fun _ _ _ => parallel_release) s t abreast

theorem Twin.parallel_answered (p : Preload) (completed : Bool) :
    Parallel (Abreast near seen renumber errors) (fun a b => b = a) (c.answered p completed)
      (d.answered (p.mapLine renumber) completed) := by
  unfold answered
  rw [twin.policy]
  cases completed with
  | true =>
    exact twin.parallel_poll.bind fun _ _ _ => parallel_release.bind fun _ _ _ =>
      parallel_pure rfl
  | false =>
    refine (parallel_count fun _ a b ahead => ?_).bind fun _ _ _ =>
      (parallel_say _ _ _ _).bind fun _ _ _ => ?_
    · obtain ⟨message, rfl⟩ := ahead
      exact ⟨message, rfl⟩
    · cases c.policy with
      | abort => exact parallel_throw (.preloadTimeout _ _)
      | lastWins => exact parallel_pure rfl

theorem Twin.parallel_waitOutstanding (reason other : String) :
    Parallel (Abreast near seen renumber errors) (fun a b => b = a) (c.waitOutstanding reason)
      (d.waitOutstanding other) := by
  unfold waitOutstanding
  refine twin.parallel_poll.bind fun _ _ _ => parallel_get_bind fun s t abreast => ?_
  rw [abreast.preloads, twin.timeout]
  obtain ⟨running, completion, last⟩ := s.preloads
  cases running with
  | false => exact .ok rfl abreast
  | true =>
    cases last with
    | none => exact parallel_missing _ s t abreast
    | some last =>
      refine ((parallel_say _ _ _ _).bind fun _ _ _ => ?_) s t abreast
      cases completion with
      | none => exact parallel_missing _
      | some handle =>
        have asked : Parallel (Abreast near seen renumber errors) (fun a b => b = a)
            (ask (c.loader.wait handle c.timeout) >>= c.answered last)
            (ask (d.loader.wait handle c.timeout) >>= d.answered (last.mapLine renumber)) := by
          refine (parallel_ask_same (twin.loader.wait handle _)).bind fun completed _ same => ?_
          rw [same]
          exact twin.parallel_answered last completed
        exact asked

theorem Twin.parallel_request (p : Preload) :
    Parallel (Abreast near seen renumber errors) (fun a b => b = a) (c.request p)
      (d.request (p.mapLine renumber)) := by
  refine (twin.parallel_waitOutstanding _ _).bind fun completed _ same => ?_
  refine Parallel.bind (parallel_change fun _ => rfl) fun _ _ _ => ?_
  refine (parallel_ask_same (twin.loader.request _ _)).bind fun handle _ issued => ?_
  rw [issued]
  refine Parallel.bind (parallel_change fun _ => rfl) fun _ _ _ => ?_
  refine Parallel.bind (parallel_change fun _ => rfl) fun _ _ _ => ?_
  exact (parallel_say _ _ _ _).bind fun _ _ _ => parallel_pure same

end Coordinator

/-! ## Engines -/

/-- Two engines whose benches do the same, from near states, and answer the same but for the values
that their transactors answer with; and the same values as well if that is `told`. -/
structure Engine.Twin {σ τ : Type} (near : σ → τ → Prop) (told : Prop) (e : Engine σ)
    (other : Engine τ) : Prop where
  config : other.config = e.config
  clock : Option.Rel (fun x y => ∀ cycles, Effect.Agree near True (x cycles) (y cycles))
    e.bench.clock other.bench.clock
  loader : Option.Rel (Loader.Twin near) e.bench.loader other.bench.loader
  transactor : ∀ bus, Option.Rel (fun x y => ∀ call, Effect.Agree near told (x call) (y call))
    (e.bench.transactor? bus) (other.bench.transactor? bus)

namespace Engine

open Run

variable {σ τ : Type} {near : σ → τ → Prop} {seen : Prop} {e : Engine σ} {other : Engine τ}

theorem Twin.refl (e : Engine σ) : e.Twin Eq seen e where
  config := rfl
  clock := by
    cases e.bench.clock with
    | none => exact .none
    | some clock => exact .some fun cycles => .refl (clock cycles)
  loader := by
    cases e.bench.loader with
    | none => exact .none
    | some loader => exact .some (.refl loader)
  transactor bus := by
    cases e.bench.transactor? bus with
    | none => exact .none
    | some transactor => exact .some fun call => .refl (transactor call)

theorem Twin.coordinator (twin : e.Twin near seen other) :
    Option.Rel (Coordinator.Twin near) e.coordinator? other.coordinator? := by
  have loaders := twin.loader
  unfold coordinator?
  rw [twin.config]
  generalize e.bench.loader = x at loaders ⊢
  generalize other.bench.loader = y at loaders ⊢
  cases loaders with
  | none => exact .none
  | some loader => exact .some ⟨loader, rfl, rfl⟩

variable {renumber : Option Int → Option Int} {errors : Nat}

theorem parallel_reject {α β : Type} {V : α → β → Prop} (cause : Cause) (line number : Option Int) :
    Parallel (Abreast near seen renumber errors) V (reject cause line : Run σ α)
      (reject cause number : Run τ β) :=
  parallel_throw (.script _ _)

variable (twin : e.Twin near seen other)

include twin

theorem Twin.parallel_transactor_bind {α β : Type} {V : α → β → Prop} {bus : Bus}
    {line number : Option Int} {f : Transactor σ → Run σ α} {g : Transactor τ → Run τ β}
    (later : ∀ x y, (∀ call, Effect.Agree near seen (x call) (y call)) →
      Parallel (Abreast near seen renumber errors) V (f x) (g y)) :
    Parallel (Abreast near seen renumber errors) V (e.transactor bus line >>= f)
      (other.transactor bus number >>= g) := by
  have attached := twin.transactor bus
  unfold Engine.transactor
  generalize e.bench.transactor? bus = x at attached ⊢
  generalize other.bench.transactor? bus = y at attached ⊢
  cases attached with
  | none => exact (parallel_reject _ _ _).bind fun _ _ related => later _ _ related
  | some agree => exact later _ _ agree

/-! ## Transactions -/

theorem Twin.parallel_dispatch {t : Transaction} {grammar : Grammar} {line : Option Int}
    (formed : t.WellFormed grammar line) :
    Parallel (Abreast near seen renumber errors)
      (fun a b => b.isSome = a.isSome ∧ (seen → b = a))
      (e.dispatch t) (other.dispatch (t.mapLine renumber)) := by
  have moved : (t.mapLine renumber).WellFormed grammar (renumber line) :=
    { formed with line := congrArg renumber formed.line }
  obtain ⟨call, called, here⟩ := formed.dispatch_eq σ
  obtain ⟨_, same, there⟩ := moved.dispatch_eq τ
  cases called.symm.trans same
  rw [here, there]
  refine twin.parallel_transactor_bind fun x y agree => ?_
  refine (parallel_ask (agree call)).bind fun a b answers => parallel_pure ⟨?_, fun told => ?_⟩
  · cases call <;> rfl
  · rw [answers told]

omit twin in
theorem parallel_check (t : Transaction) {a b : Data} (same : seen → b = a) :
    Parallel (Abreast near seen renumber errors) (fun x y => seen → y = x)
      (check t a : Run σ Status) (check (t.mapLine renumber) b : Run τ Status) := by
  have mismatch : (t.mapLine renumber).mismatch = t.mismatch := rfl
  have here := t.isSome_score a
  have there := (t.mapLine renumber).isSome_score b
  unfold check
  rw [mismatch]
  split
  · exact parallel_pure fun _ => rfl
  · cases left : t.score a with
    | none =>
      cases right : (t.mapLine renumber).score b with
      | none => exact parallel_pure fun _ => rfl
      | some found => rw [left] at here; rw [right] at there; cases here.trans there.symm
    | some verdict =>
      cases right : (t.mapLine renumber).score b with
      | none => rw [left] at here; rw [right] at there; cases here.trans there.symm
      | some found =>
        have passed (told : seen) : found.passed = verdict.passed := by
          rw [same told, t.score_mapLine, left] at right
          cases right
          exact verdict.passed_mapLine renumber
        refine (parallel_enter passed).bind fun _ _ _ => parallel_pure fun told => ?_
        rw [passed told]

omit twin in
theorem parallel_conclude (t : Transaction) {a b : Option Data} (shape : b.isSome = a.isSome)
    (same : seen → b = a) :
    Parallel (Abreast near seen renumber errors) (fun _ _ => True) (conclude t a : Run σ Unit)
      (conclude (t.mapLine renumber) b : Run τ Unit) := by
  cases a with
  | none =>
    cases b with
    | none => exact parallel_emit fun _ => rfl
    | some data => cases shape
  | some a =>
    cases b with
    | none => cases shape
    | some b =>
      have same (told : seen) : b = a := Option.some.inj (same told)
      refine (parallel_check t same).bind fun x y status => parallel_emit fun told => ?_
      rw [same told, status told]
      rfl

omit twin in
theorem parallel_refuseMismatch (t : Transaction) :
    Parallel (Abreast near seen renumber errors) (fun _ _ => True) (refuseMismatch t : Run σ Unit)
      (refuseMismatch (t.mapLine renumber) : Run τ Unit) := by
  have mismatch : (t.mapLine renumber).mismatch = t.mismatch := rfl
  unfold refuseMismatch
  rw [mismatch]
  cases t.mismatch with
  | some found => exact parallel_reject _ _ _
  | none => exact parallel_pure trivial

theorem Twin.parallel_transaction {t : Transaction} {grammar : Grammar} {line : Option Int}
    (formed : t.WellFormed grammar line) :
    Parallel (Abreast near seen renumber errors) (fun _ _ => True) (e.transaction t)
      (other.transaction (t.mapLine renumber)) := by
  rw [transaction_eq, transaction_eq]
  refine (twin.parallel_dispatch formed).bind fun a b observed => ?_
  exact (parallel_conclude t observed.1 observed.2).bind fun _ _ _ => parallel_refuseMismatch t

/-! ## Waits and polls -/

theorem Twin.parallel_waitCycles (cycles : Nat) (line number : Option Int) :
    Parallel (Abreast near seen renumber errors) (fun _ _ => True) (e.waitCycles cycles line)
      (other.waitCycles cycles number) := by
  have clocks := twin.clock
  unfold waitCycles
  by_cases none : cycles = 0
  · rw [if_pos none, if_pos none]
    exact parallel_pure trivial
  · rw [if_neg none, if_neg none]
    generalize e.bench.clock = x at clocks ⊢
    generalize other.bench.clock = y at clocks ⊢
    cases clocks with
    | none => exact parallel_reject _ _ _
    | some agree => exact (parallel_ask_same (agree cycles)).imp fun _ _ _ => trivial

theorem Twin.parallel_wait (w : Wait) :
    Parallel (Abreast near seen renumber errors) (fun _ _ => True) (e.wait w)
      (other.wait (w.mapLine renumber)) :=
  (twin.parallel_waitCycles w.cycles _ _).bind fun _ _ _ => parallel_emit fun _ => rfl

theorem Twin.parallel_readWord (told : seen) (p : Poll) :
    Parallel (Abreast near seen renumber errors) (fun a b => b = a) (e.readWord p)
      (other.readWord (p.mapLine renumber)) := by
  have bus : (p.mapLine renumber).bus = p.bus := rfl
  have address : (p.mapLine renumber).address = p.address := rfl
  unfold readWord
  rw [bus, address]
  refine twin.parallel_transactor_bind fun x y agree => ?_
  cases p.bus with
  | ahb =>
    have word := agree (.read p.address (.ahb .single) (.size (some .word)))
    exact (parallel_ask word).imp fun a b same => same told
  | axi =>
    refine (parallel_ask (agree _)).bind fun a b same => ?_
    rw [same told]
    cases a with
    | nil => exact parallel_throw (.same fun _ equal => by cases equal)
    | cons word rest => exact parallel_pure rfl

/-- A poll goes on as it goes on elsewhere as long as it reads the same. -/
theorem Twin.parallel_pollReads (told : seen) (p : Poll) (sofar : PollOutcome) (remaining : Nat) :
    Parallel (Abreast near seen renumber errors) (fun a b => b = a) (e.pollReads p sofar remaining)
      (other.pollReads (p.mapLine renumber) sofar remaining) := by
  have mask : (p.mapLine renumber).mask = p.mask := rfl
  have expected : (p.mapLine renumber).expected = p.expected := rfl
  induction remaining generalizing sofar with
  | zero => exact parallel_pure rfl
  | succ remaining ih =>
    have interval : other.config.pollInterval = e.config.pollInterval := by rw [twin.config]
    unfold pollReads
    refine (twin.parallel_readWord told p).bind fun word _ same => ?_
    rw [same, interval, mask, expected]
    dsimp only
    by_cases hit : Number.bitAnd word p.mask = Number.bitAnd p.expected p.mask
    · rw [if_pos hit, if_pos hit]
      exact parallel_pure rfl
    · rw [if_neg hit, if_neg hit]
      by_cases more : remaining ≠ 0
      · rw [if_pos more, if_pos more]
        exact (twin.parallel_waitCycles _ _ _).bind fun _ _ _ => ih _
      · rw [if_neg more, if_neg more]
        exact ih _

theorem Twin.parallel_poll (told : seen) (p : Poll) :
    Parallel (Abreast near seen renumber errors) (fun _ _ => True) (e.poll p)
      (other.poll (p.mapLine renumber)) := by
  unfold Engine.poll
  refine (twin.parallel_pollReads told p {} _).bind fun outcome _ same => ?_
  rw [same]
  refine (parallel_enter fun _ => ?_).bind fun _ _ _ => parallel_emit fun _ => rfl
  unfold Poll.score
  split <;> rfl

/-! ## Preloads -/

theorem Twin.parallel_preload (p : Preload) :
    Parallel (Abreast near seen renumber errors) (fun _ _ => True) (e.preload p)
      (other.preload (p.mapLine renumber)) := by
  have coordinators := twin.coordinator
  unfold preload
  generalize e.coordinator? = x at coordinators ⊢
  generalize other.coordinator? = y at coordinators ⊢
  cases coordinators with
  | none => exact parallel_reject _ _ _
  | some coordinator =>
    refine (coordinator.parallel_request p).bind fun completed _ same => ?_
    rw [same]
    exact parallel_emit fun _ => rfl

theorem Twin.parallel_settle :
    Parallel (Abreast near seen renumber errors) (fun _ _ => True) e.settle other.settle := by
  have coordinators := twin.coordinator
  unfold settle
  generalize e.coordinator? = x at coordinators ⊢
  generalize other.coordinator? = y at coordinators ⊢
  cases coordinators with
  | none => exact parallel_pure trivial
  | some coordinator =>
    exact (coordinator.parallel_waitOutstanding _ _).bind fun _ _ _ => parallel_pure trivial

/-! ## Lines -/

/-- An action does the same under another line number, a poll if it reads the same. -/
theorem Twin.parallel_execute {action : Action} {grammar : Grammar} {line : Option Int}
    (formed : action.WellFormed grammar line) (told : ∀ p, action = .poll p → seen) :
    Parallel (Abreast near seen renumber errors) (fun _ _ => True) (e.execute action)
      (other.execute (action.mapLine renumber)) := by
  cases action with
  | transaction t => exact twin.parallel_transaction formed
  | poll p => exact twin.parallel_poll (told p rfl) p
  | wait w => exact twin.parallel_wait w
  | preload p => exact twin.parallel_preload p

/-- A line does the same under another number. -/
theorem Twin.parallel_executeLine (text : String) (line : Option Int)
    (told : ∀ p, e.parse text line = .ok (.poll p) → seen) :
    Parallel (Abreast near seen renumber errors) (fun _ _ => True) (e.executeLine text line)
      (other.executeLine text (renumber line)) := by
  have performed : Parallel (Abreast near seen renumber errors) (fun _ _ => True)
      (e.perform text line) (other.perform text (renumber line)) := by
    have same : other.parse text (renumber line) =
        ((e.parse text line).map (Action.mapLine renumber)).mapError
          (CommandFault.mapLine renumber) := by
      unfold Engine.parse grammar
      rw [twin.config]
      exact Grammar.parse_mapLine renumber text line
    unfold perform
    rw [same]
    cases parsed : e.parse text line with
    | ok action =>
      exact twin.parallel_execute (Grammar.wellFormed_of_parse parsed)
        fun p equal => told p (by rw [parsed, equal])
    | error fault =>
      cases fault with
      | script error => exact parallel_throw (.script _ _)
      | countTooLong digits => exact parallel_throw (.same fun _ equal => by cases equal)
  intro s t abreast
  have pair := performed s t abreast
  rw [executeLine_apply, executeLine_apply]
  generalize e.perform text line s = left at pair ⊢
  generalize other.perform text (renumber line) t = right at pair ⊢
  cases pair with
  | ok _ abreast => exact .ok trivial abreast
  | @error fault _ m n alike abreast =>
    cases alike with
    | script error found =>
      exact .ok trivial ⟨abreast.world, abreast.preloads,
        fun told => (abreast.results told).recordError, abreast.traces⟩
    | preloadTimeout message found => exact .error (.preloadTimeout _ _) abreast
    | same unscripted =>
      cases fault with
      | script error => exact absurd rfl (unscripted error)
      | _ => exact .error (.same unscripted) abreast

theorem Twin.parallel_executeLines {lines : List (Nat × String)}
    (told : ∀ line ∈ lines, ∀ p, e.parse line.2 (some line.1) = .ok (.poll p) → seen)
    (fixed : ∀ line ∈ lines, renumber (some line.1) = some (line.1 : Int)) :
    Parallel (Abreast near seen renumber errors) (fun _ _ => True) (e.executeLines lines)
      (other.executeLines lines) := by
  induction lines with
  | nil => exact parallel_pure trivial
  | cons line lines ih =>
    obtain ⟨number, text⟩ := line
    have first : Parallel (Abreast near seen renumber errors) (fun _ _ => True)
        (e.executeLine text (some number)) (other.executeLine text (renumber (some number))) :=
      twin.parallel_executeLine text (some number) (told (number, text) List.mem_cons_self)
    rw [fixed (number, text) List.mem_cons_self] at first
    refine first.bind fun _ _ _ => ih ?_ ?_
    · exact fun line member => told line (List.mem_cons_of_mem _ member)
    · exact fun line member => fixed line (List.mem_cons_of_mem _ member)

omit twin in
theorem parallel_abort (message other : String) :
    Parallel (Abreast near seen renumber errors) (fun _ _ => True) (abort message : Run σ Unit)
      (abort other : Run τ Unit) := by
  refine (parallel_count fun _ a b ahead => ?_).bind fun _ _ _ => parallel_say _ _ _ _
  obtain ⟨found, rfl⟩ := ahead
  exact ⟨other, rfl⟩

omit twin in
theorem parallel_results :
    Parallel (Abreast near seen renumber errors) (fun a b => seen → a.Ahead errors b)
      (do return (← get).results : Run σ Results) (do return (← get).results : Run τ Results) :=
  parallel_get_bind fun _ _ abreast => .ok abreast.results abreast

open Script

/-- The same script comes to the same end on both engines. Numbers that none of its lines has do not
matter. -/
theorem Twin.parallel_run {tree : Tree} {source : Source}
    (told : ∀ line ∈ (source.readAll tree).1, ∀ p,
      e.parse line.2 (some line.1) = .ok (.poll p) → seen)
    (fixed : ∀ line ∈ (source.readAll tree).1, renumber (some line.1) = some (line.1 : Int)) :
    Parallel (Abreast near seen renumber errors) (fun a b => seen → a.Ahead errors b)
      (e.run tree source) (other.run tree source) := by
  unfold run
  cases opens : source.opened tree with
  | error fault =>
    have aborted : Parallel (Abreast near seen renumber errors) (fun a b => seen → a.Ahead errors b)
        (abort fault.message >>= fun _ => do return (← get).results : Run σ Results)
        (abort fault.message >>= fun _ => do return (← get).results : Run τ Results) :=
      (parallel_abort _ _).bind fun _ _ _ => parallel_results
    cases fault with
    | nul => exact parallel_throw (.same fun _ equal => by cases equal)
    | _ => exact aborted
  | ok opened =>
    rw [← Source.readAll_of_opened opens] at told fixed
    dsimp only
    generalize opened.readAll tree = given at told fixed ⊢
    obtain ⟨lines, fault, rest⟩ := given
    refine (parallel_say _ _ _ _).bind fun _ _ _ => ?_
    refine (twin.parallel_executeLines told fixed).bind fun _ _ _ => ?_
    have settled : Parallel (Abreast near seen renumber errors) (fun a b => seen → a.Ahead errors b)
        (e.settle >>= fun _ => do return (← get).results)
        (other.settle >>= fun _ => do return (← get).results) :=
      twin.parallel_settle.bind fun _ _ _ => parallel_results
    cases fault with
    | none => exact settled
    | some fault => exact (parallel_abort _ _).bind fun _ _ _ => settled

end Engine

end BusScript
