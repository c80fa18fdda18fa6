import BusScript.Proofs.Config.Environment

/-!
# Overrides and the variables under them

An override wins over the variable of its setting, but the variable is read all the same. So the
text of a variable does not matter under an override as long as it can be read; one that cannot
makes what is asked for unsupported, though nothing would have come of its value
(`Config.ofEnvironment_without`).
-/

namespace BusScript

variable {env : Environment} {overrides : Overrides} {fault : SettingsFault}

/-- The variable is the one of an overridden setting. -/
def Overrides.covers (overrides : Overrides) : String → Bool
  | "STIM_AXI_WIDTH" => overrides.axiWidth.isSome
  | "STIM_PRELOAD_TIMEOUT" => overrides.preloadTimeout.isSome
  | "STIM_PRELOAD_TIMEOUT_UNIT" => overrides.preloadTimeoutUnit.isSome
  | "STIM_PRELOAD_POLICY" => overrides.preloadPolicy.isSome
  | "STIM_POLL_INTERVAL" => overrides.pollInterval.isSome
  | "STIM_MAX_POLLS" => overrides.maxPolls.isSome
  | "STIM_STRICT" => overrides.strict.isSome
  | _ => false

/-- The environment with the variables of overridden settings removed. -/
def Environment.without (env : Environment) (overrides : Overrides) : Environment :=
  fun name => if overrides.covers name then none else env name

/-- The number of each overridden setting can be read, where its variable is there. -/
structure Overrides.Legible (overrides : Overrides) (env : Environment) : Prop where
  width : overrides.covers "STIM_AXI_WIDTH" → ∃ n, integerVariable env "STIM_AXI_WIDTH" = .ok n
  timeout : overrides.covers "STIM_PRELOAD_TIMEOUT" →
    ∃ bound, numberVariable env "STIM_PRELOAD_TIMEOUT" = .ok bound
  interval : overrides.covers "STIM_POLL_INTERVAL" →
    ∃ n, integerVariable env "STIM_POLL_INTERVAL" = .ok n
  limit : overrides.covers "STIM_MAX_POLLS" → ∃ n, integerVariable env "STIM_MAX_POLLS" = .ok n

/-- What is asked for is not supported. -/
def Refused {α : Type} (outcome : Except SettingsFault α) : Prop :=
  ∃ fault, outcome = .error fault ∧ fault.kind = .unsupported

/-- Two outcomes that a caller takes for the same: the same altogether, or unsupported both. -/
def SameOutcome {α : Type} (first second : Except SettingsFault α) : Prop :=
  first = second ∨ Refused first ∧ Refused second

/-- The environments differ in variables of overridden settings only. -/
def Overrides.Hides (overrides : Overrides) (first second : Environment) : Prop :=
  ∀ name, overrides.covers name = false → first name = second name

theorem Overrides.hides_without : overrides.Hides env (env.without overrides) := by
  intro name bare
  simp only [Environment.without, bare, Bool.false_eq_true, if_false]

/-- What is removed can be read. -/
theorem Overrides.legible_without : overrides.Legible (env.without overrides) := by
  have removed {name : String} (covered : overrides.covers name) :
      env.without overrides name = none := if_pos covered
  exact {
    width := fun covered => ⟨none, by rw [integerVariable, removed covered]⟩
    timeout := fun covered => ⟨none, by rw [numberVariable, removed covered]⟩
    interval := fun covered => ⟨none, by rw [integerVariable, removed covered]⟩
    limit := fun covered => ⟨none, by rw [integerVariable, removed covered]⟩ }

/-! ## Settings under overrides -/

/-- Two readings that settle a setting alike: the same one, or any two that can be read where the
setting is overridden. -/
theorem map_eq_map_of_overridden {α β : Type} {x y : Except SettingsFault α} {settled : α → β}
    {overridden : Bool} (same : overridden = false → x = y)
    (left : overridden → ∃ a, x = .ok a) (right : overridden → ∃ b, y = .ok b)
    (constant : overridden → ∀ a b, settled a = settled b) : settled <$> x = settled <$> y := by
  cases overridden with
  | false => rw [same rfl]
  | true =>
    obtain ⟨a, rfl⟩ := left rfl
    obtain ⟨b, rfl⟩ := right rfl
    exact congrArg Except.ok (constant rfl a b)

theorem settle_of_overridden {α : Type} {override : Option (Option α)} {otherwise : Option α}
    (overridden : override.isSome) (a b : Option α) :
    settle override a otherwise = settle override b otherwise := by
  obtain ⟨value, rfl⟩ := Option.isSome_iff_exists.mp overridden
  rfl

section Hidden

variable {first second : Environment} {name : String}

theorem Overrides.Hides.map_integer_eq (hides : overrides.Hides first second)
    {override : Option (Option Int)} {otherwise : Option Int}
    (covered : overrides.covers name = override.isSome)
    (left : overrides.covers name → ∃ n, integerVariable first name = .ok n)
    (right : overrides.covers name → ∃ n, integerVariable second name = .ok n) :
    (settle override · otherwise) <$> integerVariable first name =
      (settle override · otherwise) <$> integerVariable second name := by
  refine map_eq_map_of_overridden (fun bare => ?_) left right fun overridden a b => ?_
  · simp only [integerVariable, hides name bare]
  · exact settle_of_overridden (covered ▸ overridden) a b

theorem Overrides.Hides.map_number_eq (hides : overrides.Hides first second)
    {override : Option TimeBound} {otherwise : TimeBound}
    (covered : overrides.covers name = override.isSome)
    (left : overrides.covers name → ∃ bound, numberVariable first name = .ok bound)
    (right : overrides.covers name → ∃ bound, numberVariable second name = .ok bound) :
    (fun bound => override.getD (bound.getD otherwise)) <$> numberVariable first name =
      (fun bound => override.getD (bound.getD otherwise)) <$> numberVariable second name := by
  refine map_eq_map_of_overridden (fun bare => ?_) left right fun overridden a b => ?_
  · simp only [numberVariable, hides name bare]
  · obtain ⟨value, rfl⟩ := Option.isSome_iff_exists.mp (covered ▸ overridden)
    rfl

/-- A setting whose variable can always be read. -/
theorem Overrides.Hides.settle_eq (hides : overrides.Hides first second) {α : Type}
    {override : Option (Option α)} {otherwise : Option α} (read : Option String → Option α)
    (covered : overrides.covers name = override.isSome) :
    settle override (read (first name)) otherwise =
      settle override (read (second name)) otherwise := by
  cases overridden : override.isSome with
  | false => rw [hides name (covered.trans overridden)]
  | true => exact settle_of_overridden overridden _ _

end Hidden

namespace Settings

/-- Settings are settled one after the other, where their variables are read. -/
theorem ofEnvironment_eq : ofEnvironment env overrides = (do
    let axiWidth ←
      (settle overrides.axiWidth · (some 64)) <$> integerVariable env "STIM_AXI_WIDTH"
    let preloadTimeout ←
      (fun bound => overrides.preloadTimeout.getD (bound.getD (.whole 1000000))) <$>
        numberVariable env "STIM_PRELOAD_TIMEOUT"
    let pollInterval ←
      (settle overrides.pollInterval · (some 10)) <$> integerVariable env "STIM_POLL_INTERVAL"
    let maxPolls ←
      (settle overrides.maxPolls · (some 1000)) <$> integerVariable env "STIM_MAX_POLLS"
    return {
      axiWidth, preloadTimeout, pollInterval, maxPolls
      preloadTimeoutUnit :=
        settle overrides.preloadTimeoutUnit (env "STIM_PRELOAD_TIMEOUT_UNIT") (some "ns")
      preloadPolicy :=
        settle overrides.preloadPolicy (env "STIM_PRELOAD_POLICY") (some "last-wins")
      strict := settle overrides.strict (switchVariable env "STIM_STRICT") (some false) }) := by
  unfold ofEnvironment
  cases integerVariable env "STIM_AXI_WIDTH" with
  | error fault => rfl
  | ok width =>
    cases numberVariable env "STIM_PRELOAD_TIMEOUT" with
    | error fault => rfl
    | ok bound =>
      cases integerVariable env "STIM_POLL_INTERVAL" with
      | error fault => rfl
      | ok interval => cases integerVariable env "STIM_MAX_POLLS" <;> rfl

/-- Texts under overrides do not matter, as long as they can be read. -/
theorem ofEnvironment_congr {first second : Environment} (hides : overrides.Hides first second)
    (left : overrides.Legible first) (right : overrides.Legible second) :
    ofEnvironment first overrides = ofEnvironment second overrides := by
  have unit : settle overrides.preloadTimeoutUnit (first "STIM_PRELOAD_TIMEOUT_UNIT") (some "ns") =
      settle overrides.preloadTimeoutUnit (second "STIM_PRELOAD_TIMEOUT_UNIT") (some "ns") :=
    hides.settle_eq id rfl
  have policy : settle overrides.preloadPolicy (first "STIM_PRELOAD_POLICY") (some "last-wins") =
      settle overrides.preloadPolicy (second "STIM_PRELOAD_POLICY") (some "last-wins") :=
    hides.settle_eq id rfl
  have switch : settle overrides.strict (switchVariable first "STIM_STRICT") (some false) =
      settle overrides.strict (switchVariable second "STIM_STRICT") (some false) :=
    hides.settle_eq (fun text => switchVariable (fun _ => text) "STIM_STRICT") rfl
  rw [ofEnvironment_eq, ofEnvironment_eq, hides.map_integer_eq rfl left.width right.width,
    hides.map_number_eq rfl left.timeout right.timeout,
    hides.map_integer_eq rfl left.interval right.interval,
    hides.map_integer_eq rfl left.limit right.limit, unit, policy, switch]

/-- Settings are made only where everything that is overridden can be read. -/
theorem legible_of_ofEnvironment {settings : Settings}
    (read : ofEnvironment env overrides = .ok settings) : overrides.Legible env := by
  unfold ofEnvironment at read
  simp only [bind_eq_ok_iff] at read
  obtain ⟨width, widthRead, bound, boundRead, interval, intervalRead, limit, limitRead, -⟩ := read
  exact {
    width := fun _ => ⟨width, widthRead⟩
    timeout := fun _ => ⟨bound, boundRead⟩
    interval := fun _ => ⟨interval, intervalRead⟩
    limit := fun _ => ⟨limit, limitRead⟩ }

end Settings

namespace Config

theorem ofEnvironment_congr {first second : Environment} (hides : overrides.Hides first second)
    (left : overrides.Legible first) (right : overrides.Legible second) :
    ofEnvironment first overrides = ofEnvironment second overrides := by
  rw [ofEnvironment, ofEnvironment, Settings.ofEnvironment_congr hides left right]

/-- A number that cannot be read is in the way of every configuration. -/
theorem refused_of_illegible (illegible : ¬overrides.Legible env) :
    Refused (ofEnvironment env overrides) := by
  unfold ofEnvironment
  cases read : Settings.ofEnvironment env overrides with
  | error fault => exact ⟨fault, rfl, Settings.kind_of_ofEnvironment read⟩
  | ok settings => exact absurd (Settings.legible_of_ofEnvironment read) illegible

/-- Where the number of each overridden setting can be read, an environment leads to what it leads
to with the variables of overridden settings removed, and so to what it leads to with any other
texts in them that can be read. A number that cannot be read is refused, overridden or not. So
removing the variables comes out the same exactly if the numbers can be read or what is left is
refused as well. -/
theorem ofEnvironment_without (env : Environment) (overrides : Overrides) :
    (overrides.Legible env →
      ofEnvironment env overrides = ofEnvironment (env.without overrides) overrides ∧
        ∀ other, overrides.Legible other → overrides.Hides env other →
          ofEnvironment env overrides = ofEnvironment other overrides) ∧
    (¬overrides.Legible env → Refused (ofEnvironment env overrides)) ∧
    (SameOutcome (ofEnvironment env overrides) (ofEnvironment (env.without overrides) overrides) ↔
      overrides.Legible env ∨ Refused (ofEnvironment (env.without overrides) overrides)) := by
  have removed (legible : overrides.Legible env) :
      ofEnvironment env overrides = ofEnvironment (env.without overrides) overrides :=
    ofEnvironment_congr Overrides.hides_without legible Overrides.legible_without
  refine ⟨fun legible => ⟨removed legible, ?_⟩, refused_of_illegible, ?_, ?_⟩
  · exact fun other readable hides => ofEnvironment_congr hides legible readable
  · intro same
    by_cases legible : overrides.Legible env
    · exact .inl legible
    · obtain equal | ⟨-, refused⟩ := same
      · exact .inr (equal ▸ refused_of_illegible legible)
      · exact .inr refused
  · intro either
    by_cases legible : overrides.Legible env
    · exact .inl (removed legible)
    · exact .inr ⟨refused_of_illegible legible, either.resolve_left legible⟩

/-- The environment that asks for an AXI width. -/
def asksWidth (text : String) : Environment :=
  fun name => if name = "STIM_AXI_WIDTH" then some text else none

/-- A width that is overridden by another one does not matter. -/
theorem ofEnvironment_overridden_width :
    ofEnvironment (asksWidth "64") { axiWidth := some (some 128) } = .ok { axiWidth := .w128 } := by
  have legible : Overrides.Legible { axiWidth := some (some 128) } (asksWidth "64") := {
    width := fun _ => ⟨some 64, by rfl⟩
    timeout := nofun
    interval := nofun
    limit := nofun }
  exact ((ofEnvironment_without (asksWidth "64") _).1 legible).1

/-- A width that is overridden and cannot be read is refused, and is not if it is removed. -/
theorem ofEnvironment_illegible_width :
    ofEnvironment (asksWidth "wide") { axiWidth := some (some 128) } =
        .error (.notInteger "wide") ∧
      ofEnvironment ((asksWidth "wide").without { axiWidth := some (some 128) })
        { axiWidth := some (some 128) } = .ok { axiWidth := .w128 } ∧
      ¬SameOutcome (ofEnvironment (asksWidth "wide") { axiWidth := some (some 128) })
        (ofEnvironment ((asksWidth "wide").without { axiWidth := some (some 128) })
          { axiWidth := some (some 128) }) := by
  have refused : ofEnvironment (asksWidth "wide") { axiWidth := some (some 128) } =
      .error (.notInteger "wide") := rfl
  have accepted : ofEnvironment ((asksWidth "wide").without { axiWidth := some (some 128) })
      { axiWidth := some (some 128) } = .ok { axiWidth := .w128 } := rfl
  refine ⟨refused, accepted, ?_⟩
  rw [refused, accepted]
  rintro (same | ⟨-, _, ⟨⟩, -⟩)
  cases same

end Config

end BusScript
