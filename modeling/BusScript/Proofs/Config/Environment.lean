import BusScript.Run.Engine
import BusScript.Proofs.Config.Validation

/-!
# Engines of an environment

The variables of an environment are texts of any kind. One that cannot be read makes what is asked
for unsupported and nothing worse (`Settings.kind_of_ofEnvironment`), and so does one whose value is
out of range, as an environment on its own leaves no setting out
(`Settings.complete_of_environment`). Every other environment leads to sound settings, which all
parts of an engine take as they are (`Config.ofEnvironment_sound`).
-/

namespace BusScript

variable {env : Environment} {name : String} {overrides : Overrides} {fault : SettingsFault}

/-! ## Variables that cannot be read -/

theorem kind_of_integerVariable (refused : integerVariable env name = .error fault) :
    fault.kind = .unsupported := by
  unfold integerVariable at refused
  split at refused
  · cases refused
  · split at refused
    · cases refused
    all_goals
      obtain rfl := Except.error.inj refused
      rfl

theorem kind_of_numberVariable (refused : numberVariable env name = .error fault) :
    fault.kind = .unsupported := by
  unfold numberVariable at refused
  split at refused
  · cases refused
  · split at refused
    · cases refused
    · obtain rfl := Except.error.inj refused
      rfl

namespace Settings

theorem kind_of_ofEnvironment (refused : ofEnvironment env overrides = .error fault) :
    fault.kind = .unsupported := by
  unfold ofEnvironment at refused
  simp only [bind_eq_error_iff] at refused
  obtain width | ⟨_, -, timeout | ⟨_, -, interval | ⟨_, -, limit | ⟨_, -, made⟩⟩⟩⟩ := refused
  · exact kind_of_integerVariable width
  · exact kind_of_numberVariable timeout
  · exact kind_of_integerVariable interval
  · exact kind_of_integerVariable limit
  · cases made

/-! ## Environments on their own -/

/-- A variable holds doubles only, which doubles come near. -/
theorem bound_of_numberVariable {bound : Option TimeBound}
    (read : numberVariable env name = .ok bound) :
    bound = none ∨ ∃ x, bound = some (.real x) := by
  unfold numberVariable at read
  split at read
  · exact .inl (Except.ok.inj read).symm
  · split at read
    · exact .inr ⟨_, (Except.ok.inj read).symm⟩
    · cases read

/-- Every setting that an environment says nothing about has a default. -/
theorem complete_of_environment {settings : Settings}
    (read : ofEnvironment env {} = .ok settings) : settings.Complete := by
  unfold ofEnvironment at read
  simp only [bind_eq_ok_iff] at read
  obtain ⟨width, -, timeout, timeoutRead, interval, -, limit, -, made⟩ := read
  obtain rfl := Except.ok.inj made
  have bound : (timeout.getD (.whole 1000000)).isUnlimited = false ∧
      (timeout.getD (.whole 1000000)).huge? = none := by
    obtain rfl | ⟨x, rfl⟩ := bound_of_numberVariable timeoutRead
    · exact ⟨rfl, by decide⟩
    · exact ⟨rfl, rfl⟩
  exact {
    limited := bound.1
    near := bound.2
    interval := by simp [settle]
    limit := by simp [settle]
    switch := by simp [settle] }

end Settings

/-! ## The parts of an engine -/

/-- The settings of a sound configuration lead back to it. -/
theorem Config.validate_settings {config : Config} (sound : config.settings.Sound) :
    config.settings.validate = .ok config :=
  Settings.validate_eq_ok_iff.mpr ⟨sound, rfl⟩

theorem Grammar.ofWidth_settings {σ : Type} (e : Engine σ) :
    Grammar.ofWidth e.config.settings.axiWidth e.config.settings.maxPolls = .ok e.grammar := by
  have known : AxiWidth.ofBits? e.config.axiWidth.bits = some e.config.axiWidth :=
    (AxiWidth.ofBits?_eq_some_iff _).mpr rfl
  simp only [Grammar.ofWidth, Config.settings, Option.bind_some, known, Engine.grammar]

theorem Coordinator.ofPolicyName_settings {σ : Type} (loader : Loader σ) (config : Config) :
    Coordinator.ofPolicyName loader config.settings.preloadTimeout config.settings.preloadPolicy =
      .ok ⟨loader, config.preloadTimeout, config.preloadPolicy⟩ := by
  have known : PreloadPolicy.ofName? config.preloadPolicy.name = some config.preloadPolicy :=
    (PreloadPolicy.ofName?_eq_some_iff _).mpr rfl
  simp only [Coordinator.ofPolicyName, Config.settings, Option.bind_some, known]

/-- An engine takes sound settings as they are. -/
theorem Engine.ofSettings_settings {σ : Type} (e : Engine σ) (sound : e.config.settings.Sound) :
    Engine.ofSettings e.bench e.config.settings = .ok e := by
  unfold Engine.ofSettings
  rw [Config.validate_settings sound, Grammar.ofWidth_settings]
  cases loaded : e.bench.loader with
  | none => rfl
  | some loader =>
    simp only [Coordinator.ofPolicyName_settings]
    rfl

/-- Whatever the texts of an environment are, they are refused as unsupported or they lead to a
configuration of 64 or 128 bits, a bound on time that ends after now, a policy of a known name, no
negative interval and at least one read of a poll, which the grammar, the coordinator of any loader
and the engine of any bench take as it is. Only an environment is refused that asks for something
else. -/
theorem Config.ofEnvironment_sound (env : Environment) :
    match Config.ofEnvironment env {} with
    | .error fault =>
      fault.kind = .unsupported ∧
        ∀ settings, Settings.ofEnvironment env {} = .ok settings → ¬settings.Sound
    | .ok config =>
      Settings.ofEnvironment env {} = .ok config.settings ∧ config.settings.Sound ∧
        ∀ (σ : Type) (bench : Bench σ),
          Grammar.ofWidth config.settings.axiWidth config.settings.maxPolls =
              .ok (Engine.mk bench config).grammar ∧
            (∀ loader : Loader σ,
              Coordinator.ofPolicyName loader config.settings.preloadTimeout
                  config.settings.preloadPolicy =
                .ok ⟨loader, config.preloadTimeout, config.preloadPolicy⟩) ∧
            Engine.ofSettings bench config.settings = .ok ⟨bench, config⟩ := by
  unfold Config.ofEnvironment
  cases read : Settings.ofEnvironment env {} with
  | error fault => exact ⟨Settings.kind_of_ofEnvironment read, fun _ made => nomatch made⟩
  | ok settings =>
    have complete := Settings.complete_of_environment read
    change match settings.validate with | .error _ => _ | .ok _ => _
    cases checked : settings.validate with
    | error fault =>
      refine ⟨Settings.kind_of_validate complete checked, ?_⟩
      rintro _ ⟨⟩ sound
      obtain ⟨config, accepted⟩ := sound.exists_config
      cases checked.symm.trans accepted
    | ok config =>
      obtain ⟨sound, same⟩ := Settings.validate_eq_ok_iff.mp checked
      obtain ⟨on, switch⟩ := Option.isSome_iff_exists.mp complete.switch
      have kept : config.settings = settings := by
        rw [same, switch, Option.getD_some, ← switch]
      refine ⟨by rw [kept], kept ▸ sound, fun σ bench => ⟨?_, ?_, ?_⟩⟩
      · exact Grammar.ofWidth_settings ⟨bench, config⟩
      · exact fun loader => Coordinator.ofPolicyName_settings loader config
      · exact Engine.ofSettings_settings ⟨bench, config⟩ (kept ▸ sound)

end BusScript
