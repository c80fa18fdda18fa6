import BusScript.Config
import BusScript.Proofs.Sequence

/-!
# Which settings are supported

Settings are checked one after the other, each by a check of its own (`validate_eq`). They pass
exactly if they are sound, and the configuration holds them as they are, but that a switch of
nothing is off (`validate_eq_ok_iff`). Settings that leave nothing out are unsupported at worst
(`kind_of_validate`): the other kinds of faults are for a number that is missing or too large.
-/

namespace BusScript

/-- A bound on time that ends at some time after now, and that doubles come near. -/
def TimeBound.Sound : TimeBound → Prop
  | .whole value => (Number.Binary64.ofInt value).isInf = false ∧ 0 < value
  | .real value => value.isFinite = true ∧ 0 < value
  | .unlimited => False

/-- Settings that every part of an engine can work with. -/
structure Settings.Sound (settings : Settings) : Prop where
  width : settings.axiWidth = some 64 ∨ settings.axiWidth = some 128
  timeout : settings.preloadTimeout.Sound
  policy : settings.preloadPolicy = some "last-wins" ∨ settings.preloadPolicy = some "abort"
  interval : ∃ cycles, settings.pollInterval = some cycles ∧ 0 ≤ cycles
  limit : ∃ reads, settings.maxPolls = some reads ∧ 1 ≤ reads

/-- Settings that leave nothing out, with a bound on time that doubles come near. -/
structure Settings.Complete (settings : Settings) : Prop where
  limited : settings.preloadTimeout.isUnlimited = false
  near : settings.preloadTimeout.huge? = none
  interval : settings.pollInterval.isSome
  limit : settings.maxPolls.isSome
  switch : settings.strict.isSome

/-- A configuration, as the settings that ask for it. -/
def Config.settings (config : Config) : Settings where
  axiWidth := some config.axiWidth.bits
  preloadTimeout := config.preloadTimeout
  preloadTimeoutUnit := config.preloadTimeoutUnit
  preloadPolicy := some config.preloadPolicy.name
  pollInterval := some config.pollInterval
  maxPolls := some config.maxPolls
  strict := some config.strict

/-! ## Names of values -/

theorem AxiWidth.ofBits?_eq_some_iff {width : AxiWidth} (bits : Int) :
    AxiWidth.ofBits? bits = some width ↔ bits = width.bits := by
  unfold AxiWidth.ofBits? AxiWidth.bits
  cases width <;> grind

theorem PreloadPolicy.ofName?_eq_some_iff {policy : PreloadPolicy} (name : String) :
    PreloadPolicy.ofName? name = some policy ↔ name = policy.name := by
  simp only [PreloadPolicy.ofName?, PreloadPolicy.all, List.find?_cons, List.find?_nil]
  cases policy <;> grind [PreloadPolicy.name]

namespace Settings

variable {α β : Type} {fault : SettingsFault}

/-! ## The checks -/

/-- What the value of a setting is read as; nothing, and what is not known, is a fault. -/
def checkKnown (known? : α → Option β) (fault : SettingsFault) (value : Option α) :
    Except SettingsFault β :=
  match value.bind known? with
  | some b => .ok b
  | none => .error fault

def checkTimeout (bound : TimeBound) : Except SettingsFault Unit :=
  if bound.isUnlimited then .error .noTimeout
  else match bound.huge? with
    | some value => .error (.hugeTimeout value)
    | none => if bound.isPositive then .ok () else .error (.timeoutNotPositive bound)

/-- A count that is no less than some bound, below which it has a fault of its own. -/
def checkCount (least : Int) (below : Int → SettingsFault) (count : Option Int) :
    Except SettingsFault Nat :=
  match count with
  | none => .error .noCount
  | some n => if n < least then .error (below n) else .ok n.toNat

theorem validate_eq (settings : Settings) : settings.validate = (do
    let axiWidth ←
      checkKnown AxiWidth.ofBits? (.unsupportedWidth settings.axiWidth) settings.axiWidth
    checkTimeout settings.preloadTimeout
    let preloadPolicy ← checkKnown PreloadPolicy.ofName? (.unknownPolicy settings.preloadPolicy)
      settings.preloadPolicy
    let pollInterval ← checkCount 0 .negativeInterval settings.pollInterval
    let maxPolls ← checkCount 1 .noPolls settings.maxPolls
    return {
      axiWidth, preloadPolicy, pollInterval, maxPolls
      preloadTimeout := settings.preloadTimeout
      preloadTimeoutUnit := settings.preloadTimeoutUnit
      strict := settings.strict.getD false }) := by
  unfold validate checkKnown checkTimeout
  cases settings.axiWidth.bind AxiWidth.ofBits? with
  | none => rfl
  | some width =>
    cases unlimited : settings.preloadTimeout.isUnlimited with
    | true =>
      simp only [unlimited]
      rfl
    | false =>
      cases huge : settings.preloadTimeout.huge? with
      | some value =>
        simp only [unlimited, huge]
        rfl
      | none =>
        cases positive : settings.preloadTimeout.isPositive with
        | false =>
          simp only [unlimited, huge, positive]
          rfl
        | true =>
          simp only [unlimited, huge, positive, Bool.not_true, Bool.false_eq_true, if_false,
            if_true]
          cases settings.preloadPolicy.bind PreloadPolicy.ofName? with
          | none => rfl
          | some policy =>
            cases settings.pollInterval with
            | none => rfl
            | some cycles =>
              by_cases early : cycles < 0
              · simp only [checkCount, early, if_true]
                rfl
              · simp only [checkCount, early, if_false]
                cases settings.maxPolls with
                | none => rfl
                | some reads =>
                  by_cases few : reads < 1
                  · simp only [few, if_true]
                    rfl
                  · simp only [few, if_false]
                    rfl

/-! ## What passes -/

theorem checkKnown_eq_ok_iff {known? : α → Option β} {value : Option α} {spelling : α} {b : β}
    (knownIff : ∀ a, known? a = some b ↔ a = spelling) :
    checkKnown known? fault value = .ok b ↔ value = some spelling := by
  cases value with
  | none => simp [checkKnown]
  | some a =>
    rw [Option.some_inj, ← knownIff, checkKnown, Option.bind_some]
    cases known? a <;> simp

theorem checkTimeout_eq_ok_iff {bound : TimeBound} {done : Unit} :
    checkTimeout bound = .ok done ↔ bound.Sound := by
  unfold checkTimeout TimeBound.Sound
  cases bound with
  | whole value =>
    simp only [TimeBound.isUnlimited, TimeBound.huge?, TimeBound.isPositive]
    cases (Number.Binary64.ofInt value).isInf <;> simp
  | real value => simp [TimeBound.isUnlimited, TimeBound.huge?, TimeBound.isPositive]
  | unlimited => simp [TimeBound.isUnlimited]

theorem checkCount_eq_ok_iff {least : Int} {below : Int → SettingsFault} {count : Option Int}
    {n : Nat} (natural : 0 ≤ least) :
    checkCount least below count = .ok n ↔ count = some (n : Int) ∧ least ≤ n := by
  cases count with
  | none => simp [checkCount]
  | some given =>
    unfold checkCount
    dsimp only
    split
    · simp only [reduceCtorEq, Option.some_inj, false_iff]
      omega
    · simp only [Except.ok.injEq, Option.some_inj]
      omega

/-- Sound settings pass, and no others; the configuration holds what they ask for. -/
theorem validate_eq_ok_iff {settings : Settings} {config : Config} :
    settings.validate = .ok config ↔
      settings.Sound ∧
        config.settings = { settings with strict := some (settings.strict.getD false) } := by
  rw [validate_eq]
  simp only [bind_eq_ok_iff, checkKnown_eq_ok_iff AxiWidth.ofBits?_eq_some_iff,
    checkKnown_eq_ok_iff PreloadPolicy.ofName?_eq_some_iff, checkTimeout_eq_ok_iff,
    checkCount_eq_ok_iff (Int.le_refl 0), checkCount_eq_ok_iff Int.one_nonneg]
  constructor
  · rintro ⟨width, widthIs, _, timeout, policy, policyIs, interval, ⟨intervalIs, _⟩, limit,
      ⟨limitIs, few⟩, made⟩
    obtain rfl := Except.ok.inj made
    refine ⟨⟨?_, timeout, ?_, ⟨_, intervalIs, Int.natCast_nonneg _⟩, ⟨_, limitIs, few⟩⟩, ?_⟩
    · cases width <;> simp [widthIs, AxiWidth.bits]
    · cases policy <;> simp [policyIs, PreloadPolicy.name]
    · simp [Config.settings, widthIs, policyIs, intervalIs, limitIs]
  · rintro ⟨sound, same⟩
    simp only [Config.settings, Settings.mk.injEq, Option.some_inj] at same
    obtain ⟨widthIs, timeoutIs, unitIs, policyIs, intervalIs, limitIs, strictIs⟩ := same
    obtain ⟨limit, given, few⟩ := sound.limit
    have natural : (1 : Int) ≤ config.maxPolls := by
      rw [← limitIs, Option.some_inj] at given
      omega
    refine ⟨config.axiWidth, widthIs.symm, (), sound.timeout, config.preloadPolicy, policyIs.symm,
      config.pollInterval, ⟨intervalIs.symm, Int.natCast_nonneg _⟩, config.maxPolls,
      ⟨limitIs.symm, natural⟩, ?_⟩
    rw [← timeoutIs, ← unitIs, ← strictIs]
    rfl

/-- There is a configuration for all sound settings. -/
theorem Sound.exists_config {settings : Settings} (sound : settings.Sound) :
    ∃ config, settings.validate = .ok config := by
  have ⟨width, widthIs⟩ : ∃ width : AxiWidth, settings.axiWidth = some (width.bits : Int) :=
    sound.width.elim (fun narrow => ⟨.w64, narrow⟩) (fun wide => ⟨.w128, wide⟩)
  have ⟨policy, policyIs⟩ : ∃ policy : PreloadPolicy, settings.preloadPolicy = some policy.name :=
    sound.policy.elim (fun last => ⟨.lastWins, last⟩) (fun stop => ⟨.abort, stop⟩)
  obtain ⟨interval, intervalIs, natural⟩ := sound.interval
  obtain ⟨limit, limitIs, few⟩ := sound.limit
  refine ⟨⟨width, settings.preloadTimeout, settings.preloadTimeoutUnit, policy, interval.toNat,
    limit.toNat, settings.strict.getD false⟩, validate_eq_ok_iff.mpr ⟨sound, ?_⟩⟩
  have intervalCast : (interval.toNat : Int) = interval := Int.toNat_of_nonneg natural
  have limitCast : (limit.toNat : Int) = limit := Int.toNat_of_nonneg (by omega)
  simp only [Config.settings, widthIs, policyIs, intervalIs, limitIs, intervalCast, limitCast]

/-! ## What does not pass -/

theorem kind_of_checkKnown {known? : α → Option β} {unknown : SettingsFault} {value : Option α}
    (named : unknown.kind = .unsupported)
    (refused : checkKnown known? unknown value = .error fault) : fault.kind = .unsupported := by
  unfold checkKnown at refused
  split at refused
  · cases refused
  · obtain rfl := Except.error.inj refused
    exact named

theorem kind_of_checkTimeout {bound : TimeBound} (limited : bound.isUnlimited = false)
    (near : bound.huge? = none) (refused : checkTimeout bound = .error fault) :
    fault.kind = .unsupported := by
  simp only [checkTimeout, limited, near, Bool.false_eq_true, if_false] at refused
  split at refused
  · cases refused
  · obtain rfl := Except.error.inj refused
    rfl

theorem kind_of_checkCount {least count : Int} {below : Int → SettingsFault}
    (named : ∀ n, (below n).kind = .unsupported)
    (refused : checkCount least below (some count) = .error fault) : fault.kind = .unsupported := by
  unfold checkCount at refused
  dsimp only at refused
  split at refused
  · obtain rfl := Except.error.inj refused
    exact named count
  · cases refused

/-- Complete settings can be nothing worse than unsupported. -/
theorem kind_of_validate {settings : Settings} (complete : settings.Complete)
    (refused : settings.validate = .error fault) : fault.kind = .unsupported := by
  obtain ⟨interval, intervalIs⟩ := Option.isSome_iff_exists.mp complete.interval
  obtain ⟨limit, limitIs⟩ := Option.isSome_iff_exists.mp complete.limit
  rw [validate_eq, intervalIs, limitIs] at refused
  simp only [bind_eq_error_iff] at refused
  obtain width | ⟨_, -, timeout | ⟨_, -, policy | ⟨_, -, few | ⟨_, -, few | ⟨_, -, made⟩⟩⟩⟩⟩ :=
    refused
  · exact kind_of_checkKnown rfl width
  · exact kind_of_checkTimeout complete.limited complete.near timeout
  · exact kind_of_checkKnown rfl policy
  · exact kind_of_checkCount (fun _ => rfl) few
  · exact kind_of_checkCount (fun _ => rfl) few
  · cases made

end Settings

end BusScript
