import BusScript.Command.Grammar
import BusScript.Proofs.Sequence

/-!
# Steps of resolving a command

A step of resolving gives a value or refuses the command, and what follows a refusal is not looked
at. The lemmas here say this once for each kind of step, so that a form of command is opened step by
step.

Of the faults only a decimal count of too many digits is no script error. `Contained` says that a
step never ends with that one; it is closed under sequencing.
-/

namespace BusScript.Grammar

variable {α β : Type}

/-! ## Sequences of steps -/

theorem pure_eq_ok_iff {a b : α} : (pure a : Resolving α) = .ok b ↔ a = b := by
  simp [pure, Except.pure]

theorem pure_bind {a : α} {f : α → Resolving β} : (pure a >>= f) = f a := rfl

theorem refuse_bind {cause : Cause} {f : α → Resolving β} :
    (refuse cause >>= f) = refuse cause := rfl

theorem if_refuse_bind {p : Prop} [Decidable p] {cause : Cause} {x : Resolving α}
    {f : α → Resolving β} :
    (if p then refuse cause else x) >>= f = if p then refuse cause else x >>= f := by
  by_cases holds : p
  · rw [if_pos holds, if_pos holds, refuse_bind]
  · rw [if_neg holds, if_neg holds]

theorem refuse_ne_ok {cause : Cause} {a : α} : (refuse cause : Resolving α) ≠ .ok a := by
  simp [refuse]

theorem if_refuse_eq_ok_iff {p : Prop} [Decidable p] {cause : Cause} {x : Resolving α} {a : α} :
    (if p then refuse cause else x) = .ok a ↔ ¬p ∧ x = .ok a := by
  by_cases holds : p
  · simp [holds, refuse_ne_ok]
  · simp [holds]

theorem checked_eq_ok_iff {x : Except Cause α} {a : α} : checked x = .ok a ↔ x = .ok a := by
  cases x <;> simp [checked, refuse]

/-! ## Arguments -/

theorem twoArguments_eq_ok_iff {command : Command} {first second : String} {rest : List String} :
    twoArguments command = .ok (first, second, rest) ↔
      command.arguments = first :: second :: rest := by
  unfold twoArguments
  split
  · rename_i given
    rw [given]
    simp only [Except.ok.injEq, Prod.mk.injEq, List.cons.injEq]
  · rename_i few
    simp only [refuse_ne_ok, false_iff]
    exact few _ _ _

/-! ## Faults that are script errors -/

/-- A step never ends with a count of too many digits: it gives a value or a script error. -/
def Contained (x : Resolving α) : Prop :=
  ∀ digits, x ≠ .error (.countTooLong digits)

theorem contained_iff {x : Resolving α} :
    Contained x ↔ (∃ a, x = .ok a) ∨ ∃ error, x = .error (.script error) := by
  constructor
  · intro contained
    cases x with
    | ok a => exact .inl ⟨a, rfl⟩
    | error fault =>
      cases fault with
      | script error => exact .inr ⟨error, rfl⟩
      | countTooLong digits => exact absurd rfl (contained digits)
  · rintro (⟨a, rfl⟩ | ⟨error, rfl⟩) digits equal <;> cases equal

theorem contained_ok {a : α} : Contained (.ok a : Resolving α) := by
  intro digits equal
  cases equal

theorem contained_pure {a : α} : Contained (pure a : Resolving α) :=
  contained_ok

theorem contained_refuse {cause : Cause} : Contained (refuse cause : Resolving α) := by
  intro digits equal
  cases equal

theorem contained_checked {x : Except Cause α} : Contained (checked x) := by
  cases x with
  | ok a => exact contained_ok
  | error cause => exact contained_refuse

theorem contained_bind_iff {x : Resolving α} {f : α → Resolving β} :
    Contained (x >>= f) ↔ Contained x ∧ ∀ a, x = .ok a → Contained (f a) := by
  constructor
  · intro contained
    refine ⟨fun digits equal => ?_, fun a ok digits equal => ?_⟩
    · exact contained digits (bind_eq_error_iff.mpr (.inl equal))
    · exact contained digits (bind_eq_error_iff.mpr (.inr ⟨a, ok, equal⟩))
  · rintro ⟨first, later⟩ digits equal
    rcases bind_eq_error_iff.mp equal with fault | ⟨a, ok, fault⟩
    · exact first digits fault
    · exact later a ok digits fault

theorem Contained.bind {x : Resolving α} {f : α → Resolving β} (first : Contained x)
    (later : ∀ a, x = .ok a → Contained (f a)) : Contained (x >>= f) :=
  contained_bind_iff.mpr ⟨first, later⟩

theorem contained_map_iff {x : Resolving α} {f : α → β} : Contained (f <$> x) ↔ Contained x := by
  simp only [Contained, ne_eq, map_eq_error_iff]

theorem contained_word {token : String} {width : Nat} : Contained (word token width) :=
  contained_checked

theorem contained_words {tokens : List String} {width : Nat} : Contained (words tokens width) := by
  unfold words
  induction tokens with
  | nil => exact contained_pure
  | cons token rest ih =>
    rw [List.mapM_cons]
    exact contained_word.bind fun _ _ => ih.bind fun _ _ => contained_pure

theorem contained_oneArgument {command : Command} : Contained (oneArgument command) := by
  unfold oneArgument
  split
  · exact contained_ok
  · exact contained_refuse

theorem contained_twoArguments {command : Command} : Contained (twoArguments command) := by
  unfold twoArguments
  split
  · exact contained_ok
  · exact contained_refuse

theorem contained_checkGeometry {form : Form} {kind : AxiBurst} {length : Nat} :
    Contained (checkGeometry form kind length) := by
  unfold checkGeometry
  dsimp only
  split
  · exact contained_refuse
  · split
    · exact contained_refuse
    · exact contained_ok

/-! ## Literals -/

/-- A word of a width is a natural below two to that width. -/
theorem word_eq_ok_iff {token : String} {width : Nat} {value : Int} :
    word token width = .ok value ↔
      ∃ n : Nat, parseUnsigned token width = .ok n ∧ value = n := by
  unfold word
  rw [checked_eq_ok_iff]
  cases parseUnsigned token width with
  | ok n => simp [Except.map, eq_comm]
  | error cause => simp [Except.map]

end BusScript.Grammar
