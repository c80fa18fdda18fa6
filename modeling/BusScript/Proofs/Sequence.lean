/-!
# Sequences of steps that may fail

A sequence of steps gives the first fault among them, or what its last step gives. So it is opened
step by step, where it succeeds (`bind_eq_ok_iff`) and where it fails (`bind_eq_error_iff`).
-/

namespace BusScript

variable {ε α β : Type} {fault : ε}

theorem bind_eq_ok_iff {x : Except ε α} {f : α → Except ε β} {b : β} :
    (x >>= f) = .ok b ↔ ∃ a, x = .ok a ∧ f a = .ok b := by
  cases x <;> simp [bind, Except.bind]

theorem bind_eq_error_iff {x : Except ε α} {f : α → Except ε β} :
    (x >>= f) = .error fault ↔ x = .error fault ∨ ∃ a, x = .ok a ∧ f a = .error fault := by
  cases x <;> simp [bind, Except.bind]

theorem map_eq_ok_iff {x : Except ε α} {f : α → β} {b : β} :
    (f <$> x) = .ok b ↔ ∃ a, x = .ok a ∧ f a = b := by
  cases x <;> simp [Functor.map, Except.map]

theorem map_eq_error_iff {x : Except ε α} {f : α → β} :
    (f <$> x) = .error fault ↔ x = .error fault := by
  cases x <;> simp [Functor.map, Except.map]

end BusScript
