import Mathlib.Data.List.DropRight
import Mathlib.Data.List.TakeWhile
import BusScript.Text.Blank

/-!
# Trimmed texts

Trimming takes the characters of a class away from both ends of a text and stops at the first other
character. So a trimmed text is `Bare` of them at its ends, and it is the one such part of the text
that has nothing else around it (`trim_eq_iff`).
-/

namespace BusScript.Text

variable {drop : Char → Bool} {text : List Char}

/-- The text neither starts nor ends with a character of the class. -/
structure Bare (drop : Char → Bool) (text : List Char) : Prop where
  front : ∀ c, text.head? = some c → drop c = false
  back : ∀ c, text.getLast? = some c → drop c = false

theorem bare_iff : Bare drop text ↔
    text.head?.all (fun c => !drop c) = true ∧ text.getLast?.all (fun c => !drop c) = true := by
  simp only [Option.all_eq_true, Bool.not_eq_true']
  exact ⟨fun bare => ⟨bare.front, bare.back⟩, fun ends => ⟨ends.1, ends.2⟩⟩

instance (drop : Char → Bool) (text : List Char) : Decidable (Bare drop text) :=
  decidable_of_iff _ bare_iff.symm

theorem bare_nil : Bare drop [] :=
  ⟨nofun, nofun⟩

theorem trimEnd_eq (drop : Char → Bool) (text : List Char) :
    trimEnd drop text = text.rdropWhile drop := rfl

theorem getLast?_rdropWhile_not {c : Char} (last : (text.rdropWhile drop).getLast? = some c) :
    drop c = false := by
  have some : text.rdropWhile drop ≠ [] := by
    intro none
    rw [none] at last
    cases last
  have outside := List.rdropWhile_last_not drop _ some
  rw [List.getLast?_eq_some_getLast some, Option.some.injEq] at last
  rw [last] at outside
  simpa using outside

theorem bare_trim (drop : Char → Bool) (text : List Char) : Bare drop (trim drop text) where
  front := by
    intro c first
    obtain ⟨rest, split⟩ := List.rdropWhile_prefix drop (text.dropWhile drop)
    have stays : (text.dropWhile drop).head? = some c := by
      rw [← split, List.head?_append, ← trimEnd_eq, ← trim, first, Option.some_or]
    have outside := List.head?_dropWhile_not drop text
    rw [stays] at outside
    simpa using outside
  back := fun _ => getLast?_rdropWhile_not

/-- The characters of the class at the start of a text end where another one follows. -/
theorem takeWhile_append {first rest : List Char} (all : ∀ c ∈ first, drop c = true)
    (next : ∀ c, rest.head? = some c → drop c = false) :
    (first ++ rest).takeWhile drop = first ∧ (first ++ rest).dropWhile drop = rest := by
  rw [List.takeWhile_append_of_pos all, List.dropWhile_append_of_pos all]
  cases rest with
  | nil => simp
  | cons c rest => simp [next c rfl]

/-- Characters of the class are cut off from a text that ends with another one. -/
theorem rdropWhile_append {first last : List Char}
    (ends : ∀ c, first.getLast? = some c → drop c = false) (all : ∀ c ∈ last, drop c = true) :
    (first ++ last).rdropWhile drop = first ∧ (first ++ last).rtakeWhile drop = last := by
  have kept : first.rdropWhile drop = first := by
    rw [List.rdropWhile_eq_self_iff]
    intro some
    simpa using ends _ (List.getLast?_eq_some_getLast some)
  have cut : (first ++ last).rdropWhile drop = first := by
    have ending : ∀ c ∈ last.reverse, drop c = true := by simpa using all
    rw [List.rdropWhile, List.reverse_append, List.dropWhile_append_of_pos ending]
    exact kept
  refine ⟨cut, ?_⟩
  have whole : (first ++ last).rdropWhile drop ++ (first ++ last).rtakeWhile drop = first ++ last :=
    List.rdropWhile_append_rtakeWhile
  rw [cut] at whole
  exact List.append_cancel_left whole

/-- Characters of the class go from around a text, and the text stays. -/
theorem trim_of_bare {front content back : List Char} (before : ∀ c ∈ front, drop c = true)
    (bare : Bare drop content) (after : ∀ c ∈ back, drop c = true) :
    trim drop (front ++ content ++ back) = content := by
  rw [trim, List.append_assoc, List.dropWhile_append_of_pos before]
  rcases content with - | ⟨c, content⟩
  · rw [List.nil_append, List.dropWhile_eq_nil_iff.mpr after]
    rfl
  · have first : drop c = false := bare.front c rfl
    rw [List.cons_append, List.dropWhile_cons_of_neg (by simp [first]), ← List.cons_append,
      trimEnd_eq]
    exact (rdropWhile_append bare.back after).1

/-- A text is its trimmed part, and around that characters of the class. -/
theorem exists_trim (drop : Char → Bool) (text : List Char) :
    ∃ front back, (∀ c ∈ front, drop c = true) ∧ (∀ c ∈ back, drop c = true) ∧
      text = front ++ trim drop text ++ back := by
  refine ⟨text.takeWhile drop, (text.dropWhile drop).rtakeWhile drop, ?_, ?_, ?_⟩
  · exact fun c => List.mem_takeWhile_imp
  · exact fun c => List.mem_rtakeWhile_imp
  · rw [trim, trimEnd_eq, List.append_assoc, List.rdropWhile_append_rtakeWhile,
      List.takeWhile_append_dropWhile]

theorem trim_eq_iff {content : List Char} :
    trim drop text = content ↔ Bare drop content ∧ ∃ front back, (∀ c ∈ front, drop c = true) ∧
      (∀ c ∈ back, drop c = true) ∧ text = front ++ content ++ back := by
  constructor
  · rintro rfl
    exact ⟨bare_trim drop text, exists_trim drop text⟩
  · rintro ⟨bare, front, back, before, after, rfl⟩
    exact trim_of_bare before bare after

/-- A character of the class at the end of a text makes no difference. -/
theorem trim_concat {c : Char} (dropped : drop c = true) (text : List Char) :
    trim drop (text ++ [c]) = trim drop text := by
  obtain ⟨front, back, before, after, split⟩ := exists_trim drop text
  refine trim_eq_iff.mpr ⟨bare_trim drop text, front, back ++ [c], before, ?_, ?_⟩
  · exact List.forall_mem_append.mpr ⟨after, List.forall_mem_singleton.mpr dropped⟩
  · conv_lhs => rw [split]
    rw [List.append_assoc _ back]

end BusScript.Text
