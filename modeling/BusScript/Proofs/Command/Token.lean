import BusScript.Command.Keyword
import BusScript.Proofs.Text.Layout
import BusScript.Proofs.Text.Trimming

/-!
# Tokens are not empty

No token of a line is empty, also on a preload line, where a path may hold white space inside. The
path and the data file are what lies on either side of the last gap (`cutLastGap_eq_some_iff`) in a
text that has white space at neither end, so that a character is left on both sides.
-/

namespace BusScript

namespace Text

/-! ## The last gap -/

/-- A text that no white space ends is its last word exactly if it is a word. -/
theorem isLastWord_iff {text : List Char}
    (ends : ∀ c, text.getLast? = some c → isBlank c = false) :
    isLastWord text = true ↔ text ≠ [] ∧ Solid text := by
  have whole := List.takeWhile_append_dropWhile (p := fun c => !isBlank c) (l := text)
  constructor
  · intro word
    simp only [isLastWord, Bool.and_eq_true, Bool.or_eq_true, List.isEmpty_iff, beq_iff_eq,
      Bool.not_eq_true', List.isEmpty_eq_false_iff] at word
    obtain ⟨none | feed, some⟩ := word
    · refine ⟨fun empty => some (by rw [empty]; rfl), fun c member => ?_⟩
      simpa using List.dropWhile_eq_nil_iff.mp none c member
    · rw [feed] at whole
      have last := ends '\n' (by rw [← whole, List.getLast?_concat])
      cases last
  · rintro ⟨some, solid⟩
    have all : ∀ c ∈ text, (!isBlank c) = true := fun c member => by rw [solid c member]; rfl
    rw [isLastWord, List.dropWhile_eq_nil_iff.mpr all, List.takeWhile_eq_self_iff.mpr all]
    simpa using some

theorem gapAhead?_of_solid {c : Char} {rest : List Char} (solid : isBlank c = false) :
    gapAhead? (c :: rest) = none := by
  rw [gapAhead?, List.takeWhile_cons_of_neg (by simp [solid])]
  rfl

/-- White space with the last word behind it is found as a whole. -/
theorem gapAhead?_of_white {gap file : List Char} (filled : gap ≠ []) (white : White gap)
    (some : file ≠ []) (solid : Solid file) : gapAhead? (gap ++ file) = gap.length := by
  obtain ⟨c, rest, rfl⟩ := List.exists_cons_of_ne_nil some
  have longest : (gap ++ c :: rest).takeWhile isBlank = gap := by
    rw [List.takeWhile_append_of_pos white,
      List.takeWhile_cons_of_neg (by simp [solid c List.mem_cons_self]), List.append_nil]
  have word : isLastWord (c :: rest) = true := by
    refine (isLastWord_iff fun d last => ?_).mpr ⟨some, solid⟩
    exact solid d (List.mem_of_getLast? last)
  obtain ⟨n, length⟩ := Nat.exists_eq_succ_of_ne_zero (List.length_pos_iff.mpr filled).ne'
  have behind : (gap ++ c :: rest).drop (1 + n) = c :: rest := by
    rw [Nat.add_comm, ← Nat.succ_eq_add_one, ← length, List.drop_left]
  rw [gapAhead?, longest, length, List.range'_1_concat, List.reverse_append]
  refine (List.find?_cons_of_pos ?_).trans ?_
  · rw [behind, word]
  · rw [Nat.add_comm]

theorem length_takeWhile_le_of_last {target rest : List Char}
    (ends : ∀ c, target.getLast? = some c → isBlank c = false) (begun : target ≠ []) :
    ((target ++ rest).takeWhile isBlank).length ≤ target.length := by
  obtain ⟨front, d, rfl⟩ := (List.eq_nil_or_concat' target).resolve_left begun
  have solid := ends d List.getLast?_concat
  rw [List.append_assoc, List.takeWhile_append]
  split
  · rw [List.singleton_append, List.takeWhile_cons_of_neg (by simp [solid]), List.append_nil,
      List.length_append]
    omega
  · have most := (List.takeWhile_prefix isBlank (l := front)).length_le
    rw [List.length_append]
    omega

/-- White space is not the last gap if a word that ends behind it is not the last one. -/
theorem gapAhead?_of_later {target gap file : List Char}
    (ends : ∀ c, target.getLast? = some c → isBlank c = false) (begun : target ≠ [])
    (filled : gap ≠ []) (white : White gap) (some : file ≠ []) (solid : Solid file) :
    gapAhead? (target ++ (gap ++ file)) = none := by
  rw [gapAhead?, List.find?_eq_none]
  intro length within word
  rw [List.mem_reverse, List.mem_range'_1] at within
  have inside : ((target ++ (gap ++ file)).takeWhile isBlank).length ≤ target.length :=
    length_takeWhile_le_of_last ends begun
  rw [List.drop_append_of_le_length (by omega)] at word
  have last : ∀ c, (target.drop length ++ (gap ++ file)).getLast? = .some c →
      isBlank c = false := by
    intro c last
    rw [List.getLast?_append_of_ne_nil _ (List.append_ne_nil_of_right_ne_nil gap some),
      List.getLast?_append_of_ne_nil _ some] at last
    exact solid c (List.mem_of_getLast? last)
  obtain ⟨c, rest, rfl⟩ := List.exists_cons_of_ne_nil filled
  have free := ((isLastWord_iff last).mp word).2 c (by simp)
  rw [white c List.mem_cons_self] at free
  cases free

theorem cutLastGap_of_solid {text : List Char} (solid : Solid text) : cutLastGap text = none := by
  induction text with
  | nil => rfl
  | cons c rest ih =>
    obtain ⟨first, later⟩ := List.forall_mem_cons.mp solid
    rw [cutLastGap_cons, gapAhead?_of_solid first, ih later]
    rfl

/-- The cut is at the white space in front of the last word, and takes all of it. -/
theorem cutLastGap_of_gap {target gap file : List Char}
    (ends : ∀ c, target.getLast? = some c → isBlank c = false)
    (filled : gap ≠ []) (white : White gap) (some : file ≠ []) (solid : Solid file) :
    cutLastGap (target ++ (gap ++ file)) = .some (target, file) := by
  induction target with
  | nil =>
    have found := gapAhead?_of_white filled white some solid
    obtain ⟨c, rest, rfl⟩ := List.exists_cons_of_ne_nil filled
    rw [List.nil_append, List.cons_append, cutLastGap_cons, ← List.cons_append, found]
    dsimp only
    rw [List.drop_left]
  | cons c target ih =>
    have later := gapAhead?_of_later ends (List.cons_ne_nil c target) filled white some solid
    have cut : cutLastGap (target ++ (gap ++ file)) = .some (target, file) := by
      refine ih fun d last => ends d ?_
      rw [List.getLast?_cons, last]
      rfl
    rw [List.cons_append] at later ⊢
    rw [cutLastGap_cons, later, cut]
    rfl

/-- A text that no white space ends is one word at most, or a word ends it behind a gap. -/
theorem solid_or_exists_gap {text : List Char}
    (ends : ∀ c, text.getLast? = some c → isBlank c = false) :
    Solid text ∨ ∃ target gap file, text = target ++ (gap ++ file) ∧
      (∀ c, target.getLast? = some c → isBlank c = false) ∧ gap ≠ [] ∧ White gap ∧
        file ≠ [] ∧ Solid file := by
  by_cases none : text.rdropWhile (fun c => !isBlank c) = []
  · refine .inl fun c member => ?_
    simpa using List.rdropWhile_eq_nil_iff.mp none c member
  · have blank := List.rdropWhile_last_not (fun c => !isBlank c) text none
    refine .inr ⟨(text.rdropWhile fun c => !isBlank c).rdropWhile isBlank,
      (text.rdropWhile fun c => !isBlank c).rtakeWhile isBlank,
      text.rtakeWhile fun c => !isBlank c, ?_, fun c => getLast?_rdropWhile_not, ?_,
      fun c => List.mem_rtakeWhile_imp, fun empty => ?_, fun c member => ?_⟩
    · have front : (text.rdropWhile fun c => !isBlank c).rdropWhile isBlank ++
          (text.rdropWhile fun c => !isBlank c).rtakeWhile isBlank =
            text.rdropWhile fun c => !isBlank c :=
        List.rdropWhile_append_rtakeWhile
      rw [← List.append_assoc, front]
      exact List.rdropWhile_append_rtakeWhile.symm
    · rw [ne_eq, List.rtakeWhile_eq_nil_iff, not_forall]
      exact ⟨none, by simpa using blank⟩
    · have whole : (text.rdropWhile fun c => !isBlank c) ++
          (text.rtakeWhile fun c => !isBlank c) = text := List.rdropWhile_append_rtakeWhile
      rw [empty, List.append_nil] at whole
      have last := List.getLast?_eq_some_getLast none
      simp only [whole] at last
      simp [whole, ends _ last] at blank
    · simpa using List.mem_rtakeWhile_imp member

/-- A text that no white space ends is cut at its last gap: the second part is the last word, and no
white space is left at the end of the first part. -/
theorem cutLastGap_eq_some_iff {text target file : List Char}
    (ends : ∀ c, text.getLast? = some c → isBlank c = false) :
    cutLastGap text = some (target, file) ↔
      (∀ c, target.getLast? = some c → isBlank c = false) ∧ file ≠ [] ∧ Solid file ∧
        ∃ gap, gap ≠ [] ∧ White gap ∧ text = target ++ (gap ++ file) := by
  constructor
  · intro cut
    rcases solid_or_exists_gap ends with
      solid | ⟨front, gap, last, rfl, bare, filled, white, some, solid⟩
    · rw [cutLastGap_of_solid solid] at cut
      cases cut
    · rw [cutLastGap_of_gap bare filled white some solid] at cut
      cases cut
      exact ⟨bare, some, solid, gap, filled, white, rfl⟩
  · rintro ⟨bare, some, solid, gap, filled, white, rfl⟩
    exact cutLastGap_of_gap bare filled white some solid

theorem cutLastGap_eq_none_iff {text : List Char}
    (ends : ∀ c, text.getLast? = some c → isBlank c = false) :
    cutLastGap text = none ↔ Solid text := by
  refine ⟨fun uncut => ?_, cutLastGap_of_solid⟩
  rcases solid_or_exists_gap ends with
    solid | ⟨front, gap, last, rfl, bare, filled, white, some, solid⟩
  · exact solid
  · rw [cutLastGap_of_gap bare filled white some solid] at uncut
    cases uncut

/-- Neither part of a text that starts and ends with other characters than white space is empty. -/
theorem cutLastGap_ne_nil {text target file : List Char} (bare : Bare isBlank text)
    (cut : cutLastGap text = some (target, file)) : target ≠ [] ∧ file ≠ [] := by
  obtain ⟨-, last, -, gap, filled, white, rfl⟩ := (cutLastGap_eq_some_iff bare.back).mp cut
  refine ⟨?_, last⟩
  rintro rfl
  obtain ⟨c, rest, rfl⟩ := List.exists_cons_of_ne_nil filled
  have start := bare.front c rfl
  rw [white c List.mem_cons_self] at start
  cases start

end Text

/-! ## Tokens of a line -/

theorem preloadTokens_ne_nil {remainder token : List Char}
    (member : token ∈ preloadTokens remainder) : token ≠ [] := by
  have keyword : preloadKeyword ≠ [] := by decide
  unfold preloadTokens at member
  split at member
  · rw [List.mem_singleton] at member
    exact member ▸ keyword
  · rename_i arguments some
    split at member
    · rcases List.mem_pair.mp member with rfl | rfl
      · exact keyword
      · exact some
    · rename_i target file cut
      have parts := Text.cutLastGap_ne_nil (Text.bare_trim _ _) cut
      simp only [List.mem_cons, List.not_mem_nil, or_false] at member
      rcases member with rfl | rfl | rfl
      · exact keyword
      · exact parts.1
      · exact parts.2

theorem tokenize_ne_empty {line token : String} (member : token ∈ tokenize line) : token ≠ "" := by
  unfold tokenize at member
  obtain ⟨text, among, rfl⟩ := List.mem_map.mp member
  have some : text ≠ [] := by
    split at among
    · exact preloadTokens_ne_nil among
    · simpa using (List.mem_filter.mp among).2
  simpa using some

/-- The arguments of a command are tokens of its line. -/
theorem Command.arguments_ne_empty {text token : String} {line : Option Int} {command : Command}
    (made : Command.ofTokens (tokenize text) line = .ok command)
    (member : token ∈ command.arguments) : token ≠ "" := by
  unfold Command.ofTokens at made
  split at made
  · cases made
    exact tokenize_ne_empty (List.mem_of_mem_drop member)
  · cases made

end BusScript
