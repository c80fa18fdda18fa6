import BusScript.Command.Grammar
import BusScript.Proofs.Command.Token

/-!
# What tokens keep of a line

The tokens of a line are its words, but for a preload in its own notation: there all words between
the keyword and the file are one token, with the white space inside. `PreloadLine` relates such a
line to its tokens and says where they lie in it; every line that starts with the keyword is one in
one way (`tokenize_of_preloadLine`, `exists_preloadLine`). So no word is lost, and a path with gaps
in it comes back as it was written (`tokens_keep_line`).
-/

namespace BusScript

open Text

namespace Text

theorem Solid.bare {word : List Char} (solid : Solid word) : Bare isBlank word where
  front _ first := solid _ (List.mem_of_head? first)
  back _ last := solid _ (List.mem_of_getLast? last)

theorem words_ne_nil {text : List Char} (some : text ≠ []) (bare : Bare isBlank text) :
    words text ≠ [] := by
  intro none
  obtain ⟨c, rest, rfl⟩ := List.exists_cons_of_ne_nil some
  have blank := white_of_words_eq_nil none c List.mem_cons_self
  rw [bare.front c rfl] at blank
  cases blank

end Text

/-! ## Arguments of a preload -/

/-- The text behind the keyword of a preload and its tokens: the last word is the file if others are
in front of it, and from the first to the last of these is the path. -/
inductive Arguments : List Char → List (List Char) → Prop
  | none : Arguments [] []
  | one {word : List Char} : word ≠ [] → Solid word → Arguments word [word]
  | two {target gap file : List Char} :
    target ≠ [] → Bare isBlank target → gap ≠ [] → White gap → file ≠ [] → Solid file →
      Arguments (target ++ gap ++ file) [target, file]

namespace Arguments

variable {text : List Char} {tokens : List (List Char)}

theorem bare (arguments : Arguments text tokens) : Bare isBlank text := by
  cases arguments with
  | none => exact bare_nil
  | one _ solid => exact solid.bare
  | two first target _ _ last file =>
    constructor
    · intro c front
      rw [List.append_assoc, List.head?_append_of_ne_nil _ first] at front
      exact target.front c front
    · intro c back
      rw [List.getLast?_append_of_ne_nil _ last] at back
      exact file.bare.back c back

theorem tight (arguments : Arguments text tokens) :
    ∀ token ∈ tokens, token ≠ [] ∧ Bare isBlank token := by
  cases arguments with
  | none => exact List.forall_mem_nil _
  | one some solid => exact List.forall_mem_singleton.mpr ⟨some, solid.bare⟩
  | two first target _ _ last file =>
    exact List.forall_mem_cons.mpr
      ⟨⟨first, target⟩, List.forall_mem_singleton.mpr ⟨last, file.bare⟩⟩

theorem words_eq (arguments : Arguments text tokens) : words text = tokens.flatMap words := by
  cases arguments with
  | none => rfl
  | one some solid => simp
  | @two target gap file _ _ some white _ _ =>
    rw [words_append_gap some white]
    simp

end Arguments

theorem exists_arguments {text : List Char} (bare : Bare isBlank text) :
    ∃ tokens, Arguments text tokens := by
  rcases eq_or_ne text [] with rfl | some
  · exact ⟨_, .none⟩
  cases cut : cutLastGap text with
  | none => exact ⟨_, .one some ((cutLastGap_eq_none_iff bare.back).mp cut)⟩
  | some parts =>
    obtain ⟨target, file⟩ := parts
    obtain ⟨first, second⟩ := cutLastGap_ne_nil bare cut
    obtain ⟨last, -, solid, gap, between, white, rfl⟩ :=
      (cutLastGap_eq_some_iff bare.back).mp cut
    rw [← List.append_assoc]
    refine ⟨_, .two first ⟨fun c front => bare.front c ?_, last⟩ between white second solid⟩
    rw [List.head?_append_of_ne_nil _ first, front]

theorem preloadTokens_of_arguments {front text back : List Char} {tokens : List (List Char)}
    (before : White front) (arguments : Arguments text tokens) (after : White back) :
    preloadTokens (front ++ text ++ back) = preloadKeyword :: tokens := by
  unfold preloadTokens
  rw [trim_of_bare before arguments.bare after]
  cases arguments with
  | none => rfl
  | @one word some solid =>
    obtain ⟨c, rest, rfl⟩ := List.exists_cons_of_ne_nil some
    simp only [cutLastGap_of_solid solid]
  | @two target gap file some bare between white last solid =>
    have cut := cutLastGap_of_gap bare.back between white last solid
    rw [← List.append_assoc] at cut
    obtain ⟨c, rest, rfl⟩ := List.exists_cons_of_ne_nil some
    rw [List.cons_append, List.cons_append] at cut ⊢
    simp only [cut]

/-! ## Preload lines -/

/-- A line that starts with the keyword of a preload, and its tokens. -/
inductive PreloadLine : List Char → List (List Char) → Prop
  | keyword {front gap text back : List Char} {tokens : List (List Char)} :
    White front → White gap → (text ≠ [] → gap ≠ []) → Arguments text tokens → White back →
      PreloadLine (front ++ preloadKeyword ++ (gap ++ text ++ back)) (preloadKeyword :: tokens)

theorem preloadKeyword_ne_nil : preloadKeyword ≠ [] := by
  decide

theorem solid_preloadKeyword : Solid preloadKeyword := by
  decide

/-- A word ends where white space follows it. -/
theorem span_word {word rest : List Char} (solid : Solid word)
    (next : ∀ c, rest.head? = some c → isBlank c = true) :
    (word ++ rest).takeWhile (fun c => !isBlank c) = word ∧
      (word ++ rest).dropWhile (fun c => !isBlank c) = rest := by
  apply takeWhile_append
  · intro c member
    simp [solid c member]
  · intro c first
    simp [next c first]

theorem tokenize_of_preloadLine {line : String} {tokens : List (List Char)}
    (cut : PreloadLine line.toList tokens) : tokenize line = tokens.map String.ofList := by
  generalize same : line.toList = text at cut
  obtain @⟨front, gap, text, back, tokens, before, between, apart, arguments, after⟩ := cut
  -- What follows the keyword is white space, if anything does.
  have next : ∀ c, (gap ++ text ++ back).head? = some c → isBlank c = true := by
    intro c first
    rcases gap with - | ⟨d, gap⟩
    · have none : text = [] := by
        by_contra some
        exact apart some rfl
      rw [none] at first
      exact after c (List.mem_of_head? first)
    · cases first
      exact between c List.mem_cons_self
  obtain ⟨keyword, behind⟩ := span_word solid_preloadKeyword next
  unfold tokenize
  rw [same, List.append_assoc, List.dropWhile_append_of_pos before,
    dropWhile_append_solid preloadKeyword_ne_nil solid_preloadKeyword]
  dsimp only
  rw [keyword, if_pos rfl, behind, preloadTokens_of_arguments between arguments after]

theorem exists_preloadLine {text : List Char} (first : (words text).head? = some preloadKeyword) :
    ∃ tokens, PreloadLine text tokens := by
  have laid : Laid (words text) text := laid_iff.mpr rfl
  have keyword := laid.front.2
  rw [List.headD_eq_head?_getD, first, Option.getD_some] at keyword
  have split := List.takeWhile_append_dropWhile (p := isBlank) (l := text)
  have parts := List.takeWhile_append_dropWhile (p := fun c => !isBlank c)
    (l := text.dropWhile isBlank)
  have next := List.head?_dropWhile_not (fun c => !isBlank c) (text.dropWhile isBlank)
  rw [keyword] at parts
  generalize (text.dropWhile isBlank).dropWhile (fun c => !isBlank c) = rest at parts next
  obtain ⟨gap, back, between, after, trimmed⟩ := exists_trim isBlank rest
  have bare := bare_trim isBlank rest
  obtain ⟨tokens, arguments⟩ := exists_arguments bare
  refine ⟨preloadKeyword :: tokens, ?_⟩
  rw [← split, ← parts, trimmed, ← List.append_assoc]
  refine .keyword (fun c => List.mem_takeWhile_imp) between ?_ arguments after
  rintro some rfl
  obtain ⟨c, more, equal⟩ := List.exists_cons_of_ne_nil some
  have outside := bare.front c (by rw [equal]; rfl)
  rw [trimmed, equal] at next
  simp [outside] at next

/-! ## Words of a preload line -/

theorem PreloadLine.tight {text : List Char} {tokens : List (List Char)}
    (cut : PreloadLine text tokens) : ∀ token ∈ tokens, token ≠ [] ∧ Bare isBlank token := by
  obtain @⟨front, gap, text, back, tokens, before, between, apart, arguments, after⟩ := cut
  exact List.forall_mem_cons.mpr
    ⟨⟨preloadKeyword_ne_nil, solid_preloadKeyword.bare⟩, arguments.tight⟩

theorem PreloadLine.words_eq {text : List Char} {tokens : List (List Char)}
    (cut : PreloadLine text tokens) : words text = tokens.flatMap words := by
  obtain @⟨front, gap, text, back, tokens, before, between, apart, arguments, after⟩ := cut
  rw [List.flatMap_cons, ← arguments.words_eq, List.append_assoc, words_white_append before,
    ← List.append_assoc, words_append_white after]
  rcases eq_or_ne text [] with rfl | some
  · rw [List.append_nil, words_append_white between]
    exact (List.append_nil _).symm
  · rw [← List.append_assoc, words_append_gap (apart some) between]

/-- The tokens of a preload line: the keyword, the path and the file, as far as there are words. The
file is the last word. The path is the stretch of the line from the second word to the one in front
of the file. -/
structure CutAtLastGap (line : List Char) (tokens : List (List Char)) : Prop where
  count : tokens.length = min 3 (words line).length
  keyword : tokens.head? = some preloadKeyword
  file : ∀ file, tokens[2]? = some file → (words line).getLast? = some file
  target : ∀ target, tokens[1]? = some target →
    ∃ before after, line = before ++ target ++ after ∧
      words before = [preloadKeyword] ∧ (∀ c, before.getLast? = some c → isBlank c = true) ∧
      words after = tokens[2]?.toList ∧ ∀ c, after.head? = some c → isBlank c = true

theorem PreloadLine.cutAtLastGap {line : List Char} {tokens : List (List Char)}
    (cut : PreloadLine line tokens) : CutAtLastGap line tokens := by
  have total := cut.words_eq
  obtain @⟨front, gap, text, back, tokens, before, between, apart, arguments, after⟩ := cut
  have one := words_of_solid preloadKeyword_ne_nil solid_preloadKeyword
  have start : words (front ++ preloadKeyword ++ gap) = [preloadKeyword] := by
    rw [words_append_white between, words_white_append before, one]
  have ending (filled : text ≠ []) :
      ∀ c, (front ++ preloadKeyword ++ gap).getLast? = some c → isBlank c = true :=
    fun c => between.of_getLast? (apart filled)
  rw [List.flatMap_cons, one] at total
  cases arguments with
  | none =>
    refine ⟨?_, rfl, nofun, nofun⟩
    rw [total]
    rfl
  | one filled solid =>
    rw [List.flatMap_singleton, words_of_solid filled solid] at total
    refine ⟨?_, rfl, nofun, ?_⟩
    · rw [total]
      rfl
    · rintro target ⟨⟩
      refine ⟨front ++ preloadKeyword ++ gap, back, by simp, start, ending filled, ?_, ?_⟩
      · exact words_of_white after
      · exact fun c first => after c (List.mem_of_head? first)
  | @two target gapped file filled bare some white named solid =>
    have last : words file = [file] := words_of_solid named solid
    rw [List.flatMap_cons, List.flatMap_singleton, last] at total
    refine ⟨?_, rfl, ?_, ?_⟩
    · have several := List.length_pos_iff.mpr (words_ne_nil filled bare)
      rw [total]
      simp
      omega
    · rintro _ ⟨⟩
      rw [total, ← List.append_assoc]
      exact List.getLast?_concat
    · rintro _ ⟨⟩
      refine ⟨front ++ preloadKeyword ++ gap, gapped ++ file ++ back, by simp, start,
        ending (by simp [filled]), ?_, ?_⟩
      · rw [words_append_white after, words_white_append white, last]
        rfl
      · intro c first
        rw [List.append_assoc] at first
        exact white.of_head? some first

/-! ## Lines -/

/-- A line starts with the keyword of a preload and is cut as one, or its tokens are its words. -/
theorem tokenize_cases (line : String) :
    (words line.toList).head? = some preloadKeyword ∧
        PreloadLine line.toList ((tokenize line).map String.toList) ∨
      (words line.toList).head? ≠ some preloadKeyword ∧
        (tokenize line).map String.toList = words line.toList := by
  by_cases first : (words line.toList).head? = some preloadKeyword
  · obtain ⟨tokens, cut⟩ := exists_preloadLine first
    have same : (tokenize line).map String.toList = tokens := by
      simp [tokenize_of_preloadLine cut]
    exact .inl ⟨first, same ▸ cut⟩
  · have same : ((words line.toList).map String.ofList).map String.toList = words line.toList := by
      simp
    have laid : Laid (((words line.toList).map String.ofList).map String.toList) line.toList :=
      laid_iff.mpr same.symm
    have other : ((words line.toList).map String.ofList).head? ≠ some "PRELOAD" := by
      intro equal
      apply first
      have keyword := congrArg (Option.map String.toList) equal
      rw [← List.head?_map, same] at keyword
      exact keyword
    rw [tokenize_of_laid laid other]
    exact .inr ⟨first, same⟩

theorem tokenize_tight {line token : String} (member : token ∈ tokenize line) :
    token ≠ "" ∧ Bare isBlank token.toList := by
  have among : token.toList ∈ (tokenize line).map String.toList := List.mem_map_of_mem member
  have tight : token.toList ≠ [] ∧ Bare isBlank token.toList := by
    rcases tokenize_cases line with ⟨-, cut⟩ | ⟨-, plain⟩
    · exact cut.tight _ among
    · rw [plain] at among
      obtain ⟨some, solid⟩ := solid_of_mem_words among
      exact ⟨some, solid.bare⟩
  exact ⟨by simpa using tight.1, tight.2⟩

theorem words_tokenize (line : String) :
    (tokenize line).flatMap (fun token => words token.toList) = words line.toList := by
  have parts : (tokenize line).flatMap (fun token => words token.toList) =
      ((tokenize line).map String.toList).flatMap words := by rw [List.flatMap_map]
  rw [parts]
  rcases tokenize_cases line with ⟨-, cut⟩ | ⟨-, plain⟩
  · exact cut.words_eq.symm
  · rw [plain]
    have single : ∀ word ∈ words line.toList, words word = [word] := by
      intro word member
      obtain ⟨some, solid⟩ := solid_of_mem_words member
      exact words_of_solid some solid
    rw [List.flatMap_congr single]
    exact List.flatMap_singleton' _

theorem Grammar.parse_preload {grammar : Grammar} {line : String} {number : Option Int}
    {target file : String} (tokens : tokenize line = ["PRELOAD", target, file]) :
    grammar.parse line number = .ok (.preload { target, dataFile := file, line := number }) := by
  have form : Form.ofTokens ["PRELOAD", target, file] = .ok .preload := rfl
  unfold parse Command.ofTokens
  rw [tokens, form]
  rfl

/-- A token has something in it and no white space at its ends, and no word of the line is lost or
cut: the words of the tokens are those of the line. If the first word is the keyword of a preload
the line is cut at its last gap, and else at every gap. A path without white space at its ends and a
file without any are read back from every preload line that they are written in. -/
theorem tokens_keep_line (line : String) :
    (∀ token ∈ tokenize line, token ≠ "" ∧ Bare isBlank token.toList) ∧
    (tokenize line).flatMap (fun token => words token.toList) = words line.toList ∧
    ((words line.toList).head? = some preloadKeyword →
      CutAtLastGap line.toList ((tokenize line).map String.toList)) ∧
    ((words line.toList).head? ≠ some preloadKeyword →
      (tokenize line).map String.toList = words line.toList) ∧
    ∀ (grammar : Grammar) (number : Option Int) (target file : String)
      (front gap between back : List Char),
      target ≠ "" → Bare isBlank target.toList → file ≠ "" → Solid file.toList →
      White front → White gap → gap ≠ [] → White between → between ≠ [] → White back →
      line.toList =
        front ++ preloadKeyword ++ gap ++ target.toList ++ between ++ file.toList ++ back →
      grammar.parse line number = .ok (.preload { target, dataFile := file, line := number }) := by
  refine ⟨fun token => tokenize_tight, words_tokenize line, ?_, ?_, ?_⟩
  · intro first
    rcases tokenize_cases line with ⟨-, cut⟩ | ⟨other, -⟩
    · exact cut.cutAtLastGap
    · exact absurd first other
  · intro other
    rcases tokenize_cases line with ⟨first, -⟩ | ⟨-, plain⟩
    · exact absurd first other
    · exact plain
  · intro grammar number target file front gap between back some bare named solid before gapped
      apart white filled after written
    have arguments : Arguments (target.toList ++ between ++ file.toList)
        [target.toList, file.toList] :=
      .two (by simpa using some) bare filled white (by simpa using named) solid
    have cut : PreloadLine line.toList [preloadKeyword, target.toList, file.toList] := by
      have parts := PreloadLine.keyword before gapped (fun _ => apart) arguments after
      simp only [List.append_assoc] at parts written
      rwa [written]
    have tokens := tokenize_of_preloadLine cut
    simp only [List.map_cons, List.map_nil, String.ofList_toList] at tokens
    exact Grammar.parse_preload tokens

/-- A path with white space inside, on a line with white space at its ends. -/
theorem tokens_keep_path :
    let line := " PRELOAD\ttop.u  mem\u00a0[0] \t ram.hex "
    tokenize line = ["PRELOAD", "top.u  mem\u00a0[0]", "ram.hex"] ∧
      CutAtLastGap line.toList ((tokenize line).map String.toList) ∧
      Grammar.parse {} line (some 4) =
        .ok (.preload { target := "top.u  mem\u00a0[0]", dataFile := "ram.hex", line := some 4 }) ∧
      (tokenize "preload a b").map String.toList = words "preload a b".toList := by
  intro line
  have keep := tokens_keep_line line
  refine ⟨by decide +kernel, keep.2.2.1 (by decide +kernel), ?_, ?_⟩
  · exact keep.2.2.2.2 {} (some 4) "top.u  mem\u00a0[0]" "ram.hex" [' '] ['\t'] " \t ".toList [' ']
      (by decide) (by decide +kernel) (by decide) (by decide +kernel) (by decide) (by decide)
      (by decide) (by decide +kernel) (by decide) (by decide) (by decide +kernel)
  · exact (tokens_keep_line "preload a b").2.2.2.1 (by decide +kernel)

end BusScript
