import BusScript.Command.Parameter
import BusScript.Proofs.Command.Hexadecimal

/-!
# Parameters told from data

A table of rules that takes from the front of some tokens divides them (`Parameters.Divides`): what
it took, in order, and behind it the remainder, are the tokens. Where a table that takes all tokens
succeeds, one that takes from the front takes the same (`takeFront_of_takeAll`). No keyword is a
hexadecimal literal, in letters of either case, so of a list of literals only the first can be taken
for a parameter, namely for a length (`takeFront_divides`).
-/

namespace BusScript

open Text Number

/-! ## Division of tokens -/

/-- How a table takes parameters from the front of some tokens: `used` are the rules that take one,
`behind` the rules behind the last of these. -/
structure Parameters.Divides (parameters : Parameters) (rules : List Rule) (tokens : List String)
    (used behind : List Rule) : Prop where
  /-- The rules that take a token stand in the table in this order, the last of them in front of
  those behind. -/
  order : ∃ front, rules = front ++ behind ∧ used.Sublist front ∧ used.getLast? = front.getLast?
  applied : parameters.applied = used.map Rule.name
  /-- Each of them accepts its token, which stands under its field. -/
  fields : List.Forall₂ (fun rule entry => rule.field = entry.1 ∧ rule.accepts entry.2 = true)
    used parameters.fields
  /-- No token is lost and none is moved. -/
  whole : parameters.fields.map Prod.snd ++ parameters.remainder = tokens
  /-- The rules behind have been tried on the first token of the remainder. -/
  refused : ∀ token ∈ parameters.remainder.head?, ∀ rule ∈ behind, rule.accepts token = false

theorem exists_divides_takeFront (rules : List Rule) (tokens : List String) :
    ∃ used behind, (takeFront rules tokens).Divides rules tokens used behind := by
  fun_induction takeFront rules tokens with
  | case1 tokens =>
    exact ⟨[], [], ⟨[], rfl, .refl _, rfl⟩, rfl, .nil, rfl, fun _ _ _ none => by cases none⟩
  | case2 rule rules =>
    exact ⟨[], rule :: rules, ⟨[], rfl, .refl _, rfl⟩, rfl, .nil, rfl, fun _ none => by cases none⟩
  | case3 rule rules token tokens accepted ih =>
    obtain ⟨used, behind, ⟨front, table, order, last⟩, applied, fields, whole, refused⟩ := ih
    refine ⟨rule :: used, behind, ⟨rule :: front, ?_, order.cons_cons rule, ?_⟩, ?_,
      .cons ⟨rfl, accepted⟩ fields, congrArg (token :: ·) whole, refused⟩
    · rw [table, List.cons_append]
    · rw [List.getLast?_cons, List.getLast?_cons, last]
    · rw [Parameters.take, applied, List.map_cons]
  | case4 rule rules token tokens skipped ih =>
    obtain ⟨used, behind, ⟨front, table, order, last⟩, applied, fields, whole, refused⟩ := ih
    cases front with
    | nil =>
      -- No rule has taken a token, so the one that is skipped is behind as well.
      obtain rfl : used = [] := List.getLast?_eq_none_iff.mp last
      refine ⟨[], rule :: behind, ⟨[], ?_, .refl _, rfl⟩, applied, fields, whole, ?_⟩
      · rw [table, List.nil_append, List.nil_append]
      · rw [List.forall₂_nil_left_iff.mp fields, List.map_nil, List.nil_append] at whole
        intro head first other member
        rw [whole, List.head?_cons, Option.mem_some_iff] at first
        subst first
        rcases List.mem_cons.mp member with rfl | later
        · exact Bool.eq_false_of_not_eq_true skipped
        · exact refused token (by rw [whole]; rfl) other later
    | cons second front =>
      refine ⟨used, behind, ⟨rule :: second :: front, ?_, order.cons rule, ?_⟩, applied, fields,
        whole, refused⟩
      · rw [table, List.cons_append, List.cons_append, List.cons_append]
      · rw [last, List.getLast?_cons_cons]

namespace Parameters.Divides

variable {parameters : Parameters} {rules : List Rule} {tokens : List String}
  {used behind : List Rule}

theorem sublist (divides : parameters.Divides rules tokens used behind) : used.Sublist rules := by
  obtain ⟨front, rfl, order, -⟩ := divides.order
  exact order.trans (List.sublist_append_left front behind)

theorem map_fst_fields (divides : parameters.Divides rules tokens used behind) :
    parameters.fields.map Prod.fst = used.map Rule.field := by
  have same : List.Forall₂ Eq (used.map Rule.field) (parameters.fields.map Prod.fst) := by
    rw [List.forall₂_map_left_iff, List.forall₂_map_right_iff]
    exact divides.fields.imp fun _ _ taken => taken.1
  rw [List.forall₂_eq_eq_eq] at same
  exact same.symm

/-- Where the fields of a table are distinct, each token that was taken is that of its field. -/
theorem field?_eq (divides : parameters.Divides rules tokens used behind)
    (distinct : (rules.map Rule.field).Nodup) {field token : String}
    (member : (field, token) ∈ parameters.fields) : parameters.field? field = some token := by
  have keys : (parameters.fields.map Prod.fst).Nodup := by
    rw [divides.map_fst_fields]
    exact distinct.sublist (divides.sublist.map Rule.field)
  obtain ⟨before, after, split⟩ := List.append_of_mem member
  rw [split, List.map_append, List.map_cons] at keys
  refine List.lookup_eq_some_iff.mpr ⟨before, after, split, fun entry earlier => ?_⟩
  have apart : entry.1 ≠ field :=
    (List.nodup_append.mp keys).2.2 entry.1 (List.mem_map_of_mem earlier) field List.mem_cons_self
  exact bne_iff_ne.mpr apart.symm

end Parameters.Divides

/-- Tokens that a table takes one for one are taken from the front in the same way. -/
theorem takeFront_of_takeAll {rules : List Rule} {tokens : List String} {parameters : Parameters}
    (success : takeAll rules tokens = .ok parameters) :
    takeFront rules tokens = parameters ∧ parameters.remainder = [] := by
  fun_induction takeAll rules tokens generalizing parameters with
  | case1 rules =>
    cases success
    cases rules <;> exact ⟨rfl, rfl⟩
  | case2 token tokens => cases success
  | case3 rule rules token tokens accepted ih =>
    cases rest : takeAll rules tokens with
    | error cause => rw [rest] at success; cases success
    | ok later =>
      rw [rest] at success
      cases success
      obtain ⟨same, none⟩ := ih rest
      rw [takeFront, if_pos accepted, same]
      exact ⟨rfl, none⟩
  | case4 rule rules token tokens refused => cases success

/-! ## Literals -/

/-- The characters of a hexadecimal literal. -/
def literalAlphabet : List Char := hexAlphabet ++ capitalAlphabet ++ ['_', 'x', 'X']

/-- The capitals of the characters of a hexadecimal literal. -/
def literalCapitals : List Char := capitalAlphabet ++ ['_', 'X']

/-- What is left out of a literal's digits is its mark and its underscores. -/
theorem mem_literalDigits_or {text : List Char} {c : Char} (member : c ∈ text) :
    c ∈ literalDigits text ∨ c ∈ ['_', '0', 'x', 'X'] := by
  by_cases mark : c ∈ ['_', '0', 'x', 'X']
  · exact .inr mark
  · have digit : (c != '_') = true := bne_iff_ne.mpr fun same => mark (by simp [same])
    refine .inl (List.mem_filter.mpr ⟨?_, digit⟩)
    split
    · rename_i marked
      simp only [List.mem_cons, List.not_mem_nil, or_false, not_or] at mark
      obtain ⟨rest, rfl⟩ | ⟨rest, rfl⟩ := marked
      · simpa [mark] using member
      · simpa [mark] using member
    · exact member

theorem mem_literalAlphabet {token : String} {width : Int} {value : ℕ}
    (read : parseUnsigned token width = .ok value) {c : Char} (member : c ∈ token.toList) :
    c ∈ literalAlphabet := by
  obtain ⟨-, -, digits⟩ := parseUnsigned_eq_ok_iff.mp read
  rw [hexLiteralDigits_eq] at digits
  have hexadecimal := (ofHex?_eq_some_iff_spelled.mp digits).1
  have marks : ['_', '0', 'x', 'X'] ⊆ literalAlphabet := by decide
  rcases mem_literalDigits_or member with digit | mark
  · exact List.mem_append_left _ (List.mem_append.mpr (hexadecimal c digit))
  · exact marks mark

/-- No literal is a word that has a letter which is no hexadecimal digit. -/
theorem named?_of_literal {α : Type} {all : List α} {name : α → String}
    (worded : ∀ a ∈ all, ¬(name a).toList ⊆ literalCapitals) {token : String} {width : Int}
    {value : ℕ} (read : parseUnsigned token width = .ok value) : named? all name token = none := by
  rw [named?, List.find?_eq_none]
  intro a member same
  refine worded a member fun c letter => ?_
  rw [beq_iff_eq.mp same, capitalize, List.mem_flatMap] at letter
  obtain ⟨d, inToken, capital⟩ := letter
  have table : literalAlphabet.flatMap capitals ⊆ literalCapitals := by decide
  exact table (List.mem_flatMap.mpr ⟨d, mem_literalAlphabet read inToken, capital⟩)

section

variable {token : String} {width : Int} {value : ℕ}

theorem ahbBurst_refuses_literal (read : parseUnsigned token width = .ok value) :
    Rule.ahbBurst.accepts token = false :=
  congrArg Option.isSome (named?_of_literal (by decide) read)

theorem ahbSize_refuses_literal (read : parseUnsigned token width = .ok value) :
    Rule.ahbSize.accepts token = false :=
  congrArg Option.isSome (named?_of_literal (by decide) read)

theorem axiBurst_refuses_literal (read : parseUnsigned token width = .ok value) :
    Rule.axiBurst.accepts token = false :=
  congrArg Option.isSome (named?_of_literal (by decide) read)

end

/-- Tokens that are all hexadecimal literals. -/
def AreLiterals (tokens : List String) : Prop :=
  ∀ token ∈ tokens, ∃ width value, parseUnsigned token width = .ok value

/-- The parameters that leave all tokens. -/
def Parameters.leaving (tokens : List String) : Parameters :=
  { remainder := tokens }

theorem takeFront_ahb_of_literals {tokens : List String} (literals : AreLiterals tokens) :
    takeFront (Rule.table .ahb) tokens = .leaving tokens := by
  cases tokens with
  | nil => rfl
  | cons token rest =>
    obtain ⟨width, value, read⟩ := literals token List.mem_cons_self
    simp only [Rule.table, takeFront, ahbBurst_refuses_literal read, ahbSize_refuses_literal read]
    rfl

theorem takeFront_axi_of_literals {tokens : List String} (literals : AreLiterals tokens) :
    (takeFront (Rule.table .axi) tokens = .leaving tokens ∧
        ∀ token ∈ tokens.head?, looksLikeLength token = false) ∨
      ∃ token rest, tokens = token :: rest ∧ looksLikeLength token = true ∧
        takeFront (Rule.table .axi) tokens = (Parameters.leaving rest).take .axiLength token := by
  cases tokens with
  | nil => exact .inl ⟨rfl, fun _ none => by cases none⟩
  | cons token rest =>
    obtain ⟨width, value, read⟩ := literals token List.mem_cons_self
    have taken : takeFront (Rule.table .axi) (token :: rest) =
        if looksLikeLength token then (Parameters.leaving rest).take .axiLength token
        else .leaving (token :: rest) := by
      simp only [Rule.table, takeFront, axiBurst_refuses_literal read]
      rfl
    cases looks : looksLikeLength token with
    | true => exact .inr ⟨token, rest, rfl, looks, by rw [taken, if_pos looks]⟩
    | false =>
      refine .inl ⟨by rw [taken, looks]; rfl, fun first head => ?_⟩
      rw [← Option.some.inj head, looks]

/-- A table that takes from the front divides the tokens into parameters and remainder, and one that
takes them all takes the same. Of literals the AHB table takes none, and the AXI table the first at
most, as a length. -/
theorem takeFront_divides {rules : List Rule} (distinct : (rules.map Rule.field).Nodup)
    (tokens : List String) :
    (∃ used behind, (takeFront rules tokens).Divides rules tokens used behind) ∧
      (takeFront rules tokens).applied.Sublist (rules.map Rule.name) ∧
      (∀ field token, (field, token) ∈ (takeFront rules tokens).fields →
        (takeFront rules tokens).field? field = some token) ∧
      (∀ parameters, takeAll rules tokens = .ok parameters →
        takeFront rules tokens = parameters ∧ parameters.remainder = []) ∧
      (AreLiterals tokens →
        takeFront (Rule.table .ahb) tokens = .leaving tokens ∧
        ((takeFront (Rule.table .axi) tokens = .leaving tokens ∧
            ∀ token ∈ tokens.head?, looksLikeLength token = false) ∨
          ∃ token rest, tokens = token :: rest ∧ looksLikeLength token = true ∧
            takeFront (Rule.table .axi) tokens =
              (Parameters.leaving rest).take .axiLength token)) := by
  obtain ⟨used, behind, divides⟩ := exists_divides_takeFront rules tokens
  have names : (takeFront rules tokens).applied.Sublist (rules.map Rule.name) := by
    rw [divides.applied]
    exact divides.sublist.map Rule.name
  exact ⟨⟨used, behind, divides⟩, names, fun _ _ => divides.field?_eq distinct,
    fun _ => takeFront_of_takeAll,
    fun literals => ⟨takeFront_ahb_of_literals literals, takeFront_axi_of_literals literals⟩⟩

/-- The short literal `0x1` in front of data is taken for a length. -/
theorem takeFront_divides_short_literal :
    ((Rule.table .axi).map Rule.field).Nodup ∧ AreLiterals ["0x1", "0xAB_CD"] ∧
      (∃ used behind, (takeFront (Rule.table .axi) ["0x1", "0xAB_CD"]).Divides (Rule.table .axi)
        ["0x1", "0xAB_CD"] used behind) ∧
      takeFront (Rule.table .ahb) ["0x1", "0xAB_CD"] = .leaving ["0x1", "0xAB_CD"] ∧
      takeFront (Rule.table .axi) ["0x1", "0xAB_CD"] =
        (Parameters.leaving ["0xAB_CD"]).take .axiLength "0x1" := by
  have distinct : ((Rule.table .axi).map Rule.field).Nodup := by decide
  have literals : AreLiterals ["0x1", "0xAB_CD"] := by
    intro token member
    rcases List.mem_pair.mp member with rfl | rfl
    · exact ⟨32, 0x1, rfl⟩
    · exact ⟨32, 0xABCD, rfl⟩
  have divided := takeFront_divides distinct ["0x1", "0xAB_CD"]
  exact ⟨distinct, literals, divided.1, (divided.2.2.2.2 literals).1, by decide⟩

end BusScript
