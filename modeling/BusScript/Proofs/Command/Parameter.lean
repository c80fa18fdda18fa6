import BusScript.Command.Parameter

/-!
# Where parameters come from

Each token that a table of rules took stands under the field of a rule that accepts it, for the
rules that take from the front of the tokens and for those that take all of them alike. So the token
of an AXI burst length always looks like one, and is short.
-/

namespace BusScript

/-- Every field holds a token that a rule of that field accepts. -/
def Parameters.TakenBy (rules : List Rule) (parameters : Parameters) : Prop :=
  ∀ field token, (field, token) ∈ parameters.fields →
    ∃ rule ∈ rules, rule.field = field ∧ rule.accepts token = true

theorem Parameters.TakenBy.skip {rules : List Rule} {parameters : Parameters}
    (taken : parameters.TakenBy rules) (rule : Rule) : parameters.TakenBy (rule :: rules) := by
  intro field token member
  obtain ⟨source, inRules, named, accepted⟩ := taken field token member
  exact ⟨source, List.mem_cons_of_mem _ inRules, named, accepted⟩

theorem Parameters.TakenBy.take {rules : List Rule} {parameters : Parameters} {rule : Rule}
    {token : String} (taken : parameters.TakenBy rules) (accepted : rule.accepts token = true) :
    (parameters.take rule token).TakenBy (rule :: rules) := by
  intro field other member
  rcases List.mem_cons.mp member with here | later
  · cases here
    exact ⟨rule, List.mem_cons_self, rfl, accepted⟩
  · exact taken.skip rule field other later

theorem takeFront_takenBy (rules : List Rule) (tokens : List String) :
    (takeFront rules tokens).TakenBy rules := by
  fun_induction takeFront rules tokens with
  | case1 tokens => intro field token member; cases member
  | case2 rule rules => intro field token member; cases member
  | case3 rule rules token tokens accepted ih => exact ih.take accepted
  | case4 rule rules token tokens refused ih => exact ih.skip rule

theorem takeAll_takenBy {rules : List Rule} {tokens : List String} {parameters : Parameters}
    (success : takeAll rules tokens = .ok parameters) : parameters.TakenBy rules := by
  fun_induction takeAll rules tokens generalizing parameters with
  | case1 rules =>
    cases success
    intro field token member
    cases member
  | case2 token tokens => cases success
  | case3 rule rules token tokens accepted ih =>
    cases rest : takeAll rules tokens with
    | error cause => rw [rest] at success; cases success
    | ok later =>
      rw [rest] at success
      cases success
      exact (ih rest).take accepted
  | case4 rule rules token tokens refused => cases success

theorem Parameters.TakenBy.of_field? {rules : List Rule} {parameters : Parameters}
    {field token : String} (taken : parameters.TakenBy rules)
    (given : parameters.field? field = some token) :
    ∃ rule ∈ rules, rule.field = field ∧ rule.accepts token = true := by
  obtain ⟨before, after, fields, -⟩ := List.lookup_eq_some_iff.mp given
  exact taken field token (by rw [fields]; simp)

/-- The token of an AXI burst length looks like a length. -/
theorem Parameters.TakenBy.looksLikeLength {parameters : Parameters} {token : String}
    (taken : parameters.TakenBy (Rule.table .axi))
    (given : parameters.field? "length" = some token) : looksLikeLength token = true := by
  obtain ⟨rule, member, named, accepted⟩ := taken.of_field? given
  rcases List.mem_cons.mp member with rfl | member
  · exact absurd named (by decide)
  · rcases List.mem_cons.mp member with rfl | member
    · exact accepted
    · cases member

theorem length_le_of_looksLikeLength {token : String} (looks : looksLikeLength token = true) :
    token.toList.length ≤ 3 := by
  unfold looksLikeLength at looks
  split at looks
  · cases looks
  · rename_i c rest text
    simp only [Bool.and_eq_true, decide_eq_true_eq] at looks
    rw [text, List.length_cons]
    omega

end BusScript
