import BusScript.Proofs.Command.Letters
import BusScript.Proofs.Number.Written
import BusScript.Proofs.Text.Layout

/-!
# Written commands are read back

A command with all its parameters written out is read as the action of its values
(`parse_written`), in letters of either case and in any layout. Optional parameters share their
places with data, so what is shown for each form is that the keywords and lengths are taken as
parameters, that the rest is all data, and that none of it is lost.
-/

namespace BusScript

open Text

/-! ## Commands with all parameters -/

/-- A command by its values, with all its parameters. Lengths are one less than the beats. -/
inductive Written (grammar : Grammar)
  | ahbWrite (address data : BitVec 32) (burst : AhbBurst) (size : AhbSize)
  | ahbRead (address : BitVec 32) (burst : AhbBurst) (size : AhbSize)
      (expected : Option (BitVec 32))
  | ahbBurstWrite (address : BitVec 32) (burst : AhbBurst) (size : AhbSize)
      (data : List (BitVec 32))
  | ahbBurstRead (address : BitVec 32) (burst : AhbBurst) (size : AhbSize)
      (expected : List (BitVec 32))
  | axiWrite (address : BitVec 32) (data : BitVec grammar.axiWidth.bits) (burst : AxiBurst)
      (length : Nat)
  | axiRead (address : BitVec 32) (burst : AxiBurst) (length : Nat)
      (expected : Option (List (BitVec grammar.axiWidth.bits)))
  | axiBurstWrite (address : BitVec 32) (burst : AxiBurst) (length : Nat)
      (data : List (BitVec grammar.axiWidth.bits))
  | axiBurstRead (address : BitVec 32) (burst : AxiBurst) (length : Nat)
      (expected : Option (List (BitVec grammar.axiWidth.bits)))
  | poll (bus : Bus) (address : BitVec 32) (expected mask : BitVec (grammar.width bus))
      (limit : Nat)
  | wait (cycles : Nat)

/-- An AHB burst has data, and the count that its kind fixes. -/
def AhbBurst.Carries (burst : AhbBurst) (beats : Nat) : Prop :=
  0 < beats ∧ ∀ count, burst.beats? = some count → beats = count

/-- The beats of a burst read are those that its kind fixes, else as many as are expected. -/
theorem AhbBurst.Carries.beats_eq {burst : AhbBurst} {beats : Nat} (legal : burst.Carries beats) :
    burst.beats?.getD (max beats 1) = beats := by
  obtain ⟨some, fixed⟩ := legal
  cases count : burst.beats? with
  | none => exact Nat.max_eq_left some
  | some count' => exact (fixed count' count).symm

/-- A length that an AXI burst may have. -/
def AxiBurst.Allows (burst : AxiBurst) (length : Nat) : Prop :=
  length ≤ 255 ∧ (burst = .wrap → length + 1 ∈ [2, 4, 8, 16]) ∧ (burst = .fixed → length + 1 ≤ 16)

/-- A count that can be written in decimal. -/
def Countable (count : Nat) : Prop :=
  (toString count).length ≤ Number.digitLimit

namespace Written

/-- A word as it is written for its field. -/
def hex {width : Nat} (word : BitVec width) : String :=
  Number.formatHex word.toNat width

/-- The values of words. -/
def values {width : Nat} (words : List (BitVec width)) : List Int :=
  words.map fun word => word.toNat

variable {grammar : Grammar}

/-- The counts of a command fit each other and its burst. -/
def Legal : Written grammar → Prop
  | .ahbWrite .. | .ahbRead .. => True
  | .ahbBurstWrite _ burst _ words | .ahbBurstRead _ burst _ words => burst.Carries words.length
  | .axiWrite _ _ burst length => burst.Allows length
  | .axiRead _ burst length expected | .axiBurstRead _ burst length expected =>
    burst.Allows length ∧ ∀ words, expected = some words → words.length = length + 1
  | .axiBurstWrite _ burst length data => burst.Allows length ∧ data.length = length + 1
  | .poll _ _ _ _ limit => 1 ≤ limit ∧ Countable limit
  | .wait cycles => Countable cycles

def form : Written grammar → Form
  | .ahbWrite .. => .onBus .ahb .write
  | .ahbRead .. => .onBus .ahb .read
  | .ahbBurstWrite .. => .onBus .ahb .burstWrite
  | .ahbBurstRead .. => .onBus .ahb .burstRead
  | .axiWrite .. => .onBus .axi .write
  | .axiRead .. => .onBus .axi .read
  | .axiBurstWrite .. => .onBus .axi .burstWrite
  | .axiBurstRead .. => .onBus .axi .burstRead
  | .poll bus .. => .onBus bus .poll
  | .wait _ => .wait

/-- What follows the keywords. -/
def arguments : Written grammar → List String
  | .ahbWrite address data burst size => [hex address, hex data, burst.name, size.name]
  | .ahbRead address burst size expected =>
    hex address :: burst.name :: size.name :: (expected.map hex).toList
  | .ahbBurstWrite address burst size words | .ahbBurstRead address burst size words =>
    hex address :: burst.name :: size.name :: words.map hex
  | .axiWrite address data burst length => [hex address, hex data, burst.name, toString length]
  | .axiRead address burst length expected | .axiBurstRead address burst length expected =>
    hex address :: burst.name :: toString length :: (expected.getD []).map hex
  | .axiBurstWrite address burst length data =>
    hex address :: burst.name :: toString length :: data.map hex
  | .poll _ address expected mask limit =>
    [hex address, hex expected, hex mask, toString limit]
  | .wait cycles => [toString cycles]

/-- All words of the command. -/
def tokens (command : Written grammar) : List String :=
  command.form.protocol.name :: command.form.operation?.toList.map Operation.name
    ++ command.arguments

/-- What the command asks for. -/
def action (line : Option Int) : Written grammar → Action
  | .ahbWrite address data burst size => .transaction {
      operation := .write, address := address.toNat, burst := .ahb burst, width := 32
      size := some size, payload := some (.word data.toNat), line }
  | .ahbRead address burst size expected => .transaction {
      operation := .read, address := address.toNat, burst := .ahb burst, width := 32
      size := some size, expected := expected.map fun word => .word word.toNat, line }
  | .ahbBurstWrite address burst size data => .transaction {
      operation := .burstWrite, address := address.toNat, burst := .ahb burst, width := 32
      size := some size, length := data.length - 1, payload := some (.beats (values data)), line }
  | .ahbBurstRead address burst size expected => .transaction {
      operation := .burstRead, address := address.toNat, burst := .ahb burst, width := 32
      size := some size, length := expected.length - 1
      expected := some (.beats (values expected)), line }
  | .axiWrite address data burst length => .transaction {
      operation := .write, address := address.toNat, burst := .axi burst
      width := grammar.axiWidth.bits, length, payload := some (.word data.toNat), line }
  | .axiRead address burst length expected => .transaction {
      operation := .read, address := address.toNat, burst := .axi burst
      width := grammar.axiWidth.bits, length
      expected := expected.map fun words => .beats (values words), line }
  | .axiBurstWrite address burst length data => .transaction {
      operation := .burstWrite, address := address.toNat, burst := .axi burst
      width := grammar.axiWidth.bits, length, payload := some (.beats (values data)), line }
  | .axiBurstRead address burst length expected => .transaction {
      operation := .burstRead, address := address.toNat, burst := .axi burst
      width := grammar.axiWidth.bits, length
      expected := expected.map fun words => .beats (values words), line }
  | .poll bus address expected mask limit => .poll {
      bus, address := address.toNat, expected := expected.toNat, mask := mask.toNat
      maxPolls := some limit, width := grammar.width bus, line }
  | .wait cycles => .wait { cycles, line }

end Written

namespace Grammar

open Written

/-! ## Literals -/

/-- A field is of whole hexadecimal digits. -/
def Hexadecimal (width : Nat) : Prop :=
  0 < width ∧ width % 4 = 0

instance (width : Nat) : Decidable (Hexadecimal width) :=
  inferInstanceAs (Decidable (_ ∧ _))

theorem hexadecimal_bits (width : AxiWidth) : Hexadecimal width.bits := by
  cases width <;> decide

theorem hexadecimal_width (grammar : Grammar) (bus : Bus) : Hexadecimal (grammar.width bus) := by
  cases bus with
  | ahb => exact (by decide : Hexadecimal ahbWidth)
  | axi => exact hexadecimal_bits grammar.axiWidth

theorem word_hex {width : Nat} (digits : Hexadecimal width) (value : BitVec width) :
    word (hex value) width = .ok value.toNat :=
  word_eq_ok_iff.mpr ⟨_, parseUnsigned_formatHex digits.1 digits.2 value.isLt, rfl⟩

theorem address_hex (value : BitVec 32) : address (hex value) = .ok value.toNat :=
  word_hex (by decide) value

theorem words_hex {width : Nat} (digits : Hexadecimal width) (list : List (BitVec width)) :
    words (list.map hex) width = .ok (values list) := by
  unfold words
  induction list with
  | nil => rfl
  | cons value rest ih =>
    rw [List.map_cons, List.mapM_cons]
    exact bind_eq_ok_iff.mpr ⟨_, word_hex digits value, bind_eq_ok_iff.mpr ⟨_, ih, rfl⟩⟩

theorem looksLikeLength_toString {length : Nat} (short : length ≤ 255) :
    looksLikeLength (toString length) = true := by
  have few : (toString length).length ≤ 3 := by
    rw [Nat.toString_eq_repr, Nat.length_repr_le_iff (by decide)]
    omega
  have digits := isDigit_toString length
  rw [← String.length_toList] at few
  unfold looksLikeLength
  cases text : (toString length).toList with
  | nil =>
    rw [Nat.toString_eq_ofList_toDigits, String.toList_ofList] at text
    exact absurd text Nat.toDigits_ne_nil
  | cons c rest =>
    rw [text, List.length_cons] at few
    rw [text, List.all_cons, Bool.and_eq_true] at digits
    simp only [digits.1, Bool.true_and, decide_eq_true_eq]
    omega

theorem axiLength_toString {length : Nat} (short : length ≤ 255) :
    axiLength (toString length) = .ok length := by
  refine parseCount_toString _ ?_ fun most equal => ?_
  · rw [Nat.toString_eq_repr, Nat.length_repr_le_iff (by decide)]
    have room : 255 < 10 ^ 3 := by decide
    exact lt_of_lt_of_le (by omega) (Nat.pow_le_pow_right (by decide) (by decide) : 10 ^ 3 ≤ _)
  · cases equal
    omega

/-! ## Parameters -/

theorem ahbBurst?_name (burst : AhbBurst) : ahbBurst? burst.name = some burst := by
  cases burst <;> decide

theorem ahbSize?_name (size : AhbSize) : ahbSize? size.name = some size := by
  cases size <;> decide

theorem axiBurst?_name (burst : AxiBurst) : axiBurst? burst.name = some burst := by
  cases burst <;> decide

/-- The parameters that a burst kind and a second parameter make of the tokens that start with
them. -/
def leading (second : Rule) (burst parameter : String) (rest : List String) : Parameters where
  fields := [("burst", burst), (second.field, parameter)]
  remainder := rest
  applied := ["burst-keyword", second.name]

section

variable (burst : AhbBurst) (size : AhbSize) (rest : List String)

theorem takeFront_ahb : takeFront (Rule.table .ahb) (burst.name :: size.name :: rest) =
    leading .ahbSize burst.name size.name rest := by
  have first : Rule.ahbBurst.accepts burst.name = true :=
    congrArg Option.isSome (ahbBurst?_name burst)
  have second : Rule.ahbSize.accepts size.name = true :=
    congrArg Option.isSome (ahbSize?_name size)
  rw [Rule.table, takeFront, if_pos first, takeFront, if_pos second, takeFront]
  rfl

theorem takeAll_ahb : takeAll (Rule.table .ahb) [burst.name, size.name] =
    .ok (leading .ahbSize burst.name size.name []) := by
  have first : Rule.ahbBurst.accepts burst.name = true :=
    congrArg Option.isSome (ahbBurst?_name burst)
  have second : Rule.ahbSize.accepts size.name = true :=
    congrArg Option.isSome (ahbSize?_name size)
  rw [Rule.table, takeAll, if_pos first, takeAll, if_pos second, takeAll]
  rfl

theorem ahbKind_leading (otherwise : AhbBurst) :
    ahbKind (leading .ahbSize burst.name size.name rest) otherwise = burst :=
  congrArg (·.getD otherwise) (ahbBurst?_name burst)

theorem ahbSize_leading : ahbSize (leading .ahbSize burst.name size.name rest) = size :=
  congrArg (·.getD .word) (ahbSize?_name size)

end

section

variable (burst : AxiBurst) {length : Nat} (short : length ≤ 255) (rest : List String)

include short in
theorem takeFront_axi :
    takeFront (Rule.table .axi) (burst.name :: toString length :: rest) =
      leading .axiLength burst.name (toString length) rest := by
  have first : Rule.axiBurst.accepts burst.name = true :=
    congrArg Option.isSome (axiBurst?_name burst)
  have second : Rule.axiLength.accepts (toString length) = true :=
    looksLikeLength_toString short
  rw [Rule.table, takeFront, if_pos first, takeFront, if_pos second, takeFront]
  rfl

include short in
theorem takeAll_axi :
    takeAll (Rule.table .axi) [burst.name, toString length] =
      .ok (leading .axiLength burst.name (toString length) []) := by
  have first : Rule.axiBurst.accepts burst.name = true :=
    congrArg Option.isSome (axiBurst?_name burst)
  have second : Rule.axiLength.accepts (toString length) = true :=
    looksLikeLength_toString short
  rw [Rule.table, takeAll, if_pos first, takeAll, if_pos second, takeAll]
  rfl

theorem axiKind_leading :
    axiKind (leading .axiLength burst.name (toString length) rest) = burst :=
  congrArg (·.getD .incr) (axiBurst?_name burst)

include short in
theorem axiLengthOrOne_leading :
    axiLengthOrOne (leading .axiLength burst.name (toString length) rest) = .ok length :=
  axiLength_toString short

end

theorem checkGeometry_of_allows {form : Form} {burst : AxiBurst} {length : Nat}
    (legal : burst.Allows length) : checkGeometry form burst length = .ok () := by
  obtain ⟨-, wrap, fixed⟩ := legal
  unfold checkGeometry
  dsimp only
  have few : ¬(burst = .fixed ∧ 16 < length + 1) := by
    rintro ⟨kind, more⟩
    have := fixed kind
    omega
  rw [if_neg fun ⟨kind, other⟩ => other (wrap kind), if_neg few]

theorem checkBeats_of_carries {burst : AhbBurst} {beats : Nat} (legal : burst.Carries beats) :
    checkBeats burst beats = .ok () := by
  unfold checkBeats
  cases count : burst.beats? with
  | none => rfl
  | some needed =>
    dsimp only
    rw [if_neg (not_not_intro (legal.2 needed count))]
    rfl

/-! ## Transactions -/

section

variable {command : Command} {address : BitVec 32}

theorem oneArgument_of {first : String} {rest : List String}
    (given : command.arguments = first :: rest) : oneArgument command = .ok (first, rest) := by
  unfold oneArgument
  rw [given]

theorem addressAndMore_of {first second : String} {rest : List String}
    (given : command.arguments = first :: second :: rest) :
    addressAndMore command = .ok (first, second :: rest) := by
  unfold addressAndMore
  rw [given]
  rfl

theorem ahbWrite_written {data : BitVec 32} {burst : AhbBurst} {size : AhbSize}
    (given : command.arguments = [hex address, hex data, burst.name, size.name]) :
    ahbWrite command = .ok {
      operation := .write, address := address.toNat, burst := .ahb burst, width := 32
      size := some size, payload := some (.word data.toNat), line := command.line } := by
  unfold ahbWrite
  refine bind_eq_ok_iff.mpr ⟨_, twoArguments_eq_ok_iff.mpr given, ?_⟩
  refine bind_eq_ok_iff.mpr ⟨_, checked_eq_ok_iff.mpr (takeAll_ahb burst size), ?_⟩
  refine bind_eq_ok_iff.mpr ⟨_, address_hex address, ?_⟩
  refine bind_eq_ok_iff.mpr ⟨_, word_hex (by decide) data, ?_⟩
  rw [ahbKind_leading, ahbSize_leading]
  rfl

theorem ahbRead_written {burst : AhbBurst} {size : AhbSize} {expected : Option (BitVec 32)}
    (given : command.arguments =
      hex address :: burst.name :: size.name :: (expected.map hex).toList) :
    ahbRead command = .ok {
      operation := .read, address := address.toNat, burst := .ahb burst, width := 32
      size := some size, expected := expected.map fun word => .word word.toNat
      line := command.line } := by
  unfold ahbRead
  refine bind_eq_ok_iff.mpr ⟨_, oneArgument_of given, ?_⟩
  dsimp only
  rw [takeFront_ahb, ahbKind_leading, ahbSize_leading]
  cases expected with
  | none =>
    refine bind_eq_ok_iff.mpr ⟨none, rfl, ?_⟩
    exact bind_eq_ok_iff.mpr ⟨_, address_hex address, rfl⟩
  | some word =>
    refine bind_eq_ok_iff.mpr ⟨some word.toNat, ?_, ?_⟩
    · exact map_eq_ok_iff.mpr ⟨_, word_hex (by decide) word, rfl⟩
    · exact bind_eq_ok_iff.mpr ⟨_, address_hex address, rfl⟩

theorem length_values {width : Nat} (words : List (BitVec width)) :
    (values words).length = words.length :=
  List.length_map _

theorem burstData_hex {width : Nat} (digits : Hexadecimal width) {words : List (BitVec width)}
    (some : 0 < words.length) : burstData (words.map hex) width = .ok (values words) := by
  have present : words ≠ [] := List.ne_nil_of_length_pos some
  unfold burstData
  rw [if_neg (by simpa using present)]
  exact words_hex digits words

theorem ahbBurstWrite_written {burst : AhbBurst} {size : AhbSize} {data : List (BitVec 32)}
    (legal : burst.Carries data.length)
    (given : command.arguments = hex address :: burst.name :: size.name :: data.map hex) :
    ahbBurstWrite command = .ok {
      operation := .burstWrite, address := address.toNat, burst := .ahb burst, width := 32
      size := some size, length := data.length - 1, payload := some (.beats (values data))
      line := command.line } := by
  rw [ahbBurstWrite_eq]
  refine bind_eq_ok_iff.mpr ⟨_, addressAndMore_of given, ?_⟩
  dsimp only
  rw [takeFront_ahb, ahbKind_leading, ahbSize_leading]
  refine bind_eq_ok_iff.mpr ⟨_, burstData_hex (by decide) legal.1, ?_⟩
  rw [length_values]
  refine bind_eq_ok_iff.mpr ⟨_, checkBeats_of_carries legal, ?_⟩
  exact bind_eq_ok_iff.mpr ⟨_, address_hex address, rfl⟩

theorem expectation_values {width : Nat} {words : List (BitVec width)} (some : 0 < words.length) :
    expectation (values words) = .some (.beats (values words)) := by
  have present : values words ≠ [] := List.ne_nil_of_length_pos (length_values words ▸ some)
  unfold expectation
  rw [if_neg (by simpa using present)]

theorem ahbBurstRead_written {burst : AhbBurst} {size : AhbSize} {expected : List (BitVec 32)}
    (legal : burst.Carries expected.length)
    (given : command.arguments = hex address :: burst.name :: size.name :: expected.map hex) :
    ahbBurstRead command = .ok {
      operation := .burstRead, address := address.toNat, burst := .ahb burst, width := 32
      size := some size, length := expected.length - 1
      expected := some (.beats (values expected)), line := command.line } := by
  unfold ahbBurstRead
  refine bind_eq_ok_iff.mpr ⟨_, oneArgument_of given, ?_⟩
  dsimp only
  rw [takeFront_ahb, ahbKind_leading, ahbSize_leading]
  refine bind_eq_ok_iff.mpr ⟨_, words_hex (by decide) expected, ?_⟩
  have comparable : (if (values expected).isEmpty = true ∨ expected.length = expected.length
      then none else some (BeatMismatch.ahbRead expected.length expected.length)) = none :=
    if_pos (.inr rfl)
  rw [length_values, legal.beats_eq, comparable, expectation_values legal.1]
  exact bind_eq_ok_iff.mpr ⟨_, address_hex address, rfl⟩

variable {grammar : Grammar}

theorem axiWrite_written {data : BitVec grammar.axiWidth.bits} {burst : AxiBurst} {length : Nat}
    (legal : burst.Allows length)
    (given : command.arguments = [hex address, hex data, burst.name, toString length]) :
    axiWrite grammar command = .ok {
      operation := .write, address := address.toNat, burst := .axi burst
      width := grammar.axiWidth.bits, length, payload := some (.word data.toNat)
      line := command.line } := by
  unfold axiWrite
  refine bind_eq_ok_iff.mpr ⟨_, twoArguments_eq_ok_iff.mpr given, ?_⟩
  refine bind_eq_ok_iff.mpr ⟨_, checked_eq_ok_iff.mpr (takeAll_axi burst legal.1), ?_⟩
  rw [axiKind_leading]
  refine bind_eq_ok_iff.mpr ⟨_, axiLengthOrOne_leading burst legal.1 [], ?_⟩
  refine bind_eq_ok_iff.mpr ⟨_, checkGeometry_of_allows legal, ?_⟩
  refine bind_eq_ok_iff.mpr ⟨_, address_hex address, ?_⟩
  exact bind_eq_ok_iff.mpr ⟨_, word_hex (hexadecimal_bits _) data, rfl⟩

theorem axiRead_written (operation : Operation) {burst : AxiBurst} {length : Nat}
    {expected : Option (List (BitVec grammar.axiWidth.bits))} (legal : burst.Allows length)
    (fits : ∀ words, expected = some words → words.length = length + 1)
    (given : command.arguments =
      hex address :: burst.name :: toString length :: (expected.getD []).map hex) :
    axiRead grammar operation command = .ok {
      operation, address := address.toNat, burst := .axi burst
      width := grammar.axiWidth.bits, length
      expected := expected.map fun words => .beats (values words), line := command.line } := by
  unfold axiRead
  refine bind_eq_ok_iff.mpr ⟨_, oneArgument_of given, ?_⟩
  dsimp only
  rw [takeFront_axi burst legal.1, axiKind_leading]
  refine bind_eq_ok_iff.mpr ⟨_, axiLengthOrOne_leading burst legal.1 _, ?_⟩
  refine bind_eq_ok_iff.mpr ⟨_, checkGeometry_of_allows legal, ?_⟩
  refine bind_eq_ok_iff.mpr ⟨_, words_hex (hexadecimal_bits _) _, ?_⟩
  refine bind_eq_ok_iff.mpr ⟨_, address_hex address, ?_⟩
  cases expected with
  | none => rfl
  | some words =>
    have count := fits words rfl
    have comparable : (if (values words).isEmpty = true ∨ words.length = length + 1 then none
        else some (BeatMismatch.axiRead length words.length)) = none := if_pos (.inr count)
    rw [Option.getD_some, length_values, comparable, expectation_values (by omega)]
    rfl

theorem axiBurstWrite_written {burst : AxiBurst} {length : Nat}
    {data : List (BitVec grammar.axiWidth.bits)} (legal : burst.Allows length)
    (fits : data.length = length + 1)
    (given : command.arguments = hex address :: burst.name :: toString length :: data.map hex) :
    axiBurstWrite grammar command = .ok {
      operation := .burstWrite, address := address.toNat, burst := .axi burst
      width := grammar.axiWidth.bits, length, payload := some (.beats (values data))
      line := command.line } := by
  rw [axiBurstWrite_eq]
  refine bind_eq_ok_iff.mpr ⟨_, addressAndMore_of given, ?_⟩
  dsimp only
  rw [takeFront_axi burst legal.1, axiKind_leading]
  refine bind_eq_ok_iff.mpr ⟨_, burstData_hex (hexadecimal_bits _) (by omega), ?_⟩
  rw [length_values]
  refine bind_eq_ok_iff.mpr ⟨length, ?_, ?_⟩
  · refine bind_eq_ok_iff.mpr ⟨_, axiLength_toString legal.1, ?_⟩
    rw [if_neg (not_not_intro fits)]
    rfl
  · refine bind_eq_ok_iff.mpr ⟨_, checkGeometry_of_allows legal, ?_⟩
    exact bind_eq_ok_iff.mpr ⟨_, address_hex address, rfl⟩

/-! ## Waits and polls -/

theorem poll_written {bus : Bus} {expected mask : BitVec (grammar.width bus)} {limit : Nat}
    (some : 1 ≤ limit) (short : Countable limit)
    (given : command.arguments = [hex address, hex expected, hex mask, toString limit]) :
    grammar.poll bus command = .ok {
      bus, address := address.toNat, expected := expected.toNat, mask := mask.toNat
      maxPolls := .some limit, width := grammar.width bus, line := command.line } := by
  have digits := hexadecimal_width grammar bus
  rw [poll_eq]
  refine bind_eq_ok_iff.mpr ⟨_, twoArguments_eq_ok_iff.mpr given, ?_⟩
  refine bind_eq_ok_iff.mpr ⟨_, word_hex digits mask, ?_⟩
  refine bind_eq_ok_iff.mpr ⟨.some limit, ?_, ?_⟩
  · refine bind_eq_ok_iff.mpr ⟨limit, parseCount_toString _ short ?_, ?_⟩
    · intro most none
      cases none
    · rw [if_neg (by omega)]
      rfl
  · refine bind_eq_ok_iff.mpr ⟨_, address_hex address, ?_⟩
    exact bind_eq_ok_iff.mpr ⟨_, word_hex digits expected, rfl⟩

theorem wait_written {cycles : Nat} (short : Countable cycles)
    (given : command.arguments = [toString cycles]) :
    wait command = .ok { cycles, line := command.line } := by
  unfold wait
  rw [given]
  refine bind_eq_ok_iff.mpr ⟨_, parseCount_toString _ short ?_, rfl⟩
  intro most none
  cases none

end

/-! ## Commands -/

variable {grammar : Grammar}

theorem action_written {command : Written grammar} (legal : command.Legal) {request : Command}
    (form : request.form = command.form) (given : request.arguments = command.arguments) :
    grammar.action request = .ok (command.action request.line) := by
  unfold Grammar.action
  rw [form]
  cases command with
  | ahbWrite address data burst size =>
    exact map_eq_ok_iff.mpr ⟨_, ahbWrite_written given, rfl⟩
  | ahbRead address burst size expected =>
    exact map_eq_ok_iff.mpr ⟨_, ahbRead_written given, rfl⟩
  | ahbBurstWrite address burst size data =>
    exact map_eq_ok_iff.mpr ⟨_, ahbBurstWrite_written legal given, rfl⟩
  | ahbBurstRead address burst size expected =>
    exact map_eq_ok_iff.mpr ⟨_, ahbBurstRead_written legal given, rfl⟩
  | axiWrite address data burst length =>
    exact map_eq_ok_iff.mpr ⟨_, axiWrite_written legal given, rfl⟩
  | axiRead address burst length expected =>
    exact map_eq_ok_iff.mpr ⟨_, axiRead_written _ legal.1 legal.2 given, rfl⟩
  | axiBurstWrite address burst length data =>
    exact map_eq_ok_iff.mpr ⟨_, axiBurstWrite_written legal.1 legal.2 given, rfl⟩
  | axiBurstRead address burst length expected =>
    exact map_eq_ok_iff.mpr ⟨_, axiRead_written _ legal.1 legal.2 given, rfl⟩
  | poll bus address expected mask limit =>
    cases bus with
    | ahb => exact map_eq_ok_iff.mpr ⟨_, poll_written legal.1 legal.2 given, rfl⟩
    | axi => exact map_eq_ok_iff.mpr ⟨_, poll_written legal.1 legal.2 given, rfl⟩
  | wait cycles => exact map_eq_ok_iff.mpr ⟨_, wait_written legal given, rfl⟩

theorem ofTokens_keywords (form : Form) (rest : List String) :
    Form.ofTokens (form.protocol.name :: form.operation?.toList.map Operation.name ++ rest) =
      .ok form := by
  have protocol (p : Protocol) : named? Protocol.all Protocol.name p.name = some p := by
    rcases p with bus | - | -
    · cases bus <;> decide
    · decide
    · decide
  have operation (o : Operation) : named? Operation.all Operation.name o.name = some o := by
    cases o <;> decide
  rcases form with ⟨bus, named⟩ | - | -
  · show Form.ofTokens ((Protocol.bus bus).name :: named.name :: rest) = _
    simp only [Form.ofTokens, protocol, operation]
  · show Form.ofTokens (Protocol.wait.name :: rest) = _
    simp only [Form.ofTokens, protocol]
  · show Form.ofTokens (Protocol.preload.name :: rest) = _
    simp only [Form.ofTokens, protocol]

theorem arguments_written (command : Written grammar) (line : Option Int) :
    Command.arguments ⟨command.form, command.tokens, line⟩ = command.arguments := by
  unfold Command.arguments Written.tokens
  dsimp only
  rcases command.form with ⟨bus, operation⟩ | - | - <;> rfl

end Grammar

/-! ## Lines -/

theorem Written.form_ne_preload {grammar : Grammar} (command : Written grammar) :
    command.form ≠ .preload := by
  cases command <;> exact nofun

/-- The first word of a command with all its parameters is not the keyword of a preload in another
case. -/
theorem Written.head?_ne_preload {grammar : Grammar} {command : Written grammar}
    {tokens : List String} (letters : List.Forall₂ SameLetters tokens command.tokens) :
    tokens.head? ≠ some "PRELOAD" := by
  have keyword : ∀ form : Form, form ≠ .preload → ¬SameLetters "PRELOAD" form.protocol.name := by
    rintro (⟨bus, operation⟩ | - | -) other
    · cases bus with
      | ahb => exact (by decide : ¬SameLetters "PRELOAD" "AHB")
      | axi => exact (by decide : ¬SameLetters "PRELOAD" "AXI")
    · exact (by decide : ¬SameLetters "PRELOAD" "WAIT")
    · exact absurd rfl other
  obtain ⟨first, rest, same, -, rfl⟩ := List.forall₂_cons_right_iff.mp letters
  intro equal
  cases equal
  exact keyword command.form command.form_ne_preload same

/-- A legal command with all its parameters is read as the action of its values, from any line that
is laid out from its words in letters of either case. -/
theorem parse_written {grammar : Grammar} {command : Written grammar} (legal : command.Legal)
    (line : Option Int) {tokens : List String} {text : String}
    (letters : List.Forall₂ SameLetters tokens command.tokens)
    (laid : Laid (tokens.map String.toList) text.toList) :
    grammar.parse text line = .ok (command.action line) := by
  have same := Text.map_lower_eq letters
  have plain : Form.ofTokens command.tokens = .ok command.form :=
    Grammar.ofTokens_keywords command.form command.arguments
  have form : Form.ofTokens tokens = .ok command.form := by
    rw [← Grammar.ofTokens_lower, same, Grammar.ofTokens_lower]
    exact plain
  have action : grammar.action ⟨command.form, tokens, line⟩ = .ok (command.action line) := by
    rw [Grammar.action_eq_ok_iff_of_sameLetters grammar same command.form_ne_preload]
    exact Grammar.action_written legal rfl (Grammar.arguments_written command line)
  unfold Grammar.parse Command.ofTokens
  rw [tokenize_of_laid laid (Written.head?_ne_preload letters), form]
  dsimp only [Grammar.resolve]
  rw [action]
  rfl

/-- A burst write of two words, in letters of both cases and with wide gaps. -/
theorem parse_written_burst :
    Grammar.parse {} " ahb Burst_Write\t0x00001000  incr HalfWord 0x0000000a 0x0C000000" (some 7) =
      .ok (.transaction {
        operation := .burstWrite, address := 0x1000, burst := .ahb .incr, width := 32
        size := some .halfword, length := 1, payload := some (.beats [0xA, 0xC000000])
        line := some 7 }) := by
  let command : Written {} := .ahbBurstWrite 0x1000 .incr .halfword [0xA, 0xC000000]
  have legal : command.Legal := ⟨by decide, nofun⟩
  have letters : List.Forall₂ SameLetters
      ["ahb", "Burst_Write", "0x00001000", "incr", "HalfWord", "0x0000000a", "0x0C000000"]
      command.tokens := by
    have tokens : command.tokens =
        ["AHB", "BURST_WRITE", "0x00001000", "INCR", "HALFWORD", "0x0000000A", "0x0C000000"] := by
      decide +kernel
    rw [tokens]
    refine .cons ?_ (.cons ?_ (.cons ?_ (.cons ?_ (.cons ?_ (.cons ?_ (.cons ?_ .nil))))))
    all_goals decide
  exact parse_written legal (some 7) letters (laid_iff.mpr (by decide +kernel))

end BusScript
