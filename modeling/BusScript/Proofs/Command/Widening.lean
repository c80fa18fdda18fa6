import BusScript.Proofs.Command.WellFormed

/-!
# A wider bus

Grammars of two AXI widths take the same course on a line but for the words of AXI data, which the
wider one reads wherever the narrower one does. `Widens` relates a step under the narrower grammar
to the same step under the wider one: what the first gives the second gives too, and the second is
refused only where the first is. So nothing is lost by a wider bus (`parse_widened`).
-/

namespace BusScript

/-! ## Widened actions -/

/-- The transaction on an AXI bus of another width. -/
def Transaction.widened (width : Nat) (t : Transaction) : Transaction :=
  match t.bus with
  | .ahb => t
  | .axi => { t with width }

/-- The poll on an AXI bus of another width. A mask that is not stated has all the bits of the
width. -/
def Poll.widened (width : Nat) (masked : Bool) (p : Poll) : Poll :=
  match p.bus with
  | .ahb => p
  | .axi => { p with width, mask := if masked then p.mask else 2 ^ width - 1 }

/-- The action on an AXI bus of another width, the mask of a poll being stated or not. -/
def Action.widened (width : Nat) (masked : Bool) : Action → Action
  | .transaction t => .transaction (t.widened width)
  | .poll p => .poll (p.widened width masked)
  | action => action

theorem Transaction.widened_of_ahb {width : Nat} {t : Transaction} (ahb : t.bus = .ahb) :
    t.widened width = t := by
  rw [widened, ahb]

/-- The fifth token of a poll is its mask. -/
def statesMask (tokens : List String) : Bool :=
  tokens[4]?.isSome

/-- What is well formed at every width of the AXI bus is not on it. -/
theorem Transaction.bus_of_wellFormed {line : Option Int} {t : Transaction}
    (formed : ∀ grammar : Grammar, t.WellFormed grammar line) : t.bus = .ahb := by
  have narrow := (formed ⟨.w64, none⟩).width
  have wide := (formed ⟨.w128, none⟩).width
  rw [narrow] at wide
  cases bus : t.bus with
  | ahb => rfl
  | axi =>
    rw [bus] at wide
    exact absurd wide (by decide)

namespace Grammar

variable {α β γ δ : Type}

/-! ## Steps under two grammars -/

/-- The second step gives what the first gives, up to a relation, and it reads as long a count.
Where the first is refused, nothing is said of the second. -/
inductive Widens (R : α → β → Prop) : Resolving α → Resolving β → Prop
  | ok {a : α} {b : β} : R a b → Widens R (.ok a) (.ok b)
  | refused (error : ScriptError) (y : Resolving β) : Widens R (.error (.script error)) y
  | tooLong (digits : Nat) :
      Widens R (.error (.countTooLong digits)) (.error (.countTooLong digits))

namespace Widens

variable {R : α → β → Prop} {S : γ → δ → Prop}

theorem bind {x : Resolving α} {y : Resolving β} {f : α → Resolving γ} {g : β → Resolving δ}
    (first : Widens R x y) (later : ∀ a b, R a b → Widens S (f a) (g b)) :
    Widens S (x >>= f) (y >>= g) := by
  cases first with
  | ok related => exact later _ _ related
  | refused error => exact .refused error _
  | tooLong digits => exact .tooLong digits

/-- A step that both grammars share, with what is known of its value. -/
theorem kept {R : α → α → Prop} {x : Resolving α} (known : ∀ a, x = .ok a → R a a) :
    Widens R x x := by
  cases x with
  | ok a => exact .ok (known a rfl)
  | error fault =>
    cases fault with
    | script error => exact .refused error _
    | countTooLong digits => exact .tooLong digits

theorem same {x : Resolving α} : Widens Eq x x :=
  kept fun _ _ => rfl

/-- Steps that come to the same value are followed by steps on that value. -/
theorem next {x y : Resolving α} {f : α → Resolving γ} {g : α → Resolving δ}
    (first : Widens Eq x y) (later : ∀ a, Widens S (f a) (g a)) :
    Widens S (x >>= f) (y >>= g) := by
  apply first.bind
  intro a b equal
  rw [← equal]
  exact later a

theorem imp {T : α → β → Prop} {x : Resolving α} {y : Resolving β} (first : Widens R x y)
    (weaker : ∀ a b, R a b → T a b) : Widens T x y := by
  cases first with
  | ok related => exact .ok (weaker _ _ related)
  | refused error => exact .refused error _
  | tooLong digits => exact .tooLong digits

theorem map {x : Resolving α} {y : Resolving β} {f : α → γ} {g : β → δ} (first : Widens R x y)
    (later : ∀ a b, R a b → S (f a) (g b)) : Widens S (f <$> x) (g <$> y) := by
  cases first with
  | ok related => exact .ok (later _ _ related)
  | refused error => exact .refused error _
  | tooLong digits => exact .tooLong digits

theorem atLine {x : Resolving α} {y : Resolving β} (first : Widens R x y) (line : Option Int) :
    Widens R (x.mapError (·.atLine line)) (y.mapError (·.atLine line)) := by
  cases first with
  | ok related => exact .ok related
  | refused error => exact .refused _ _
  | tooLong digits => exact .tooLong digits

theorem exists_ok {x : Resolving α} {y : Resolving β} (widens : Widens R x y) {a : α}
    (given : x = .ok a) : ∃ b, y = .ok b ∧ R a b := by
  subst given
  cases widens with
  | ok related => exact ⟨_, rfl, related⟩

theorem exists_error {x : Resolving α} {y : Resolving β} (widens : Widens R x y)
    {fault : CommandFault} (failed : y = .error fault) : ∃ found, x = .error found := by
  subst failed
  cases widens with
  | refused error => exact ⟨_, rfl⟩
  | tooLong digits => exact ⟨_, rfl⟩

theorem exists_script {x : Resolving α} {y : Resolving β} (widens : Widens R x y)
    {error : ScriptError} (refused : y = .error (.script error)) :
    ∃ found, x = .error (.script found) := by
  subst refused
  cases widens with
  | refused error => exact ⟨_, rfl⟩

end Widens

/-! ## Words -/

section

variable {narrow wide : Nat}

/-- A wider field reads all words of a narrower one, and nothing is cut off from them. -/
theorem widens_word (more : narrow ≤ wide) (token : String) :
    Widens Eq (word token narrow) (word token wide) := by
  cases read : word token narrow with
  | ok value =>
    obtain ⟨n, digits, rfl⟩ := word_eq_ok_iff.mp read
    obtain ⟨some, fits, spelled⟩ := parseUnsigned_eq_ok_iff.mp digits
    have wider : parseUnsigned token wide = .ok n :=
      parseUnsigned_eq_ok_iff.mpr ⟨some, by omega, spelled⟩
    rw [word_eq_ok_iff.mpr ⟨n, wider, rfl⟩]
    exact .ok rfl
  | error fault =>
    cases fault with
    | script error => exact .refused error _
    | countTooLong digits => exact absurd read (contained_word digits)

theorem widens_words (more : narrow ≤ wide) (tokens : List String) :
    Widens Eq (words tokens narrow) (words tokens wide) := by
  unfold words
  induction tokens with
  | nil => exact .same
  | cons token rest ih =>
    rw [List.mapM_cons, List.mapM_cons]
    exact (widens_word more token).next fun value => ih.next fun values => .same

theorem widens_burstData (more : narrow ≤ wide) (tokens : List String) :
    Widens Eq (burstData tokens narrow) (burstData tokens wide) := by
  unfold burstData
  split
  · exact .same
  · exact widens_words more tokens

end

/-! ## Forms of the AXI bus -/

section

variable {narrow wide : Grammar} (more : narrow.axiWidth.bits ≤ wide.axiWidth.bits)
  (command : Command)

include more

theorem widens_axiWrite :
    Widens (fun t u => u = t.widened wide.axiWidth.bits) (axiWrite narrow command)
      (axiWrite wide command) := by
  unfold axiWrite
  refine Widens.same.next fun (target, data, rest) => Widens.same.next fun parameters => ?_
  refine Widens.same.next fun length => Widens.same.next fun _ => ?_
  refine Widens.same.next fun address => (widens_word more data).next fun payload => ?_
  exact .ok rfl

theorem widens_axiRead (operation : Operation) :
    Widens (fun t u => u = t.widened wide.axiWidth.bits) (axiRead narrow operation command)
      (axiRead wide operation command) := by
  unfold axiRead
  refine Widens.same.next fun (target, rest) => Widens.same.next fun length => ?_
  refine Widens.same.next fun _ => (widens_words more _).next fun expected => ?_
  refine Widens.same.next fun address => ?_
  exact .ok rfl

theorem widens_axiBurstWrite :
    Widens (fun t u => u = t.widened wide.axiWidth.bits) (axiBurstWrite narrow command)
      (axiBurstWrite wide command) := by
  rw [axiBurstWrite_eq, axiBurstWrite_eq]
  refine Widens.same.next fun (target, rest) => (widens_burstData more _).next fun data => ?_
  refine Widens.same.next fun length => Widens.same.next fun _ => ?_
  refine Widens.same.next fun address => ?_
  exact .ok rfl

/-! ## Polls -/

theorem width_le (bus : Bus) : narrow.width bus ≤ wide.width bus := by
  cases bus with
  | ahb => exact le_refl _
  | axi => exact more

/-- A mask that is stated is read by both grammars. One that is not stated has all bits of the
bus. -/
theorem widens_pollMask (bus : Bus) (given : Option String) :
    Widens (fun mask wider => bus = .ahb ∧ wider = mask ∨
        bus = .axi ∧ wider = if given.isSome then mask else 2 ^ wide.axiWidth.bits - 1)
      (pollMask narrow bus given) (pollMask wide bus given) := by
  cases bus with
  | ahb => exact .kept fun mask _ => .inl ⟨rfl, rfl⟩
  | axi =>
    cases given with
    | none => exact .ok (.inr ⟨rfl, rfl⟩)
    | some token => exact (widens_word more token).imp fun mask wider same => .inr ⟨rfl, same.symm⟩

theorem widens_poll (limit : narrow.maxPolls = wide.maxPolls) (bus : Bus)
    (onBus : command.form = .onBus bus .poll) :
    Widens (fun p q => q = p.widened wide.axiWidth.bits (statesMask command.tokens))
      (narrow.poll bus command) (wide.poll bus command) := by
  rw [poll_eq, poll_eq]
  refine Widens.bind (R := fun given other => given = other ∧ twoArguments command = .ok given)
    (.kept fun given read => ⟨rfl, read⟩) ?_
  intro (target, value, rest) _ ⟨equal, read⟩
  subst equal
  -- The keywords are two tokens, the target and the value two more.
  have masked : statesMask command.tokens = rest[0]?.isSome := by
    have arguments : command.tokens.drop 2 = target :: value :: rest := by
      have given := twoArguments_eq_ok_iff.mp read
      rwa [Command.arguments, onBus] at given
    rw [statesMask, ← List.getElem?_drop (i := 2) (j := 2), arguments]
    rfl
  dsimp only
  cases rest[2]? with
  | some extra => exact .refused _ _
  | none =>
    have limits : pollLimit narrow rest[1]? = pollLimit wide rest[1]? := by
      unfold pollLimit
      rw [limit]
    refine (widens_pollMask more bus rest[0]?).bind fun mask wider agree => ?_
    rw [limits, masked]
    refine Widens.same.next fun maxPolls => Widens.same.next fun address => ?_
    refine (widens_word (width_le more bus) value).next fun expected => ?_
    rcases agree with ⟨rfl, rfl⟩ | ⟨rfl, rfl⟩
    · exact .ok rfl
    · exact .ok rfl

/-! ## Commands -/

theorem widens_action (limit : narrow.maxPolls = wide.maxPolls) :
    Widens (fun a b => b = a.widened wide.axiWidth.bits (statesMask command.tokens))
      (narrow.action command) (wide.action command) := by
  have ahb {x : Resolving Transaction}
      (formed : ∀ t, x = .ok t → ∀ grammar : Grammar, t.WellFormed grammar command.line) :
      Widens (fun a b => b = a.widened wide.axiWidth.bits (statesMask command.tokens))
        (Action.transaction <$> x) (Action.transaction <$> x) := by
    refine .kept fun action success => ?_
    obtain ⟨t, made, rfl⟩ := map_eq_ok_iff.mp success
    have bus := Transaction.bus_of_wellFormed (formed t made)
    rw [Action.widened, Transaction.widened_of_ahb bus]
  have axi {x y : Resolving Transaction}
      (widens : Widens (fun t u => u = t.widened wide.axiWidth.bits) x y) :
      Widens (fun a b => b = a.widened wide.axiWidth.bits (statesMask command.tokens))
        (Action.transaction <$> x) (Action.transaction <$> y) :=
    widens.map fun _ _ => congrArg Action.transaction
  unfold action
  rcases form : command.form with ⟨bus, operation⟩ | - | -
  · cases operation with
    | write =>
      cases bus with
      | ahb => exact ahb fun t success _ => wellFormed_of_ahbWrite success
      | axi => exact axi (widens_axiWrite more command)
    | read =>
      cases bus with
      | ahb => exact ahb fun t success _ => wellFormed_of_ahbRead success
      | axi => exact axi (widens_axiRead more command .read)
    | burstWrite =>
      cases bus with
      | ahb => exact ahb fun t success _ => wellFormed_of_ahbBurstWrite success
      | axi => exact axi (widens_axiBurstWrite more command)
    | burstRead =>
      cases bus with
      | ahb => exact ahb fun t success _ => wellFormed_of_ahbBurstRead success
      | axi => exact axi (widens_axiRead more command .burstRead)
    | poll =>
      cases bus with
      | ahb => exact (widens_poll more command limit .ahb form).map fun _ _ => congrArg Action.poll
      | axi => exact (widens_poll more command limit .axi form).map fun _ _ => congrArg Action.poll
  · exact .kept fun action success => by
      obtain ⟨w, -, rfl⟩ := map_eq_ok_iff.mp success
      rfl
  · exact .kept fun action success => by
      obtain ⟨p, -, rfl⟩ := map_eq_ok_iff.mp success
      rfl

/-! ## Lines -/

theorem widens_parse (limit : narrow.maxPolls = wide.maxPolls) (text : String)
    (line : Option Int) :
    Widens (fun a b => b = a.widened wide.axiWidth.bits (statesMask (tokenize text)))
      (narrow.parse text line) (wide.parse text line) := by
  unfold parse Command.ofTokens
  cases Form.ofTokens (tokenize text) with
  | error cause => exact .refused _ _
  | ok form => exact (widens_action more ⟨form, tokenize text, line⟩ limit).atLine line

end

/-- A line that a 64-bit AXI bus reads is read on a 128-bit bus as the same action, of that width,
with all 128 bits in the mask of a poll that states none. What is refused on the 128-bit bus is
refused on the 64-bit bus, with a script error if it is one. -/
theorem parse_widened (limit : Option Int) (text : String) (line : Option Int) :
    (∀ action, parse ⟨.w64, limit⟩ text line = .ok action →
      parse ⟨.w128, limit⟩ text line = .ok (action.widened 128 (statesMask (tokenize text)))) ∧
    (∀ fault, parse ⟨.w128, limit⟩ text line = .error fault →
      ∃ found, parse ⟨.w64, limit⟩ text line = .error found) ∧
    ∀ error, parse ⟨.w128, limit⟩ text line = .error (.script error) →
      ∃ found, parse ⟨.w64, limit⟩ text line = .error (.script found) := by
  have more : AxiWidth.w64.bits ≤ AxiWidth.w128.bits := by decide
  have widens : Widens (fun a b => b = a.widened 128 (statesMask (tokenize text)))
      (parse ⟨.w64, limit⟩ text line) (parse ⟨.w128, limit⟩ text line) :=
    @widens_parse ⟨.w64, limit⟩ ⟨.w128, limit⟩ more rfl text line
  refine ⟨fun action read => ?_, fun fault => widens.exists_error, fun error =>
    widens.exists_script⟩
  obtain ⟨wider, read, rfl⟩ := widens.exists_ok read
  exact read

/-- A poll that states no mask compares all bits on either bus. A word of 33 digits is written on
neither. -/
theorem parse_widened_poll :
    (∃ p, parse ⟨.w64, none⟩ "AXI POLL 0x40 0x1" (some 2) = .ok (.poll p) ∧
      p.mask = 0xFFFFFFFFFFFFFFFF ∧
      parse ⟨.w128, none⟩ "AXI POLL 0x40 0x1" (some 2) =
        .ok (.poll { p with width := 128, mask := 2 ^ 128 - 1 })) ∧
    ∃ found, parse ⟨.w64, none⟩ "AXI WRITE 0 100000000000000000000000000000000" none =
      .error (.script found) := by
  have narrow : parse ⟨.w64, none⟩ "AXI POLL 0x40 0x1" (some 2) =
      .ok (.poll {
        bus := .axi, address := 0x40, expected := 1, mask := 0xFFFFFFFFFFFFFFFF
        maxPolls := none, width := 64, line := some 2 }) := by decide +kernel
  have refused : parse ⟨.w128, none⟩ "AXI WRITE 0 100000000000000000000000000000000" none =
      .error (.script { cause := .tooWide 128 "100000000000000000000000000000000" }) := by
    decide +kernel
  have unmasked : statesMask (tokenize "AXI POLL 0x40 0x1") = false := by decide +kernel
  have wide := (parse_widened none "AXI POLL 0x40 0x1" (some 2)).1 _ narrow
  rw [unmasked] at wide
  exact ⟨⟨_, narrow, rfl, wide⟩, (parse_widened none _ none).2.2 _ refused⟩

end Grammar

end BusScript
