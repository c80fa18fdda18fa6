import BusScript.Proofs.Run.Rejection

/-!
# Calls of actions

What an action asks transactors and the clock for. A transaction makes one call on its own bus
(`Transaction.call?`), and carrying it out is that call and nothing else. A poll repeats one read,
with a wait before each read but the first.
-/

namespace BusScript

/-- The call that a transaction makes: a write hands over the data it brings, a single read on AHB
is one of a word, and every other read is one of a burst. -/
def Transaction.call? (t : Transaction) : Option BusCall :=
  match t.operation, t.bus, t.payload with
  | .write, _, some (.word word) => some (.write t.address word t.burst t.shape)
  | .burstWrite, _, some (.beats words) => some (.writeBurst t.address words t.burst t.shape)
  | .read, .ahb, none => some (.read t.address t.burst (.size t.size))
  | .read, .axi, none | .burstRead, _, none =>
    some (.readBurst t.address t.burst t.length (.size t.size))
  | _, _, _ => none

/-- What is observed in the answer to a call. -/
def BusCall.observed : (call : BusCall) → call.Reply → Option Data
  | .write .., _ => none
  | .read .., word => some (.word word)
  | .writeBurst .., _ => none
  | .readBurst .., words => some (.beats words)

namespace Transaction.WellFormed

variable {t : Transaction} {grammar : Grammar} {line : Option Int}

theorem call?_of_write (formed : t.WellFormed grammar line) (single : t.operation = .write) :
    t.call? = some (.write t.address t.payloadWord t.burst t.shape) := by
  have payload := formed.payload
  unfold PayloadFits at payload
  unfold call? payloadWord
  rw [single] at payload ⊢
  cases given : t.payload with
  | none => rw [given] at payload; exact payload.elim
  | some data =>
    cases data with
    | word word => rfl
    | beats words => rw [given] at payload; exact payload.elim

theorem call?_of_burstWrite (formed : t.WellFormed grammar line)
    (burst : t.operation = .burstWrite) :
    t.call? = some (.writeBurst t.address t.payloadBeats t.burst t.shape) := by
  have payload := formed.payload
  unfold PayloadFits at payload
  unfold call? payloadBeats
  rw [burst] at payload ⊢
  cases given : t.payload with
  | none => rw [given] at payload; exact payload.elim
  | some data =>
    cases data with
    | word word => rw [given] at payload; exact payload.elim
    | beats words => rfl

/-- A well-formed transaction makes one call, on its own bus. -/
theorem dispatch_eq (σ : Type) (formed : t.WellFormed grammar line) :
    ∃ call, t.call? = some call ∧ ∀ e : Engine σ, e.dispatch t = do
      let transactor ← e.transactor t.bus t.line
      let reply ← Run.ask (transactor call)
      return call.observed reply := by
  have payload := formed.payload
  unfold PayloadFits at payload
  cases operation : t.operation with
  | write =>
    refine ⟨_, formed.call?_of_write operation, fun e => ?_⟩
    rw [Engine.dispatch, operation]
    rfl
  | burstWrite =>
    refine ⟨_, formed.call?_of_burstWrite operation, fun e => ?_⟩
    rw [Engine.dispatch, operation]
    rfl
  | read =>
    rw [operation] at payload
    unfold call? Engine.dispatch
    rw [operation]
    cases given : t.payload with
    | some data => rw [given] at payload; exact payload.elim
    | none =>
      cases bus : t.bus with
      | ahb =>
        have shape : t.shape = .size t.size := by rw [Transaction.shape, bus]
        exact ⟨_, rfl, fun e => by rw [shape]; rfl⟩
      | axi => exact ⟨_, rfl, fun e => rfl⟩
  | burstRead =>
    rw [operation] at payload
    unfold call? Engine.dispatch
    rw [operation]
    cases given : t.payload with
    | some data => rw [given] at payload; exact payload.elim
    | none => exact ⟨_, rfl, fun e => rfl⟩
  | poll => rw [operation] at payload; exact payload.elim

end Transaction.WellFormed

/-- Waiting for no cycles asks for nothing. -/
def cyclesAsked (cycles : Nat) : List Asked :=
  if cycles = 0 then [] else [.cycles cycles]

/-- What a poll asks for that makes so many reads: one call over and over, with a wait between each
two. -/
def Poll.asked (p : Poll) (interval : Nat) : (reads : Nat) → List Asked
  | 0 => []
  | 1 => [.call p.bus p.readCall]
  | reads + 2 => .call p.bus p.readCall :: cyclesAsked interval ++ p.asked interval (reads + 1)

end BusScript
