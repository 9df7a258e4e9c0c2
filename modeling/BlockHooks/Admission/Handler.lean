/-
BlockHooks/Admission/Handler.lean

The admission of transactions.

A handler runs its stages in order.  The standard one sets up the context,
checks the transaction's form, lets the messages through the two gates,
deducts the fee and increments the sequence; it cannot be put together while
one of its parts is missing, and of several missing parts the first in this
order is told.
-/
import BlockHooks.Admission.Stage
import BlockHooks.Log

namespace BlockHooks

/-- What admits transactions: its stages, each of them around those behind it. -/
structure Handler (σ : Type) where
  stages : List (Stage σ)

/-- The parts of the standard handler. -/
structure HandlerParts (σ : Type) where
  setupContext : Option (Stage σ)
  validateBasic : Option (Stage σ)
  /-- Looks up a proposal. -/
  groupKeeper : Option (UInt64 → Action σ GroupError Proposal)
  /-- Tells whether an operator may create a validator. -/
  validatorWhitelist : Option (Address → StateM σ Bool)
  deductFee : Option (Stage σ)
  incrementSequence : Option (Stage σ)

namespace Handler

variable {σ : Type}

/-- The two gates as one stage: proposal timing, then the whitelist. -/
def gates (proposal : UInt64 → Action σ GroupError Proposal)
    (isListed : Address → StateM σ Bool) : Stage σ :=
  Stage.ofGates [Gate.proposalTiming proposal, Gate.whitelist isListed]

/-- The part, or the error that it is missing. -/
def require {α : Type} (part : HandlerPart) : Option α → Except AdmissionError α
  | some a => .ok a
  | none => .error (.missingPart part)

/-- Puts the standard handler together. -/
def ofParts (parts : HandlerParts σ) : Except AdmissionError (Handler σ) := do
  let setupContext ← require .setupContext parts.setupContext
  let validateBasic ← require .validateBasic parts.validateBasic
  let groupKeeper ← require .groupKeeper parts.groupKeeper
  let validatorWhitelist ← require .validatorWhitelist parts.validatorWhitelist
  let deductFee ← require .deductFee parts.deductFee
  let incrementSequence ← require .incrementSequence parts.incrementSequence
  return ⟨[setupContext, validateBasic, gates groupKeeper validatorWhitelist, deductFee,
    incrementSequence]⟩

/-- Runs a transaction through all stages and logs a rejection. -/
def handle [LogSink σ] (h : Handler σ) (context : TxContext) (tx : Tx) (simulate : Bool) :
    Action σ AdmissionError TxContext := do
  match ← Action.ofState (Action.outcome (Rest.ofStages h.stages context tx simulate)) with
  | .ok result => return result
  | .error e =>
    log .debug (s!"ante: rejected tx at height {context.block.height} with code "
      ++ s!"{e.code.number}: {e.message}")
    throw e

end Handler

end BlockHooks
