/-
BlockHooks/Admission/Stage.lean

Stages and the gates among them.

A `Stage` gets a transaction and what follows it, its `Rest`.  It may turn
the transaction away, answer by itself, or run the rest, as often as it
likes and with a context, a transaction and a flag of its own choosing.  The
rest of the last stage accepts the context as it is.

A `Gate` judges single messages.  Several gates make one stage in which each
message passes all gates before the next message is looked at
(`Stage.ofGates`); the first violating message thus decides.  A gate alone
is the case of one gate (`Stage.ofGate`).
-/
import BlockHooks.Admission.Error
import BlockHooks.Tx

namespace BlockHooks

/-- What runs after a stage. -/
abbrev Rest (σ : Type) := TxContext → Tx → Bool → Action σ AdmissionError TxContext

/-- A step of the admission: context, transaction, simulation flag, rest. -/
abbrev Stage (σ : Type) := TxContext → Tx → Bool → Rest σ → Action σ AdmissionError TxContext

/-- A judgement on one message in a context. -/
abbrev Gate (σ : Type) := TxContext → Msg → Action σ AdmissionError Unit

/-- A list of stages run in order. -/
def Rest.ofStages {σ : Type} : List (Stage σ) → Rest σ
  | [] => fun context _ _ => pure context
  | stage :: stages => fun context tx simulate => stage context tx simulate (ofStages stages)

namespace Gate

variable {σ : Type}

/-- Asks the gates about one message, in order. -/
def checkAll (gates : List (Gate σ)) (context : TxContext) (msg : Msg) :
    Action σ AdmissionError Unit :=
  match gates with
  | [] => pure ()
  | gate :: gates => do
    gate context msg
    checkAll gates context msg

/-- Asks all gates about each message in turn. -/
def checkMsgs (gates : List (Gate σ)) (context : TxContext) :
    List Msg → Action σ AdmissionError Unit
  | [] => pure ()
  | msg :: msgs => do
    checkAll gates context msg
    checkMsgs gates context msgs

/-- An execution must name a proposal that is known, whose voting period has
ended at the time of the block, and that was accepted. -/
def proposalTiming (proposal : UInt64 → Action σ GroupError Proposal) : Gate σ
  | context, .groupExec request => do
    let p ← (proposal request.proposalId).mapError (.proposalLookup request.proposalId)
    if context.block.time < p.votingPeriodEnd then
      throw (.premature request.proposalId p.votingPeriodEnd context.block.time)
    else if p.status ≠ .accepted then
      throw (.notAccepted request.proposalId p.status)
    else
      pure ()
  | _, _ => pure ()

/-- Only a listed operator may create a validator. -/
def whitelist (isListed : Address → StateM σ Bool) : Gate σ
  | _, .createValidator request => do
    if ← Action.ofState (isListed request.operator) then pure ()
    else throw (.notWhitelisted request.operator)
  | _, _ => pure ()

end Gate

namespace Stage

variable {σ : Type}

/-- Runs the rest once every message has passed every gate. -/
def ofGates (gates : List (Gate σ)) : Stage σ := fun context tx simulate rest => do
  Gate.checkMsgs gates context tx.msgs
  rest context tx simulate

/-- A gate that stands alone. -/
def ofGate (gate : Gate σ) : Stage σ := ofGates [gate]

/-- Forwards everything unchanged. -/
def passThrough : Stage σ := fun context tx simulate rest => rest context tx simulate

end Stage

end BlockHooks
