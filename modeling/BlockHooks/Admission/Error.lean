/-
BlockHooks/Admission/Error.lean

Why a transaction is turned away.

Every rejection carries a code, a number that the ledger's runtime shares
with its own stages, beside a text.
-/
import BlockHooks.Group.Keeper
import BlockHooks.Text.Instant

namespace BlockHooks

/-- The reasons for a rejection, by code. -/
inductive RejectCode where
  | internal
  | txDecode
  | unauthorized
  | insufficientFunds
  | insufficientFee
  | invalidRequest
  | wrongSequence
  deriving DecidableEq, Repr

namespace RejectCode

/-- All codes, by ascending number. -/
def all : List RejectCode :=
  [internal, txDecode, unauthorized, insufficientFunds, insufficientFee, invalidRequest,
    wrongSequence]

/-- The number of a code, which the stages of the host use as well. -/
def number : RejectCode → UInt32
  | internal => 1
  | txDecode => 2
  | unauthorized => 4
  | insufficientFunds => 5
  | insufficientFee => 13
  | invalidRequest => 18
  | wrongSequence => 32

/-- The name that a code is told by. -/
def name : RejectCode → String
  | internal => "Internal"
  | txDecode => "TxDecode"
  | unauthorized => "Unauthorized"
  | insufficientFunds => "InsufficientFunds"
  | insufficientFee => "InsufficientFee"
  | invalidRequest => "InvalidRequest"
  | wrongSequence => "WrongSequence"

/-- The code with the given number. -/
def ofNumber? (n : UInt32) : Option RejectCode := all.find? fun c => c.number == n

@[simp] theorem ofNumber?_number (c : RejectCode) : ofNumber? c.number = some c := by
  cases c <;> rfl

end RejectCode

/-- What a handler cannot be put together without. -/
inductive HandlerPart where
  | setupContext
  | validateBasic
  | groupKeeper
  | validatorWhitelist
  | deductFee
  | incrementSequence
  deriving DecidableEq, Repr

/-- What a part is called where it is told to be missing. -/
def HandlerPart.description : HandlerPart → String
  | .setupContext => "setup context decorator"
  | .validateBasic => "validate basic decorator"
  | .groupKeeper => "group keeper"
  | .validatorWhitelist => "validator whitelist"
  | .deductFee => "deduct fee decorator"
  | .incrementSequence => "increment sequence decorator"

/-- Why a transaction is not admitted: one of the gates or a stage of the host
rejects it, or there is no complete handler to ask. -/
inductive AdmissionError where
  | proposalLookup (id : UInt64) (source : GroupError)
  | premature (id : UInt64) (votingPeriodEnd blockTime : Int64)
  | notAccepted (id : UInt64) (status : ProposalStatus)
  | notWhitelisted (operator : Address)
  /-- A rejection by a stage that is not one of the gates. -/
  | external (code : RejectCode) (message : String)
  | missingPart (part : HandlerPart)
  deriving DecidableEq, Repr

namespace AdmissionError

/-- The code of a rejection.  A proposal that cannot be looked up makes a
request invalid; what a gate forbids is unauthorized. -/
def code : AdmissionError → RejectCode
  | proposalLookup _ _ => .invalidRequest
  | premature _ _ _ | notAccepted _ _ | notWhitelisted _ => .unauthorized
  | external code _ => code
  | missingPart _ => .internal

/-- How a rejection is told; a stage of the host brings its own words. -/
def message : AdmissionError → String
  | proposalLookup id source => s!"failed to get proposal {id}: {source.message}"
  | premature id votingPeriodEnd blockTime =>
    s!"proposal {id} cannot be executed yet: voting period ends at "
      ++ instantText votingPeriodEnd ++ ", current time is " ++ instantText blockTime
  | notAccepted id status =>
    s!"proposal {id} is not in ACCEPTED status (current: {status.name}); "
      ++ "only accepted proposals can be executed"
  | notWhitelisted operator =>
    s!"validator address {operator.text} is not authorized to create a validator"
  | external _ message => message
  | missingPart part => s!"{part.description} is required for the ante handler"

end AdmissionError

end BlockHooks
