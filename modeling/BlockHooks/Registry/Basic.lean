/-
BlockHooks/Registry/Basic.lean

The registry of validators.

A record is stored under its own index.  The registry asks of an operator
that its address carry a fixed first part; it keeps nothing else, all
records being in the store.

Whether an operator is listed is read from all records.  Where the records
cannot be read the operator counts as not listed, so that a broken store
lets nobody in.
-/
import BlockHooks.Event
import BlockHooks.Group.Page
import BlockHooks.Log
import BlockHooks.Registry.Validator
import BlockHooks.Store.Typed

namespace BlockHooks

/-- What the registry asks of the operators that join it. -/
structure Registry where
  /-- The first part of every operator's address. -/
  operatorPrefix : String
  deriving DecidableEq, Repr

/-- The request to register an operator under a member's id. -/
structure OnboardValidator where
  creator : Address
  memberId : String
  operator : Address
  nodePubkey : String
  termEnd : Int64
  deriving DecidableEq, Repr

/-- What is wrong with a request on its face. -/
def OnboardValidator.validate (msg : OnboardValidator) : Except RegistryError Unit := do
  msg.creator.validate.mapError .invalidCreator
  if msg.memberId.isEmpty then .error .emptyMemberId else .ok ()

/-- The record that a request leads to. -/
def OnboardValidator.record (msg : OnboardValidator) : Validator where
  index := msg.memberId
  memberId := msg.memberId
  operator := msg.operator
  consensusPubkey := msg.nodePubkey
  status := Validator.activeStatus
  termEnd := msg.termEnd

namespace Registry

/-- Where the records are kept, each under its index. -/
def validators : Collection Validator := ⟨utf8 "validator/value/", 1⟩

variable {σ : Type} [KvStore σ]

/-! ### Records -/

/-- Stores a record under its index. -/
def setValidator (v : Validator) : Action σ RegistryError Unit :=
  (validators.save v.index v).mapError .store

/-- Tells whether there is a record under an index. -/
def hasValidator (index : String) : Action σ RegistryError Bool :=
  (validators.has index).mapError .store

/-- Removes the record under an index, if there is one. -/
def removeValidator (index : String) : Action σ RegistryError Unit :=
  (validators.remove index).mapError .store

/-- The record under an index. -/
def validator (index : String) : Action σ RegistryError Validator := do
  match ← (validators.load? index).mapError .store with
  | some v => return v
  | none => throw (.notFound index)

/-- All records in ascending order of the bytes of their keys. -/
def allValidators : Action σ RegistryError (List Validator) := do
  return (← validators.entries.mapError .store).map (·.2)

/-- One page of all records. -/
def validatorPage (request : PageRequest) : Action σ RegistryError (Page Validator) := do
  if request.limit = 0 then throw .invalidPage
  else return Page.paginate (← allValidators) request

/-! ### The whitelist -/

/-- Tells whether a record names the operator. -/
def isListed (operator : Address) : Action σ RegistryError Bool := do
  return (← allValidators).any fun v => v.operator == operator

/-- `isListed`, and false where the records cannot be read. -/
def admits [LogSink σ] (operator : Address) : StateM σ Bool := do
  match ← Action.outcome (isListed operator) with
  | .ok listed => return listed
  | .error e =>
    report .warn
      s!"validator registry: whitelist lookup for {operator.text} failed: {e.message}"
    return false

/-! ### Onboarding -/

/-- The operator's address must be there and carry the registry's first part. -/
def checkOperator (r : Registry) (operator : Address) : Except RegistryError Unit :=
  if operator.text.isEmpty then .error .emptyOperatorAddress
  else
    (operator.validateWithPrefix r.operatorPrefix).mapError (.invalidOperatorAddress operator)

/-- Registers an operator under a member's id that is not taken. -/
def onboard [LogSink σ] (r : Registry) (msg : OnboardValidator) :
    Action σ RegistryError Event := do
  Action.ofExcept msg.validate
  if ← hasValidator msg.memberId then
    throw (.alreadyExists msg.memberId)
  else
    Action.ofExcept (r.checkOperator msg.operator)
    setValidator msg.record
    log .info
      s!"validator registry: onboarded {msg.operator.text} as member {msg.memberId}"
    return {
      kind := "validator_onboarded"
      attributes := [("index", msg.memberId), ("member_id", msg.memberId),
        ("operator_address", msg.operator.text)] }

end Registry

end BlockHooks
