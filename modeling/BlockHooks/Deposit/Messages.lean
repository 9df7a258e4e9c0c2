/-
BlockHooks/Deposit/Messages.lean

Messages to the deposit.

Anyone may fund the account of a module.  Whoever funds the deposit's own
module also raises the principal that earns yield; the new principal is
worked out before any funds move.  Only the authority may replace the
parameters.
-/
import BlockHooks.Deposit.State
import BlockHooks.Event

namespace BlockHooks

/-- The request to move `amount` into the account of a module. -/
structure FundModule where
  creator : Address
  moduleName : String
  amount : UInt64
  deriving DecidableEq, Repr

/-- The request to replace the parameters. -/
structure UpdateParams where
  authority : Address
  params : Params
  deriving DecidableEq

/-- What is wrong with a funding request on its face. -/
def FundModule.validate (msg : FundModule) : Except DepositError Unit := do
  msg.creator.validate.mapError .invalidAddress
  if msg.moduleName.isEmpty then .error .emptyModuleName
  else if msg.amount = 0 then .error .zeroAmount
  else .ok ()

/-- The parameters with the principal raised by `amount`, if that fits. -/
def Params.raise (p : Params) (amount : UInt64) : Except DepositError Params :=
  match addChecked? p.trustDepositValue amount with
  | some value => .ok { p with trustDepositValue := value }
  | none => .error (.math .overflow)

namespace Deposit

variable {σ : Type} [KvStore σ]

/-- The parameters that a funding request leads to; none if it is for
another module. -/
def raisedParams (d : Deposit) (msg : FundModule) : Action σ DepositError (Option Params) := do
  if msg.moduleName = d.pools.deposit.name then
    return some (← .ofExcept ((← params).raise msg.amount))
  else
    return none

/-- Grants a request to fund: the new principal is worked out, then the transfer
is made, then the principal is written. -/
def fundModule [Bank σ] [LogSink σ] (d : Deposit) (msg : FundModule) :
    Action σ DepositError Event := do
  Action.ofExcept msg.validate
  let raised ← d.raisedParams msg
  (Bank.send msg.creator (.ofModule msg.moduleName) msg.amount).mapError .bank
  match raised with
  | some p => setParams p
  | none => pure ()
  log .info
    s!"trust deposit: {msg.creator.text} funded module {msg.moduleName} with {msg.amount}"
  return {
    kind := "fund_module"
    attributes := [("creator", msg.creator.text), ("module", msg.moduleName),
      ("amount", toString msg.amount)] }

/-- Replaces the parameters for the authority, and for nobody else. -/
def updateParams [LogSink σ] (d : Deposit) (msg : UpdateParams) :
    Action σ DepositError Unit := do
  if msg.authority ≠ d.authority then
    throw (.invalidAuthority d.authority msg.authority)
  else
    setParams msg.params
    log .info s!"trust deposit: params updated to {msg.params.describe}"

end Deposit

end BlockHooks
