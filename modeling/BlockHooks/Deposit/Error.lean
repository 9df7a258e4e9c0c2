/-
BlockHooks/Deposit/Error.lean

What can go wrong with deposit and settlement.  Raised while a block is
settled, any of these errors aborts the block.
-/
import BlockHooks.Bank
import BlockHooks.Deposit.Params
import BlockHooks.Store.Encoding

namespace BlockHooks

/-- Why a settlement or a message to the deposit fails.  The errors of the
store, the bank and the arithmetic are handed on as causes. -/
inductive DepositError where
  | paramsNotFound
  | invalidParams (cause : ParamsError)
  | store (cause : StoreError)
  | bank (cause : BankError)
  | math (cause : DecimalError)
  | invalidAddress (cause : AddressError)
  | invalidAuthority (expected got : Address)
  | emptyModuleName
  | zeroAmount
  deriving DecidableEq

/-- How an error of the deposit is told, with the words of its cause. -/
def DepositError.message : DepositError → String
  | .paramsNotFound => "trust deposit params are not set"
  | .invalidParams cause => s!"invalid trust deposit params: {cause.message}"
  | .store cause => s!"store error: {cause.message}"
  | .bank cause => s!"bank error: {cause.message}"
  | .math cause => s!"arithmetic error: {cause.message}"
  | .invalidAddress cause => s!"invalid address: {cause.message}"
  | .invalidAuthority expected got =>
    s!"invalid authority: expected {expected.text}, got {got.text}"
  | .emptyModuleName => "module name must not be empty"
  | .zeroAmount => "amount must be greater than zero"

end BlockHooks
