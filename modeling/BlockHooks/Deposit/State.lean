/-
BlockHooks/Deposit/State.lean

What the deposit keeps in the store.

Two values are kept, each under its own key: the parameters, which are
never written unless they are valid, and the dust, the yield that was
accrued but not yet paid out.  Dust that was never written is zero.

A `Deposit` itself holds no state: it knows who may replace the parameters
and the three pools between which value moves.
-/
import BlockHooks.Deposit.Error
import BlockHooks.Log
import BlockHooks.Store.Typed

namespace BlockHooks

/-- The account of a module: its address follows from its name. -/
structure Pool where
  name : String
  address : Address
  address_eq : address = Address.ofModule name

/-- The pool of the module with the given name. -/
def Pool.ofName (name : String) : Pool := ⟨name, Address.ofModule name, rfl⟩

/-- The accounts between which a settlement moves value. -/
structure Pools where
  /-- Where yield comes from. -/
  yield : Pool
  /-- Where yield goes. -/
  deposit : Pool
  /-- Where unspent yield is returned to. -/
  community : Pool

/-- What the deposit knows of its host; its state is in the store. -/
structure Deposit where
  /-- Who may replace the parameters. -/
  authority : Address
  pools : Pools

namespace Deposit

/-- Where the parameters are kept. -/
def paramsItem : Item Params := ⟨utf8 "td/params", 1⟩

/-- Where the dust is kept. -/
def dustItem : Item Dec := ⟨utf8 "td/dust", 2⟩

variable {σ : Type} [KvStore σ]

/-- The parameters; an error if none were ever written. -/
def params : Action σ DepositError Params := do
  match ← paramsItem.load?.mapError .store with
  | some p => return p
  | none => throw .paramsNotFound

/-- Replaces the parameters by valid ones. -/
def setParams (p : Params) : Action σ DepositError Unit := do
  (Action.ofExcept p.validate).mapError .invalidParams
  (paramsItem.save p).mapError .store

/-- The dust; zero if none was ever written. -/
def dust : Action σ DepositError Dec := do
  return (← dustItem.load?.mapError .store).getD Dec.zero

/-- Replaces the dust. -/
def setDust (d : Dec) : Action σ DepositError Unit := (dustItem.save d).mapError .store

/-- Replaces the dust by zero. -/
def resetDust : Action σ DepositError Unit := setDust Dec.zero

/-- Adds to the dust and answers its new value. -/
def addToDust [LogSink σ] (amount : Dec) : Action σ DepositError Dec := do
  let total ← (Action.ofExcept ((← dust).add amount)).mapError .math
  setDust total
  log .trace s!"trust deposit: dust increased by {amount} to {total}"
  return total

end Deposit

end BlockHooks
