/-
BlockHooks/Bank.lean

Balances of one denomination.

`Bank σ` is what the hooks ask of a bank kept in states `σ`: the balance of
an account and the transfer of an amount.  `MemBank` is the bank in memory:
a table of balances, in which an account that is not there holds nothing,
the list of all transfers it ever made, and two switches that make balance
reads or transfers fail.

A transfer first takes the amount from the sender and then gives it to the
receiver; if either is impossible nothing changes.  A transfer of an account
to itself changes no balance but is recorded like any other.
-/
import BlockHooks.Action
import BlockHooks.Address
import BlockHooks.Amount
import BlockHooks.Table

namespace BlockHooks

/-- Why a bank does not answer, or does not make a transfer. -/
inductive BankError where
  | insufficientFunds (address : Address) (balance required : UInt64)
  | overflow (address : Address)
  | unavailable (reason : String)
  deriving DecidableEq, Repr

/-- How an error of the bank is told. -/
def BankError.message : BankError → String
  | .insufficientFunds address balance required =>
    s!"insufficient funds in {address.text}: balance {balance}, required {required}"
  | .overflow address => s!"balance overflow crediting {address.text}"
  | .unavailable reason => s!"bank unavailable: {reason}"

/-- A bank kept in states `σ`, as far as the hooks use it: what an account
holds, and the transfer of an amount from one account to another. -/
class Bank (σ : Type) where
  balance : Address → Action σ BankError UInt64
  send : Address → Address → UInt64 → Action σ BankError Unit

/-- An amount that went from one account to another. -/
structure Transfer where
  sender : Address
  receiver : Address
  amount : UInt64
  deriving DecidableEq, Repr

/-- A bank in memory. -/
structure MemBank where
  balances : Table Address UInt64
  /-- All transfers made, oldest first. -/
  transfers : List Transfer
  /-- Balance reads fail while this is set. -/
  failingBalance : Bool
  /-- Transfers fail while this is set. -/
  failingSend : Bool

namespace MemBank

/-- The bank without accounts. -/
def empty : MemBank := ⟨Table.empty, [], false, false⟩

instance : Inhabited MemBank := ⟨empty⟩

/-- What an account holds. -/
def balanceOf (b : MemBank) (a : Address) : UInt64 := (b.balances.get? a).getD 0

/-- The bank in which an account holds `amount`, whatever it held before. -/
def setBalance (b : MemBank) (a : Address) (amount : UInt64) : MemBank :=
  { b with balances := b.balances.insert a amount }

/-- Mints `amount` into an account, up to the largest balance there is. -/
def fund (b : MemBank) (a : Address) (amount : UInt64) : MemBank :=
  b.setBalance a (addCapped (b.balanceOf a) amount)

/-- The sum of all balances. -/
def totalSupply (b : MemBank) : Nat := b.balances.values.foldr (fun n total => n.toNat + total) 0

/-- Writes the balances of a transfer of `amount`; none if they are not
possible. -/
def moveFunds (b : MemBank) (sender receiver : Address) (amount : UInt64) :
    Except BankError MemBank :=
  let held := b.balanceOf sender
  if held < amount then .error (.insufficientFunds sender held amount)
  else if sender = receiver then .ok b
  else
    match addChecked? (b.balanceOf receiver) amount with
    | none => .error (.overflow receiver)
    | some credited => .ok ((b.setBalance sender (held - amount)).setBalance receiver credited)

/-- Makes a transfer and records it. -/
def transfer (b : MemBank) (sender receiver : Address) (amount : UInt64) :
    Except BankError MemBank :=
  if b.failingSend then .error (.unavailable "injected send failure")
  else
    (b.moveFunds sender receiver amount).map fun b' =>
      { b' with transfers := b'.transfers ++ [⟨sender, receiver, amount⟩] }

instance : Bank MemBank where
  balance a := .ofRun fun b =>
    if b.failingBalance then (.error (.unavailable "injected balance failure"), b)
    else (.ok (b.balanceOf a), b)
  send sender receiver amount := .ofRun fun b =>
    match b.transfer sender receiver amount with
    | .ok b' => (.ok (), b')
    | .error e => (.error e, b)

end MemBank

end BlockHooks
