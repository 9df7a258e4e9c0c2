/-
BlockHooks/Proofs/Bank.lean

What a ledger's bank answers.

A balance is read, and a transfer is made, in the bank alone; where either
is refused nothing changes.
-/
import BlockHooks.Ledger
import BlockHooks.Proofs.Frame

namespace BlockHooks

namespace Ledger

theorem run_balance (a : Address) (l : Ledger) :
    (Bank.balance a).run l =
      if l.bank.failingBalance then (.error (.unavailable "injected balance failure"), l)
      else (.ok (l.bank.balanceOf a), l) := by
  show (((Bank.balance a).run l.bank).1, { l with bank := ((Bank.balance a).run l.bank).2 }) = _
  simp only [Bank.balance, Action.run_ofRun]
  split <;> rfl

theorem keeps_balance {γ : Type} (obs : Ledger → γ) (a : Address) :
    Action.Keeps obs (Bank.balance a : Action Ledger BankError UInt64) := fun l => by
  rw [run_balance]
  split <;> rfl

theorem run_balance_eq_ok_iff {a : Address} {n : UInt64} {l l' : Ledger} :
    (Bank.balance a).run l = (.ok n, l') ↔
      l.bank.failingBalance = false ∧ l.bank.balanceOf a = n ∧ l = l' := by
  rw [run_balance]
  rcases l.bank.failingBalance with - | -
  · simp
  · simp

theorem run_send (sender receiver : Address) (amount : UInt64) (l : Ledger) :
    (Bank.send sender receiver amount).run l =
      match l.bank.transfer sender receiver amount with
      | .ok b => (.ok (), { l with bank := b })
      | .error e => (.error e, l) := by
  show (((Bank.send sender receiver amount).run l.bank).1,
    { l with bank := ((Bank.send sender receiver amount).run l.bank).2 }) = _
  simp only [Bank.send, Action.run_ofRun]
  rcases l.bank.transfer sender receiver amount with e | b <;> rfl

theorem run_send_eq_ok_iff {sender receiver : Address} {amount : UInt64} {l l' : Ledger} :
    (Bank.send sender receiver amount).run l = (.ok (), l') ↔
      ∃ b, l.bank.transfer sender receiver amount = .ok b ∧ { l with bank := b } = l' := by
  rw [run_send]
  rcases l.bank.transfer sender receiver amount with e | b
  · simp
  · simp

end Ledger

end BlockHooks
