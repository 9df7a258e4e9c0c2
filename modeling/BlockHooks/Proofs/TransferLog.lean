/-
BlockHooks/Proofs/TransferLog.lean

The record of transfers is a complete ledger.

A bank answers a transfer in one of two ways (`MemBank.run_send_cases`): it
has made it and recorded it, or it is the bank that it was.  So in any run of
transfers, of which some may be refused and between which the bank may begin
or cease to fail, the record grows by just the transfers that were made, in
their order.

Each of them takes from one account what it gives to another.  What every
account ends with can therefore be told from what it began with and from the
record alone, and the total supply is the same at the end
(`MemBank.record_accounts`).  Transfers from an account to itself are on both
sides of its sum.
-/
import Mathlib
import BlockHooks.Proofs.Transfers

namespace BlockHooks

/-! ### Sums over a record -/

namespace Transfer

/-- The sum of the amounts of the transfers that `q` holds of. -/
def volume (q : Transfer → Bool) (ts : List Transfer) : Nat :=
  ((ts.filter q).map fun t => t.amount.toNat).sum

/-- What `a` has paid. -/
def paidBy (a : Address) (ts : List Transfer) : Nat := volume (fun t => t.sender = a) ts

/-- What `a` was paid. -/
def receivedBy (a : Address) (ts : List Transfer) : Nat := volume (fun t => t.receiver = a) ts

variable (q : Transfer → Bool)

theorem volume_append (ts ts' : List Transfer) :
    volume q (ts ++ ts') = volume q ts + volume q ts' := by
  rw [volume, List.filter_append, List.map_append, List.sum_append]
  rfl

theorem volume_singleton (t : Transfer) : volume q [t] = if q t then t.amount.toNat else 0 := by
  rcases h : q t with - | -
  · rw [volume, List.filter_cons_of_neg (by simp [h])]
    rfl
  · rw [volume, List.filter_cons_of_pos h]
    rfl

end Transfer

/-! ### One call -/

/-- What may be asked of a bank, and what may begin or cease to fail in
between. -/
inductive BankCall where
  | send (sender receiver : Address) (amount : UInt64)
  /-- Whether balance reads and transfers fail from now on. -/
  | switches (failingBalance failingSend : Bool)

/-- The bank that a call leaves, whether it succeeds or fails. -/
def BankCall.perform (b : MemBank) : BankCall → MemBank
  | .send sender receiver amount => ((Bank.send sender receiver amount).run b).2
  | .switches failingBalance failingSend =>
    { b with failingBalance := failingBalance, failingSend := failingSend }

/-- The transfer that a call is answered to have made. -/
def BankCall.made (b : MemBank) : BankCall → List Transfer
  | .send sender receiver amount =>
    match ((Bank.send sender receiver amount).run b).1 with
    | .ok _ => [⟨sender, receiver, amount⟩]
    | .error _ => []
  | .switches _ _ => []

namespace MemBank

/-- A transfer is made, or nothing at all has happened. -/
theorem run_send_cases (b : MemBank) (sender receiver : Address) (amount : UInt64) :
    (∃ b', b.transfer sender receiver amount = .ok b' ∧
      (Bank.send sender receiver amount).run b = (.ok (), b')) ∨
    (∃ e, b.transfer sender receiver amount = .error e ∧
      (Bank.send sender receiver amount).run b = (.error e, b)) := by
  rcases h : b.transfer sender receiver amount with e | b'
  · refine .inr ⟨e, rfl, ?_⟩
    simp only [Bank.send, Action.run_ofRun, h]
  · refine .inl ⟨b', rfl, ?_⟩
    simp only [Bank.send, Action.run_ofRun, h]

theorem eq_of_run_send_error {b b' : MemBank} {sender receiver : Address} {amount : UInt64}
    {e : BankError} (h : (Bank.send sender receiver amount).run b = (.error e, b')) : b' = b := by
  rcases run_send_cases b sender receiver amount with ⟨_, -, hrun⟩ | ⟨_, -, hrun⟩
  · rw [hrun] at h
    cases h
  · rw [hrun] at h
    cases h
    rfl

theorem exists_run_send_iff {b : MemBank} {sender receiver : Address} {amount : UInt64} :
    (∃ b', (Bank.send sender receiver amount).run b = (.ok (), b')) ↔
      b.failingSend = false ∧ amount ≤ b.balanceOf sender ∧
        (sender ≠ receiver →
          (b.balanceOf receiver).toNat + amount.toNat < UInt64.size) := by
  rw [← exists_transfer_iff]
  rcases run_send_cases b sender receiver amount with ⟨b', hmade, hrun⟩ | ⟨e, hrefused, hrun⟩
  · exact iff_of_true ⟨b', hrun⟩ ⟨b', hmade⟩
  · rw [hrun, hrefused]
    exact iff_of_false (fun ⟨_, h⟩ => by cases h) fun ⟨_, h⟩ => by cases h

/-- What a call has done to the record, to the total and to every account. -/
structure Recorded (b : MemBank) (ts : List Transfer) (b' : MemBank) : Prop where
  transfers : b'.transfers = b.transfers ++ ts
  totalSupply : b'.totalSupply = b.totalSupply
  balance : ∀ a, (b'.balanceOf a).toNat + Transfer.paidBy a ts
    = (b.balanceOf a).toNat + Transfer.receivedBy a ts

theorem Recorded.refl (b : MemBank) : Recorded b [] b where
  transfers := (List.append_nil _).symm
  totalSupply := rfl
  balance _ := rfl

/-- What the second has done comes to what the first has done. -/
theorem Recorded.trans {b b₁ b' : MemBank} {ts ts' : List Transfer} (h : Recorded b ts b₁)
    (h' : Recorded b₁ ts' b') : Recorded b (ts ++ ts') b' where
  transfers := by
    rw [h'.transfers, h.transfers, List.append_assoc]
  totalSupply := h'.totalSupply.trans h.totalSupply
  balance a := by
    have hfirst := h.balance a
    have hsecond := h'.balance a
    simp only [Transfer.paidBy, Transfer.receivedBy] at hfirst hsecond ⊢
    rw [Transfer.volume_append, Transfer.volume_append]
    omega

theorem recorded_transfer {b b' : MemBank} {sender receiver : Address} {amount : UInt64}
    (h : b.transfer sender receiver amount = .ok b') :
    Recorded b [⟨sender, receiver, amount⟩] b' where
  transfers := transfers_transfer h
  totalSupply := totalSupply_transfer h
  balance a := by
    rw [Transfer.paidBy, Transfer.receivedBy, Transfer.volume_singleton,
      Transfer.volume_singleton]
    simpa only [decide_eq_true_eq] using balanceOf_transfer_add h a

theorem recorded_perform (b : MemBank) (c : BankCall) : Recorded b (c.made b) (c.perform b) := by
  cases c with
  | send sender receiver amount =>
    rcases run_send_cases b sender receiver amount with ⟨b', hmade, hrun⟩ | ⟨e, -, hrun⟩
    · rw [BankCall.made, BankCall.perform, hrun]
      exact recorded_transfer hmade
    · rw [BankCall.made, BankCall.perform, hrun]
      exact .refl b
  | switches failingBalance failingSend =>
    exact ⟨(List.append_nil _).symm, rfl, fun _ => rfl⟩

/-! ### Runs of calls -/

/-- The bank after calls. -/
def after (b : MemBank) : List BankCall → MemBank
  | [] => b
  | c :: cs => (c.perform b).after cs

/-- The transfers that calls are answered to have made, in their order. -/
def made (b : MemBank) : List BankCall → List Transfer
  | [] => []
  | c :: cs => c.made b ++ (c.perform b).made cs

theorem recorded_after (b : MemBank) (cs : List BankCall) :
    Recorded b (b.made cs) (b.after cs) := by
  induction cs generalizing b with
  | nil => exact .refl b
  | cons c cs ih => exact (recorded_perform b c).trans (ih (c.perform b))

/-- **The record of transfers is a complete ledger.**  Over any run of
transfers, refused ones included, the total supply stays what it was, and the
record grows by just the transfers that were answered to be made.  Every
account ends with what it had, less what it paid by the record, and what it
was paid.

Wherever a run has led to, a transfer that is refused changes nothing at all;
and it is refused only if transfers fail, if the sender does not cover it, or
if it would leave another account with more than a word. -/
theorem record_accounts (b : MemBank) (cs : List BankCall) :
    (b.after cs).totalSupply = b.totalSupply ∧
    (b.after cs).transfers = b.transfers ++ b.made cs ∧
    (∀ a, ((b.after cs).balanceOf a).toNat + Transfer.paidBy a (b.made cs)
      = (b.balanceOf a).toNat + Transfer.receivedBy a (b.made cs)) ∧
    (∀ sender receiver amount e b',
      (Bank.send sender receiver amount).run (b.after cs) = (.error e, b') → b' = b.after cs) ∧
    ∀ sender receiver amount,
      (∃ b', (Bank.send sender receiver amount).run (b.after cs) = (.ok (), b')) ↔
        (b.after cs).failingSend = false ∧ amount ≤ (b.after cs).balanceOf sender ∧
          (sender ≠ receiver →
            ((b.after cs).balanceOf receiver).toNat + amount.toNat < UInt64.size) := by
  have hrecorded := recorded_after b cs
  exact ⟨hrecorded.totalSupply, hrecorded.transfers, hrecorded.balance,
    fun _ _ _ _ _ => eq_of_run_send_error, fun _ _ _ => exists_run_send_iff⟩

end MemBank

namespace Scenario

/-! ### A run with refusals -/

/-- An account that can pay. -/
def payer : Address := ⟨"verana1payer"⟩

/-- An account that can be given nothing more. -/
def brim : Address := ⟨"verana1brim"⟩

/-- An account that the bank has not seen yet. -/
def newcomer : Address := ⟨"verana1newcomer"⟩

/-- One transfer is on record already. -/
def countingHouse : MemBank :=
  { (MemBank.empty.fund payer 500).fund brim 18446744073709551615 with
    transfers := [⟨brim, payer, 500⟩] }

/-- Of the seven transfers the third has no room, the fourth is not covered,
and the fifth is asked for while transfers fail. -/
def errands : List BankCall := [
  .send payer newcomer 200,
  .send newcomer newcomer 50,
  .send payer brim 1,
  .send newcomer payer 201,
  .switches false true,
  .send payer newcomer 10,
  .switches true false,
  .send newcomer brim 0,
  .send brim payer 7]

end Scenario

open Scenario in
/-- The payer has paid 200 and was paid 7, and what was on record before does
not count. -/
theorem MemBank.record_accounts_errands :
    countingHouse.made errands = [⟨payer, newcomer, 200⟩, ⟨newcomer, newcomer, 50⟩,
      ⟨newcomer, brim, 0⟩, ⟨brim, payer, 7⟩] ∧
    (countingHouse.after errands).transfers = ⟨brim, payer, 500⟩ ::
      countingHouse.made errands ∧
    (countingHouse.after errands).totalSupply = 18446744073709552115 ∧
    ((countingHouse.after errands).balanceOf payer).toNat = 307 ∧
    ((countingHouse.after errands).balanceOf newcomer).toNat = 200 ∧
    (∃ e, (Bank.send payer newcomer 308).run (countingHouse.after errands)
      = (.error e, countingHouse.after errands)) ∧
    ∃ b', (Bank.send payer brim 7).run (countingHouse.after errands) = (.ok (), b') := by
  obtain ⟨hsupply, hrecord, hbalance, hrefused, hmade⟩ := record_accounts countingHouse errands
  have hlog : countingHouse.made errands = [⟨payer, newcomer, 200⟩, ⟨newcomer, newcomer, 50⟩,
      ⟨newcomer, brim, 0⟩, ⟨brim, payer, 7⟩] := by
    decide +kernel
  have hstart : countingHouse.totalSupply = 18446744073709552115 := by
    decide +kernel
  have hpayer := hbalance payer
  have hnewcomer := hbalance newcomer
  rw [hlog] at hpayer hnewcomer
  have hheld : (countingHouse.balanceOf payer).toNat = 500 ∧
      (countingHouse.balanceOf newcomer).toNat = 0 := by
    decide +kernel
  rw [hheld.1] at hpayer
  rw [hheld.2] at hnewcomer
  refine ⟨hlog, hrecord, hsupply.trans hstart, Nat.add_right_cancel hpayer,
    Nat.add_right_cancel hnewcomer, ?_, (hmade payer brim 7).2 (by decide +kernel)⟩
  rcases hrun : (Bank.send payer newcomer 308).run (countingHouse.after errands) with ⟨e | ⟨⟩, b'⟩
  · rw [hrefused payer newcomer 308 e b' hrun]
    exact ⟨e, rfl⟩
  · have hcovered := ((hmade payer newcomer 308).1 ⟨b', hrun⟩).2.1
    exact absurd hcovered (by decide +kernel)

end BlockHooks
