/-
BlockHooks/Proofs/Accrual.lean

Step one of a settlement, from what it needs to what it leaves.

Step one reads the parameters, the dust and at most one balance, makes at
most one transfer and then writes the dust.  Only the reads, the arithmetic
and the transfer can be refused: what could be read can be written as well.
So it succeeds exactly if the sum of dust and yield can be formed and paid
(`Accruable`, `exists_run_accrue_iff`), whatever else is wrong with the store
or the bank.

If it fails, the ledger is what it was (`atomic_accrue`).  If it succeeds,
the reported dust stands under its key, no other key has changed, and the
bank is another one exactly if a transfer is reported, by that transfer alone
(`Accrued`, `accrued_of_run`).
-/
import BlockHooks.Proofs.Deferral
import BlockHooks.Proofs.Halting

namespace BlockHooks

namespace MemBank

/-- `b'` is `b` after a transfer: it is recorded after all others, the sender
has paid the amount and the receiver was paid it, and the switches are what
they were. -/
structure Sent (b : MemBank) (t : Transfer) (b' : MemBank) : Prop where
  recorded : b'.transfers = b.transfers ++ [t]
  balances : ∀ a, (b'.balanceOf a).toNat + (if t.sender = a then t.amount.toNat else 0)
    = (b.balanceOf a).toNat + (if t.receiver = a then t.amount.toNat else 0)
  switches : b'.failingBalance = b.failingBalance ∧ b'.failingSend = b.failingSend

variable {b b' : MemBank}

theorem sent_of_transfer {sender receiver : Address} {amount : UInt64}
    (h : b.transfer sender receiver amount = .ok b') : b.Sent ⟨sender, receiver, amount⟩ b' where
  recorded := transfers_transfer h
  balances := balanceOf_transfer_add h
  switches := switches_transfer h

/-- Even a transfer that moves nothing is recorded. -/
theorem Sent.bank_ne {t : Transfer} (h : b.Sent t b') : b' ≠ b := by
  intro hsame
  have hlength := congrArg List.length h.recorded
  rw [hsame, List.length_append, List.length_singleton] at hlength
  omega

end MemBank

namespace Deposit

variable {d : Deposit} {block : BlockContext} {l l' : Ledger}

/-! ### What step one needs -/

/-- Parameters and dust can be read, the yield of the block and its sum with
the dust are decimals, and the sum can stay, be paid or be put off. -/
def Accruable (d : Deposit) (l : Ledger) : Prop :=
  ∃ p earned carried total, l.params = .ok p ∧ p.perBlockYield = .ok earned ∧
    l.dust = .ok carried ∧ carried.add earned = .ok total ∧
    ∃ t rest b, Payment d.pools total l.bank t rest b

/-- A payment that is possible is made. -/
theorem exists_run_payYield (block : BlockContext) {total rest : Dec} {t : YieldTransfer} {b : MemBank}
    (hworks : l.Working) (hone : ¬ total.raw < Dec.one.raw)
    (hpayment : Payment d.pools total l.bank t rest b) :
    ∃ paid l', (d.payYield block total).run l = (.ok paid, l') := by
  have hbalance (hreads : l.bank.failingBalance = false) :
      ((Bank.balance d.pools.yield.address).mapError DepositError.bank).run l
        = (.ok (l.bank.balanceOf d.pools.yield.address), l) :=
    Action.run_mapError_eq_ok_iff.2 (Ledger.run_balance_eq_ok_iff.2 ⟨hreads, rfl, rfl⟩)
  rw [payYield]
  -- the payment says which branch is taken, and each of them ends with the dust
  cases hpayment with
  | accrued hsmall => exact absurd hsmall hone
  | @transferred amount _ _ hamount hreads hcovered hsend =>
    have hsent : ((Bank.send d.pools.yield.address d.pools.deposit.address amount).mapError
        DepositError.bank).run l = (.ok (), { l with bank := b }) :=
      Action.run_mapError_eq_ok_iff.2 (Ledger.run_send_eq_ok_iff.2 ⟨b, hsend, rfl⟩)
    rw [Action.run_bind_ok (run_math_ok hamount l), Action.run_bind_ok (hbalance hreads),
      if_neg (UInt64.not_lt.2 hcovered), Action.run_bind_ok hsent]
    exact succeeds_setDust_then _ _ _ _ { l with bank := b } hworks
  | deferred _ hamount hreads hshort =>
    rw [Action.run_bind_ok (run_math_ok hamount l), Action.run_bind_ok (hbalance hreads),
      if_pos hshort]
    exact succeeds_setDust_then _ _ _ _ l hworks

/-- Step one succeeds exactly if what it needs is there. -/
theorem exists_run_accrue_iff :
    (∃ a l', (d.accrue block).run l = (.ok a, l')) ↔ d.Accruable l := by
  constructor
  · rintro ⟨a, l', h⟩
    obtain ⟨p, carried, total, b, hp, hearned, hcarried, htotal, hpayment, -⟩ := accrue_ok_inv h
    exact ⟨p, _, carried, total, hp, hearned, hcarried, htotal, _, _, b, hpayment⟩
  · rintro ⟨p, earned, carried, total, hp, hearned, hcarried, htotal, t, rest, b, hpayment⟩
    have hworks := working_of_params hp
    rw [accrue, Action.run_bind_ok (run_params_of_ok hp),
      Action.run_bind_ok (run_math_ok hearned l), Action.run_bind_ok (run_dust_of_ok hcarried),
      Action.run_bind_ok (run_math_ok htotal l)]
    split
    next => exact succeeds_setDust_then _ _ _ _ l hworks
    next hone =>
      obtain ⟨paid, l', hpay⟩ := exists_run_payYield block hworks hone hpayment
      rw [Action.run_bind_ok hpay]
      exact ⟨_, l', rfl⟩

/-! ### What step one leaves -/

/-- What `l` has become by a step one that reports `a`. -/
structure Accrued (pools : Pools) (a : Accrual) (l l' : Ledger) : Prop where
  /-- Under the key of the dust stands what the reported dust is written as. -/
  written : ∃ bs, Stored.encode dustItem.key dustItem.discriminator a.dust = .ok bs ∧
    l'.store.entries.get? dustItem.key = some bs
  dust : l'.dust = .ok a.dust
  others : ∀ key, key ≠ dustItem.key → l'.store.entries.get? key = l.store.entries.get? key
  failing : l'.store.failing = l.store.failing
  bank_ne_iff : l'.bank ≠ l.bank ↔ ∃ amount, a.transfer = .transferred amount
  sent : ∀ amount, a.transfer = .transferred amount →
    l.bank.Sent ⟨pools.yield.address, pools.deposit.address, amount⟩ l'.bank
  groups : l'.groups = l.groups

/-- A payment changes the bank by the transfer that is reported, if one is. -/
theorem Payment.sent {pools : Pools} {total rest : Dec} {t : YieldTransfer} {b b' : MemBank}
    (h : Payment pools total b t rest b') :
    (b' ≠ b ↔ ∃ amount, t = .transferred amount) ∧
      ∀ amount, t = .transferred amount →
        b.Sent ⟨pools.yield.address, pools.deposit.address, amount⟩ b' := by
  -- the two payments that leave the bank alone
  have hkept (t : YieldTransfer) (hnone : ∀ amount, t ≠ .transferred amount) :
      (b ≠ b ↔ ∃ amount, t = .transferred amount) ∧ ∀ amount, t = .transferred amount →
        b.Sent ⟨pools.yield.address, pools.deposit.address, amount⟩ b := by
    refine ⟨iff_of_false (fun hne => hne rfl) ?_, fun amount h => absurd h (hnone amount)⟩
    rintro ⟨amount, h⟩
    exact hnone amount h
  cases h with
  | accrued =>
    refine hkept _ fun amount h => ?_
    cases h
  | deferred =>
    refine hkept _ fun amount h => ?_
    cases h
  | transferred hone hamount hreads hcovered hsend =>
    have hsent := MemBank.sent_of_transfer hsend
    refine ⟨iff_of_true hsent.bank_ne ⟨_, rfl⟩, ?_⟩
    intro amount h
    cases h
    exact hsent

theorem accrued_of_run {a : Accrual} (h : (d.accrue block).run l = (.ok a, l')) :
    Accrued d.pools a l l' := by
  obtain ⟨p, carried, total, b, -, -, -, -, hpayment, hset⟩ := accrue_ok_inv h
  obtain ⟨hchanged, hsent⟩ := hpayment.sent
  have hread := dust_of_setDust hset
  -- the last write is the only one to the store
  obtain ⟨hworks, bs, hencode, rfl⟩ :=
    dustItem.run_save_eq_ok_iff.1 (run_setDust_eq_ok_iff.1 hset)
  exact {
    written := ⟨bs, hencode, by rw [MemStore.get?_put, if_pos rfl]⟩
    dust := hread
    others := fun key hkey => by rw [MemStore.get?_put, if_neg hkey]
    failing := rfl
    bank_ne_iff := hchanged
    sent := hsent
    groups := rfl }

/-- **Step one is all or nothing**, on every ledger: whatever bytes stand in
the store, whatever accounts hold, and whichever switches are set to fail.  If
it fails, nothing has changed.  If it succeeds, the reported dust stands under
its key, no other key has changed, and the bank has changed exactly if a
transfer is reported, by that transfer.  It succeeds exactly if what it needs
is there. -/
theorem accrue_all_or_nothing (d : Deposit) (block : BlockContext) (l : Ledger) :
    (∀ e l', (d.accrue block).run l = (.error e, l') → l' = l) ∧
      (∀ a l', (d.accrue block).run l = (.ok a, l') → Accrued d.pools a l l') ∧
      ((∃ a l', (d.accrue block).run l = (.ok a, l')) ↔ d.Accruable l) := by
  refine ⟨?_, fun a l' h => accrued_of_run h, exists_run_accrue_iff⟩
  intro e l' h
  exact atomic_accrue d block l trivial e l' h

end Deposit

namespace Scenario

/-- The yield is there, but no transfer is made. -/
def refusing : Ledger :=
  { funded quarter 10 with bank := { (funded quarter 10).bank with failingSend := true } }

end Scenario

open Scenario in
/-- Where the transfer is refused the dust of the block is not written either;
where it is made, both have happened. -/
theorem Deposit.accrue_all_or_nothing_refusing :
    (∃ l', (deposit.accrue ⟨1, 1700000005⟩).run refusing
      = (.error (.bank (.unavailable "injected send failure")), l') ∧ l' = refusing) ∧
    ∃ a l', (deposit.accrue ⟨1, 1700000005⟩).run (funded quarter 10) = (.ok a, l') ∧
      a.transfer = .transferred 1 ∧ l'.dust = .ok a.dust ∧
      l'.bank.transfers = [⟨deposit.pools.yield.address, deposit.pools.deposit.address, 1⟩] := by
  have hrefused : ((deposit.accrue ⟨1, 1700000005⟩).run refusing).1
      = .error (.bank (.unavailable "injected send failure")) := by
    decide +kernel
  have hpaid : ((deposit.accrue ⟨1, 1700000005⟩).run (funded quarter 10)).1
      = .ok ⟨⟨1500000000000000000, by decide⟩, .transferred 1,
        ⟨750000000000000000, by decide⟩⟩ := by
    decide +kernel
  obtain ⟨hkept, -, -⟩ := accrue_all_or_nothing deposit ⟨1, 1700000005⟩ refusing
  obtain ⟨-, hdone, -⟩ := accrue_all_or_nothing deposit ⟨1, 1700000005⟩ (funded quarter 10)
  constructor
  · rcases hrun : (deposit.accrue ⟨1, 1700000005⟩).run refusing with ⟨r, l'⟩
    rw [hrun] at hrefused
    subst hrefused
    exact ⟨l', rfl, hkept _ l' hrun⟩
  · rcases hrun : (deposit.accrue ⟨1, 1700000005⟩).run (funded quarter 10) with ⟨r, l'⟩
    rw [hrun] at hpaid
    subst hpaid
    have haccrued := hdone _ l' hrun
    exact ⟨_, l', rfl, rfl, haccrued.dust, (haccrued.sent 1 rfl).recorded⟩

end BlockHooks
