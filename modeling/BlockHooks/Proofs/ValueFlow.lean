/-
BlockHooks/Proofs/ValueFlow.lean

Where the value goes in a block.

A payment moves an amount from one account to another, and moves nothing if
the amount is zero (`MemBank.Paid`).  A settlement that succeeds makes two of
them.  Step one pays the yield pool's debt to the deposit pool if the pool
holds all the whole units that are due (`Deposit.Payment.paid`); step two pays
what the pool still holds to the community pool (`Deposit.sweep_ok_inv`).

So, if the three pools are different accounts, the sum of dust and yield and
the balance of the yield pool decide everything else: what is reported, what
stays as dust, what every account holds afterwards and which transfers are
recorded (`Deposit.Reported`, `Deposit.Moved`, `Deposit.settle_value_flow`).
-/
import BlockHooks.Proofs.Deferral
import BlockHooks.Proofs.Transfers

namespace BlockHooks

/-! ### Payments -/

namespace MemBank

/-- `amount` went from one account to another; nothing is not transferred. -/
inductive Paid (b : MemBank) (sender receiver : Address) : UInt64 → MemBank → Prop
  | nothing : Paid b sender receiver 0 b
  | made {amount b'} : amount ≠ 0 → b.transfer sender receiver amount = .ok b' →
      Paid b sender receiver amount b'

namespace Paid

variable {b b' : MemBank} {sender receiver : Address} {amount : UInt64}

theorem balanceOf_sender (h : b.Paid sender receiver amount b') (hne : sender ≠ receiver) :
    (b'.balanceOf sender).toNat + amount.toNat = (b.balanceOf sender).toNat := by
  cases h with
  | nothing => rfl
  | made _ hsend => exact (balanceOf_transfer hsend hne).1

theorem balanceOf_receiver (h : b.Paid sender receiver amount b') (hne : sender ≠ receiver) :
    (b'.balanceOf receiver).toNat = (b.balanceOf receiver).toNat + amount.toNat := by
  cases h with
  | nothing => rfl
  | made _ hsend => exact (balanceOf_transfer hsend hne).2

theorem balanceOf_of_ne {a : Address} (h : b.Paid sender receiver amount b')
    (hsender : a ≠ sender) (hreceiver : a ≠ receiver) : b'.balanceOf a = b.balanceOf a := by
  cases h with
  | nothing => rfl
  | made _ hsend => exact balanceOf_transfer_of_ne hsend hsender hreceiver

theorem totalSupply (h : b.Paid sender receiver amount b') : b'.totalSupply = b.totalSupply := by
  cases h with
  | nothing => rfl
  | made _ hsend => exact totalSupply_transfer hsend

/-- Only what is not zero is recorded. -/
theorem transfers (h : b.Paid sender receiver amount b') :
    b'.transfers = b.transfers ++ [⟨sender, receiver, amount⟩].filter (·.amount != 0) := by
  cases h with
  | nothing => exact (List.append_nil _).symm
  | made hamount hsend =>
    have hkept : (amount != 0) = true := bne_iff_ne.2 hamount
    rw [transfers_transfer hsend, List.filter_singleton, hkept]
    rfl

end Paid

end MemBank

theorem Dec.one_le_whole_iff {a : Dec} : 1 ≤ a.whole ↔ Dec.one.raw ≤ a.raw := by
  rw [Dec.whole, Nat.le_div_iff_mul_le Dec.scale_pos, Nat.one_mul]
  rfl

namespace Deposit

/-! ### What is reported -/

/-- What is reported, and what is left as dust, if `total` is owed and the yield
pool holds `held`.  Due are the whole units of `total`. -/
structure Reported (total : Dec) (held : UInt64) (r : SettlementReport) : Prop where
  due_lt : total.whole < UInt64.size
  transferred_iff : r.transfer = .transferred (.ofNat total.whole) ↔
    1 ≤ total.whole ∧ total.whole ≤ held.toNat
  deferred_iff : r.transfer = .deferred (.ofNat total.whole) held ↔
    1 ≤ total.whole ∧ held.toNat < total.whole
  accrued_iff : r.transfer = .accrued ↔ total.whole = 0
  dust_raw : r.dust.raw =
    if 1 ≤ total.whole ∧ total.whole ≤ held.toNat then total.raw - total.whole * Dec.scale
    else total.raw

section

variable {pools : Pools} {total : Dec} {b b' : MemBank} {r : SettlementReport}

theorem Payment.reported (h : Payment pools total b r.transfer r.dust b') :
    Reported total (b.balanceOf pools.yield.address) r := by
  -- a word is answered for the units due only if it is their number
  have hword : ∀ {amount : UInt64}, total.wholeUnits = .ok amount →
      amount.toNat = total.whole ∧ amount = .ofNat total.whole := by
    intro amount hamount
    have hnat : amount.toNat = total.whole := Dec.wholeUnits_eq_ok_iff.1 hamount
    exact ⟨hnat, by rw [← hnat, UInt64.ofNat_toNat]⟩
  generalize ht : r.transfer = t at h
  generalize hrest : r.dust = rest at h
  cases h with
  | accrued hsmall =>
    have hnone : total.whole = 0 := by
      have hless : ¬ 1 ≤ total.whole := fun h => Nat.not_le.2 hsmall (Dec.one_le_whole_iff.1 h)
      omega
    exact {
      due_lt := by rw [hnone]; decide
      transferred_iff := by simp [ht, hnone]
      deferred_iff := by simp [ht, hnone]
      accrued_iff := by simp [ht, hnone]
      dust_raw := by simp [hrest, hnone] }
  | @transferred amount _ hone hamount hreads hcovered hsend =>
    have hdue : 1 ≤ total.whole := Dec.one_le_whole_iff.2 hone
    obtain ⟨hnat, hofNat⟩ := hword hamount
    have hheld : total.whole ≤ (b.balanceOf pools.yield.address).toNat := by
      rw [← hnat]
      exact UInt64.le_iff_toNat_le.1 hcovered
    -- a transfer leaves the digits behind the point
    have hfraction : total.fraction.raw = total.raw - total.whole * Dec.scale := by
      have hsum := total.whole_mul_scale_add_fraction
      rw [Nat.mul_comm] at hsum
      omega
    exact {
      due_lt := hnat ▸ amount.toNat_lt_size
      transferred_iff := by simp [ht, ← hofNat, hdue, hheld]
      deferred_iff := by simp [ht]; omega
      accrued_iff := by simp [ht]; omega
      dust_raw := by rw [hrest, if_pos ⟨hdue, hheld⟩, hfraction] }
  | @deferred amount hone hamount hreads hshort =>
    have hdue : 1 ≤ total.whole := Dec.one_le_whole_iff.2 hone
    obtain ⟨hnat, hofNat⟩ := hword hamount
    have hheld : (b.balanceOf pools.yield.address).toNat < total.whole := by
      rw [← hnat]
      exact UInt64.lt_iff_toNat_lt.1 hshort
    exact {
      due_lt := hnat ▸ amount.toNat_lt_size
      transferred_iff := by simp [ht]; omega
      deferred_iff := by simp [ht, ← hofNat, hdue, hheld]
      accrued_iff := by simp [ht]; omega
      dust_raw := by rw [hrest, if_neg fun h => Nat.not_le.2 hheld h.2] }

/-- Step one pays the deposit pool what it reports as transferred. -/
theorem Payment.paid (h : Payment pools total b r.transfer r.dust b') :
    b.Paid pools.yield.address pools.deposit.address r.transferred b' := by
  obtain ⟨height, earned, t, rest, swept⟩ := r
  cases h with
  | accrued => exact .nothing
  | deferred => exact .nothing
  | @transferred amount _ hone hamount hreads hcovered hsend =>
    refine .made ?_ hsend
    -- transfers start at one unit, so none of nothing is made
    intro hzero
    have hdue : 1 ≤ total.whole := Dec.one_le_whole_iff.2 hone
    have hnat : amount.toNat = total.whole := Dec.wholeUnits_eq_ok_iff.1 hamount
    have hnone : amount.toNat = 0 := congrArg UInt64.toNat hzero
    omega

end

/-! ### What is moved -/

variable {d : Deposit} {block : BlockContext} {l l' : Ledger} {r : SettlementReport}

/-- Step two pays the community pool all that the yield pool holds. -/
theorem sweep_ok_inv {swept : UInt64} (h : (d.sweep block).run l = (.ok swept, l')) :
    swept = l.bank.balanceOf d.pools.yield.address ∧
      l.bank.Paid d.pools.yield.address d.pools.community.address swept l'.bank := by
  rw [sweep, Action.run_bind_eq_ok_iff] at h
  obtain ⟨excess, l₁, hbalance, h⟩ := h
  rw [Action.run_mapError_eq_ok_iff, Ledger.run_balance_eq_ok_iff] at hbalance
  obtain ⟨-, hexcess, rfl⟩ := hbalance
  split at h
  next hzero =>
    cases h
    exact ⟨hzero.symm.trans hexcess.symm, .nothing⟩
  next hexcess' =>
    rw [Action.run_bind_eq_ok_iff] at h
    obtain ⟨⟨⟩, l₂, hsend, h⟩ := h
    rw [Action.run_mapError_eq_ok_iff, Ledger.run_send_eq_ok_iff] at hsend
    obtain ⟨b, hsend, rfl⟩ := hsend
    cases h
    exact ⟨hexcess.symm, .made hexcess' hsend⟩

/-- What moves in a block that finds the bank `b`, reports `r` and leaves the
bank `b'`: all that the yield pool held, to the two other pools. -/
structure Moved (pools : Pools) (r : SettlementReport) (b b' : MemBank) : Prop where
  yield : b'.balanceOf pools.yield.address = 0
  deposit : (b'.balanceOf pools.deposit.address).toNat
    = (b.balanceOf pools.deposit.address).toNat + r.transferred.toNat
  community : (b'.balanceOf pools.community.address).toNat
    = (b.balanceOf pools.community.address).toNat + r.swept.toNat
  all : r.transferred.toNat + r.swept.toNat = (b.balanceOf pools.yield.address).toNat
  others : ∀ a, a ≠ pools.yield.address → a ≠ pools.deposit.address →
    a ≠ pools.community.address → b'.balanceOf a = b.balanceOf a
  supply : b'.totalSupply = b.totalSupply
  recorded : b'.transfers = b.transfers ++
    ([⟨pools.yield.address, pools.deposit.address, r.transferred⟩,
      ⟨pools.yield.address, pools.community.address, r.swept⟩] : List Transfer).filter
      (·.amount != 0)

/-- Three accounts, and two payments one after the other. -/
theorem moved_of_paid {pools : Pools} {b b₁ b' : MemBank}
    (hpools : [pools.yield.address, pools.deposit.address, pools.community.address].Nodup)
    (hfirst : b.Paid pools.yield.address pools.deposit.address r.transferred b₁)
    (hswept : r.swept = b₁.balanceOf pools.yield.address)
    (hsecond : b₁.Paid pools.yield.address pools.community.address r.swept b') :
    Moved pools r b b' := by
  obtain ⟨⟨hdeposit, hcommunity⟩, hapart⟩ : (pools.yield.address ≠ pools.deposit.address ∧
      pools.yield.address ≠ pools.community.address) ∧
      pools.deposit.address ≠ pools.community.address := by
    simpa using hpools
  -- the sweep takes all that the payment left, so the yield pool ends empty
  have hpaid := hfirst.balanceOf_sender hdeposit
  have hdrained := hsecond.balanceOf_sender hcommunity
  rw [hswept] at hdrained
  exact {
    yield := by
      apply UInt64.toNat_inj.1
      show _ = 0
      omega
    deposit := by
      rw [hsecond.balanceOf_of_ne hdeposit.symm hapart, hfirst.balanceOf_receiver hdeposit]
    community := by
      rw [hsecond.balanceOf_receiver hcommunity,
        hfirst.balanceOf_of_ne hcommunity.symm hapart.symm]
    all := by
      rw [hswept]
      omega
    others := fun a hyield hdeposit hcommunity => by
      rw [hsecond.balanceOf_of_ne hyield hcommunity, hfirst.balanceOf_of_ne hyield hdeposit]
    supply := hsecond.totalSupply.trans hfirst.totalSupply
    recorded := by
      rw [hsecond.transfers, hfirst.transfers, List.append_assoc, ← List.filter_append]
      rfl }

/-- A settlement that succeeds is a payment and a sweep. -/
theorem settle_ok_steps (h : (d.settle block).run l = (.ok r, l')) :
    ∃ carried total b, l.dust = .ok carried ∧ carried.add r.perBlockYield = .ok total ∧
      Payment d.pools total l.bank r.transfer r.dust b ∧
      r.swept = b.balanceOf d.pools.yield.address ∧
      b.Paid d.pools.yield.address d.pools.community.address r.swept l'.bank := by
  rw [settle, Action.run_bind_eq_ok_iff] at h
  obtain ⟨a, l₁, haccrue, h⟩ := h
  rw [Action.run_bind_eq_ok_iff] at h
  obtain ⟨swept, l₂, hsweep, h⟩ := h
  cases h
  obtain ⟨p, carried, total, b, -, -, hcarried, htotal, hpaid, hset⟩ := accrue_ok_inv haccrue
  -- writing the dust does nothing to the bank
  obtain ⟨-, bs, -, rfl⟩ := dustItem.run_save_eq_ok_iff.1 (run_setDust_eq_ok_iff.1 hset)
  exact ⟨carried, total, b, hcarried, htotal, hpaid, sweep_ok_inv hsweep⟩

theorem settle_moved
    (hpools : [d.pools.yield.address, d.pools.deposit.address,
      d.pools.community.address].Nodup)
    (h : (d.settle block).run l = (.ok r, l')) : Moved d.pools r l.bank l'.bank := by
  obtain ⟨carried, total, b, -, -, hpayment, hswept, hpaid⟩ := settle_ok_steps h
  exact moved_of_paid hpools hpayment.paid hswept hpaid

/-- **The value flow of a block.**  Whatever a ledger holds, a settlement with
three different pools that succeeds owes the dust it found and the yield of the
block.  It reports a transfer of the whole units of that if the yield pool
holds them, a deferral if it does not, and neither if there are none; the new
dust is what was owed without what was transferred.  Afterwards the yield pool
is empty, the deposit pool has received what was transferred and the community
pool the rest, no other account has changed, and the transfers of these two
amounts were recorded in this order, if they are not zero. -/
theorem settle_value_flow (d : Deposit) (block : BlockContext) (l l' : Ledger)
    (r : SettlementReport)
    (hpools : [d.pools.yield.address, d.pools.deposit.address,
      d.pools.community.address].Nodup)
    (hrun : (d.settle block).run l = (.ok r, l')) :
    ∃ carried total : Dec, l.dust = .ok carried ∧
      total.raw = carried.raw + r.perBlockYield.raw ∧
      Reported total (l.bank.balanceOf d.pools.yield.address) r ∧
      l'.dust = .ok r.dust ∧ Moved d.pools r l.bank l'.bank := by
  obtain ⟨carried, total, b, hcarried, htotal, hpayment, -⟩ := settle_ok_steps hrun
  exact ⟨carried, total, hcarried, raw_of_add_eq_ok htotal, hpayment.reported,
    (settle_conserves hrun hcarried).1, settle_moved hpools hrun⟩

open Scenario in
theorem settle_value_flow_paidFirst :
    [deposit.pools.yield.address, deposit.pools.deposit.address,
      deposit.pools.community.address].Nodup ∧
      (deposit.settle paidFirst.block).run paidFirst.before
        = (.ok paidFirst.report, paidFirst.after) ∧
      paidFirst.report.transfer = .transferred 1 ∧ paidFirst.report.swept = 9 ∧
      ∃ carried total : Dec, paidFirst.before.dust = .ok carried ∧
        total.raw = carried.raw + paidFirst.report.perBlockYield.raw ∧
        Reported total (paidFirst.before.bank.balanceOf deposit.pools.yield.address)
          paidFirst.report ∧
        paidFirst.after.dust = .ok paidFirst.report.dust ∧
        Moved deposit.pools paidFirst.report paidFirst.before.bank paidFirst.after.bank := by
  have hpools : [deposit.pools.yield.address, deposit.pools.deposit.address,
      deposit.pools.community.address].Nodup := by
    decide +kernel
  exact ⟨hpools, paidFirst.settled, rfl, rfl,
    settle_value_flow _ _ _ _ _ hpools paidFirst.settled⟩

end Deposit

end BlockHooks
