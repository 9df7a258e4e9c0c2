/-
BlockHooks/Proofs/Settlement.lean

What a settlement does to a ledger.

The parameters and the dust are read from one key each (`Ledger.params`,
`Ledger.dust`).  A settlement that succeeds adds the yield of the block to
the dust it found, disposes of the sum in one of three ways (`Payment`),
writes what is left as the new dust and touches nothing else in the store
(`settle_ok_inv`).

Whichever of the three ways it takes, what it moves and what it leaves make
up the sum (`Payment.dust_add_transferred`), and it leaves a whole unit or
more only if it defers (`Payment.dust_lt_one_iff`).
-/
import BlockHooks.Hooks.Basic
import BlockHooks.Proofs.Bank
import BlockHooks.Proofs.Store

namespace BlockHooks

/-! ### Parameters and dust -/

namespace Ledger

/-- The parameters in force. -/
def params (l : Ledger) : Except DepositError Params := (Deposit.params.run l).1

/-- The dust in the store. -/
def dust (l : Ledger) : Except DepositError Dec := (Deposit.dust.run l).1

theorem run_params (l : Ledger) : Deposit.params.run l = (l.params, l) := by
  have hkeep : (Deposit.params.run l).2 = l := by
    rw [Deposit.params, Action.run_bind, Action.run_mapError, Item.run_load?]
    rcases Deposit.paramsItem.decoded (l.bytesAt Deposit.paramsItem.key) with e | - | p <;> rfl
  exact Prod.ext rfl hkeep

theorem run_dust (l : Ledger) : Deposit.dust.run l = (l.dust, l) := by
  have hkeep : (Deposit.dust.run l).2 = l := by
    rw [Deposit.dust, Action.run_bind, Action.run_mapError, Item.run_load?]
    rcases Deposit.dustItem.decoded (l.bytesAt Deposit.dustItem.key) with e | v <;> rfl
  exact Prod.ext rfl hkeep

theorem params_eq (l : Ledger) :
    l.params = ((Deposit.paramsItem.decoded (l.bytesAt Deposit.paramsItem.key)).mapError
      .store).bind fun found => found.elim (.error .paramsNotFound) .ok := by
  rw [params, Deposit.params, Action.run_bind, Action.run_mapError, Item.run_load?]
  rcases Deposit.paramsItem.decoded (l.bytesAt Deposit.paramsItem.key) with e | - | p <;> rfl

/-- The parameters depend on what is stored under their own key only. -/
theorem params_congr {l l' : Ledger}
    (h : l'.bytesAt Deposit.paramsItem.key = l.bytesAt Deposit.paramsItem.key) :
    l'.params = l.params := by
  rw [params_eq, params_eq, h]

theorem dust_eq (l : Ledger) :
    l.dust = ((Deposit.dustItem.decoded (l.bytesAt Deposit.dustItem.key)).mapError .store).map
      (·.getD Dec.zero) := by
  rw [dust, Deposit.dust, Action.run_bind, Action.run_mapError, Item.run_load?]
  rcases Deposit.dustItem.decoded (l.bytesAt Deposit.dustItem.key) with e | v <;> rfl

/-- The dust depends on what is stored under its own key only. -/
theorem dust_congr {l l' : Ledger}
    (h : l'.bytesAt Deposit.dustItem.key = l.bytesAt Deposit.dustItem.key) : l'.dust = l.dust := by
  rw [dust_eq, dust_eq, h]

end Ledger

namespace Deposit

theorem keeps_params {γ : Type} (obs : Ledger → γ) :
    Action.Keeps obs (params : Action Ledger DepositError Params) := fun l => by
  rw [Ledger.run_params]

theorem keeps_dust {γ : Type} (obs : Ledger → γ) :
    Action.Keeps obs (dust : Action Ledger DepositError Dec) := fun l => by
  rw [Ledger.run_dust]

theorem run_setDust_eq_ok_iff {v : Dec} {l l' : Ledger} :
    (setDust v).run l = (.ok (), l') ↔ (dustItem.save v).run l = (.ok (), l') :=
  Action.run_mapError_eq_ok_iff

/-- The dust that was written is the dust that is read. -/
theorem dust_of_setDust {v : Dec} {l l' : Ledger} (h : (setDust v).run l = (.ok (), l')) :
    l'.dust = .ok v := by
  rw [Ledger.dust_eq, dustItem.decoded_of_save (run_setDust_eq_ok_iff.1 h)]
  rfl

/-! ### Paying what is owed -/

/-- What step one may do with `total` owed when it finds the bank `b`: the
outcome, the dust that is left and the bank that is left. -/
inductive Payment (pools : Pools) (total : Dec) (b : MemBank) :
    YieldTransfer → Dec → MemBank → Prop
  | accrued :
      total.raw < Dec.one.raw → Payment pools total b .accrued total b
  | transferred {amount b'} :
      Dec.one.raw ≤ total.raw → total.wholeUnits = .ok amount → b.failingBalance = false →
      amount ≤ b.balanceOf pools.yield.address →
      b.transfer pools.yield.address pools.deposit.address amount = .ok b' →
      Payment pools total b (.transferred amount) total.fraction b'
  | deferred {amount} :
      Dec.one.raw ≤ total.raw → total.wholeUnits = .ok amount → b.failingBalance = false →
      b.balanceOf pools.yield.address < amount →
      Payment pools total b (.deferred amount (b.balanceOf pools.yield.address)) total b

variable {d : Deposit} {block : BlockContext} {l l' : Ledger}

theorem payYield_ok_inv {total rest : Dec} {t : YieldTransfer} (hone : Dec.one.raw ≤ total.raw)
    (h : (d.payYield block total).run l = (.ok (t, rest), l')) :
    ∃ b, Payment d.pools total l.bank t rest b ∧
      (setDust rest).run { l with bank := b } = (.ok (), l') := by
  rw [payYield, Action.run_bind_eq_ok_iff] at h
  obtain ⟨amount, l₁, hamount, h⟩ := h
  rw [Action.run_mapError_eq_ok_iff, Action.run_ofExcept, Prod.mk.injEq] at hamount
  obtain ⟨hamount, rfl⟩ := hamount
  rw [Action.run_bind_eq_ok_iff] at h
  obtain ⟨available, l₂, hbalance, h⟩ := h
  rw [Action.run_mapError_eq_ok_iff, Ledger.run_balance_eq_ok_iff] at hbalance
  obtain ⟨hreads, rfl, rfl⟩ := hbalance
  split at h
  next hshort =>
    -- the pool falls short: the whole sum is written back as dust
    rw [Action.run_bind_eq_ok_iff] at h
    obtain ⟨⟨⟩, l₃, hset, h⟩ := h
    cases h
    exact ⟨l.bank, .deferred hone hamount hreads hshort, hset⟩
  next hcovered =>
    -- the whole units go first, and only then the fraction is written
    rw [Action.run_bind_eq_ok_iff] at h
    obtain ⟨⟨⟩, l₃, hsend, h⟩ := h
    rw [Action.run_mapError_eq_ok_iff, Ledger.run_send_eq_ok_iff] at hsend
    obtain ⟨b, hsend, rfl⟩ := hsend
    rw [Action.run_bind_eq_ok_iff] at h
    obtain ⟨⟨⟩, l₄, hset, h⟩ := h
    cases h
    exact ⟨b, .transferred hone hamount hreads (UInt64.not_lt.1 hcovered) hsend, hset⟩

/-- A successful step one adds the yield of the block to the dust it found,
pays from the sum and writes what is left. -/
theorem accrue_ok_inv {a : Accrual} (h : (d.accrue block).run l = (.ok a, l')) :
    ∃ p carried total b, l.params = .ok p ∧ p.perBlockYield = .ok a.perBlockYield ∧
      l.dust = .ok carried ∧ carried.add a.perBlockYield = .ok total ∧
      Payment d.pools total l.bank a.transfer a.dust b ∧
      (setDust a.dust).run { l with bank := b } = (.ok (), l') := by
  rw [accrue, Action.run_bind_eq_ok_iff] at h
  obtain ⟨p, l₁, hp, h⟩ := h
  rw [Ledger.run_params, Prod.mk.injEq] at hp
  obtain ⟨hp, rfl⟩ := hp
  rw [Action.run_bind_eq_ok_iff] at h
  obtain ⟨earned, l₂, hearned, h⟩ := h
  rw [Action.run_mapError_eq_ok_iff, Action.run_ofExcept, Prod.mk.injEq] at hearned
  obtain ⟨hearned, rfl⟩ := hearned
  rw [Action.run_bind_eq_ok_iff] at h
  obtain ⟨carried, l₃, hcarried, h⟩ := h
  rw [Ledger.run_dust, Prod.mk.injEq] at hcarried
  obtain ⟨hcarried, rfl⟩ := hcarried
  rw [Action.run_bind_eq_ok_iff] at h
  obtain ⟨total, l₄, htotal, h⟩ := h
  rw [Action.run_mapError_eq_ok_iff, Action.run_ofExcept, Prod.mk.injEq] at htotal
  obtain ⟨htotal, rfl⟩ := htotal
  -- nothing is written up to here; the branches differ in what they pay
  split at h
  next hsmall =>
    rw [Action.run_bind_eq_ok_iff] at h
    obtain ⟨⟨⟩, l₅, hset, h⟩ := h
    cases h
    exact ⟨p, carried, total, l.bank, hp, hearned, hcarried, htotal, .accrued hsmall, hset⟩
  next hlarge =>
    rw [Action.run_bind_eq_ok_iff] at h
    obtain ⟨⟨t, rest⟩, l₅, hpay, h⟩ := h
    cases h
    obtain ⟨b, hpaid, hset⟩ := payYield_ok_inv (Nat.not_lt.1 hlarge) hpay
    exact ⟨p, carried, total, b, hp, hearned, hcarried, htotal, hpaid, hset⟩

/-- Step two does nothing to the store, whether it succeeds or not. -/
theorem keeps_store_sweep (d : Deposit) (block : BlockContext) :
    Action.Keeps Ledger.store (d.sweep block : Action Ledger DepositError UInt64) := by
  refine Action.Keeps.bind (Action.Keeps.mapError _ fun _ => rfl) fun excess => ?_
  refine Action.Keeps.ite (Action.Keeps.pure _) ?_
  refine Action.Keeps.bind (Action.Keeps.mapError _ fun _ => rfl) fun _ => ?_
  exact Action.Keeps.bind (Ledger.keeps_log _ _ _) fun _ => Action.Keeps.pure _

/-- What a successful settlement found, did and left in the store. -/
theorem settle_ok_inv {r : SettlementReport} (h : (d.settle block).run l = (.ok r, l')) :
    ∃ p carried total b, l.params = .ok p ∧ p.perBlockYield = .ok r.perBlockYield ∧
      l.dust = .ok carried ∧ carried.add r.perBlockYield = .ok total ∧
      Payment d.pools total l.bank r.transfer r.dust b ∧ l'.dust = .ok r.dust := by
  rw [settle, Action.run_bind_eq_ok_iff] at h
  obtain ⟨a, l₁, haccrue, h⟩ := h
  rw [Action.run_bind_eq_ok_iff] at h
  obtain ⟨swept, l₂, hsweep, h⟩ := h
  cases h
  obtain ⟨p, carried, total, b, hp, hearned, hcarried, htotal, hpaid, hset⟩ :=
    accrue_ok_inv haccrue
  refine ⟨p, carried, total, b, hp, hearned, hcarried, htotal, hpaid, ?_⟩
  -- the dust of step one is still there after step two
  have hstore : l'.store = l₁.store := by
    have hkeep := keeps_store_sweep d block l₁
    rwa [hsweep] at hkeep
  have hsame : l'.bytesAt dustItem.key = l₁.bytesAt dustItem.key :=
    congrArg (MemStore.bytesAt · dustItem.key) hstore
  rw [Ledger.dust_congr hsame]
  exact dust_of_setDust hset

/-! ### What a payment keeps -/

theorem raw_of_add_eq_ok {a b c : Dec} (h : a.add b = .ok c) : c.raw = a.raw + b.raw :=
  Dec.ofRaw?_eq_ok_iff.1 h

/-- What was moved and what is left make up the sum. -/
theorem Payment.dust_add_transferred {pools : Pools} {total : Dec} {b b' : MemBank}
    {r : SettlementReport} (h : Payment pools total b r.transfer r.dust b') :
    r.dust.raw + Dec.scale * r.transferred.toNat = total.raw := by
  obtain ⟨height, earned, t, rest, swept⟩ := r
  cases h with
  | accrued hsmall => rfl
  | deferred hone hamount hreads hshort => rfl
  | @transferred amount _ hone hamount hreads hcovered hsend =>
    show total.fraction.raw + Dec.scale * amount.toNat = total.raw
    rw [Dec.wholeUnits_eq_ok_iff.1 hamount, Nat.add_comm]
    exact total.whole_mul_scale_add_fraction

/-- A whole unit or more is left exactly if the payment was put off. -/
theorem Payment.dust_lt_one_iff {pools : Pools} {total : Dec} {b b' : MemBank}
    {r : SettlementReport} (h : Payment pools total b r.transfer r.dust b') :
    r.dust.raw < Dec.one.raw ↔ r.isDeferred = false := by
  obtain ⟨height, earned, t, rest, swept⟩ := r
  cases h with
  | accrued hsmall => exact ⟨fun _ => rfl, fun _ => hsmall⟩
  | transferred hone hamount hreads hcovered hsend =>
    exact ⟨fun _ => rfl, fun _ => total.fraction_raw_lt⟩
  | deferred hone hamount hreads hshort =>
    -- a deferral keeps the sum, and only a whole unit or more is deferred
    refine ⟨fun hsmall => ?_, fun h' => by cases h'⟩
    exact absurd hsmall (Nat.not_lt.2 hone)

/-- A settlement neither makes nor loses yield: what it moved and the dust it
left are the dust it found and the yield of the block. -/
theorem settle_conserves {r : SettlementReport} {carried : Dec}
    (h : (d.settle block).run l = (.ok r, l')) (hdust : l.dust = .ok carried) :
    l'.dust = .ok r.dust ∧
      r.dust.raw + Dec.scale * r.transferred.toNat = carried.raw + r.perBlockYield.raw := by
  obtain ⟨p, carried', total, b, -, -, hfound, htotal, hpaid, hleft⟩ := settle_ok_inv h
  rw [hdust] at hfound
  cases hfound
  exact ⟨hleft, hpaid.dust_add_transferred.trans (raw_of_add_eq_ok htotal)⟩

end Deposit

/-! ### The hook -/

/-- The metrics are counted only after a settlement that succeeded. -/
theorem Hooks.run_beginBlock (h : Hooks) (block : BlockContext) (n : Node Ledger) :
    (h.beginBlock block).run n =
      match (h.deposit.settle block).run n.world with
      | (.ok r, l) => (.ok r, ⟨l, n.metrics.recordSettlement r⟩)
      | (.error e, l) => (.error (.deposit e), ⟨l, n.metrics⟩) := by
  rw [Hooks.beginBlock, Action.run_bind, Node.onWorld, Action.run_onPart, Action.run_mapError]
  rcases (h.deposit.settle block).run n.world with ⟨e | r, l⟩ <;> rfl

end BlockHooks
