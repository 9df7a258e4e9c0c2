/-
BlockHooks/Proofs/Halting.lean

When a settlement halts the chain.

The yield of valid parameters is at most the principal, so it always has a
decimal (`Params.perBlockYield_of_valid`).  What may be too large is the sum
of yield and dust: its whole units have to fit into a word, or step one stops
with an overflow before it has written anything (`run_accrue_of_large`).

Where they fit, nothing else can stop a settlement on a ledger that is not
switched to fail and whose total supply is a word (`Ledger.Sound`): step one
pays only what the yield pool holds, step two only what is left there, and no
credit overflows.  So a settlement halts exactly on sums that are too large
(`settle_halts_iff`).
-/
import BlockHooks.Proofs.Abort
import BlockHooks.Proofs.Transfers

namespace BlockHooks

/-! ### The yield of valid parameters -/

namespace Params

/-- The raw value of what the deposit earns in one block, whatever its size. -/
def rawYield (p : Params) : Nat :=
  divHalfEven (p.trustDepositValue.toNat * p.yieldRate.raw) p.blocksPerYear.toNat

variable {p : Params}

/-- The yearly yield is exact, and it is not more than the principal. -/
theorem yearlyYield_of_valid (h : p.validate = .ok ()) :
    ∃ yearly, (Dec.ofUnits p.trustDepositValue).mul p.yieldRate = .ok yearly ∧
      yearly.raw = p.trustDepositValue.toNat * p.yieldRate.raw := by
  obtain ⟨hrate, -⟩ := (validate_eq_ok_iff p).1 h
  have hexact : divHalfEven (p.trustDepositValue.toNat * Dec.scale * p.yieldRate.raw) Dec.scale
      = p.trustDepositValue.toNat * p.yieldRate.raw := by
    rw [Nat.mul_right_comm]
    exact divHalfEven_mul_right _ Dec.scale_pos
  have hfits : p.trustDepositValue.toNat * p.yieldRate.raw < Dec.bound :=
    Nat.lt_of_le_of_lt (Nat.mul_le_mul_left _ hrate) (Dec.ofUnits p.trustDepositValue).raw_lt
  refine ⟨⟨_, hfits⟩, ?_, rfl⟩
  show Dec.ofRaw? (divHalfEven (p.trustDepositValue.toNat * Dec.scale * _) _) = _
  rw [hexact]
  exact Dec.ofRaw?_of_lt hfits

theorem blocksPerYear_pos (h : p.validate = .ok ()) : 0 < p.blocksPerYear.toNat :=
  UInt64.lt_iff_toNat_lt.1 (UInt64.pos_iff_ne_zero.2 ((validate_eq_ok_iff p).1 h).2)

/-- Valid parameters give a yield: no division by zero and no overflow. -/
theorem perBlockYield_of_valid (h : p.validate = .ok ()) :
    ∃ earned, p.perBlockYield = .ok earned ∧ earned.raw = p.rawYield := by
  obtain ⟨-, hblocks⟩ := (validate_eq_ok_iff p).1 h
  obtain ⟨yearly, hyearly, hraw⟩ := yearlyYield_of_valid h
  have hfits : divHalfEven yearly.raw p.blocksPerYear.toNat < Dec.bound :=
    Nat.lt_of_le_of_lt (divHalfEven_le _ (blocksPerYear_pos h)) yearly.raw_lt
  refine ⟨⟨_, hfits⟩, ?_, ?_⟩
  · rw [perBlockYield, hyearly]
    show (if p.blocksPerYear = 0 then _ else _) = _
    rw [if_neg hblocks]
    exact Dec.ofRaw?_of_lt hfits
  · rw [rawYield, ← hraw]

end Params

/-! ### Sums that are too large -/

theorem Dec.wholeUnits_of_le {a : Dec} (h : UInt64.size ≤ a.whole) :
    a.wholeUnits = .error .overflow :=
  if_neg (Nat.not_lt.2 h)

namespace Ledger

/-- No switch is set to fail, and the total supply is a word. -/
structure Sound (l : Ledger) : Prop where
  working : l.Working
  reads : l.bank.failingBalance = false
  sends : l.bank.failingSend = false
  supply : l.bank.totalSupply < UInt64.size

end Ledger

namespace Deposit

variable {d : Deposit} {block : BlockContext} {l : Ledger} {p : Params} {carried earned : Dec}

section

variable {α : Type} {r : Except DecimalError α}

/-- Arithmetic reads nothing and writes nothing. -/
theorem run_math_ok {a : α} (h : r = .ok a) (l : Ledger) :
    ((Action.ofExcept r).mapError DepositError.math).run l = (.ok a, l) := by
  rw [h]
  rfl

theorem run_math_error {e : DecimalError} (h : r = .error e) (l : Ledger) :
    ((Action.ofExcept r).mapError DepositError.math).run l = (.error (.math e), l) := by
  rw [h]
  rfl

end

theorem run_params_of_ok (h : l.params = .ok p) : params.run l = (.ok p, l) := by
  rw [Ledger.run_params, h]

theorem run_dust_of_ok (h : l.dust = .ok carried) : dust.run l = (.ok carried, l) := by
  rw [Ledger.run_dust, h]

/-- A sum with too many whole units stops step one before it writes. -/
theorem run_accrue_of_large (hp : l.params = .ok p) (hearned : p.perBlockYield = .ok earned)
    (hdust : l.dust = .ok carried)
    (hlarge : UInt64.size ≤ (carried.raw + earned.raw) / Dec.scale) :
    (d.accrue block).run l = (.error (.math .overflow), l) := by
  rw [accrue, Action.run_bind_ok (run_params_of_ok hp), Action.run_bind_ok (run_math_ok hearned l),
    Action.run_bind_ok (run_dust_of_ok hdust)]
  rcases htotal : carried.add earned with e | total
  · -- the sum is no decimal
    obtain ⟨-, rfl⟩ := Dec.ofRaw?_eq_error_iff.1 htotal
    exact Action.run_bind_error (run_math_error rfl l)
  · -- the sum is one, and its whole units are no word
    have hwhole : UInt64.size ≤ total.whole := by
      rw [Dec.whole, raw_of_add_eq_ok htotal]
      exact hlarge
    have hone : ¬ total.raw < Dec.one.raw := by
      intro hsmall
      have hzero : total.whole = 0 := Nat.div_eq_of_lt hsmall
      rw [hzero] at hwhole
      exact absurd hwhole (by decide)
    have hpay : (d.payYield block total).run l = (.error (.math .overflow), l) :=
      Action.run_bind_error (run_math_error (Dec.wholeUnits_of_le hwhole) l)
    rw [Action.run_bind_ok (run_math_ok rfl l), if_neg hone, Action.run_bind_error hpay]

/-! ### Sums that fit -/

theorem run_balance_of_sound (hl : l.Sound) (a : Address) :
    ((Bank.balance a).mapError DepositError.bank).run l = (.ok (l.bank.balanceOf a), l) :=
  Action.run_mapError_eq_ok_iff.2 (Ledger.run_balance_eq_ok_iff.2 ⟨hl.reads, rfl, rfl⟩)

/-- Between two accounts goes what the sender holds. -/
theorem exists_run_send_of_sound (hl : l.Sound) {sender receiver : Address} {amount : UInt64}
    (hne : sender ≠ receiver) (hcovered : amount ≤ l.bank.balanceOf sender) :
    ∃ b, ((Bank.send sender receiver amount).mapError DepositError.bank).run l
      = (.ok (), { l with bank := b }) := by
  obtain ⟨b, hb⟩ := MemBank.exists_transfer hl.sends hne hcovered hl.supply
  exact ⟨b, Action.run_mapError_eq_ok_iff.2 (Ledger.run_send_eq_ok_iff.2 ⟨b, hb, rfl⟩)⟩

theorem succeeds_payYield (block : BlockContext) (total : Dec)
    (hne : d.pools.yield.address ≠ d.pools.deposit.address)
    (hfits : total.whole < UInt64.size) :
    Action.Succeeds Ledger.Sound
      (d.payYield block total : Action Ledger DepositError (YieldTransfer × Dec)) := by
  intro l hl
  have hamount : total.wholeUnits = .ok (UInt64.ofNat total.whole) := if_pos hfits
  rw [payYield, Action.run_bind_ok (run_math_ok hamount l),
    Action.run_bind_ok (run_balance_of_sound hl _)]
  split
  next hshort => exact succeeds_setDust_then _ _ _ _ l hl.working
  next hcovered =>
    obtain ⟨b, hsend⟩ := exists_run_send_of_sound hl hne (UInt64.not_lt.1 hcovered)
    rw [Action.run_bind_ok hsend]
    exact succeeds_setDust_then _ _ _ _ { l with bank := b } hl.working

/-- Step one succeeds on any sum whose whole units are a word. -/
theorem exists_run_accrue (block : BlockContext) (hl : l.Sound)
    (hne : d.pools.yield.address ≠ d.pools.deposit.address)
    (hp : l.params = .ok p) (hearned : p.perBlockYield = .ok earned) (hdust : l.dust = .ok carried)
    (hfits : (carried.raw + earned.raw) / Dec.scale < UInt64.size) :
    ∃ a l', (d.accrue block).run l = (.ok a, l') := by
  have hsum : carried.raw + earned.raw < Dec.bound := by
    have hscaled := Nat.lt_mul_of_div_lt hfits Dec.scale_pos
    have hbound : UInt64.size * Dec.scale < Dec.bound := by decide +kernel
    exact Nat.lt_trans hscaled hbound
  have htotal : carried.add earned = .ok ⟨_, hsum⟩ := Dec.ofRaw?_of_lt hsum
  rw [accrue, Action.run_bind_ok (run_params_of_ok hp), Action.run_bind_ok (run_math_ok hearned l),
    Action.run_bind_ok (run_dust_of_ok hdust), Action.run_bind_ok (run_math_ok htotal l)]
  split
  next => exact succeeds_setDust_then _ _ _ _ l hl.working
  next =>
    obtain ⟨paid, l', hpay⟩ := succeeds_payYield block ⟨_, hsum⟩ hne hfits l hl
    rw [Action.run_bind_ok hpay]
    exact ⟨_, l', rfl⟩

/-- Step two always succeeds. -/
theorem succeeds_sweep (block : BlockContext)
    (hne : d.pools.yield.address ≠ d.pools.community.address) :
    Action.Succeeds Ledger.Sound (d.sweep block : Action Ledger DepositError UInt64) := by
  intro l hl
  rw [sweep, Action.run_bind_ok (run_balance_of_sound hl _)]
  split
  next => exact ⟨0, l, rfl⟩
  next =>
    obtain ⟨b, hsend⟩ := exists_run_send_of_sound hl hne (UInt64.le_refl _)
    rw [Action.run_bind_ok hsend]
    exact ⟨_, _, rfl⟩

/-- Paying yield leaves the switches of the bank and the total supply alone. -/
theorem Payment.bank_kept {pools : Pools} {total rest : Dec} {t : YieldTransfer} {b b' : MemBank}
    (h : Payment pools total b t rest b') :
    b'.totalSupply = b.totalSupply ∧ b'.failingBalance = b.failingBalance ∧
      b'.failingSend = b.failingSend := by
  cases h with
  | accrued hsmall => exact ⟨rfl, rfl, rfl⟩
  | deferred hone hamount hreads hshort => exact ⟨rfl, rfl, rfl⟩
  | transferred hone hamount hreads hcovered hsend =>
    exact ⟨MemBank.totalSupply_transfer hsend, MemBank.switches_transfer hsend⟩

/-- Step one leaves a sound ledger for step two. -/
theorem sound_of_accrue {a : Accrual} {l' : Ledger} (hl : l.Sound)
    (h : (d.accrue block).run l = (.ok a, l')) : l'.Sound := by
  obtain ⟨_, _, _, b, -, -, -, -, hpaid, hset⟩ := accrue_ok_inv h
  obtain ⟨hworks, bs, -, rfl⟩ :=
    dustItem.run_save_eq_ok_iff.1 (run_setDust_eq_ok_iff.1 hset)
  obtain ⟨hsupply, hreads, hsends⟩ := hpaid.bank_kept
  exact {
    working := hworks
    reads := hreads.trans hl.reads
    sends := hsends.trans hl.sends
    supply := Nat.lt_of_le_of_lt (Nat.le_of_eq hsupply) hl.supply }

/-- **When a settlement halts the chain.**  On a ledger with valid parameters
and readable dust, with no switch set to fail, three different pools and a
total supply below 2⁶⁴, a settlement fails exactly if dust and yield together
make up 2⁶⁴ whole units or more.  It then fails with an overflow and has
changed nothing; the yield itself can always be worked out. -/
theorem settle_halts_iff (d : Deposit) (block : BlockContext) (l : Ledger) (p : Params)
    (carried : Dec) (hp : l.params = .ok p) (hvalid : p.validate = .ok ())
    (hdust : l.dust = .ok carried) (hreads : l.bank.failingBalance = false)
    (hsends : l.bank.failingSend = false)
    (hpools : [d.pools.yield.address, d.pools.deposit.address, d.pools.community.address].Nodup)
    (hsupply : l.bank.totalSupply < UInt64.size) :
    (∃ earned, p.perBlockYield = .ok earned ∧ earned.raw = p.rawYield) ∧
    ((∃ e l', (d.settle block).run l = (.error e, l')) ↔
      UInt64.size ≤ (carried.raw + p.rawYield) / Dec.scale) ∧
    ∀ e l', (d.settle block).run l = (.error e, l') → e = .math .overflow ∧ l' = l := by
  have hl : l.Sound := ⟨working_of_params hp, hreads, hsends, hsupply⟩
  obtain ⟨earned, hearned, hraw⟩ := Params.perBlockYield_of_valid hvalid
  obtain ⟨hdeposit, hcommunity⟩ : d.pools.yield.address ≠ d.pools.deposit.address ∧
      d.pools.yield.address ≠ d.pools.community.address := by
    have hfirst := (List.nodup_cons.1 hpools).1
    simpa using hfirst
  rw [← hraw]
  refine ⟨⟨earned, hearned, rfl⟩, ?_⟩
  rcases Nat.lt_or_ge ((carried.raw + earned.raw) / Dec.scale) UInt64.size with hfits | hlarge
  · -- both steps succeed
    obtain ⟨a, l₁, haccrue⟩ := exists_run_accrue block hl hdeposit hp hearned hdust hfits
    obtain ⟨swept, l₂, hsweep⟩ :=
      succeeds_sweep block hcommunity l₁ (sound_of_accrue hl haccrue)
    have hsettle : ∀ e l', (d.settle block).run l ≠ (.error e, l') := by
      intro e l' h
      rw [settle, Action.run_bind_ok haccrue, Action.run_bind_ok hsweep] at h
      cases h
    refine ⟨⟨?_, ?_⟩, fun e l' h => absurd h (hsettle e l')⟩
    · rintro ⟨e, l', h⟩
      exact absurd h (hsettle e l')
    · intro h
      exact absurd hfits (Nat.not_lt.2 h)
  · -- step one stops at once
    have hsettle : (d.settle block).run l = (.error (.math .overflow), l) := by
      rw [settle, Action.run_bind_error (run_accrue_of_large hp hearned hdust hlarge)]
    rw [hsettle]
    refine ⟨⟨fun _ => hlarge, fun _ => ⟨_, _, rfl⟩⟩, fun e l' h => ?_⟩
    cases h
    exact ⟨rfl, rfl⟩

end Deposit

namespace Scenario

/-! ### Two settlements -/

/-- Dust with which a block that earns a unit and a half comes to exactly
2⁶⁴ units. -/
def brimming : Dec := ⟨18446744073709551614500000000000000000, by decide⟩

/-- The smallest amount less. -/
def nearlyBrimming : Dec := ⟨18446744073709551614499999999999999999, by decide⟩

/-- The given dust is in the store, and the yield pool holds all there can be. -/
def wealthy (dust : Dec) : Ledger :=
  { ledger dust with bank := MemBank.empty.fund deposit.pools.yield.address 18446744073709551615 }

end Scenario

open Scenario in
/-- The one settlement halts the chain, the other one does not. -/
theorem Deposit.settle_halts_iff_brimming :
    (wealthy brimming).params = .ok Scenario.params ∧ Scenario.params.validate = .ok () ∧
      (wealthy brimming).dust = .ok brimming ∧
      (wealthy nearlyBrimming).dust = .ok nearlyBrimming ∧
      (wealthy brimming).bank.totalSupply < UInt64.size ∧
      (∃ e l', (deposit.settle ⟨1, 1700000005⟩).run (wealthy brimming) = (.error e, l')) ∧
      ¬ ∃ e l', (deposit.settle ⟨1, 1700000005⟩).run (wealthy nearlyBrimming) = (.error e, l') := by
  have hparams : (wealthy brimming).params = .ok Scenario.params ∧
      (wealthy nearlyBrimming).params = .ok Scenario.params := by
    decide +kernel
  have hdust : (wealthy brimming).dust = .ok brimming ∧
      (wealthy nearlyBrimming).dust = .ok nearlyBrimming := by
    decide +kernel
  have hvalid : Scenario.params.validate = .ok () := by
    decide
  have hpools : [deposit.pools.yield.address, deposit.pools.deposit.address,
      deposit.pools.community.address].Nodup := by
    decide +kernel
  have hsupply : (wealthy brimming).bank.totalSupply < UInt64.size := by
    decide +kernel
  have hhalts := (Deposit.settle_halts_iff deposit ⟨1, 1700000005⟩ (wealthy brimming)
    Scenario.params brimming hparams.1 hvalid hdust.1 rfl rfl hpools hsupply).2.1
  have hsettles := (Deposit.settle_halts_iff deposit ⟨1, 1700000005⟩ (wealthy nearlyBrimming)
    Scenario.params nearlyBrimming hparams.2 hvalid hdust.2 rfl rfl hpools hsupply).2.1
  refine ⟨hparams.1, hvalid, hdust.1, hdust.2, hsupply, hhalts.2 ?_, fun h => ?_⟩
  · decide +kernel
  · exact absurd (hsettles.1 h) (by decide +kernel)

end BlockHooks
