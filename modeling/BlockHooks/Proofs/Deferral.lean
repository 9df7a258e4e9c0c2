/-
BlockHooks/Proofs/Deferral.lean

A deferral neither loses nor makes yield.

A row of settlements is one in which each finds the dust that the one before
it left; what happens to the bank and to the parameters between two of them
is left open (`InARow`).  Amounts are compared as rationals (`Dec.value`).

The dust left by a row and the units transferred in it make up the dust at
its start and the yield earned in it (`InARow.conserves`).  A whole unit or
more is left exactly by a block that defers (`SettledBlock.dust_lt_one_iff`),
so after a block that does not, the units transferred are the integral part
of what there was: the schedule by which the pool was funded no longer shows
(`deferral_keeps_yield`).
-/
import Mathlib
import BlockHooks.Proofs.Conservation

namespace BlockHooks

/-- The amount in whole units. -/
def Dec.value (a : Dec) : ℚ := a.raw / 10 ^ 18

theorem Dec.raw_eq (a : Dec) : (a.raw : ℚ) = 10 ^ 18 * a.value := by
  rw [Dec.value]
  field_simp

theorem Dec.value_nonneg (a : Dec) : 0 ≤ a.value := by
  rw [Dec.value]
  positivity

theorem Dec.value_lt_one_iff {a : Dec} : a.value < 1 ↔ a.raw < Dec.one.raw := by
  have hone : Dec.one.raw = 10 ^ 18 := by decide
  rw [hone, Dec.value, div_lt_one (by positivity)]
  exact_mod_cast Iff.rfl

/-! ### Rows of settlements -/

/-- A settlement that succeeded. -/
structure SettledBlock (d : Deposit) where
  block : BlockContext
  before : Ledger
  report : SettlementReport
  after : Ledger
  settled : (d.settle block).run before = (.ok report, after)

variable {d d' : Deposit}

/-- Each settlement finds the dust that the one before it left; the first
one finds `found`. -/
def InARow (found : Except DepositError Dec) : List (SettledBlock d) → Prop
  | [] => True
  | b :: bs => b.before.dust = found ∧ InARow b.after.dust bs

/-- The whole units transferred in a row. -/
def transferred (row : List (SettledBlock d)) : Nat :=
  (row.map fun b => b.report.transferred.toNat).sum

/-- The yield earned in a row. -/
def earned (row : List (SettledBlock d)) : ℚ :=
  (row.map fun b => b.report.perBlockYield.value).sum

/-! ### One block -/

namespace SettledBlock

theorem dust_after (b : SettledBlock d) : b.after.dust = .ok b.report.dust := by
  obtain ⟨p, carried, total, bank, -, -, -, -, -, hleft⟩ := Deposit.settle_ok_inv b.settled
  exact hleft

theorem conserves (b : SettledBlock d) {carried : Dec} (h : b.before.dust = .ok carried) :
    b.report.dust.value + b.report.transferred.toNat
      = carried.value + b.report.perBlockYield.value := by
  obtain ⟨-, hsum⟩ := Deposit.settle_conserves b.settled h
  have hscale : (Dec.scale : ℚ) = 10 ^ 18 := by
    exact_mod_cast (by decide : Dec.scale = 10 ^ 18)
  have hsum' : (b.report.dust.raw : ℚ) + Dec.scale * b.report.transferred.toNat
      = carried.raw + b.report.perBlockYield.raw := by
    exact_mod_cast hsum
  rw [hscale, Dec.raw_eq, Dec.raw_eq, Dec.raw_eq] at hsum'
  linarith

/-- A block leaves less than a whole unit exactly if it does not defer. -/
theorem dust_lt_one_iff (b : SettledBlock d) :
    b.report.dust.value < 1 ↔ b.report.isDeferred = false := by
  obtain ⟨p, carried, total, bank, -, -, -, -, hpaid, -⟩ := Deposit.settle_ok_inv b.settled
  rw [Dec.value_lt_one_iff]
  exact hpaid.dust_lt_one_iff

/-- The yield of a block is fixed by the parameters it finds. -/
theorem perBlockYield_congr {b : SettledBlock d} {b' : SettledBlock d'}
    (h : b.before.params = b'.before.params) :
    b.report.perBlockYield = b'.report.perBlockYield := by
  obtain ⟨p, -, -, -, hp, hearned, -⟩ := Deposit.settle_ok_inv b.settled
  obtain ⟨p', -, -, -, hp', hearned', -⟩ := Deposit.settle_ok_inv b'.settled
  -- both yields are computed from the one record of parameters
  rw [hp, hp', Except.ok.injEq] at h
  subst h
  exact Except.ok.inj (hearned.symm.trans hearned')

end SettledBlock

/-! ### Rows of blocks -/

theorem InARow.of_append {found : Except DepositError Dec} {row row' : List (SettledBlock d)}
    (h : InARow found (row ++ row')) : InARow found row := by
  induction row generalizing found with
  | nil => exact trivial
  | cons b row ih => exact ⟨h.1, ih h.2⟩

/-- What is left by the last block of a row and what was transferred in it
make up what there was. -/
theorem InARow.conserves {start : Dec} {row : List (SettledBlock d)} {last : SettledBlock d}
    (h : InARow (.ok start) (row ++ [last])) :
    last.report.dust.value + transferred (row ++ [last])
      = start.value + earned (row ++ [last]) := by
  -- on the row; its first block turns `start` into the dust that the rest finds
  induction row generalizing start with
  | nil => simpa [transferred, earned] using last.conserves h.1
  | cons b row ih =>
    obtain ⟨hfound, hrest⟩ := h
    rw [b.dust_after] at hrest
    have hrow := ih hrest
    have hfirst := b.conserves hfound
    simp only [transferred, earned, List.cons_append, List.map_cons, List.sum_cons,
      Nat.cast_add] at hrow ⊢
    linarith

/-- The same parameters in force, the same yield earned. -/
theorem earned_congr {row : List (SettledBlock d)} {row' : List (SettledBlock d')}
    (h : row.map (·.before.params) = row'.map (·.before.params)) : earned row = earned row' := by
  induction row generalizing row' with
  | nil =>
    cases row' with
    | nil => rfl
    | cons b' row' => cases h
  | cons b row ih =>
    cases row' with
    | nil => cases h
    | cons b' row' =>
      rw [List.map_cons, List.map_cons, List.cons.injEq] at h
      have hrest := ih h.2
      rw [earned, earned] at hrest ⊢
      rw [List.map_cons, List.map_cons, List.sum_cons, List.sum_cons, hrest,
        SettledBlock.perBlockYield_congr h.1]

/-- After a block that does not defer, all whole units have been transferred. -/
theorem InARow.transferred_eq_floor {start : Dec} {row : List (SettledBlock d)}
    {last : SettledBlock d} (h : InARow (.ok start) (row ++ [last]))
    (hpaid : last.report.isDeferred = false) :
    (transferred (row ++ [last]) : ℤ) = ⌊start.value + earned (row ++ [last])⌋ := by
  have hsum := h.conserves
  have hsmall := last.dust_lt_one_iff.2 hpaid
  have hnonneg := last.report.dust.value_nonneg
  symm
  rw [Int.floor_eq_iff]
  push_cast
  exact ⟨by linarith, by linarith⟩

/-- After a block that defers, some whole unit has not been transferred. -/
theorem InARow.transferred_lt_floor {start : Dec} {row : List (SettledBlock d)}
    {last : SettledBlock d} (h : InARow (.ok start) (row ++ [last]))
    (hdeferred : last.report.isDeferred = true) :
    (transferred (row ++ [last]) : ℤ) < ⌊start.value + earned (row ++ [last])⌋ := by
  have hsum := h.conserves
  have hlarge : 1 ≤ last.report.dust.value := by
    rw [← not_lt, last.dust_lt_one_iff, hdeferred]
    decide
  rw [← Int.add_one_le_iff, Int.le_floor]
  push_cast
  linarith

/-- **A deferral neither loses nor makes yield.**  Two rows of settlements
that start from the same dust under the same parameters have, once neither
of them defers any more, transferred the same and left the same, whatever
was in the bank before each block: the integral part of what there was, and
the rest of it.  In every row the dust is below a whole unit after exactly
those blocks that do not defer, and a block that defers leaves some whole
unit to be transferred. -/
theorem deferral_keeps_yield (start : Dec) (row : List (SettledBlock d)) (last : SettledBlock d)
    (row' : List (SettledBlock d')) (last' : SettledBlock d')
    (hrow : InARow (.ok start) (row ++ [last])) (hrow' : InARow (.ok start) (row' ++ [last']))
    (hparams : (row ++ [last]).map (·.before.params) = (row' ++ [last']).map (·.before.params)) :
    (last.report.isDeferred = false → last'.report.isDeferred = false →
      last.after.dust = last'.after.dust ∧
      transferred (row ++ [last]) = transferred (row' ++ [last']) ∧
      (transferred (row ++ [last]) : ℤ) = ⌊start.value + earned (row ++ [last])⌋ ∧
      ∃ rest, last.after.dust = .ok rest ∧
        rest.value = start.value + earned (row ++ [last]) - transferred (row ++ [last])) ∧
    (∀ b ∈ row ++ [last], ∃ rest, b.after.dust = .ok rest ∧
      (rest.value < 1 ↔ b.report.isDeferred = false)) ∧
    ∀ before b after, row ++ [last] = before ++ b :: after → b.report.isDeferred = true →
      (transferred (before ++ [b]) : ℤ) < ⌊start.value + earned (before ++ [b])⌋ := by
  refine ⟨fun hpaid hpaid' => ?_, fun b _ => ?_, fun before b after hsplit hdeferred => ?_⟩
  · -- both rows have transferred the same floor, and conserve the same sum
    have hfloor := hrow.transferred_eq_floor hpaid
    have hfloor' := hrow'.transferred_eq_floor hpaid'
    have hearned := earned_congr hparams
    have hsame : transferred (row ++ [last]) = transferred (row' ++ [last']) := by
      rw [hearned, ← hfloor'] at hfloor
      exact_mod_cast hfloor
    have hsum := hrow.conserves
    have hsum' := hrow'.conserves
    have hvalue : last.report.dust.value = last'.report.dust.value := by
      rw [← hearned, ← hsame] at hsum'
      linarith
    have hdust : last.report.dust = last'.report.dust := by
      refine Dec.ext ?_
      have hraw : (last.report.dust.raw : ℚ) = last'.report.dust.raw := by
        rw [Dec.raw_eq, Dec.raw_eq, hvalue]
      exact_mod_cast hraw
    refine ⟨?_, hsame, hfloor, last.report.dust, last.dust_after, by linarith⟩
    rw [last.dust_after, last'.dust_after, hdust]
  · exact ⟨b.report.dust, b.dust_after, b.dust_lt_one_iff⟩
  · -- a block in the middle is the last one of the row up to it
    rw [hsplit, List.append_cons] at hrow
    exact hrow.of_append.transferred_lt_floor hdeferred

namespace Scenario

/-! ### Two schedules -/

/-- The given amount is in the yield pool when the settlement starts. -/
def funded (dust : Dec) (amount : UInt64) : Ledger :=
  { ledger dust with bank := (ledger dust).bank.fund deposit.pools.yield.address amount }

/-- The settlement of a block that gives the given report. -/
def settledBlock (block : BlockContext) (before : Ledger) (report : SettlementReport)
    (h : ((deposit.settle block).run before).1 = .ok report) : SettledBlock deposit :=
  ⟨block, before, report, ((deposit.settle block).run before).2, Prod.ext h rfl⟩

/-- There is nothing to pay the first block from. -/
def unpaid : SettledBlock deposit :=
  settledBlock ⟨1, 1700000005⟩ (ledger quarter)
    ⟨1, ⟨1500000000000000000, by decide⟩, .deferred 1 0, ⟨1750000000000000000, by decide⟩, 0⟩
    (by decide +kernel)

/-- Three units are paid at once. -/
def caughtUp : SettledBlock deposit :=
  settledBlock ⟨2, 1700000010⟩ (funded ⟨1750000000000000000, by decide⟩ 3)
    ⟨2, ⟨1500000000000000000, by decide⟩, .transferred 3, quarter, 0⟩
    (by decide +kernel)

/-- One unit is paid, and what is left in the pool is swept. -/
def paidFirst : SettledBlock deposit :=
  settledBlock ⟨1, 1700000005⟩ (funded quarter 10)
    ⟨1, ⟨1500000000000000000, by decide⟩, .transferred 1, ⟨750000000000000000, by decide⟩, 9⟩
    (by decide +kernel)

/-- The other two units are paid. -/
def paidSecond : SettledBlock deposit :=
  settledBlock ⟨2, 1700000010⟩ (funded ⟨750000000000000000, by decide⟩ 2)
    ⟨2, ⟨1500000000000000000, by decide⟩, .transferred 2, quarter, 0⟩
    (by decide +kernel)

end Scenario

open Scenario in
theorem deferral_keeps_yield_schedules :
    InARow (.ok quarter) [unpaid, caughtUp] ∧ InARow (.ok quarter) [paidFirst, paidSecond] ∧
      [unpaid, caughtUp].map (·.before.params) = [paidFirst, paidSecond].map (·.before.params) ∧
      unpaid.report.isDeferred = true ∧
      caughtUp.after.dust = paidSecond.after.dust ∧
      transferred [unpaid, caughtUp] = transferred [paidFirst, paidSecond] ∧
      (transferred [unpaid, caughtUp] : ℤ) = ⌊quarter.value + earned [unpaid, caughtUp]⌋ := by
  have hrow : InARow (.ok quarter) [unpaid, caughtUp] :=
    ⟨by decide +kernel, by decide +kernel, trivial⟩
  have hrow' : InARow (.ok quarter) [paidFirst, paidSecond] :=
    ⟨by decide +kernel, by decide +kernel, trivial⟩
  have hparams : [unpaid, caughtUp].map (·.before.params)
      = [paidFirst, paidSecond].map (·.before.params) := by
    decide +kernel
  obtain ⟨hsame, htransferred, hfloor, -⟩ :=
    (deferral_keeps_yield quarter [unpaid] caughtUp [paidFirst] paidSecond hrow hrow' hparams).1
      rfl rfl
  exact ⟨hrow, hrow', hparams, rfl, hsame, htransferred, hfloor⟩

end BlockHooks
