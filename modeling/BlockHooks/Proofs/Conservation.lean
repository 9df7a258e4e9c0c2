/-
BlockHooks/Proofs/Conservation.lean

Settlement conserves yield over whole runs.

A run is any sequence of settlements, funding requests, new parameters,
onboardings and removals of validators, and moves in the bank; each may
succeed or fail, and each acts on what the one before it left.

Only a settlement writes the dust: all other operations write under other
keys (`dust_of_perform`).  Since a single settlement conserves yield
(`Deposit.settle_conserves`), so does a run in which all settlements
succeed: the dust at its end and all that was transferred are the dust at
its start and all that was earned (`history_conserves_yield`).
-/
import Mathlib
import BlockHooks.Proofs.Settlement
import BlockHooks.Proofs.Writes

namespace BlockHooks

/-! ### Runs -/

/-- What may happen to a ledger. -/
inductive Operation where
  | settle (block : BlockContext)
  | fundModule (msg : FundModule)
  | updateParams (msg : UpdateParams)
  | onboard (msg : OnboardValidator)
  | removeValidator (index : String)
  /-- An amount is minted into an account. -/
  | fund (account : Address) (amount : UInt64)
  /-- An amount goes from one account to another. -/
  | send (sender receiver : Address) (amount : UInt64)

/-- What an operation left, and what it answered if it was a settlement. -/
structure Moment where
  settlement : Option (Except DepositError SettlementReport)
  ledger : Ledger

/-- Tells whether a settlement was tried and did not succeed. -/
def Moment.failed (m : Moment) : Bool :=
  match m.settlement with
  | some (.error _) => true
  | some (.ok _) | none => false

variable (d : Deposit) (r : Registry)

/-- An operation that fails has left something as well. -/
def Operation.perform (l : Ledger) : Operation → Moment
  | .settle block => ⟨some ((d.settle block).run l).1, ((d.settle block).run l).2⟩
  | .fundModule msg => ⟨none, ((d.fundModule msg).run l).2⟩
  | .updateParams msg => ⟨none, ((d.updateParams msg).run l).2⟩
  | .onboard msg => ⟨none, ((r.onboard msg).run l).2⟩
  | .removeValidator index => ⟨none, ((Registry.removeValidator index).run l).2⟩
  | .fund account amount => ⟨none, { l with bank := l.bank.fund account amount }⟩
  | .send sender receiver amount => ⟨none, ((Bank.send sender receiver amount).run l).2⟩

/-- The moments of a run from `l` on. -/
def history (l : Ledger) : List Operation → List Moment
  | [] => []
  | op :: ops =>
    let m := op.perform d r l
    m :: history m.ledger ops

/-- The ledger that a run from `l` on leaves. -/
def ledgerAfter (l : Ledger) : List Operation → Ledger
  | [] => l
  | op :: ops => ledgerAfter (op.perform d r l).ledger ops

/-- The reports of the settlements that succeeded. -/
def settlementReports (moments : List Moment) : List SettlementReport :=
  moments.filterMap fun m => m.settlement.bind Except.toOption

/-- All that was transferred, in whole units. -/
def totalTransferred (reports : List SettlementReport) : Nat :=
  (reports.map fun r => r.transferred.toNat).sum

/-- All that was earned, in units of 10⁻¹⁸. -/
def totalYield (reports : List SettlementReport) : Nat :=
  (reports.map fun r => r.perBlockYield.raw).sum

variable {d : Deposit} {r : Registry}

/-- Whatever is no settlement leaves the dust as it was. -/
theorem dust_of_perform {l : Ledger} {op : Operation}
    (h : (op.perform d r l).settlement = none) : (op.perform d r l).ledger.dust = l.dust := by
  cases op with
  | settle block => cases h
  | fundModule msg =>
    exact Ledger.dust_congr (d.keeps_fundModule msg Deposit.dustKey_ne_paramsKey l)
  | updateParams msg =>
    exact Ledger.dust_congr (d.keeps_updateParams msg Deposit.dustKey_ne_paramsKey l)
  | onboard msg =>
    exact Ledger.dust_congr (r.keeps_onboard (Deposit.dustKey_ne_validatorKey msg.memberId) l)
  | removeValidator index =>
    exact Ledger.dust_congr
      (Registry.keeps_removeValidator (Deposit.dustKey_ne_validatorKey index) l)
  | fund account amount => exact Ledger.dust_congr rfl
  | send sender receiver amount => exact Ledger.dust_congr rfl

/-- What one step of a run does to the dust. -/
theorem perform_conserves {l : Ledger} {op : Operation} {carried : Dec}
    (hdust : l.dust = .ok carried)
    (hok : (op.perform d r l).failed = false) :
    ∃ rest, (op.perform d r l).ledger.dust = .ok rest ∧
      rest.raw + Dec.scale * totalTransferred (settlementReports [op.perform d r l])
        = carried.raw + totalYield (settlementReports [op.perform d r l]) ∧
      ∀ report, (op.perform d r l).settlement = some (.ok report) → rest = report.dust := by
  rcases e : (op.perform d r l).settlement with - | err | report
  · refine ⟨carried, (dust_of_perform e).trans hdust, ?_, by simp⟩
    simp [settlementReports, totalTransferred, totalYield, e]
  · rw [Moment.failed, e] at hok
    cases hok
  · -- only a settlement has a report
    cases op with
    | settle block =>
      have hrun : (d.settle block).run l = (.ok report, ((d.settle block).run l).2) :=
        Prod.ext (Option.some.inj e) rfl
      obtain ⟨hleft, hsum⟩ := Deposit.settle_conserves hrun hdust
      refine ⟨report.dust, hleft, ?_, by simp⟩
      simpa [settlementReports, totalTransferred, totalYield, e, Except.toOption] using hsum
    | fundModule | updateParams | onboard | removeValidator | fund | send => cases e

/-! ### Sums over a run -/

theorem settlementReports_cons (m : Moment) (ms : List Moment) :
    settlementReports (m :: ms) = settlementReports [m] ++ settlementReports ms := by
  rw [settlementReports, ← List.singleton_append, List.filterMap_append]
  rfl

theorem totalTransferred_append (a b : List SettlementReport) :
    totalTransferred (a ++ b) = totalTransferred a + totalTransferred b := by
  rw [totalTransferred, List.map_append, List.sum_append]
  rfl

theorem totalYield_append (a b : List SettlementReport) :
    totalYield (a ++ b) = totalYield a + totalYield b := by
  rw [totalYield, List.map_append, List.sum_append]
  rfl

/-- **Settlement conserves yield over whole runs.**  In a run in which every
settlement succeeds, the dust at the end and the units transferred make up
the dust at the start and the yield earned, exactly; and after every
settlement the dust in the store is the dust of its report. -/
theorem history_conserves_yield (l : Ledger) (ops : List Operation) (carried : Dec)
    (hdust : l.dust = .ok carried)
    (hok : ∀ m ∈ history d r l ops, m.failed = false) :
    (∃ rest, (ledgerAfter d r l ops).dust = .ok rest ∧
      rest.raw + 10 ^ 18 * totalTransferred (settlementReports (history d r l ops))
        = carried.raw + totalYield (settlementReports (history d r l ops))) ∧
    ∀ m ∈ history d r l ops, ∀ report, m.settlement = some (.ok report) →
      m.ledger.dust = .ok report.dust := by
  have hscale : Dec.scale = 10 ^ 18 := by decide
  -- on the operations; the dust that the first one leaves is carried into the rest
  induction ops generalizing l carried with
  | nil => exact ⟨⟨carried, hdust, rfl⟩, by simp [history]⟩
  | cons op ops ih =>
    have hfirst := hok _ List.mem_cons_self
    obtain ⟨middle, hmiddle, hsum, hreport⟩ := perform_conserves hdust hfirst
    obtain ⟨⟨rest, hrest, hsum'⟩, hreports⟩ :=
      ih _ middle hmiddle fun m hm => hok m (List.mem_cons_of_mem _ hm)
    refine ⟨⟨rest, hrest, ?_⟩, fun m hm report hm' => ?_⟩
    · -- the dust in the middle cancels
      rw [history, settlementReports_cons, totalTransferred_append, totalYield_append]
      rw [hscale] at hsum
      omega
    · rcases List.mem_cons.1 hm with rfl | hm
      · rw [hmiddle, hreport report hm']
      · exact hreports m hm report hm'

namespace Scenario

/-! ### A run -/

/-- The pools of the default configuration. -/
def deposit : Deposit where
  authority := ⟨"verana1gov"⟩
  pools := ⟨.ofName "yield_pool", .ofName "trust_deposit", .ofName "community_pool"⟩

/-- The registry of the default configuration. -/
def registry : Registry := ⟨"veranavaloper"⟩

/-- A unit and a half is earned in each block. -/
def params : Params := ⟨9467280, Dec.one, Params.defaultBlocksPerYear⟩

/-- The given dust is in the store, and nothing is in the bank. -/
def ledger (dust : Dec) : Ledger :=
  ((do Deposit.setParams params; Deposit.setDust dust : Action Ledger DepositError Unit).run
    Ledger.empty).2

/-- A quarter of a unit. -/
def quarter : Dec := ⟨250000000000000000, by decide⟩

/-- A block that defers, a block that catches up and a block that earns half
a unit, with requests of all kinds between them; two of these fail. -/
def operations : List Operation := [
  .settle ⟨1, 1700000005⟩,
  .fund deposit.pools.yield.address 10,
  .fund ⟨"verana1funder"⟩ 5,
  .onboard ⟨⟨"verana1policy"⟩, "m1", ⟨"veranavaloper1a"⟩, "", 0⟩,
  .settle ⟨2, 1700000010⟩,
  .fundModule ⟨⟨"verana1funder"⟩, "trust_deposit", 4⟩,
  .updateParams ⟨⟨"verana1stranger"⟩, Params.default⟩,
  .updateParams ⟨⟨"verana1gov"⟩, ⟨3155760, Dec.one, Params.defaultBlocksPerYear⟩⟩,
  .send ⟨"verana1funder"⟩ ⟨"verana1other"⟩ 7,
  .removeValidator "m1",
  .settle ⟨3, 1699999999⟩]

end Scenario

open Scenario in
theorem history_conserves_yield_operations :
    (ledger quarter).dust = .ok quarter ∧
      (∀ m ∈ history deposit registry (ledger quarter) operations, m.failed = false) ∧
      (∃ rest, (ledgerAfter deposit registry (ledger quarter) operations).dust = .ok rest ∧
        rest.raw + 10 ^ 18 * totalTransferred
            (settlementReports (history deposit registry (ledger quarter) operations))
          = quarter.raw + totalYield
            (settlementReports (history deposit registry (ledger quarter) operations))) ∧
      ∀ m ∈ history deposit registry (ledger quarter) operations, ∀ report,
        m.settlement = some (.ok report) → m.ledger.dust = .ok report.dust := by
  have hdust : (ledger quarter).dust = .ok quarter := by decide +kernel
  have hok : ∀ m ∈ history deposit registry (ledger quarter) operations, m.failed = false := by
    decide +kernel
  exact ⟨hdust, hok, history_conserves_yield _ operations quarter hdust hok⟩

end BlockHooks
