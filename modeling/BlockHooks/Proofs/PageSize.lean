/-
BlockHooks/Proofs/PageSize.lean

The size of the pages cannot be observed.

A scan reads all of its listings before it executes anything, so that no
execution moves items between a page that was read and one that is still to
be read.  What the pages add up to is the listing of the book, whatever their
size (`Scanner.run_listAll`), and what follows does not ask for the size
again (`Scanner.run_eq_finish`).

Nothing is assumed of the book: it may be kept in any way, and any of its
listings and executions may fail.  The only bound is that of the offsets.  So
two hosts that chose different sizes report the same after one scan
(`Scanner.run_eq_of_same_cap`), and after any history they hold the same book
(`history_eq_of_alike`).
-/
import Mathlib
import BlockHooks.Proofs.AtMostOnce

namespace BlockHooks

namespace Scanner

/-! ### A scan without its pages -/

/-- What a scan does once it has listed the proposals. -/
def finish {σ : Type} [GroupKeeper σ] [LogSink σ] (s : Scanner) (block : BlockContext)
    (listing : Listing) : StateM σ ScanReport := do
  let eligible := listing.proposals.filter fun p => p.standing block.time == .eligible
  let outcomes ← executeAll block (s.withinCap eligible)
  let deferred := eligible.length - outcomes.length
  if 0 < deferred then
    report .info (s!"group autoexec: per-block cap reached at height {block.height}, "
      ++ s!"{deferred} eligible proposals deferred")
  return {
    height := block.height
    scanned := listing.proposals.length
    notYetDue := countOf .notYetDue block.time listing.proposals
    alreadyResolved := countOf .alreadyResolved block.time listing.proposals
    notAccepted := countOf .notAccepted block.time listing.proposals
    deferred := deferred
    outcomes := outcomes
    listingFailures := listing.failures }

variable {s s' : Scanner} {l : Ledger}

/-- The listing of the book is all that a scan takes from its pages. -/
theorem run_eq_finish (s : Scanner) (block : BlockContext)
    (hsize : l.groups.policyTable.size ≤ UInt64.size) :
    (s.run block).run l = (s.finish block l.groups.listing).run l := by
  have hlist := run_listAll s.pageLimit_ne_zero hsize
  have hrun : (s.run block).run l
      = (listAll s.config.pageLimit >>= s.finish block).run l := rfl
  rw [hrun, Action.run_state_bind, hlist]

/-- What follows the listing depends on the cap alone. -/
theorem finish_congr (hcap : s.config.maxExecutions = s'.config.maxExecutions)
    (block : BlockContext) (listing : Listing) :
    (s.finish block listing : StateM Ledger ScanReport) = s'.finish block listing := by
  have hsame : s.withinCap = s'.withinCap := by
    funext eligible
    rw [withinCap, withinCap, hcap]
  rw [finish, finish, hsame]

/-- **The page size is unobservable.**  Two scanners with the same cap give
the same report on the same book and leave the same behind, whatever the size
of their pages. -/
theorem run_eq_of_same_cap (s s' : Scanner)
    (hcap : s.config.maxExecutions = s'.config.maxExecutions) (block : BlockContext) (l : Ledger)
    (hsize : l.groups.policyTable.size ≤ UInt64.size) :
    (s.run block).run l = (s'.run block).run l := by
  rw [run_eq_finish s block hsize, run_eq_finish s' block hsize, finish_congr hcap]

end Scanner

namespace Scenario

/-- The policies of one group cannot be listed, one execution is refused and
another one ends in failure. -/
def faultyLedger : Ledger :=
  ⟨.empty, .empty, { additions with faults := ⟨[3], [2], false, [2], [policyB]⟩ }⟩

/-- Pages of a hundred items, two executions in a block. -/
def widePages : Scanner := ⟨⟨100, some 2⟩, by decide⟩

end Scenario

open Scenario in
/-- One scanner reads the proposals of the first group on four pages, the
other one on a single page. -/
theorem Scanner.run_eq_of_same_cap_faulty :
    scanner.config.maxExecutions = widePages.config.maxExecutions ∧
      scanner.config.pageLimit ≠ widePages.config.pageLimit ∧
      faultyLedger.groups.policyTable.size ≤ UInt64.size ∧
      ∃ (report : ScanReport) (after : Ledger),
        (scanner.run ⟨8, 300⟩).run faultyLedger = (report, after) ∧
        (widePages.run ⟨8, 300⟩).run faultyLedger = (report, after) ∧
        report.executedIds = [2, 3] ∧ report.deferred = 1 ∧
        report.listingFailures
          = [.listPolicies 2 (.unavailable "injected policy listing failure for group 2")] ∧
        after.groups.execCalls = [⟨2, policyA⟩, ⟨3, policyA⟩] := by
  have hsize : faultyLedger.groups.policyTable.size ≤ UInt64.size := by
    decide
  have hsame := Scanner.run_eq_of_same_cap scanner widePages rfl ⟨8, 300⟩ faultyLedger hsize
  refine ⟨rfl, by decide, hsize, _, _, hsame, rfl, ?_⟩
  decide +kernel

/-! ### Histories -/

/-- Steps that differ in the size of the pages alone. -/
inductive BookStep.Alike : BookStep → BookStep → Prop
  | scan {s s' : Scanner} (hcap : s.config.maxExecutions = s'.config.maxExecutions)
      (block : BlockContext) : Alike (.scan s block) (.scan s' block)
  | same (step : BookStep) : Alike step step

theorem BookStep.Alike.perform_eq {l : Ledger} {step step' : BookStep} (h : step.Alike step')
    (hallowed : step.Allowed l) : step.perform l = step'.perform l := by
  cases h with
  | scan hcap block =>
    rw [perform, perform, Scanner.run_eq_finish _ block hallowed,
      Scanner.run_eq_finish _ block hallowed, Scanner.finish_congr hcap]
  | same step => rfl

/-- Histories that differ in the sizes of pages alone make the same attempts
and leave the same ledger, as long as the first one may take place. -/
theorem history_eq_of_alike {l : Ledger} {steps steps' : List BookStep}
    (h : List.Forall₂ BookStep.Alike steps steps') (hallowed : AllAllowed l steps) :
    attempts l steps = attempts l steps' ∧ afterSteps l steps = afterSteps l steps' := by
  induction h generalizing l with
  | nil => exact ⟨rfl, rfl⟩
  | cons hstep _ ih =>
    have hfirst := hstep.perform_eq hallowed.1
    obtain ⟨hattempts, hafter⟩ := ih hallowed.2
    rw [attempts, attempts, afterSteps, afterSteps, ← hfirst]
    exact ⟨congrArg _ hattempts, hafter⟩

end BlockHooks
