/-
BlockHooks/Scan/Report.lean

What a scan saw and did.

Each proposal that a scan visits falls into one class (`Proposal.standing`):
its voting may still be open, it may have been executed before, it may be
eligible, and otherwise it was not accepted.  The questions are asked in
this order.
-/
import BlockHooks.Scan.Config

namespace BlockHooks

/-- How a proposal stands at a given time. -/
inductive Standing where
  | notYetDue
  | alreadyResolved
  | eligible
  | notAccepted
  deriving DecidableEq, Repr

/-- How a proposal stands at `time`: whether its voting has ended is asked
before its result, and its result before its status. -/
def Proposal.standing (time : Int64) (p : Proposal) : Standing :=
  if time < p.votingPeriodEnd then .notYetDue
  else if p.result.isResolved then .alreadyResolved
  else if p.status = .accepted then .eligible
  else .notAccepted

/-- One attempt to execute a proposal. -/
structure ExecutionOutcome where
  proposalId : UInt64
  policy : Address
  result : Except GroupError ExecutorResult

/-- Tells whether the attempt ended in success; failure is no success, nor is an
error. -/
def ExecutionOutcome.succeeded (o : ExecutionOutcome) : Bool :=
  match o.result with
  | .ok .success => true
  | .ok _ | .error _ => false

/-- What a scan visited, and what became of each proposal. -/
structure ScanReport where
  height : UInt64
  /-- The number of proposals visited. -/
  scanned : Nat
  notYetDue : Nat
  alreadyResolved : Nat
  notAccepted : Nat
  /-- Eligible, but left for a later block. -/
  deferred : Nat
  /-- The attempts in the order they were made. -/
  outcomes : List ExecutionOutcome
  /-- The listings that failed, in the order they were asked for. -/
  listingFailures : List ScanError

namespace ScanReport

/-- Attempts that ended in success. -/
def succeeded (r : ScanReport) : Nat := (r.outcomes.filter (·.succeeded)).length

/-- Attempts that ended in failure or in an error. -/
def failed (r : ScanReport) : Nat := r.outcomes.length - r.succeeded

/-- The proposals that were attempted, in order. -/
def executedIds (r : ScanReport) : List UInt64 := r.outcomes.map (·.proposalId)

end ScanReport

end BlockHooks
