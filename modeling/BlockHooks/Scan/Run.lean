/-
BlockHooks/Scan/Run.lean

The scan at the end of a block.

All proposals of all policies of all groups are listed first, in the order
of the listings; then those that are eligible are executed in that order, up
to the cap, each on behalf of its policy.  A scan never fails.  A listing
that fails is recorded, and the group or policy behind it is left out; an
execution that fails is an outcome like any other.
-/
import BlockHooks.Log
import BlockHooks.Scan.Report

namespace BlockHooks

/-- A scanner whose configuration was found valid. -/
structure Scanner where
  config : ScanConfig
  valid : config.validate = .ok ()

/-- The scanner with the given configuration, if that is valid. -/
def Scanner.ofConfig (config : ScanConfig) : Except ScanError Scanner :=
  match h : config.validate with
  | .ok () => .ok ⟨config, h⟩
  | .error e => .error e

/-- What was listed, and which listings failed. -/
structure Listing where
  proposals : List Proposal
  failures : List ScanError

namespace Listing

/-- Nothing listed, and no listing that failed. -/
def empty : Listing := ⟨[], []⟩

/-- One listing after another. -/
def append (a b : Listing) : Listing :=
  ⟨a.proposals ++ b.proposals, a.failures ++ b.failures⟩

end Listing

namespace Scanner

variable {σ : Type} [GroupKeeper σ] [LogSink σ]

/-! ### Listing -/

/-- Records a listing that failed. -/
def listingFailed (e : ScanError) : StateM σ Listing := do
  report .error s!"group autoexec: {e.message}"
  return ⟨[], [e]⟩

/-- The proposals of one policy. -/
def listPolicy (limit : UInt64) (policy : Address) : StateM σ Listing := do
  match ← Action.outcome (Page.drain (GroupKeeper.proposals policy) (.first limit)) with
  | .ok proposals => return ⟨proposals, []⟩
  | .error e => listingFailed (.listProposals policy e)

/-- The proposals of policies, one policy after the other. -/
def listPolicies (limit : UInt64) : List Policy → StateM σ Listing
  | [] => return .empty
  | policy :: policies => do
    let first ← listPolicy limit policy.address
    return first.append (← listPolicies limit policies)

/-- The proposals of all policies of one group. -/
def listGroup (limit : UInt64) (groupId : UInt64) : StateM σ Listing := do
  match ← Action.outcome (Page.drain (GroupKeeper.policies groupId) (.first limit)) with
  | .ok policies => listPolicies limit policies
  | .error e => listingFailed (.listPolicies groupId e)

/-- The proposals of groups, one group after the other. -/
def listGroups (limit : UInt64) : List Group → StateM σ Listing
  | [] => return .empty
  | group :: groups => do
    let first ← listGroup limit group.id
    return first.append (← listGroups limit groups)

/-- All proposals that can be listed. -/
def listAll (limit : UInt64) : StateM σ Listing := do
  match ← Action.outcome (Page.drain GroupKeeper.groups (.first limit)) with
  | .ok groups => listGroups limit groups
  | .error e => listingFailed (.listGroups e)

/-! ### Execution -/

/-- Tells the log how an execution ended. -/
def reportResult (id : UInt64) : Except GroupError ExecutorResult → StateM σ Unit
  | .ok .success => report .info s!"group autoexec: proposal {id} executed successfully"
  | .ok other =>
    report .warn s!"group autoexec: proposal {id} executed with result {other.name}"
  | .error e =>
    report .warn s!"group autoexec: failed to execute proposal {id}: {e.message}"

/-- Executes one proposal on behalf of its policy. -/
def execute (block : BlockContext) (p : Proposal) : StateM σ ExecutionOutcome := do
  report .info (s!"group autoexec: executing accepted proposal {p.id} of policy "
    ++ s!"{p.policy.text} (voting period ended {p.votingPeriodEnd}, block time {block.time})")
  let result ← Action.outcome (GroupKeeper.exec block ⟨p.id, p.policy⟩)
  reportResult p.id result
  return ⟨p.id, p.policy, result⟩

/-- Executes proposals one after the other; none keeps the next from its turn. -/
def executeAll (block : BlockContext) : List Proposal → StateM σ (List ExecutionOutcome)
  | [] => return []
  | p :: ps => do
    let outcome ← execute block p
    return outcome :: (← executeAll block ps)

/-- The eligible proposals that the cap lets through. -/
def withinCap (s : Scanner) (eligible : List Proposal) : List Proposal :=
  match s.config.maxExecutions with
  | none => eligible
  | some cap => eligible.take cap.toNat

/-- The number of proposals that stand in a given way. -/
def countOf (standing : Standing) (time : Int64) (proposals : List Proposal) : Nat :=
  (proposals.filter fun p => p.standing time == standing).length

/-- Lists all proposals and executes the eligible ones. -/
def run (s : Scanner) (block : BlockContext) : StateM σ ScanReport := do
  report .debug (s!"group autoexec: checking pending proposal executions at height "
    ++ s!"{block.height} time {block.time}")
  let listing ← listAll s.config.pageLimit
  let eligible := listing.proposals.filter fun p => p.standing block.time == .eligible
  let outcomes ← executeAll block (s.withinCap eligible)
  let deferred := eligible.length - outcomes.length
  if 0 < deferred then
    report .info (s!"group autoexec: per-block cap reached at height {block.height}, "
      ++ s!"{deferred} eligible proposals deferred")
  return {
    height := block.height
    scanned := listing.proposals.length
    notYetDue := countOf .notYetDue block.time listing.proposals
    alreadyResolved := countOf .alreadyResolved block.time listing.proposals
    notAccepted := countOf .notAccepted block.time listing.proposals
    deferred := deferred
    outcomes := outcomes
    listingFailures := listing.failures }

end Scanner

end BlockHooks
