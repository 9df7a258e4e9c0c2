/-
BlockHooks/Group/Keeper.lean

The book of groups, policies and proposals.

`GroupKeeper σ` is what the hooks ask of a book kept in states `σ`: single
proposals, listings page by page, and the execution of a proposal.
`MemGroups` is the book in memory.  It lists groups and proposals by
ascending number and policies by ascending address.

Executing a proposal is recorded first.  It is then refused for a number
marked as erroring, an unknown proposal, a status other than accepted and a
voting period that has not ended, in this order; otherwise the proposal's
result becomes failure for a number marked as failing and success for any
other.  A proposal that was executed before is executed again: that this
does not happen is for the caller to see to.
-/
import BlockHooks.Context
import BlockHooks.Group.Page
import BlockHooks.Group.Proposal
import BlockHooks.Table

namespace BlockHooks

/-- Why a proposal was not executed. -/
inductive ExecutionFault where
  | injected
  | notAccepted (status : ProposalStatus)
  | votingOpen
  /-- A cause that another keeper tells in its own words. -/
  | other (reason : String)
  deriving DecidableEq, Repr

/-- How it is told why a proposal was not executed. -/
def ExecutionFault.message : ExecutionFault → String
  | .injected => "injected execution error"
  | .notAccepted status => s!"proposal status is {status.name}"
  | .votingOpen => "voting period has not ended"
  | .other reason => reason

/-- Why a book of groups does not answer, or does not execute a proposal. -/
inductive GroupError where
  | proposalNotFound (id : UInt64)
  | groupNotFound (id : UInt64)
  | invalidPage (reason : String)
  | execution (id : UInt64) (fault : ExecutionFault)
  | unavailable (reason : String)
  deriving DecidableEq, Repr

/-- How an error of the book is told. -/
def GroupError.message : GroupError → String
  | .proposalNotFound id => s!"proposal {id} not found"
  | .groupNotFound id => s!"group {id} not found"
  | .invalidPage reason => s!"invalid page request: {reason}"
  | .execution id fault => s!"proposal {id} execution failed: {fault.message}"
  | .unavailable reason => s!"group store unavailable: {reason}"

/-- A book of groups kept in states `σ`, as far as the hooks use it: a proposal
by its number, listings page by page, and the execution of a proposal. -/
class GroupKeeper (σ : Type) where
  proposal : UInt64 → Action σ GroupError Proposal
  groups : PageRequest → Action σ GroupError (Page Group)
  /-- The policies of a group. -/
  policies : UInt64 → PageRequest → Action σ GroupError (Page Policy)
  /-- The proposals of a policy. -/
  proposals : Address → PageRequest → Action σ GroupError (Page Proposal)
  exec : BlockContext → ExecRequest → Action σ GroupError ExecutorResult

/-- What makes listings and executions fail. -/
structure GroupFaults where
  /-- Proposals whose execution ends in failure. -/
  failing : List UInt64
  /-- Proposals whose execution is refused. -/
  erroring : List UInt64
  /-- Every listing fails while this is set. -/
  failListing : Bool
  unlistableGroups : List UInt64
  unlistablePolicies : List Address
  deriving DecidableEq, Repr

/-- No faults. -/
def GroupFaults.none : GroupFaults := ⟨[], [], false, [], []⟩

instance : Inhabited GroupFaults := ⟨.none⟩

/-- A book in memory. -/
structure MemGroups where
  groupTable : Table UInt64 Group
  policyTable : Table Address Policy
  proposalTable : Table UInt64 Proposal
  /-- All executions asked for, oldest first. -/
  execCalls : List ExecRequest
  faults : GroupFaults

namespace MemGroups

/-- The book with nothing in it. -/
def empty : MemGroups := ⟨Table.empty, Table.empty, Table.empty, [], .none⟩

instance : Inhabited MemGroups := ⟨empty⟩

/-! ### Filling the book -/

/-- Adds a group, or gives the one that is there another administrator. -/
def addGroup (g : MemGroups) (id : UInt64) (admin : Address) : MemGroups :=
  { g with groupTable := g.groupTable.insert id ⟨id, admin⟩ }

/-- Adds a policy, or moves the one that is there to another group.  The group
need not be in the book. -/
def addPolicy (g : MemGroups) (groupId : UInt64) (address : Address) : MemGroups :=
  { g with policyTable := g.policyTable.insert address ⟨address, groupId⟩ }

/-- Adds a proposal, in the place of any that has its number. -/
def addProposal (g : MemGroups) (p : Proposal) : MemGroups :=
  { g with proposalTable := g.proposalTable.insert p.id p }

/-- Changes what is given of a proposal that is there. -/
def amendProposal (g : MemGroups) (id : UInt64) (status : Option ProposalStatus)
    (result : Option ExecutorResult) (votingPeriodEnd : Option Int64) : MemGroups :=
  match g.proposalTable.get? id with
  | none => g
  | some p =>
    let p : Proposal :=
      { p with
        status := status.getD p.status
        result := result.getD p.result
        votingPeriodEnd := votingPeriodEnd.getD p.votingPeriodEnd }
    { g with proposalTable := g.proposalTable.insert id p }

/-- How often the execution of a proposal was asked for. -/
def execCount (g : MemGroups) (id : UInt64) : Nat :=
  (g.execCalls.filter fun call => call.proposalId == id).length

/-! ### Listings -/

/-- The policies of a group by ascending address. -/
def policiesOf (g : MemGroups) (groupId : UInt64) : List Policy :=
  g.policyTable.values.filter fun p => p.groupId == groupId

/-- The proposals of a policy by ascending number. -/
def proposalsOf (g : MemGroups) (policy : Address) : List Proposal :=
  g.proposalTable.values.filter fun p => p.policy == policy

/-- The page of `all` asked for, unless listings fail or no items are asked for. -/
def listed {α : Type} (g : MemGroups) (request : PageRequest)
    (all : Except GroupError (List α)) : Except GroupError (Page α) :=
  if g.faults.failListing then .error (.unavailable "injected listing failure")
  else if request.limit = 0 then .error (.invalidPage "limit must be positive")
  else all.map fun items => Page.paginate items request

/-- All policies of a group that can be listed. -/
def listablePolicies (g : MemGroups) (groupId : UInt64) : Except GroupError (List Policy) :=
  if g.faults.unlistableGroups.contains groupId then
    .error (.unavailable s!"injected policy listing failure for group {groupId}")
  else if !g.groupTable.contains groupId then .error (.groupNotFound groupId)
  else .ok (g.policiesOf groupId)

/-- All proposals of a policy that can be listed. -/
def listableProposals (g : MemGroups) (policy : Address) : Except GroupError (List Proposal) :=
  if g.faults.unlistablePolicies.contains policy then
    .error (.unavailable s!"injected proposal listing failure for policy {policy.text}")
  else .ok (g.proposalsOf policy)

/-! ### Execution -/

/-- The proposal with the given number. -/
def proposal (g : MemGroups) (id : UInt64) : Except GroupError Proposal :=
  match g.proposalTable.get? id with
  | some p => .ok p
  | none => .error (.proposalNotFound id)

/-- The proposal `id` if it may be executed at `time`. -/
def executable (g : MemGroups) (time : Int64) (id : UInt64) : Except GroupError Proposal :=
  if g.faults.erroring.contains id then .error (.execution id .injected)
  else
    match g.proposalTable.get? id with
    | none => .error (.proposalNotFound id)
    | some p =>
      if p.status ≠ .accepted then .error (.execution id (.notAccepted p.status))
      else if time < p.votingPeriodEnd then .error (.execution id .votingOpen)
      else .ok p

/-- The result that an execution of `id` has. -/
def resultOf (g : MemGroups) (id : UInt64) : ExecutorResult :=
  if g.faults.failing.contains id then .failure else .success

/-- Records that an execution was asked for, whatever becomes of it. -/
def record (g : MemGroups) (call : ExecRequest) : MemGroups :=
  { g with execCalls := g.execCalls ++ [call] }

/-- Records an execution and makes it, if it may be made. -/
def execute (g : MemGroups) (block : BlockContext) (call : ExecRequest) :
    Except GroupError ExecutorResult × MemGroups :=
  let recorded := g.record call
  match g.executable block.time call.proposalId with
  | .error e => (.error e, recorded)
  | .ok p =>
    let result := g.resultOf call.proposalId
    (.ok result,
      { recorded with
        proposalTable :=
          recorded.proposalTable.insert call.proposalId { p with result := result } })

instance : GroupKeeper MemGroups where
  proposal id := .ofRun fun g => (g.proposal id, g)
  groups request := .ofRun fun g => (g.listed request (.ok g.groupTable.values), g)
  policies groupId request := .ofRun fun g => (g.listed request (g.listablePolicies groupId), g)
  proposals policy request := .ofRun fun g => (g.listed request (g.listableProposals policy), g)
  exec block call := .ofRun fun g => g.execute block call

end MemGroups

end BlockHooks
