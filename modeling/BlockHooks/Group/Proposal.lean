/-
BlockHooks/Group/Proposal.lean

Governance groups, their decision policies and their proposals.

A proposal belongs to a policy and a policy to a group.  Voting gives a
proposal its status; executing it gives it a result, and a result other than
`notRun` is final: the proposal is resolved.
-/
import BlockHooks.Address

namespace BlockHooks

/-- What the voting on a proposal has come to. -/
inductive ProposalStatus where
  /-- Voting has not ended. -/
  | submitted
  | accepted
  | rejected
  | aborted
  deriving DecidableEq, Repr, Inhabited

/-- The name that a status is told by. -/
def ProposalStatus.name : ProposalStatus → String
  | .submitted => "PROPOSAL_STATUS_SUBMITTED"
  | .accepted => "PROPOSAL_STATUS_ACCEPTED"
  | .rejected => "PROPOSAL_STATUS_REJECTED"
  | .aborted => "PROPOSAL_STATUS_ABORTED"

/-- What the execution of a proposal has come to, if it took place. -/
inductive ExecutorResult where
  | notRun
  | success
  | failure
  deriving DecidableEq, Repr, Inhabited

/-- Tells whether an execution has taken place. -/
def ExecutorResult.isResolved : ExecutorResult → Bool
  | .notRun => false
  | .success | .failure => true

/-- The name that a result is told by. -/
def ExecutorResult.name : ExecutorResult → String
  | .notRun => "PROPOSAL_EXECUTOR_RESULT_NOT_RUN"
  | .success => "PROPOSAL_EXECUTOR_RESULT_SUCCESS"
  | .failure => "PROPOSAL_EXECUTOR_RESULT_FAILURE"

/-- A proposal to a policy, with the outcome of its voting and of its execution. -/
structure Proposal where
  id : UInt64
  policy : Address
  status : ProposalStatus
  /-- No execution is permitted before this time. -/
  votingPeriodEnd : Int64
  result : ExecutorResult
  deriving DecidableEq, Repr

/-- A group and its administrator. -/
structure Group where
  id : UInt64
  admin : Address
  deriving DecidableEq, Repr

/-- A decision policy, known by its address, and the group it belongs to. -/
structure Policy where
  address : Address
  groupId : UInt64
  deriving DecidableEq, Repr

/-- The request to execute a proposal on behalf of `executor`. -/
structure ExecRequest where
  proposalId : UInt64
  executor : Address
  deriving DecidableEq, Repr

end BlockHooks
