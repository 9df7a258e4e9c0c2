/-
BlockHooks/Scan/Config.lean

How the scan for due proposals is set up.

Listings are read in pages of a positive size.  The number of executions in
a block may be bounded by a positive cap.
-/
import BlockHooks.Group.Keeper

namespace BlockHooks

/-- How listings are read, and how much is executed. -/
structure ScanConfig where
  /-- The page size of every listing. -/
  pageLimit : UInt64
  /-- The largest number of executions in a block; none if unbounded. -/
  maxExecutions : Option UInt32
  deriving DecidableEq, Repr

/-- What is wrong with a configuration. -/
inductive ScanConfigFault where
  | zeroPageLimit
  | zeroCap
  deriving DecidableEq, Repr

/-- How a fault of a configuration is told. -/
def ScanConfigFault.message : ScanConfigFault → String
  | .zeroPageLimit => "page_limit must be > 0"
  | .zeroCap => "max_executions_per_block must be > 0 when set"

/-- A listing that failed, or a configuration that is not valid. -/
inductive ScanError where
  | listGroups (cause : GroupError)
  | listPolicies (groupId : UInt64) (cause : GroupError)
  | listProposals (policy : Address) (cause : GroupError)
  | invalidConfig (fault : ScanConfigFault)
  deriving DecidableEq, Repr

/-- How an error of the scan is told, with the words of its cause. -/
def ScanError.message : ScanError → String
  | .listGroups cause => s!"failed to list groups: {cause.message}"
  | .listPolicies groupId cause =>
    s!"failed to list policies of group {groupId}: {cause.message}"
  | .listProposals policy cause =>
    s!"failed to list proposals of policy {policy.text}: {cause.message}"
  | .invalidConfig fault => s!"invalid auto-execution configuration: {fault.message}"

namespace ScanConfig

/-- Pages of a hundred, no cap. -/
def default : ScanConfig := ⟨100, none⟩

instance : Inhabited ScanConfig := ⟨default⟩

/-- Neither the page size nor the cap may be zero; the page size is looked at
first. -/
def validate (c : ScanConfig) : Except ScanError Unit :=
  if c.pageLimit = 0 then .error (.invalidConfig .zeroPageLimit)
  else if c.maxExecutions = some 0 then .error (.invalidConfig .zeroCap)
  else .ok ()

end ScanConfig

end BlockHooks
