/-
BlockHooks/Scan/Json.lean

The JSON form of the scan's configuration.  Every field may be left out.
-/
import BlockHooks.Json.Basic
import BlockHooks.Scan.Config

namespace BlockHooks

open Json

/-- The configuration as far as it was read. -/
structure ScanConfig.Draft where
  pageLimit : Option UInt64
  maxExecutions : Option (Option UInt32)

/-- Page size and cap; one that is left out has its default, and a cap of `null`
is none. -/
def ScanConfig.shape : RecordShape ScanConfig.Draft ScanConfig where
  name := "AutoExecConfig"
  start := ⟨none, none⟩
  fields := [
    .of "page_limit" (·.pageLimit) fun a d => { d with pageLimit := some a },
    .of "max_executions_per_block" (·.maxExecutions)
      fun a d => { d with maxExecutions := some a }]
  complete d := .ok
    ⟨d.pageLimit.getD ScanConfig.default.pageLimit,
      d.maxExecutions.getD ScanConfig.default.maxExecutions⟩

instance : Readable ScanConfig := ⟨ScanConfig.shape.read⟩

instance : Writable ScanConfig where
  chars c := objectChars [
    member "page_limit" c.pageLimit,
    member "max_executions_per_block" c.maxExecutions]

end BlockHooks
