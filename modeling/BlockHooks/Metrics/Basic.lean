/-
BlockHooks/Metrics/Basic.lean

Counters and gauges of the hooks.

A counter is a word that only grows, and starts again at zero after the
largest word.  A gauge is a signed word that is set.  Rejections are counted
per code; these counts stop at the largest word, and so does their total.
-/
import BlockHooks.Amount
import BlockHooks.Table

namespace BlockHooks

/-! ### Counts per label -/

/-- Counts by a numeric label. -/
structure LabelCounts where
  counts : Table UInt32 UInt64

namespace LabelCounts

/-- Nothing counted yet. -/
def empty : LabelCounts := ⟨Table.empty⟩

instance : Inhabited LabelCounts := ⟨empty⟩

/-- The count under a label; zero if nothing was counted there. -/
def get (c : LabelCounts) (label : UInt32) : UInt64 := (c.counts.get? label).getD 0

/-- Counts one more under a label. -/
def bump (c : LabelCounts) (label : UInt32) : LabelCounts :=
  ⟨c.counts.insert label (addCapped (c.get label) 1)⟩

/-- The sum of all counts. -/
def total (c : LabelCounts) : UInt64 := c.counts.values.foldl addCapped 0

/-- The counts by ascending label. -/
def toList (c : LabelCounts) : List (UInt32 × UInt64) := c.counts.entries

end LabelCounts

/-! ### Names -/

/-- The metrics that only grow.  Rejections, which are counted per code, are not
among them. -/
inductive Counter where
  | txAdmitted
  | yieldTransferred
  | yieldDeferredBlocks
  | yieldPoolSwept
  | proposalsExecuted
  | proposalsFailed
  | proposalsDeferred
  | proposalListingFailures
  deriving DecidableEq, Repr

/-- The metrics that are set. -/
inductive Gauge where
  | settlementHeight
  | dustNanoUnits
  | proposalsScanned
  deriving DecidableEq, Repr

/-- The name under which a metric is published, and what it means. -/
structure Description where
  name : String
  help : String
  deriving DecidableEq, Repr

/-- Name and meaning of each counter. -/
def Counter.description : Counter → Description
  | .txAdmitted =>
    ⟨"vrn_tx_admitted_total", "Transactions that passed the admission pipeline"⟩
  | .yieldTransferred =>
    ⟨"vrn_yield_transferred_total",
      "Whole units moved from the yield pool to the trust deposit"⟩
  | .yieldDeferredBlocks =>
    ⟨"vrn_yield_deferred_blocks_total",
      "Blocks whose due yield transfer was deferred for lack of yield pool funds"⟩
  | .yieldPoolSwept =>
    ⟨"vrn_yield_pool_swept_total", "Units returned from the yield pool to the community pool"⟩
  | .proposalsExecuted =>
    ⟨"vrn_proposals_executed_total", "Proposals executed successfully by the auto-executor"⟩
  | .proposalsFailed =>
    ⟨"vrn_proposals_failed_total", "Auto-executed proposals that failed or returned an error"⟩
  | .proposalsDeferred =>
    ⟨"vrn_proposals_deferred_total",
      "Eligible proposals left for a later block by the per-block cap"⟩
  | .proposalListingFailures =>
    ⟨"vrn_proposal_listing_failures_total",
      "Group, policy or proposal listings that failed during an auto-execution scan"⟩

/-- Name and meaning of each gauge. -/
def Gauge.description : Gauge → Description
  | .settlementHeight => ⟨"vrn_settlement_height", "Height of the last settled block"⟩
  | .dustNanoUnits =>
    ⟨"vrn_trust_deposit_dust_nano_units", "Pending sub-unit yield in units of 1e-9"⟩
  | .proposalsScanned =>
    ⟨"vrn_proposals_scanned", "Proposals visited by the last auto-execution scan"⟩

/-- The metric of rejections, counted per code. -/
def rejections : Description :=
  ⟨"vrn_tx_rejected_total", "Transactions rejected by the admission pipeline, by reason code"⟩

/-- What the label of a count of rejections is called. -/
def rejectionLabel : String := "code"

/-! ### Values -/

/-- The values of all metrics. -/
structure HookMetrics where
  txAdmitted : UInt64
  txRejected : LabelCounts
  settlementHeight : Int64
  yieldTransferred : UInt64
  yieldDeferredBlocks : UInt64
  yieldPoolSwept : UInt64
  dustNanoUnits : Int64
  proposalsScanned : Int64
  proposalsExecuted : UInt64
  proposalsFailed : UInt64
  proposalsDeferred : UInt64
  proposalListingFailures : UInt64

namespace HookMetrics

/-- All metrics at zero. -/
def zero : HookMetrics := ⟨0, .empty, 0, 0, 0, 0, 0, 0, 0, 0, 0, 0⟩

instance : Inhabited HookMetrics := ⟨zero⟩

/-- The value of a counter. -/
def counter (m : HookMetrics) : Counter → UInt64
  | .txAdmitted => m.txAdmitted
  | .yieldTransferred => m.yieldTransferred
  | .yieldDeferredBlocks => m.yieldDeferredBlocks
  | .yieldPoolSwept => m.yieldPoolSwept
  | .proposalsExecuted => m.proposalsExecuted
  | .proposalsFailed => m.proposalsFailed
  | .proposalsDeferred => m.proposalsDeferred
  | .proposalListingFailures => m.proposalListingFailures

/-- The value of a gauge. -/
def gauge (m : HookMetrics) : Gauge → Int64
  | .settlementHeight => m.settlementHeight
  | .dustNanoUnits => m.dustNanoUnits
  | .proposalsScanned => m.proposalsScanned

/-- Adds to a counter. -/
def add (m : HookMetrics) (c : Counter) (n : UInt64) : HookMetrics :=
  match c with
  | .txAdmitted => { m with txAdmitted := m.txAdmitted + n }
  | .yieldTransferred => { m with yieldTransferred := m.yieldTransferred + n }
  | .yieldDeferredBlocks => { m with yieldDeferredBlocks := m.yieldDeferredBlocks + n }
  | .yieldPoolSwept => { m with yieldPoolSwept := m.yieldPoolSwept + n }
  | .proposalsExecuted => { m with proposalsExecuted := m.proposalsExecuted + n }
  | .proposalsFailed => { m with proposalsFailed := m.proposalsFailed + n }
  | .proposalsDeferred => { m with proposalsDeferred := m.proposalsDeferred + n }
  | .proposalListingFailures =>
    { m with proposalListingFailures := m.proposalListingFailures + n }

/-- Sets a gauge. -/
def set (m : HookMetrics) (g : Gauge) (n : Int64) : HookMetrics :=
  match g with
  | .settlementHeight => { m with settlementHeight := n }
  | .dustNanoUnits => { m with dustNanoUnits := n }
  | .proposalsScanned => { m with proposalsScanned := n }

/-- Counts a rejection under its code. -/
def reject (m : HookMetrics) (code : UInt32) : HookMetrics :=
  { m with txRejected := m.txRejected.bump code }

end HookMetrics

/-- The value of a gauge that shows `n`, at most the largest signed word. -/
def gaugeValue (n : Nat) : Int64 := Int64.ofInt (min n maxSigned)

end BlockHooks
