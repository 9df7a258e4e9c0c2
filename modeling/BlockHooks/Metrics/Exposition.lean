/-
BlockHooks/Metrics/Exposition.lean

The metrics as text for a scraper.

Each metric has a line of help, a line that tells whether it is a counter or
a gauge, a line with its value or one line per label, and an empty line.
-/
import BlockHooks.Metrics.Basic

namespace BlockHooks

/-- The metrics at one moment. -/
structure MetricsSnapshot where
  txAdmitted : UInt64
  txRejectedByCode : List (UInt32 × UInt64)
  settlementHeight : Int64
  yieldTransferred : UInt64
  yieldDeferredBlocks : UInt64
  yieldPoolSwept : UInt64
  dustNanoUnits : Int64
  proposalsScanned : Int64
  proposalsExecuted : UInt64
  proposalsFailed : UInt64
  proposalsDeferred : UInt64
  proposalListingFailures : UInt64

/-- The metrics as they are now, rejections by ascending code. -/
def HookMetrics.snapshot (m : HookMetrics) : MetricsSnapshot where
  txAdmitted := m.txAdmitted
  txRejectedByCode := m.txRejected.toList
  settlementHeight := m.settlementHeight
  yieldTransferred := m.yieldTransferred
  yieldDeferredBlocks := m.yieldDeferredBlocks
  yieldPoolSwept := m.yieldPoolSwept
  dustNanoUnits := m.dustNanoUnits
  proposalsScanned := m.proposalsScanned
  proposalsExecuted := m.proposalsExecuted
  proposalsFailed := m.proposalsFailed
  proposalsDeferred := m.proposalsDeferred
  proposalListingFailures := m.proposalListingFailures

namespace Exposition

/-- The two lines that introduce a metric. -/
def header (d : Description) (kind : String) : String :=
  s!"# HELP {d.name} {d.help}\n# TYPE {d.name} {kind}\n"

/-- The lines of a counter. -/
def counterText (c : Counter) (value : UInt64) : String :=
  header c.description "counter" ++ s!"{c.description.name} {value}\n\n"

/-- The lines of a gauge. -/
def gaugeText (g : Gauge) (value : Int64) : String :=
  header g.description "gauge" ++ s!"{g.description.name} {value}\n\n"

/-- One count with its label. -/
def labelled (d : Description) (label : String) (e : UInt32 × UInt64) : String :=
  s!"{d.name}\x7b{label}=\"{e.1}\"\x7d {e.2}\n"

/-- The lines of a metric that has one count per label. -/
def labelledText (d : Description) (label : String) (counts : List (UInt32 × UInt64)) :
    String :=
  header d "counter" ++ String.join (counts.map (labelled d label)) ++ "\n"

end Exposition

open Exposition in
/-- The text of all metrics. -/
def MetricsSnapshot.text (s : MetricsSnapshot) : String :=
  String.join [
    counterText .txAdmitted s.txAdmitted,
    labelledText rejections rejectionLabel s.txRejectedByCode,
    gaugeText .settlementHeight s.settlementHeight,
    counterText .yieldTransferred s.yieldTransferred,
    counterText .yieldDeferredBlocks s.yieldDeferredBlocks,
    counterText .yieldPoolSwept s.yieldPoolSwept,
    gaugeText .dustNanoUnits s.dustNanoUnits,
    gaugeText .proposalsScanned s.proposalsScanned,
    counterText .proposalsExecuted s.proposalsExecuted,
    counterText .proposalsFailed s.proposalsFailed,
    counterText .proposalsDeferred s.proposalsDeferred,
    counterText .proposalListingFailures s.proposalListingFailures]

end BlockHooks
