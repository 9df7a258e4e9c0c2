/-
BlockHooks/Proofs/Instalments.lean

The cap spreads the executions of one scan over several.

While no listing fails and no execution is refused, capped scans at one time
work through what was eligible at the start, slice by slice.  After any number
of them a first part of it has been executed, and the book is the one in which
just that part was executed at once (`Ledger.afterFirst`).  One more scan takes
the next slice (`Scanner.run_afterFirst`), so a run of scans only adds up the
caps (`afterSteps_scans`).

A scan without a cap executes all of it, and that is where the capped ones
arrive too (`Scanner.capped_scans_eq_one_scan`).
-/
import Mathlib
import BlockHooks.Proofs.Isolation

namespace BlockHooks

namespace MemGroups

variable {g : MemGroups} {time : Int64}

/-! ### Books without hindrances -/

/-- A book of which every listing succeeds, and at the given time every
execution that a scan may ask for. -/
structure Unhindered (g : MemGroups) (time : Int64) : Prop where
  keyed : g.Keyed
  size : g.policyTable.size ≤ UInt64.size
  listed : g.listing.failures = []
  accepting : ∀ p ∈ g.eligible time, g.faults.erroring.contains p.id = false

theorem Unhindered.outcome_eq (h : g.Unhindered time) {p : Proposal} (hp : p ∈ g.eligible time) :
    g.outcome p = ⟨p.id, p.policy, .ok (g.resultOf p.id)⟩ := by
  rw [outcome, answer, h.accepting p hp]
  rfl

/-- Executions leave behind what they have not come to. -/
theorem Unhindered.eligible_executed_take (h : g.Unhindered time) (n : Nat) :
    (g.executed ((g.eligible time).take n)).eligible time = (g.eligible time).drop n := by
  have hnone : ((g.eligible time).take n).filter g.isErroring = [] := by
    refine List.filter_eq_nil_iff.2 fun p hp => ?_
    rw [isErroring, h.accepting p (List.mem_of_mem_take hp)]
    exact Bool.false_ne_true
  rw [MemGroups.eligible_executed_take h.keyed, hnone, List.nil_append]

theorem executed_append (g : MemGroups) (ps qs : List Proposal) :
    g.executed (ps ++ qs) = (g.executed ps).executed qs :=
  List.foldl_append ..

theorem outcome_executed (g : MemGroups) (ps : List Proposal) :
    (g.executed ps).outcome = g.outcome := by
  funext p
  rw [outcome, outcome, answer, answer, resultOf, resultOf, faults_executed]

end MemGroups

/-! ### The first part of what was eligible -/

/-- The ledger when the first `n` proposals that are eligible at a time have
been executed. -/
def Ledger.afterFirst (l : Ledger) (time : Int64) (n : Nat) : Ledger :=
  { l with groups := l.groups.executed ((l.groups.eligible time).take n) }

namespace Ledger

variable {l : Ledger} {time : Int64}

theorem afterFirst_zero (l : Ledger) (time : Int64) : l.afterFirst time 0 = l := by
  rw [afterFirst, List.take_zero]
  rfl

/-- From where all have been executed on nothing changes. -/
theorem afterFirst_of_length_le {n : Nat} (h : (l.groups.eligible time).length ≤ n) :
    l.afterFirst time n
      = { l with groups := l.groups.executed (l.groups.eligible time) } := by
  rw [afterFirst, List.take_of_length_le h]

theorem keyed_afterFirst (h : l.groups.Unhindered time) (n : Nat) :
    (l.afterFirst time n).groups.Keyed :=
  h.keyed.executed _

theorem size_afterFirst (h : l.groups.Unhindered time) (n : Nat) :
    (l.afterFirst time n).groups.policyTable.size ≤ UInt64.size := by
  rw [afterFirst, MemGroups.policyTable_executed]
  exact h.size

end Ledger

namespace Scanner

variable {s : Scanner} {cap : UInt32} {l : Ledger} {block : BlockContext} {time : Int64}

theorem listedEligible_afterFirst (h : l.groups.Unhindered time) (htime : block.time = time)
    (n : Nat) :
    listedEligible block (l.afterFirst time n).groups = (l.groups.eligible time).drop n := by
  rw [listedEligible_of_failures_nil block (Ledger.keyed_afterFirst h n)
    (MemGroups.failures_executed h.keyed h.listed _), htime]
  exact h.eligible_executed_take n

theorem selection_afterFirst (h : l.groups.Unhindered time)
    (hcap : s.config.maxExecutions = some cap) (htime : block.time = time) (n : Nat) :
    s.selection block (l.afterFirst time n).groups
      = ((l.groups.eligible time).drop n).take cap.toNat := by
  rw [selection, listedEligible_afterFirst h htime, withinCap, hcap]

/-- A capped scan takes the next slice. -/
theorem run_afterFirst (h : l.groups.Unhindered time) (hcap : s.config.maxExecutions = some cap)
    (htime : block.time = time) (n : Nat) :
    (s.run block).run (l.afterFirst time n)
      = (s.reportOn block (l.afterFirst time n).groups, l.afterFirst time (n + cap.toNat)) := by
  rw [run_run s block (Ledger.keyed_afterFirst h n) (Ledger.size_afterFirst h n),
    selection_afterFirst h hcap htime]
  -- the first part and the slice after it are one longer first part
  show (_, { l with groups := (l.groups.executed _).executed _ }) = _
  rw [← MemGroups.executed_append, ← List.take_add]
  rfl

/-- The report of a capped scan is about its slice. -/
theorem outcomes_reportOn_afterFirst (h : l.groups.Unhindered time)
    (hcap : s.config.maxExecutions = some cap) (htime : block.time = time) (n : Nat) :
    (s.reportOn block (l.afterFirst time n).groups).outcomes
      = (((l.groups.eligible time).drop n).take cap.toNat).map
          fun p => ⟨p.id, p.policy, .ok (l.groups.resultOf p.id)⟩ := by
  show (s.selection block (l.afterFirst time n).groups).map (l.afterFirst time n).groups.outcome = _
  rw [selection_afterFirst h hcap htime, Ledger.afterFirst, MemGroups.outcome_executed]
  exact List.map_congr_left fun p hp =>
    h.outcome_eq (List.mem_of_mem_drop (List.mem_of_mem_take hp))

theorem deferred_reportOn_afterFirst (h : l.groups.Unhindered time)
    (hcap : s.config.maxExecutions = some cap) (htime : block.time = time) (n : Nat) :
    (s.reportOn block (l.afterFirst time n).groups).deferred
      = (l.groups.eligible time).length - min (n + cap.toNat) (l.groups.eligible time).length := by
  show (listedEligible block _).length - (s.selection block _).length = _
  rw [listedEligible_afterFirst h htime, selection_afterFirst h hcap htime, List.length_take,
    List.length_drop]
  omega

/-- A scan without a cap executes everything. -/
theorem run_uncapped (h : l.groups.Unhindered time) (hcap : s.config.maxExecutions = none)
    (htime : block.time = time) :
    ((s.run block).run l).2
      = { l with groups := l.groups.executed (l.groups.eligible time) } := by
  rw [run_run s block h.keyed h.size, selection_of_failures_nil hcap block h.keyed h.listed, htime]

theorem cap_pos (s : Scanner) (hcap : s.config.maxExecutions = some cap) : 0 < cap.toNat := by
  have hvalid := s.valid
  rw [ScanConfig.validate, if_neg s.pageLimit_ne_zero] at hvalid
  by_contra hzero
  have hcap' : cap = 0 := UInt32.toNat_inj.1 (Nat.eq_zero_of_not_pos hzero)
  rw [hcap, hcap', if_pos rfl] at hvalid
  cases hvalid

end Scanner

/-! ### Scans one after another -/

/-- Capped scans add up their caps. -/
theorem afterSteps_scans {s : Scanner} {cap : UInt32} (hcap : s.config.maxExecutions = some cap)
    {l : Ledger} {time : Int64} (h : l.groups.Unhindered time) {blocks : List BlockContext}
    (htime : ∀ block ∈ blocks, block.time = time) (n : Nat) :
    afterSteps (l.afterFirst time n) (blocks.map (.scan s))
      = l.afterFirst time (n + blocks.length * cap.toNat) := by
  induction blocks generalizing n with
  | nil =>
    rw [List.length_nil, Nat.zero_mul, Nat.add_zero]
    rfl
  | cons block blocks ih =>
    obtain ⟨hfirst, hrest⟩ := List.forall_mem_cons.1 htime
    rw [List.map_cons, afterSteps, BookStep.perform, Scanner.run_afterFirst h hcap hfirst,
      ih hrest, List.length_cons, Nat.succ_mul, Nat.add_assoc, Nat.add_comm cap.toNat]

/-- **Capped scans spread over blocks are one scan.**  Of a book that lists
everything and refuses nothing, scans at one time with the same cap execute
the eligible proposals slice by slice, in the order of the listing, and each
reports as deferred what stands behind its slice.  When there have been as
many scans as there are slices, the ledger is the one that a single scan
without a cap would have left, and further scans execute nothing. -/
theorem Scanner.capped_scans_eq_one_scan (s whole : Scanner) (cap : UInt32)
    (hcap : s.config.maxExecutions = some cap) (hwhole : whole.config.maxExecutions = none)
    (l : Ledger) (hbuilt : l.groups.Built) (hsize : l.groups.policyTable.size ≤ UInt64.size)
    (hlisted : l.groups.listing.failures = [])
    (haccepting : ∀ id p, l.groups.proposalTable.get? id = some p →
      l.groups.faults.erroring.contains id = false)
    (time : Int64) (blocks : List BlockContext) (htimes : ∀ block ∈ blocks, block.time = time)
    (block : BlockContext) (htime : block.time = time) :
    ∃ l' report next, l' = afterSteps l (blocks.map (.scan s)) ∧
      (s.run block).run l' = (report, next) ∧
      report.outcomes
        = (((l.groups.eligible time).drop (blocks.length * cap.toNat)).take cap.toNat).map
            (fun p => ⟨p.id, p.policy, .ok (l.groups.resultOf p.id)⟩) ∧
      report.deferred = (l.groups.eligible time).length
        - min ((blocks.length + 1) * cap.toNat) (l.groups.eligible time).length ∧
      next.groups.execCalls
        = l'.groups.execCalls ++ report.outcomes.map (fun o => ⟨o.proposalId, o.policy⟩) ∧
      ((l.groups.eligible time).length ⌈/⌉ cap.toNat ≤ blocks.length →
        l' = ((whole.run block).run l).2 ∧ report.outcomes = [] ∧ next = l') := by
  have hk := hbuilt.keyed
  have h : l.groups.Unhindered time := ⟨hk, hsize, hlisted, fun p hp =>
    haccepting p.id p (MemGroups.get?_of_mem_eligible hk hp)⟩
  have hafter : afterSteps l (blocks.map (.scan s))
      = l.afterFirst time (blocks.length * cap.toNat) := by
    have hscans := afterSteps_scans hcap h htimes 0
    rwa [Ledger.afterFirst_zero, Nat.zero_add] at hscans
  rw [hafter]
  refine ⟨_, _, _, rfl, run_afterFirst h hcap htime _,
    outcomes_reportOn_afterFirst h hcap htime _, ?_, ?_, fun hdone => ?_⟩
  · rw [deferred_reportOn_afterFirst h hcap htime, Nat.succ_mul]
  · have hnext := groups_run s block (Ledger.keyed_afterFirst h (blocks.length * cap.toNat))
      (Ledger.size_afterFirst h _)
    rw [run_afterFirst h hcap htime] at hnext
    rw [hnext]
    exact execCalls_reportOn ..
  · -- the slices so far are all there is, so the next one is empty
    rw [ceilDiv_le_iff_le_mul (s.cap_pos hcap), Nat.mul_comm] at hdone
    have hall := Ledger.afterFirst_of_length_le hdone
    refine ⟨?_, ?_, ?_⟩
    · rw [hall, run_uncapped h hwhole htime]
    · rw [outcomes_reportOn_afterFirst h hcap htime, List.drop_of_length_le hdone, List.take_nil,
        List.map_nil]
    · rw [hall, Ledger.afterFirst_of_length_le (hdone.trans (Nat.le_add_right _ _))]

namespace Scenario

/-- Every listing succeeds and no execution is refused, though one ends in
failure. -/
def soundLedger : Ledger :=
  ⟨.empty, .empty, { additions with faults := ⟨[3], [], false, [], []⟩ }⟩

end Scenario

open Scenario in
/-- Three proposals are eligible and the cap is two: the second scan executes
the one that the first deferred, and the third one finds what a scan without
a cap would have left. -/
theorem Scanner.capped_scans_eq_one_scan_soundLedger :
    scanner.config.maxExecutions = some 2 ∧ uncapped.config.maxExecutions = none ∧
      soundLedger.groups.Built ∧ soundLedger.groups.policyTable.size ≤ UInt64.size ∧
      soundLedger.groups.listing.failures = [] ∧
      (∀ id p, soundLedger.groups.proposalTable.get? id = some p →
        soundLedger.groups.faults.erroring.contains id = false) ∧
      (soundLedger.groups.eligible 200).map Proposal.id = [2, 3, 1] ∧
      (∃ (report : ScanReport) (next : Ledger),
        (scanner.run ⟨9, 200⟩).run (afterSteps soundLedger [.scan scanner ⟨8, 200⟩])
          = (report, next) ∧
        report.outcomes = [⟨1, policyB, .ok .success⟩] ∧ report.deferred = 0) ∧
      ∃ (report : ScanReport) (next : Ledger),
        (scanner.run ⟨10, 200⟩).run
          (afterSteps soundLedger [.scan scanner ⟨8, 200⟩, .scan scanner ⟨9, 200⟩])
            = (report, next) ∧
        report.outcomes = [] ∧ next = ((uncapped.run ⟨10, 200⟩).run soundLedger).2 := by
  have hbuilt : soundLedger.groups.Built := built_additions.setFaults _
  have hsize : soundLedger.groups.policyTable.size ≤ UInt64.size := by
    decide
  have hlisted : soundLedger.groups.listing.failures = [] := by
    decide +kernel
  have haccepting : ∀ id p, soundLedger.groups.proposalTable.get? id = some p →
      soundLedger.groups.faults.erroring.contains id = false := fun _ _ _ => rfl
  have heligible : soundLedger.groups.eligible 200 = [⟨2, policyA, .accepted, 100, .notRun⟩,
      ⟨3, policyA, .accepted, 200, .notRun⟩, ⟨1, policyB, .accepted, 100, .notRun⟩] := by
    decide +kernel
  refine ⟨rfl, rfl, hbuilt, hsize, hlisted, haccepting, by rw [heligible]; rfl, ?_, ?_⟩
  · obtain ⟨_, report, next, rfl, hrun, houtcomes, hdeferred, -⟩ :=
      Scanner.capped_scans_eq_one_scan scanner uncapped 2 rfl rfl soundLedger hbuilt hsize hlisted
        haccepting 200 [⟨8, 200⟩] (by decide) ⟨9, 200⟩ rfl
    refine ⟨report, next, hrun, ?_, ?_⟩
    · rw [houtcomes, heligible]
      rfl
    · rw [hdeferred, heligible]
      rfl
  · obtain ⟨_, report, next, rfl, hrun, -, -, -, hdone⟩ :=
      Scanner.capped_scans_eq_one_scan scanner uncapped 2 rfl rfl soundLedger hbuilt hsize hlisted
        haccepting 200 [⟨8, 200⟩, ⟨9, 200⟩] (by decide) ⟨10, 200⟩ rfl
    obtain ⟨hwhole, hnone, hsame⟩ := hdone (by rw [heligible]; decide +kernel)
    exact ⟨report, next, hrun, hnone, hsame.trans hwhole⟩

end BlockHooks
