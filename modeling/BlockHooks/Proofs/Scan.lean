/-
BlockHooks/Proofs/Scan.lean

What one scan does.

A scan executes the eligible proposals that it listed, in the order of the
listing and up to the cap (`Scanner.selection`).  They are different from
each other and due, so each gets the answer that the book has for it when
the scan starts, and nothing but the results of these proposals changes
(`Scanner.run_run`).  Of a book without faulty listings all proposals behind
a group are listed, and the report accounts for each of them
(`Scanner.run_exact`).
-/
import Mathlib
import BlockHooks.Proofs.Execution
import BlockHooks.Proofs.Listing

namespace BlockHooks

/-! ### Standings -/

theorem Proposal.standing_eq_eligible_iff {time : Int64} {p : Proposal} :
    p.standing time = .eligible ↔
      p.votingPeriodEnd ≤ time ∧ p.result = .notRun ∧ p.status = .accepted := by
  rw [← Int64.not_lt]
  unfold standing
  split
  next hopen => simp [hopen]
  next hvoted =>
    -- an execution that ended in failure is an execution all the same
    split
    next hresolved =>
      refine ⟨nofun, fun ⟨_, hnot, _⟩ => ?_⟩
      rw [hnot] at hresolved
      cases hresolved
    next hpending =>
      have hnot : p.result = .notRun := by
        cases hresult : p.result with
        | notRun => rfl
        | success | failure =>
          rw [hresult] at hpending
          exact absurd rfl hpending
      split
      next haccepted => exact ⟨fun _ => ⟨hvoted, hnot, haccepted⟩, fun _ => rfl⟩
      next hother => exact ⟨nofun, fun ⟨_, _, h⟩ => absurd h hother⟩

theorem Proposal.filter_standing_eq (time : Int64) (ps : List Proposal) :
    (ps.filter fun p => p.standing time == .eligible) = ps.filter fun p =>
      decide (p.votingPeriodEnd ≤ time ∧ p.result = .notRun ∧ p.status = .accepted) := by
  refine List.filter_congr fun p _ => ?_
  rw [Bool.eq_iff_iff, beq_iff_eq, decide_eq_true_iff, standing_eq_eligible_iff]

/-- The proposals behind groups that may be executed and never were. -/
def MemGroups.eligible (g : MemGroups) (time : Int64) : List Proposal :=
  g.visited.filter fun p =>
    decide (p.votingPeriodEnd ≤ time ∧ p.result = .notRun ∧ p.status = .accepted)

namespace Scanner

theorem countOf_cons (standing : Standing) (time : Int64) (p : Proposal) (ps : List Proposal) :
    countOf standing time (p :: ps)
      = (if p.standing time = standing then 1 else 0) + countOf standing time ps := by
  rw [countOf, List.filter_cons]
  by_cases h : p.standing time = standing
  · rw [if_pos h, if_pos (beq_iff_eq.2 h), List.length_cons, Nat.add_comm]
    rfl
  · rw [if_neg h, if_neg fun h' => h (beq_iff_eq.1 h'), Nat.zero_add]
    rfl

/-- Every proposal stands in one way. -/
theorem countOf_add (time : Int64) (ps : List Proposal) :
    countOf .notYetDue time ps + countOf .alreadyResolved time ps + countOf .notAccepted time ps
      + countOf .eligible time ps = ps.length := by
  induction ps with
  | nil => rfl
  | cons p ps ih =>
    rw [countOf_cons, countOf_cons, countOf_cons, countOf_cons, List.length_cons, ← ih]
    cases p.standing time <;> simp <;> omega

/-! ### What is executed -/

/-- How many of `n` eligible proposals are executed. -/
def quota (s : Scanner) (n : Nat) : Nat :=
  match s.config.maxExecutions with
  | none => n
  | some cap => min cap.toNat n

theorem withinCap_eq_take (s : Scanner) (eligible : List Proposal) :
    s.withinCap eligible = eligible.take (s.quota eligible.length) := by
  rw [withinCap, quota]
  cases s.config.maxExecutions with
  | none => exact List.take_length.symm
  | some cap => exact List.take_eq_take_min ..

/-- The eligible proposals among those that are listed. -/
def listedEligible (block : BlockContext) (g : MemGroups) : List Proposal :=
  g.listing.proposals.filter fun p => p.standing block.time == .eligible

/-- The proposals that a scan executes. -/
def selection (s : Scanner) (block : BlockContext) (g : MemGroups) : List Proposal :=
  s.withinCap (listedEligible block g)

variable {s : Scanner} {block : BlockContext} {g : MemGroups}

theorem selection_sublist : (s.selection block g).Sublist (listedEligible block g) := by
  rw [selection, withinCap_eq_take]
  exact List.take_sublist _ _

theorem standing_of_mem_selection {p : Proposal} (h : p ∈ s.selection block g) :
    p.standing block.time = .eligible := by
  have hmem := selection_sublist.subset h
  exact beq_iff_eq.1 (List.mem_filter.1 hmem).2

theorem notRun_of_mem_selection {p : Proposal} (h : p ∈ s.selection block g) :
    p.result = .notRun :=
  (Proposal.standing_eq_eligible_iff.1 (standing_of_mem_selection h)).2.1

theorem selection_sublist_visited : (s.selection block g).Sublist g.visited :=
  (selection_sublist.trans List.filter_sublist).trans MemGroups.listing_sublist

/-- No proposal is executed twice in a scan. -/
theorem nodup_selection (s : Scanner) (block : BlockContext) (hk : g.Keyed) :
    ((s.selection block g).map Proposal.id).Nodup :=
  hk.nodup_visited.sublist (selection_sublist_visited.map _)

theorem get?_of_mem_selection (hk : g.Keyed) {p : Proposal} (h : p ∈ s.selection block g) :
    g.proposalTable.get? p.id = some p :=
  hk.get?_of_mem_visited (selection_sublist_visited.subset h)

theorem due_of_mem_selection (hk : g.Keyed) {p : Proposal} (h : p ∈ s.selection block g) :
    g.Due block.time p := by
  obtain ⟨hvoted, -, haccepted⟩ :=
    Proposal.standing_eq_eligible_iff.1 (standing_of_mem_selection h)
  exact ⟨get?_of_mem_selection hk h, haccepted, Int64.not_lt.2 hvoted⟩

/-! ### The scan -/

/-- The report of a scan of the book. -/
def reportOn (s : Scanner) (block : BlockContext) (g : MemGroups) : ScanReport where
  height := block.height
  scanned := g.listing.proposals.length
  notYetDue := countOf .notYetDue block.time g.listing.proposals
  alreadyResolved := countOf .alreadyResolved block.time g.listing.proposals
  notAccepted := countOf .notAccepted block.time g.listing.proposals
  deferred := (listedEligible block g).length - (s.selection block g).length
  outcomes := (s.selection block g).map g.outcome
  listingFailures := g.listing.failures

/-- The outcomes of a scan are those of the executions it asked for. -/
theorem execCalls_reportOn (s : Scanner) (block : BlockContext) (g : MemGroups) :
    (g.executed (s.selection block g)).execCalls = g.execCalls
      ++ (s.reportOn block g).outcomes.map fun o => ⟨o.proposalId, o.policy⟩ := by
  show _ = _ ++ ((s.selection block g).map g.outcome).map _
  rw [List.map_map]
  exact MemGroups.execCalls_executed ..

/-- What is eligible and not executed is deferred. -/
theorem reportOn_deferred (s : Scanner) (block : BlockContext) (g : MemGroups) :
    (s.reportOn block g).deferred + (s.reportOn block g).outcomes.length
      = (listedEligible block g).length := by
  show (listedEligible block g).length - (s.selection block g).length
    + ((s.selection block g).map g.outcome).length = _
  rw [List.length_map]
  exact Nat.sub_add_cancel selection_sublist.length_le

/-- A report accounts for every proposal that was listed. -/
theorem reportOn_scanned (s : Scanner) (block : BlockContext) (g : MemGroups) :
    (s.reportOn block g).scanned
      = (s.reportOn block g).notYetDue + (s.reportOn block g).alreadyResolved
        + (s.reportOn block g).notAccepted + (s.reportOn block g).deferred
        + (s.reportOn block g).outcomes.length := by
  rw [Nat.add_assoc, reportOn_deferred]
  exact (countOf_add block.time g.listing.proposals).symm

theorem pageLimit_ne_zero (s : Scanner) : s.config.pageLimit ≠ 0 := by
  intro h
  have hvalid := s.valid
  rw [ScanConfig.validate, if_pos h] at hvalid
  cases hvalid

theorem run_report (level : Level) (text : String) (l : Ledger) :
    (report level text).run l = ((), l) :=
  rfl

/-- A scan as a function of the book. -/
theorem run_run (s : Scanner) (block : BlockContext) {l : Ledger} (hk : l.groups.Keyed)
    (hsize : l.groups.policyTable.size ≤ UInt64.size) :
    (s.run block).run l = (s.reportOn block l.groups,
      { l with groups := l.groups.executed (s.selection block l.groups) }) := by
  have hlist := run_listAll s.pageLimit_ne_zero hsize
  have hexecute := run_executeAll (nodup_selection s block hk)
    fun p hp => due_of_mem_selection hk hp
  rw [run, Action.run_state_bind, run_report, Action.run_state_bind, hlist]
  show (executeAll block (s.selection block l.groups) >>= fun outcomes => _).run l = _
  rw [Action.run_state_bind, hexecute]
  -- what is deferred is told to the log, and the log is no part of a ledger
  show StateT.run (if 0 < _ then _ else _) _ = _
  split
  · rw [Action.run_state_bind, run_report]
    simp only [reportOn, List.length_map]
    rfl
  · simp only [reportOn, List.length_map]
    rfl

/-- The book that a scan leaves. -/
theorem groups_run (s : Scanner) (block : BlockContext) {l : Ledger} (hk : l.groups.Keyed)
    (hsize : l.groups.policyTable.size ≤ UInt64.size) :
    ((s.run block).run l).2.groups = l.groups.executed (s.selection block l.groups) := by
  rw [run_run s block hk hsize]

/-! ### Books without faulty listings -/

theorem listedEligible_eq (block : BlockContext) (hk : g.Keyed) (hlistable : g.Listable) :
    listedEligible block g = g.eligible block.time := by
  rw [listedEligible, hlistable.listing_eq hk, Proposal.filter_standing_eq, MemGroups.eligible]

theorem selection_eq (s : Scanner) (block : BlockContext) (hk : g.Keyed)
    (hlistable : g.Listable) :
    s.selection block g
      = (g.eligible block.time).take (s.quota (g.eligible block.time).length) := by
  rw [selection, withinCap_eq_take, listedEligible_eq block hk hlistable]

/-- **One scan is exactly the specified scan.**  Of a book without faulty
listings it visits the proposals of the policies of all groups, each once,
and executes the first of the eligible ones, as many as the cap allows.  The
report accounts for every proposal visited, and nothing changes but the
results of the proposals executed and the record of executions. -/
theorem run_exact (s : Scanner) (block : BlockContext) (l : Ledger) (hbuilt : l.groups.Built)
    (hsize : l.groups.policyTable.size ≤ UInt64.size) (hlistable : l.groups.Listable) :
    ∃ report after executed, (s.run block).run l = (report, after) ∧
      executed = (l.groups.eligible block.time).take
        (s.quota (l.groups.eligible block.time).length) ∧
      after.groups.execCalls
        = l.groups.execCalls ++ executed.map (fun p => ⟨p.id, p.policy⟩) ∧
      report.outcomes = executed.map (fun p => ⟨p.id, p.policy,
        if l.groups.faults.erroring.contains p.id then .error (.execution p.id .injected)
        else if l.groups.faults.failing.contains p.id then .ok .failure
        else .ok .success⟩) ∧
      report.scanned = l.groups.visited.length ∧
      report.scanned = report.notYetDue + report.alreadyResolved + report.notAccepted
        + report.deferred + report.outcomes.length ∧
      report.deferred + report.outcomes.length = (l.groups.eligible block.time).length ∧
      report.listingFailures = [] ∧
      (l.groups.visited.map Proposal.id).Nodup ∧
      (∀ id, after.groups.proposalTable.get? id =
        if id ∈ executed.map Proposal.id ∧ l.groups.faults.erroring.contains id = false then
          (l.groups.proposalTable.get? id).map fun p =>
            { p with
              result := if l.groups.faults.failing.contains id then .failure else .success }
        else l.groups.proposalTable.get? id) ∧
      after = { l with
        groups := { l.groups with
          execCalls := after.groups.execCalls
          proposalTable := after.groups.proposalTable } } := by
  have hk := hbuilt.keyed
  -- without faults the listing is what is visited, and the selection is cut from it
  have hselection := selection_eq s block hk hlistable
  have hlisting := hlistable.listing_eq hk
  have haccount := reportOn_scanned s block l.groups
  have hdeferred := reportOn_deferred s block l.groups
  rw [listedEligible_eq block hk hlistable] at hdeferred
  refine ⟨_, _, s.selection block l.groups, run_run s block hk hsize, hselection,
    MemGroups.execCalls_executed .., ?_, ?_, haccount, hdeferred, ?_, hk.nodup_visited,
    MemGroups.get?_executed (nodup_selection s block hk) fun p hp => get?_of_mem_selection hk hp, ?_⟩
  · refine List.map_congr_left fun p _ => ?_
    rw [MemGroups.outcome, MemGroups.answer_eq]
  · show l.groups.listing.proposals.length = _
    rw [hlisting]
  · show l.groups.listing.failures = _
    rw [hlisting]
  · exact congrArg (fun g => { l with groups := g }) (MemGroups.executed_eq ..)

end Scanner

namespace Scenario

/-! ### A scan -/

/-- A policy of the first group. -/
def policyA : Address := ⟨"verana1a"⟩

/-- A policy of the second group. -/
def policyB : Address := ⟨"verana1b"⟩

/-- Three of the proposals are eligible at time 200; the execution of the
second one is refused and that of the third one fails. -/
def additions : MemGroups :=
  MemGroups.empty
    |>.addGroup 1 ⟨"verana1admin"⟩
    |>.addGroup 2 ⟨"verana1admin"⟩
    |>.addPolicy 2 policyB
    |>.addPolicy 1 policyA
    |>.addPolicy 9 ⟨"verana1orphan"⟩
    |>.addProposal ⟨1, policyB, .accepted, 100, .notRun⟩
    |>.addProposal ⟨2, policyA, .accepted, 100, .notRun⟩
    |>.addProposal ⟨3, policyA, .accepted, 200, .notRun⟩
    |>.addProposal ⟨4, policyA, .submitted, 100, .notRun⟩
    |>.addProposal ⟨5, ⟨"verana1orphan"⟩, .accepted, 100, .notRun⟩
    |>.addProposal ⟨6, policyB, .accepted, 100, .success⟩
    |>.addProposal ⟨7, policyA, .accepted, 300, .notRun⟩

theorem built_additions : additions.Built :=
  .addProposal _ <| .addProposal _ <| .addProposal _ <| .addProposal _ <| .addProposal _ <|
    .addProposal _ <| .addProposal _ <| .addPolicy _ _ <| .addPolicy _ _ <| .addPolicy _ _ <|
    .addGroup _ _ <| .addGroup _ _ <| .empty

/-- The additions, with the faults that make the one execution fail and the
other one be refused. -/
def book : MemGroups := { additions with faults := ⟨[3], [2], false, [], []⟩ }

theorem built_book : book.Built := built_additions.setFaults _

/-- Pages of one item, two executions in a block. -/
def scanner : Scanner := ⟨⟨1, some 2⟩, by decide⟩

end Scenario

open Scenario in
theorem Scanner.run_exact_capped :
    book.Built ∧ book.policyTable.size ≤ UInt64.size ∧ book.Listable ∧
      ∃ (report : ScanReport) (after : Ledger),
        (scanner.run ⟨8, 200⟩).run ⟨.empty, .empty, book⟩ = (report, after) ∧
        report.outcomes = [⟨2, policyA, .error (.execution 2 .injected)⟩,
          ⟨3, policyA, .ok .failure⟩] ∧
        report.scanned = 6 ∧ report.deferred = 1 ∧
        after.groups.execCalls = [⟨2, policyA⟩, ⟨3, policyA⟩] ∧
        after.groups.proposalTable.get? 3
          = some ⟨3, policyA, .accepted, 200, .failure⟩ := by
  have hsize : book.policyTable.size ≤ UInt64.size := by decide
  have hlistable : book.Listable := ⟨rfl, rfl, rfl⟩
  obtain ⟨report, after, executed, hrun, hexecuted, hcalls, houtcomes, hscanned, -, hdeferred,
    -, -, hproposals, -⟩ :=
    Scanner.run_exact scanner ⟨8, 200⟩ ⟨.empty, .empty, book⟩ built_book hsize hlistable
  have hthree : (book.eligible 200).length = 3 := by decide +kernel
  have htaken : executed
      = [⟨2, policyA, .accepted, 100, .notRun⟩, ⟨3, policyA, .accepted, 200, .notRun⟩] := by
    rw [hexecuted]
    decide +kernel
  subst htaken
  refine ⟨built_book, hsize, hlistable, report, after, hrun, houtcomes, ?_, ?_, hcalls, ?_⟩
  · rw [hscanned]
    decide +kernel
  · rw [houtcomes] at hdeferred
    exact Nat.add_right_cancel (hdeferred.trans hthree)
  · rw [hproposals]
    decide +kernel

end BlockHooks
