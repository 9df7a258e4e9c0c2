/-
BlockHooks/Proofs/Agreement.lean

The scan, the admission and the book agree on what may be executed.

Each of the three has a check of its own, and each makes it in another order:
the admission looks at the voting before the status, the book at the status
before the voting, and the scan asks in between whether there is a result.
They come to the same: a proposal may be executed if it is due
(`MemGroups.Due`).  The admission lets through exactly what is due
(`Ledger.admitsExec_iff`), the book executes exactly what is due and not
marked as erroring (`MemGroups.Keyed.execute_isOk_iff`), and the scan asks for
exactly what is due, was never executed and belongs to a group
(`MemGroups.Keyed.mem_eligible_iff`).

A scan decides from what it listed before its first execution.  As an
execution leaves other proposals due, the book never turns down what the scan
asks for (`Scanner.run_agrees`).
-/
import Mathlib
import BlockHooks.Proofs.FailClosed
import BlockHooks.Proofs.Isolation

namespace BlockHooks

namespace MemGroups

variable {g : MemGroups} {time : Int64} {p : Proposal}

/-! ### What is due -/

/-- A proposal is looked up under its own number. -/
theorem Keyed.exists_due_iff (hk : g.Keyed) {id : UInt64} :
    (∃ p, g.proposalTable.get? id = some p ∧ p.status = .accepted ∧ ¬ time < p.votingPeriodEnd) ↔
      ∃ p : Proposal, p.id = id ∧ g.Due time p := by
  constructor
  · rintro ⟨p, hfound, haccepted, hvoted⟩
    have hid : p.id = id := hk.proposals id p hfound
    exact ⟨p, hid, hid ▸ hfound, haccepted, hvoted⟩
  · rintro ⟨p, hid, hdue⟩
    exact ⟨p, hid ▸ hdue.found, hdue.accepted, hdue.voted⟩

/-! ### The scan -/

/-- The policy is in the book, and so is its group. -/
def Registered (g : MemGroups) (policy : Address) : Prop :=
  ∃ q, g.policyTable.get? policy = some q ∧ g.groupTable.contains q.groupId = true

theorem Keyed.mem_policiesOf_iff (hk : g.Keyed) {groupId : UInt64} {q : Policy} :
    q ∈ g.policiesOf groupId ↔ g.policyTable.get? q.address = some q ∧ q.groupId = groupId := by
  rw [policiesOf, List.mem_filter, hk.policies.mem_values_iff, beq_iff_eq]

theorem Keyed.mem_proposalsOf_iff (hk : g.Keyed) {policy : Address} :
    p ∈ g.proposalsOf policy ↔ g.proposalTable.get? p.id = some p ∧ p.policy = policy := by
  rw [proposalsOf, List.mem_filter, hk.proposals.mem_values_iff, beq_iff_eq]

/-- Those proposals are visited whose policy is registered. -/
theorem Keyed.mem_visited_iff (hk : g.Keyed) :
    p ∈ g.visited ↔ g.proposalTable.get? p.id = some p ∧ g.Registered p.policy := by
  simp only [visited, List.mem_flatMap, hk.mem_policiesOf_iff, hk.mem_proposalsOf_iff]
  constructor
  · rintro ⟨group, hgroup, q, ⟨hq, hsame⟩, hp, hpolicy⟩
    refine ⟨hp, q, hpolicy ▸ hq, ?_⟩
    rw [hsame, Table.contains, hk.groups.get?_of_mem hgroup]
    rfl
  · rintro ⟨hp, q, hq, hthere⟩
    obtain ⟨group, hgroup⟩ := Option.isSome_iff_exists.1 hthere
    have haddress : q.address = p.policy := hk.policies _ q hq
    have hid : group.id = q.groupId := hk.groups _ group hgroup
    exact ⟨group, hk.groups.mem_values_iff.2 (hid ▸ hgroup), q, ⟨haddress ▸ hq, hid.symm⟩, hp,
      haddress.symm⟩

theorem Keyed.mem_eligible_iff (hk : g.Keyed) :
    p ∈ g.eligible time ↔ g.Registered p.policy ∧ g.Due time p ∧ p.result = .notRun := by
  rw [eligible, List.mem_filter, hk.mem_visited_iff, decide_eq_true_iff]
  constructor
  · rintro ⟨⟨hfound, hregistered⟩, hvoted, hnot, haccepted⟩
    exact ⟨hregistered, ⟨hfound, haccepted, Int64.not_lt.2 hvoted⟩, hnot⟩
  · rintro ⟨hregistered, hdue, hnot⟩
    exact ⟨⟨hdue.found, hregistered⟩, Int64.not_lt.1 hdue.voted, hnot, hdue.accepted⟩

/-! ### The book -/

/-- The book executes what is due, unless it is marked as erroring. -/
theorem Keyed.execute_isOk_iff (hk : g.Keyed) {block : BlockContext} {request : ExecRequest} :
    (∃ result, (g.execute block request).1 = .ok result) ↔
      (∃ p : Proposal, p.id = request.proposalId ∧ g.Due block.time p) ∧
        g.faults.erroring.contains request.proposalId = false := by
  have hexecutable : (∃ result, (g.execute block request).1 = .ok result) ↔
      ∃ p, g.executable block.time request.proposalId = .ok p := by
    rw [MemGroups.execute]
    cases g.executable block.time request.proposalId with
    | error e => simp
    | ok p => simp
  simp only [hexecutable, executable_eq_ok_iff]
  rw [exists_and_left, hk.exists_due_iff, and_comm]

theorem answer_eq_error_iff {id : UInt64} {e : GroupError} :
    g.answer id = .error e ↔
      e = .execution id .injected ∧ g.faults.erroring.contains id = true := by
  rw [answer]
  cases g.faults.erroring.contains id <;> simp [eq_comm]

end MemGroups

/-! ### The admission -/

namespace Ledger

variable {l : Ledger} {context : TxContext} {request : ExecRequest} {simulate : Bool}

/-- A transaction that asks for one execution passes the gate on the timing of
executions. -/
def AdmitsExec (l : Ledger) (context : TxContext) (request : ExecRequest) (simulate : Bool) :
    Prop :=
  ∃ c l', (Rest.ofStages [Stage.ofGate (.proposalTiming GroupKeeper.proposal)] context
    ⟨[.groupExec request]⟩ simulate).run l = (.ok c, l')

theorem due_groupExec_iff (hk : l.groups.Keyed) :
    Gate.Due GroupKeeper.proposal l context (.groupExec request) ↔
      ∃ p : Proposal, p.id = request.proposalId ∧ l.groups.Due context.block.time p := by
  show (∃ p, l.groups.proposal request.proposalId = .ok p ∧ p.status = .accepted
    ∧ p.votingPeriodEnd ≤ context.block.time) ↔ _
  simp only [MemGroups.proposal_eq_ok_iff, ← Int64.not_lt]
  exact hk.exists_due_iff

/-- What is due is let through, and nothing else. -/
theorem admitsExec_iff (hk : l.groups.Keyed) :
    l.AdmitsExec context request simulate ↔
      ∃ p : Proposal, p.id = request.proposalId ∧ l.groups.Due context.block.time p := by
  have hgate : Gate.Admits (σ := Ledger)
      (Gate.checkAll [Gate.proposalTiming GroupKeeper.proposal]) (Gate.Due GroupKeeper.proposal) := by
    rw [Gate.checkAll_singleton]
    exact Gate.admits_proposalTiming fun _ _ => rfl
  have hmsgs : ∀ l', (Gate.checkMsgs [Gate.proposalTiming GroupKeeper.proposal] context
      [.groupExec request]).run l = (.ok (), l') ↔ l' = l ∧
        Gate.Due GroupKeeper.proposal l context (.groupExec request) := by
    intro l'
    rw [Gate.run_checkMsgs_eq_ok_iff hgate, List.forall_mem_singleton]
  rw [← due_groupExec_iff hk, AdmitsExec]
  show (∃ c l', (Gate.checkMsgs [Gate.proposalTiming GroupKeeper.proposal] context
    [.groupExec request] >>= fun _ => pure context).run l = (.ok c, l')) ↔ _
  simp only [Action.run_bind_eq_ok_iff, hmsgs]
  constructor
  · rintro ⟨c, l', ⟨⟩, _, ⟨-, hdue⟩, -⟩
    exact hdue
  · intro hdue
    exact ⟨context, l, (), l, ⟨rfl, hdue⟩, rfl⟩

end Ledger

/-! ### Agreement -/

namespace Scanner

theorem exists_outcome_iff (g : MemGroups) (ps : List Proposal) (id : UInt64) :
    (∃ o ∈ ps.map g.outcome, o.proposalId = id) ↔ ∃ p ∈ ps, p.id = id := by
  constructor
  · rintro ⟨o, ho, rfl⟩
    obtain ⟨p, hp, rfl⟩ := List.mem_map.1 ho
    exact ⟨p, hp, rfl⟩
  · rintro ⟨p, hp, rfl⟩
    exact ⟨g.outcome p, List.mem_map_of_mem hp, rfl⟩

/-- **Scan, admission and book agree.**  What a scan asks for is never turned
down, but for an error under a number that is marked as erroring; and asked
directly, the book executes what the admission lets through, with the same
exception.  While no listing fails, a scan without a cap asks for the
execution of a proposal that belongs to a group exactly if the admission lets
it through at the time of the block and it was never executed. -/
theorem run_agrees (s : Scanner) (block : BlockContext) (l : Ledger) (hbuilt : l.groups.Built)
    (hsize : l.groups.policyTable.size ≤ UInt64.size) :
    ∃ report next, (s.run block).run l = (report, next) ∧
      next.groups.execCalls
        = l.groups.execCalls ++ report.outcomes.map (fun o => ⟨o.proposalId, o.policy⟩) ∧
      (∀ o ∈ report.outcomes, ∀ e, o.result = .error e →
        e = .execution o.proposalId .injected ∧
          l.groups.faults.erroring.contains o.proposalId = true) ∧
      (∀ context request simulate, context.block.time = block.time →
        ((∃ result, (l.groups.execute block request).1 = .ok result) ↔
          l.AdmitsExec context request simulate ∧
            l.groups.faults.erroring.contains request.proposalId = false)) ∧
      (s.config.maxExecutions = none → l.groups.listing.failures = [] →
        ∀ id p, l.groups.proposalTable.get? id = some p → l.groups.Registered p.policy →
          ∀ context executor simulate, context.block.time = block.time →
            ((∃ o ∈ report.outcomes, o.proposalId = id) ↔
              l.AdmitsExec context ⟨id, executor⟩ simulate ∧ p.result = .notRun)) := by
  have hk := hbuilt.keyed
  refine ⟨_, _, run_run s block hk hsize, execCalls_reportOn .., fun o ho e he => ?_,
    fun context request simulate htime => ?_,
    fun hcap hlisted id p hp hregistered context executor simulate htime => ?_⟩
  · obtain ⟨p, -, rfl⟩ := List.mem_map.1 ho
    exact MemGroups.answer_eq_error_iff.1 he
  · rw [hk.execute_isOk_iff, Ledger.admitsExec_iff hk, htime]
  · -- a number stands for one proposal, so what is due under it is `p`
    have hid : p.id = id := hk.proposals id p hp
    show (∃ o ∈ (s.selection block l.groups).map l.groups.outcome, o.proposalId = id) ↔ _
    rw [exists_outcome_iff, selection_of_failures_nil hcap block hk hlisted,
      Ledger.admitsExec_iff hk, htime]
    simp only [hk.mem_eligible_iff]
    constructor
    · rintro ⟨q, ⟨-, hdue, hnot⟩, rfl⟩
      cases hdue.found.symm.trans hp
      exact ⟨⟨p, rfl, hdue⟩, hnot⟩
    · rintro ⟨⟨q, hq, hdue⟩, hnot⟩
      have hsame := hdue.found
      rw [hq] at hsame
      cases hsame.symm.trans hp
      exact ⟨p, ⟨hregistered, hdue, hnot⟩, hid⟩

end Scanner

namespace Scenario

/-- The book, with nothing in the store and in the bank. -/
def bookLedger : Ledger := ⟨.empty, .empty, book⟩

/-- A check at the time of a scan. -/
def scanContext : TxContext := .initial ⟨8, 200⟩ .check

theorem registered_policyB : book.Registered policyB := ⟨⟨policyB, 2⟩, by decide, by decide⟩

end Scenario

open Scenario in
/-- Proposals 1 and 6 belong to one policy, and the admission lets both
through.  The scan asks for proposal 1 only, as the other one was executed
before.  Of what it asks for, nothing but proposal 2 ends in an error, and its
number is marked as erroring. -/
theorem Scanner.run_agrees_book :
    bookLedger.groups.Built ∧ bookLedger.groups.policyTable.size ≤ UInt64.size ∧
      uncapped.config.maxExecutions = none ∧ bookLedger.groups.listing.failures = [] ∧
      bookLedger.groups.Registered policyB ∧ scanContext.block.time = (200 : Int64) ∧
      ∃ (report : ScanReport) (next : Ledger),
        (uncapped.run ⟨8, 200⟩).run bookLedger = (report, next) ∧
        (∃ o ∈ report.outcomes, o.proposalId = 1) ∧
        bookLedger.AdmitsExec scanContext ⟨6, policyB⟩ false ∧
        (∀ o ∈ report.outcomes, o.proposalId ≠ 6) ∧
        (∃ result, (book.execute ⟨8, 200⟩ ⟨6, policyB⟩).1 = .ok result) ∧
        ∀ o ∈ report.outcomes, ∀ e, o.result = .error e → o.proposalId = 2 := by
  have hsize : bookLedger.groups.policyTable.size ≤ UInt64.size := by
    decide
  have hlisted : bookLedger.groups.listing.failures = [] := by
    decide +kernel
  have hfirst : bookLedger.AdmitsExec scanContext ⟨1, policyB⟩ false :=
    (Ledger.admitsExec_iff built_book.keyed).2
      ⟨⟨1, policyB, .accepted, 100, .notRun⟩, rfl, by decide +kernel, rfl, by decide⟩
  have hsixth : bookLedger.AdmitsExec scanContext ⟨6, policyB⟩ false :=
    (Ledger.admitsExec_iff built_book.keyed).2
      ⟨⟨6, policyB, .accepted, 100, .success⟩, rfl, by decide +kernel, rfl, by decide⟩
  obtain ⟨report, next, hrun, -, herrors, hasked, hscan⟩ :=
    Scanner.run_agrees uncapped ⟨8, 200⟩ bookLedger built_book hsize
  have hone := hscan rfl hlisted 1 ⟨1, policyB, .accepted, 100, .notRun⟩ (by decide +kernel)
    registered_policyB scanContext policyB false rfl
  have hsix := hscan rfl hlisted 6 ⟨6, policyB, .accepted, 100, .success⟩ (by decide +kernel)
    registered_policyB scanContext policyB false rfl
  refine ⟨built_book, hsize, rfl, hlisted, registered_policyB, rfl, report, next, hrun,
    hone.2 ⟨hfirst, rfl⟩, hsixth, fun o ho hid => ?_,
    (hasked scanContext ⟨6, policyB⟩ false rfl).2 ⟨hsixth, rfl⟩, fun o ho e he => ?_⟩
  · cases (hsix.1 ⟨o, ho, hid⟩).2
  · have hmarked : ([2] : List UInt64).contains o.proposalId = true := (herrors o ho e he).2
    exact List.mem_singleton.1 (List.contains_iff_mem.1 hmarked)

end BlockHooks
