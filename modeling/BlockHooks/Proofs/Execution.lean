/-
BlockHooks/Proofs/Execution.lean

What executing due proposals does to a book.

A proposal of the book is due at a time if it was accepted and its voting is
over (`MemGroups.Due`).  Its execution is recorded, and unless its number is
marked as erroring, it gives the proposal a result
(`MemGroups.execute_of_due`).  Other proposals are not touched, so that
those that were due still are: executing several different ones gives each
the answer it would have got alone (`Scanner.run_executeAll`), and afterwards
the book differs in the results of just these
(`MemGroups.get?_executed`, `MemGroups.execCalls_executed`).
-/
import Mathlib
import BlockHooks.Ledger
import BlockHooks.Proofs.Book
import BlockHooks.Scan.Run

namespace BlockHooks

/-- The request to execute a proposal on behalf of its policy. -/
def Proposal.request (p : Proposal) : ExecRequest := ⟨p.id, p.policy⟩

namespace MemGroups

variable {g : MemGroups} {time : Int64} {p : Proposal}

/-! ### One execution -/

/-- The proposal is in the book, was accepted, and its voting is over. -/
structure Due (g : MemGroups) (time : Int64) (p : Proposal) : Prop where
  found : g.proposalTable.get? p.id = some p
  accepted : p.status = .accepted
  voted : ¬ time < p.votingPeriodEnd

/-- The answer to the execution of a proposal that is due. -/
def answer (g : MemGroups) (id : UInt64) : Except GroupError ExecutorResult :=
  if g.faults.erroring.contains id then .error (.execution id .injected) else .ok (g.resultOf id)

theorem answer_eq (g : MemGroups) (id : UInt64) :
    g.answer id = if g.faults.erroring.contains id then .error (.execution id .injected)
      else if g.faults.failing.contains id then .ok .failure else .ok .success := by
  rw [answer, resultOf]
  split
  · rfl
  · split <;> rfl

/-- The outcome of the execution of a proposal that is due. -/
def outcome (g : MemGroups) (p : Proposal) : ExecutionOutcome := ⟨p.id, p.policy, g.answer p.id⟩

/-- The book after the execution of a proposal that is due. -/
def afterExecuting (g : MemGroups) (p : Proposal) : MemGroups :=
  { g with
    execCalls := g.execCalls ++ [p.request]
    proposalTable :=
      if g.faults.erroring.contains p.id then g.proposalTable
      else g.proposalTable.insert p.id { p with result := g.resultOf p.id } }

theorem execute_of_due {block : BlockContext} (h : g.Due block.time p) :
    g.execute block p.request = (g.answer p.id, g.afterExecuting p) := by
  rw [afterExecuting, answer]
  cases herr : g.faults.erroring.contains p.id with
  | true =>
    have hrefused : g.executable block.time p.request.proposalId
        = .error (.execution p.id .injected) := by
      have hmarked : g.faults.erroring.contains p.request.proposalId = true := herr
      rw [executable, if_pos hmarked]
      rfl
    rw [execute, hrefused]
    rfl
  | false =>
    have hmade : g.executable block.time p.request.proposalId = .ok p :=
      executable_eq_ok_iff.2 ⟨herr, h.found, h.accepted, h.voted⟩
    rw [execute, hmade]
    rfl

/-- The proposal gets its result, unless its number is marked as erroring. -/
theorem get?_afterExecuting (hfound : g.proposalTable.get? p.id = some p) (id : UInt64) :
    (g.afterExecuting p).proposalTable.get? id
      = if id = p.id ∧ g.faults.erroring.contains id = false then
          (g.proposalTable.get? id).map fun q => { q with result := g.resultOf id }
        else g.proposalTable.get? id := by
  cases herr : g.faults.erroring.contains p.id with
  | true =>
    have hsame : (g.afterExecuting p).proposalTable = g.proposalTable := by
      rw [afterExecuting, herr]
      rfl
    -- nothing was written, and the number is one that is marked
    rw [hsame, if_neg]
    rintro ⟨rfl, h⟩
    rw [herr] at h
    cases h
  | false =>
    have hinsert : (g.afterExecuting p).proposalTable
        = g.proposalTable.insert p.id { p with result := g.resultOf p.id } := by
      rw [afterExecuting, herr]
      rfl
    rw [hinsert, Table.get?_insert]
    by_cases hid : id = p.id
    · subst hid
      rw [if_pos rfl, if_pos ⟨rfl, herr⟩, hfound]
      rfl
    · rw [if_neg hid, if_neg fun h => hid h.1]

theorem get?_afterExecuting_of_ne {q : UInt64} (hne : q ≠ p.id) :
    (g.afterExecuting p).proposalTable.get? q = g.proposalTable.get? q := by
  show (if _ then _ else _ : Table UInt64 Proposal).get? q = _
  split
  · rfl
  · rw [Table.get?_insert, if_neg hne]

theorem Due.afterExecuting {q : Proposal} (h : g.Due time q) (hne : q.id ≠ p.id) :
    (g.afterExecuting p).Due time q :=
  ⟨(get?_afterExecuting_of_ne hne).trans h.found, h.accepted, h.voted⟩

theorem Keyed.afterExecuting (h : g.Keyed) (p : Proposal) : (g.afterExecuting p).Keyed := by
  refine ⟨h.groups, h.policies, ?_⟩
  show (if _ then _ else _ : Table UInt64 Proposal).IndexedBy Proposal.id
  split
  · exact h.proposals
  · exact h.proposals.insert rfl

/-! ### One execution after another -/

/-- The book after the execution of proposals that are due. -/
def executed (g : MemGroups) (ps : List Proposal) : MemGroups := ps.foldl afterExecuting g

variable {ps : List Proposal}

theorem execCalls_executed (g : MemGroups) (ps : List Proposal) :
    (g.executed ps).execCalls = g.execCalls ++ ps.map Proposal.request := by
  induction ps generalizing g with
  | nil => exact (List.append_nil _).symm
  | cons p ps ih =>
    show ((g.afterExecuting p).executed ps).execCalls = _
    rw [ih, List.map_cons, List.append_cons]
    rfl

theorem Keyed.executed (h : g.Keyed) (ps : List Proposal) : (g.executed ps).Keyed := by
  induction ps generalizing g with
  | nil => exact h
  | cons p ps ih => exact ih (h.afterExecuting p)

/-- Executions touch the proposals and the record of executions only. -/
theorem executed_eq (g : MemGroups) (ps : List Proposal) :
    g.executed ps = { g with
      execCalls := (g.executed ps).execCalls
      proposalTable := (g.executed ps).proposalTable } := by
  have hrest : (g.executed ps).groupTable = g.groupTable ∧
      (g.executed ps).policyTable = g.policyTable ∧ (g.executed ps).faults = g.faults := by
    induction ps generalizing g with
    | nil => exact ⟨rfl, rfl, rfl⟩
    | cons p ps ih => exact ih (g.afterExecuting p)
  obtain ⟨hgroups, hpolicies, hfaults⟩ := hrest
  rw [← hgroups, ← hpolicies, ← hfaults]

theorem groupTable_executed (g : MemGroups) (ps : List Proposal) :
    (g.executed ps).groupTable = g.groupTable := by
  rw [executed_eq]

theorem policyTable_executed (g : MemGroups) (ps : List Proposal) :
    (g.executed ps).policyTable = g.policyTable := by
  rw [executed_eq]

theorem faults_executed (g : MemGroups) (ps : List Proposal) :
    (g.executed ps).faults = g.faults := by
  rw [executed_eq]

/-- Each of several different proposals gets its result, unless its number is
marked as erroring; all others stay as they are. -/
theorem get?_executed (hids : (ps.map Proposal.id).Nodup)
    (hfound : ∀ p ∈ ps, g.proposalTable.get? p.id = some p) (id : UInt64) :
    (g.executed ps).proposalTable.get? id
      = if id ∈ ps.map Proposal.id ∧ g.faults.erroring.contains id = false then
          (g.proposalTable.get? id).map fun q => { q with result := g.resultOf id }
        else g.proposalTable.get? id := by
  -- on the proposals; the first one is not among the others
  induction ps generalizing g with
  | nil => rfl
  | cons p ps ih =>
    obtain ⟨hout, hids⟩ := List.nodup_cons.1 hids
    have hrest : ∀ q ∈ ps, (g.afterExecuting p).proposalTable.get? q.id = some q := by
      intro q hq
      have hne : q.id ≠ p.id := fun h => hout (h ▸ List.mem_map_of_mem hq)
      rw [get?_afterExecuting_of_ne hne]
      exact hfound q (List.mem_cons_of_mem _ hq)
    show ((g.afterExecuting p).executed ps).proposalTable.get? id = _
    rw [ih hids hrest]
    show (if id ∈ ps.map Proposal.id ∧ g.faults.erroring.contains id = false then
      ((g.afterExecuting p).proposalTable.get? id).map fun q => { q with result := g.resultOf id }
      else (g.afterExecuting p).proposalTable.get? id) = _
    by_cases hid : id = p.id
    · -- the others leave the first one as its own execution left it
      subst hid
      rw [if_neg fun h => hout h.1, get?_afterExecuting (hfound p List.mem_cons_self)]
      simp
    · rw [get?_afterExecuting_of_ne hid]
      simp [hid]

end MemGroups

namespace Scanner

theorem run_reportResult (id : UInt64) (result : Except GroupError ExecutorResult) (l : Ledger) :
    (reportResult id result).run l = ((), l) := by
  rcases result with e | result
  · rfl
  · cases result <;> rfl

theorem run_execute {block : BlockContext} {p : Proposal} {l : Ledger}
    (h : l.groups.Due block.time p) :
    (execute block p).run l
      = (l.groups.outcome p, { l with groups := l.groups.afterExecuting p }) := by
  have hexec : (GroupKeeper.exec block p.request : Action Ledger GroupError _).run l
      = (l.groups.answer p.id, { l with groups := l.groups.afterExecuting p }) := by
    show ((l.groups.execute block p.request).1,
      { l with groups := (l.groups.execute block p.request).2 }) = _
    rw [MemGroups.execute_of_due h]
  rw [execute, Action.run_state_bind, Action.run_state_bind, Action.run_outcome]
  show (let r := (GroupKeeper.exec block p.request : Action Ledger GroupError _).run l
    (reportResult p.id r.1 >>= fun _ => pure ⟨p.id, p.policy, r.1⟩ :
      StateM Ledger ExecutionOutcome).run r.2) = _
  rw [hexec, Action.run_state_bind, run_reportResult]
  rfl

/-- Different proposals that are due all get the answers that the book has
for them at the start. -/
theorem run_executeAll {block : BlockContext} {ps : List Proposal} {l : Ledger}
    (hids : (ps.map Proposal.id).Nodup) (hdue : ∀ p ∈ ps, l.groups.Due block.time p) :
    (executeAll block ps).run l
      = (ps.map l.groups.outcome, { l with groups := l.groups.executed ps }) := by
  induction ps generalizing l with
  | nil => rfl
  | cons p ps ih =>
    obtain ⟨hout, hids⟩ := List.nodup_cons.1 hids
    -- the others are still due when the first one has been executed
    have hrest : ∀ q ∈ ps, (l.groups.afterExecuting p).Due block.time q := by
      intro q hq
      have hne : q.id ≠ p.id := fun h => hout (h ▸ List.mem_map_of_mem hq)
      exact (hdue q (List.mem_cons_of_mem _ hq)).afterExecuting hne
    rw [executeAll, Action.run_state_bind, run_execute (hdue p List.mem_cons_self),
      Action.run_state_bind, ih hids hrest]
    rfl

end Scanner

end BlockHooks
