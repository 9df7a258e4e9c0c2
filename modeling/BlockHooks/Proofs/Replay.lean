/-
BlockHooks/Proofs/Replay.lean

What a scan asks of a book.

Nothing is assumed of the book here.  Whether a listing succeeds or fails, it
changes nothing (`Scanner.run_listAll_snd`).  After it the scan asks for some
executions, one after the other, and each is recorded and answered by the book
as the ones before it have left it (`MemGroups.replies`,
`MemGroups.afterCalls`).  A scan has no other effect, and its outcomes are
these answers (`Scanner.exists_run`).
-/
import BlockHooks.Proofs.Frame
import BlockHooks.Proofs.Paging
import BlockHooks.Proofs.Scan

namespace BlockHooks

open BlockHooks.Action (Keeps)

/-! ### Executions of any book -/

namespace MemGroups

variable {block : BlockContext} {g : MemGroups}

/-- What a book answers to executions, one after the other. -/
def replies (block : BlockContext) (g : MemGroups) :
    List ExecRequest → List (Except GroupError ExecutorResult)
  | [] => []
  | call :: calls => (g.execute block call).1 :: replies block (g.execute block call).2 calls

/-- The book after executions, whatever they were answered. -/
def afterCalls (block : BlockContext) (g : MemGroups) : List ExecRequest → MemGroups
  | [] => g
  | call :: calls => afterCalls block (g.execute block call).2 calls

theorem length_replies (calls : List ExecRequest) :
    (g.replies block calls).length = calls.length := by
  induction calls generalizing g with
  | nil => rfl
  | cons call calls ih => exact congrArg (· + 1) ih

/-- An execution is recorded whether or not it is made. -/
theorem execCalls_execute (g : MemGroups) (block : BlockContext) (call : ExecRequest) :
    (g.execute block call).2.execCalls = g.execCalls ++ [call] := by
  rw [execute]
  rcases g.executable block.time call.proposalId with e | p
  · rfl
  · rfl

theorem execCalls_afterCalls (calls : List ExecRequest) :
    (g.afterCalls block calls).execCalls = g.execCalls ++ calls := by
  induction calls generalizing g with
  | nil => exact (List.append_nil _).symm
  | cons call calls ih =>
    show ((g.execute block call).2.afterCalls block calls).execCalls = _
    rw [ih, execCalls_execute, List.append_assoc]
    rfl

end MemGroups

/-! ### Listings -/

/-- A listing that is read to its end does what its pages do. -/
theorem Page.keeps_drain {σ ε α γ : Type} {obs : σ → γ}
    {list : PageRequest → Action σ ε (Page α)} (h : ∀ request, Keeps obs (list request))
    (request : PageRequest) : Keeps obs (drain list request) := by
  -- on the offsets that are left
  induction hleft : UInt64.size - request.offset.toNat using Nat.strongRecOn
    generalizing request with
  | ind left ih =>
    rw [drain_eq]
    apply Keeps.bind (h request)
    intro page
    rcases page.next with - | next
    · exact Keeps.pure _
    · show Keeps obs (if request.offset < next.offset then _ else _)
      split
      next hlt =>
        have hless : UInt64.size - next.offset.toNat < left := by
          have hbound := next.offset.toNat_lt_size
          have hnext : request.offset.toNat < next.offset.toNat := hlt
          omega
        exact Keeps.bind (ih _ hless next rfl) fun _ => Keeps.pure _
      next => exact Keeps.pure _

namespace Scanner

theorem run_drain_snd {α : Type} {list : PageRequest → Action Ledger GroupError (Page α)}
    (h : ∀ request, Keeps id (list request)) (request : PageRequest) (l : Ledger) :
    ((Page.drain list request).run l).2 = l :=
  Page.keeps_drain h request l

theorem run_listPolicy_snd (limit : UInt64) (policy : Address) (l : Ledger) :
    ((listPolicy limit policy).run l).2 = l := by
  have hdrain : ((Page.drain (GroupKeeper.proposals policy) (.first limit)).run l).2 = l :=
    run_drain_snd (fun _ _ => rfl) _ l
  rw [listPolicy, Action.run_state_bind, Action.run_outcome, hdrain]
  rcases ((Page.drain (GroupKeeper.proposals policy) (.first limit)).run l).1 with e | proposals
  · rfl
  · rfl

theorem run_listPolicies_snd (limit : UInt64) (policies : List Policy) (l : Ledger) :
    ((listPolicies limit policies).run l).2 = l := by
  induction policies with
  | nil => rfl
  | cons policy policies ih =>
    rw [listPolicies, Action.run_state_bind, run_listPolicy_snd, Action.run_state_bind, ih]
    rfl

theorem run_listGroup_snd (limit groupId : UInt64) (l : Ledger) :
    ((listGroup limit groupId).run l).2 = l := by
  have hdrain : ((Page.drain (GroupKeeper.policies groupId) (.first limit)).run l).2 = l :=
    run_drain_snd (fun _ _ => rfl) _ l
  rw [listGroup, Action.run_state_bind, Action.run_outcome, hdrain]
  rcases ((Page.drain (GroupKeeper.policies groupId) (.first limit)).run l).1 with e | policies
  · rfl
  · exact run_listPolicies_snd limit policies l

theorem run_listGroups_snd (limit : UInt64) (groups : List Group) (l : Ledger) :
    ((listGroups limit groups).run l).2 = l := by
  induction groups with
  | nil => rfl
  | cons group groups ih =>
    rw [listGroups, Action.run_state_bind, run_listGroup_snd, Action.run_state_bind, ih]
    rfl

theorem run_listAll_snd (limit : UInt64) (l : Ledger) : ((listAll limit).run l).2 = l := by
  have hdrain : ((Page.drain GroupKeeper.groups (.first limit)).run l).2 = l :=
    run_drain_snd (fun _ _ => rfl) _ l
  rw [listAll, Action.run_state_bind, Action.run_outcome, hdrain]
  rcases ((Page.drain GroupKeeper.groups (.first limit)).run l).1 with e | groups
  · rfl
  · exact run_listGroups_snd limit groups l

/-! ### Executions -/

theorem run_execute_eq (block : BlockContext) (p : Proposal) (l : Ledger) :
    (execute block p).run l =
      (⟨p.id, p.policy, (l.groups.execute block p.request).1⟩,
        { l with groups := (l.groups.execute block p.request).2 }) := by
  rw [execute, Action.run_state_bind, Action.run_state_bind, Action.run_outcome]
  show (let r := (GroupKeeper.exec block p.request : Action Ledger GroupError _).run l
    (reportResult p.id r.1 >>= fun _ => pure ⟨p.id, p.policy, r.1⟩ :
      StateM Ledger ExecutionOutcome).run r.2) = _
  rw [Action.run_state_bind, run_reportResult]
  rfl

/-- Each execution finds the book that the ones before it left. -/
theorem run_executeAll_eq (block : BlockContext) (ps : List Proposal) (l : Ledger) :
    ((executeAll block ps).run l).1.map ExecutionOutcome.result
        = l.groups.replies block (ps.map Proposal.request) ∧
      ((executeAll block ps).run l).2
        = { l with groups := l.groups.afterCalls block (ps.map Proposal.request) } := by
  induction ps generalizing l with
  | nil => exact ⟨rfl, rfl⟩
  | cons p ps ih =>
    rw [executeAll, Action.run_state_bind, run_execute_eq, Action.run_state_bind]
    obtain ⟨hreplies, hafter⟩ := ih { l with groups := (l.groups.execute block p.request).2 }
    exact ⟨congrArg _ hreplies, hafter⟩

/-- What a scan reports and leaves is what its executions were answered and
left. -/
theorem run_of_executeAll {s : Scanner} {block : BlockContext} {l l' : Ledger} {listing : Listing}
    {outcomes : List ExecutionOutcome} (hlist : (listAll s.config.pageLimit).run l = (listing, l))
    (hexecute : (executeAll block (s.withinCap
      (listing.proposals.filter fun p => p.standing block.time == .eligible))).run l
        = (outcomes, l')) :
    ∃ report, (s.run block).run l = (report, l') ∧ report.outcomes = outcomes := by
  rw [run, Action.run_state_bind, run_report, Action.run_state_bind, hlist]
  show ∃ report, (executeAll block (s.withinCap (listing.proposals.filter _)) >>=
    fun outcomes => _).run l = (report, l') ∧ _
  rw [Action.run_state_bind, hexecute]
  -- what is deferred is told to the log, and the log is no part of a ledger
  show ∃ report, StateT.run (m := Id) (if 0 < _ then _ else _) _ = (report, l') ∧ _
  split
  · exact ⟨_, rfl, rfl⟩
  · exact ⟨_, rfl, rfl⟩

/-- A scan asks for executions and reports how they were answered. -/
theorem exists_run (s : Scanner) (block : BlockContext) (l : Ledger) :
    ∃ report calls, (s.run block).run l
        = (report, { l with groups := l.groups.afterCalls block calls }) ∧
      report.outcomes.map ExecutionOutcome.result = l.groups.replies block calls := by
  rcases hlist : (listAll s.config.pageLimit).run l with ⟨listing, l₁⟩
  have hsame : l₁ = l := by
    have h := run_listAll_snd s.config.pageLimit l
    rwa [hlist] at h
  subst hsame
  let ps := s.withinCap (listing.proposals.filter fun p => p.standing block.time == .eligible)
  obtain ⟨hreplies, hafter⟩ := run_executeAll_eq block ps l₁
  rcases hexecute : (executeAll block ps).run l₁ with ⟨outcomes, l₂⟩
  rw [hexecute] at hreplies hafter
  obtain ⟨report, hrun, houtcomes⟩ := run_of_executeAll hlist hexecute
  refine ⟨report, ps.map Proposal.request, hrun.trans ?_, houtcomes ▸ hreplies⟩
  exact congrArg (Prod.mk report) hafter

end Scanner

end BlockHooks
