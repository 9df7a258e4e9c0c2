/-
BlockHooks/Proofs/FirstDue.lean

When a proposal is executed.

A proposal waits in a book if it was accepted, was never executed and belongs
to a group that is there (`Waiting`).  A scan without a cap that lists
everything tries it exactly if its voting is over at the time of the block
(`Waiting.tried_iff`), and then gives it its result.  What a step does not try
stays as it is (`get?_perform_of_not_tried`), so a proposal that was not tried
goes on waiting, and one that has a result is never tried again.

Time plays no other part.  Blocks may go back in time and proposals may be
added between them: a proposal is executed by the first scan that finds it
due, by no other scan, and by none if none finds it due
(`executed_when_first_due`).
-/
import Mathlib
import BlockHooks.Proofs.Agreement

namespace BlockHooks

/-! ### Steps that do a proposal justice -/

/-- What is asked of a step for the sake of a proposal.  A scan has no cap, all
its listings succeed, and it may execute the proposal.  The proposal's policy
is not moved to a group that is not there. -/
def BookStep.Serves (p : Proposal) (l : Ledger) : BookStep → Prop
  | .scan s _ => s.config.maxExecutions = none ∧ l.groups.listing.failures = [] ∧
      l.groups.faults.erroring.contains p.id = false
  | .addPolicy groupId address =>
    address = p.policy → l.groups.groupTable.contains groupId = true
  | .setFaults _ | .addGroup _ _ | .addProposal _ => True

instance BookStep.decidableServes (p : Proposal) (l : Ledger) :
    (step : BookStep) → Decidable (step.Serves p l)
  | .scan _ _ => inferInstanceAs (Decidable (_ ∧ _))
  | .addPolicy _ _ => inferInstanceAs (Decidable (_ → _))
  | .setFaults _ | .addGroup _ _ | .addProposal _ => .isTrue trivial

/-- Every step of a history from `l` on does the proposal justice. -/
def AllServe (p : Proposal) (l : Ledger) : List BookStep → Prop
  | [] => True
  | step :: steps => step.Serves p l ∧ AllServe p (step.perform l).2 steps

instance decidableAllServe (p : Proposal) (l : Ledger) :
    (steps : List BookStep) → Decidable (AllServe p l steps)
  | [] => .isTrue trivial
  | step :: steps =>
    have := decidableAllServe p (step.perform l).2 steps
    inferInstanceAs (Decidable (_ ∧ _))

theorem allServe_append_iff {p : Proposal} {l : Ledger} {steps steps' : List BookStep} :
    AllServe p l (steps ++ steps')
      ↔ AllServe p l steps ∧ AllServe p (afterSteps l steps) steps' := by
  induction steps generalizing l with
  | nil => exact ⟨fun h => ⟨trivial, h⟩, fun h => h.2⟩
  | cons step steps ih =>
    rw [List.cons_append, AllServe, AllServe, ih, and_assoc]
    rfl

section

variable {p : Proposal} {l : Ledger} {step : BookStep} {steps : List BookStep}

/-! ### What a step leaves as it is -/

/-- A proposal that a step does not try stays as it is. -/
theorem get?_perform_of_not_tried {id : UInt64} (hk : l.groups.Keyed) (hallowed : step.Allowed l)
    (hfound : l.groups.proposalTable.get? id = some p)
    (hnot : ∀ o ∈ (step.perform l).1, o.proposalId ≠ id) :
    (step.perform l).2.groups.proposalTable.get? id = some p := by
  cases step with
  | scan s block =>
    rw [perform_scan s block hk hallowed] at hnot ⊢
    have hout : id ∉ (s.selection block l.groups).map Proposal.id := by
      intro hin
      obtain ⟨q, hq, rfl⟩ := List.mem_map.1 hin
      exact hnot _ (List.mem_map_of_mem hq) rfl
    show (l.groups.executed _).proposalTable.get? id = _
    rw [MemGroups.get?_executed (Scanner.nodup_selection s block hk)
      fun q hq => Scanner.get?_of_mem_selection hk hq, if_neg fun h => hout h.1, hfound]
  | addProposal q =>
    -- the number is a new one, so the proposal is not replaced
    have hne : id ≠ q.id := by
      rintro rfl
      cases hfound.symm.trans hallowed
    show (l.groups.proposalTable.insert q.id q).get? id = _
    rw [Table.get?_insert, if_neg hne, hfound]
  | setFaults | addGroup | addPolicy => exact hfound

/-- So does one that a history does not try, all the way. -/
theorem get?_afterSteps_of_not_tried {id : UInt64} {done rest : List BookStep}
    (hk : l.groups.Keyed) (hallowed : AllAllowed l (done ++ rest))
    (hfound : l.groups.proposalTable.get? id = some p)
    (hnot : ∀ o ∈ attempts l (done ++ rest), o.proposalId ≠ id) :
    (afterSteps l done).groups.proposalTable.get? id = some p := by
  induction done generalizing l with
  | nil => exact hfound
  | cons step done ih =>
    obtain ⟨hfirst, hrest⟩ := List.forall_mem_append.1 hnot
    exact ih (effect_perform hk hallowed.1).keyed hallowed.2
      (get?_perform_of_not_tried hk hallowed.1 hfound hfirst) hrest

/-- A policy stays in a group that is there. -/
theorem registered_perform (hk : l.groups.Keyed) (hallowed : step.Allowed l)
    (hserves : step.Serves p l) (h : l.groups.Registered p.policy) :
    (step.perform l).2.groups.Registered p.policy := by
  obtain ⟨policy, hpolicy, hgroup⟩ := h
  cases step with
  | scan s block =>
    rw [perform_scan s block hk hallowed]
    refine ⟨policy, ?_, ?_⟩
    · show (l.groups.executed _).policyTable.get? _ = _
      rw [MemGroups.policyTable_executed, hpolicy]
    · show (l.groups.executed _).groupTable.contains _ = _
      rw [MemGroups.groupTable_executed, hgroup]
  | addGroup id admin =>
    refine ⟨policy, hpolicy, ?_⟩
    show ((l.groups.groupTable.insert id ⟨id, admin⟩).get? policy.groupId).isSome = true
    rw [Table.get?_insert]
    split
    · rfl
    · exact hgroup
  | addPolicy groupId address =>
    -- the policy may be given to another group, but only to one that is there
    by_cases hsame : p.policy = address
    · refine ⟨⟨address, groupId⟩, ?_, hserves hsame.symm⟩
      show (l.groups.policyTable.insert address ⟨address, groupId⟩).get? p.policy = _
      rw [Table.get?_insert, if_pos hsame]
    · refine ⟨policy, ?_, hgroup⟩
      show (l.groups.policyTable.insert address ⟨address, groupId⟩).get? p.policy = _
      rw [Table.get?_insert, if_neg hsame, hpolicy]
  | setFaults | addProposal => exact ⟨policy, hpolicy, hgroup⟩

theorem registered_afterSteps (hk : l.groups.Keyed) (hallowed : AllAllowed l steps)
    (hserved : AllServe p l steps) (h : l.groups.Registered p.policy) :
    (afterSteps l steps).groups.Registered p.policy := by
  induction steps generalizing l with
  | nil => exact h
  | cons step steps ih =>
    exact ih (effect_perform hk hallowed.1).keyed hallowed.2 hserved.2
      (registered_perform hk hallowed.1 hserved.1 h)

/-! ### Waiting -/

/-- The proposal was accepted and never executed, and the listings lead to
it. -/
structure Waiting (p : Proposal) (l : Ledger) : Prop where
  keyed : l.groups.Keyed
  accepted : p.status = .accepted
  pending : p.result = .notRun
  registered : l.groups.Registered p.policy
  found : l.groups.proposalTable.get? p.id = some p

/-- A proposal that a step does not try goes on waiting. -/
theorem Waiting.perform (h : Waiting p l) (hallowed : step.Allowed l) (hserves : step.Serves p l)
    (hnot : ∀ o ∈ (step.perform l).1, o.proposalId ≠ p.id) : Waiting p (step.perform l).2 :=
  { h with
    keyed := (effect_perform h.keyed hallowed).keyed
    registered := registered_perform h.keyed hallowed hserves h.registered
    found := get?_perform_of_not_tried h.keyed hallowed h.found hnot }

section

variable {s : Scanner} {block : BlockContext}

/-- A scan tries what is eligible. -/
theorem perform_scan_of_serves (hk : l.groups.Keyed)
    (hallowed : BookStep.Allowed l (.scan s block))
    (hserves : BookStep.Serves p l (.scan s block)) :
    BookStep.perform l (.scan s block)
      = ((l.groups.eligible block.time).map l.groups.outcome,
        { l with groups := l.groups.executed (l.groups.eligible block.time) }) := by
  obtain ⟨hcap, hlisted, -⟩ := hserves
  rw [perform_scan s block hk hallowed, Scanner.selection_of_failures_nil hcap block hk hlisted]

theorem Waiting.mem_eligible_iff (h : Waiting p l) {time : Int64} :
    p ∈ l.groups.eligible time ↔ p.votingPeriodEnd ≤ time := by
  rw [h.keyed.mem_eligible_iff]
  constructor
  · rintro ⟨-, hdue, -⟩
    exact Int64.not_lt.1 hdue.voted
  · intro hvoted
    exact ⟨h.registered, ⟨h.found, h.accepted, Int64.not_lt.2 hvoted⟩, h.pending⟩

/-- A waiting proposal is tried exactly if its voting is over. -/
theorem Waiting.tried_iff (h : Waiting p l) (hallowed : BookStep.Allowed l (.scan s block))
    (hserves : BookStep.Serves p l (.scan s block)) :
    (∃ o ∈ (BookStep.perform l (.scan s block)).1, o.proposalId = p.id)
      ↔ p.votingPeriodEnd ≤ block.time := by
  rw [perform_scan_of_serves h.keyed hallowed hserves, Scanner.exists_outcome_iff,
    ← h.mem_eligible_iff]
  constructor
  · rintro ⟨q, hq, hsame⟩
    -- a number stands for one proposal
    have hfound := MemGroups.get?_of_mem_eligible h.keyed hq
    rw [hsame] at hfound
    cases hfound.symm.trans h.found
    exact hq
  · intro hp
    exact ⟨p, hp, rfl⟩

/-- Of values with different keys, one is picked out by its key. -/
theorem filter_key_eq_singleton {β κ : Type} [BEq κ] [LawfulBEq κ] {key : β → κ}
    {values : List β} (hnodup : (values.map key).Nodup) {v : β} (hv : v ∈ values) :
    (values.filter fun w => key w == key v) = [v] := by
  obtain ⟨before, after, rfl⟩ := List.append_of_mem hv
  rw [List.map_append, List.map_cons, List.nodup_middle, List.nodup_cons, ← List.map_append]
    at hnodup
  have hothers : ∀ w ∈ before ++ after, ¬ (key w == key v) = true := by
    intro w hw hsame
    exact hnodup.1 (eq_of_beq hsame ▸ List.mem_map_of_mem hw)
  have hself : (key v == key v) = true := beq_self_eq_true _
  rw [List.filter_append, List.filter_cons, if_pos hself,
    List.filter_eq_nil_iff.2 fun w hw => hothers w (List.mem_append_left _ hw),
    List.filter_eq_nil_iff.2 fun w hw => hothers w (List.mem_append_right _ hw)]
  rfl

/-- The result of a proposal that a scan may execute. -/
theorem BookStep.Serves.answer_eq (hserves : BookStep.Serves p l (.scan s block)) :
    l.groups.answer p.id = .ok (l.groups.resultOf p.id) := by
  rw [MemGroups.answer, hserves.2.2]
  rfl

/-- A scan that finds a waiting proposal due executes it once, and gives it
its result. -/
theorem Waiting.perform_due_scan (h : Waiting p l)
    (hallowed : BookStep.Allowed l (.scan s block)) (hserves : BookStep.Serves p l (.scan s block))
    (hdue : p.votingPeriodEnd ≤ block.time) :
    (BookStep.perform l (.scan s block)).1.filter (fun o => o.proposalId == p.id)
        = [⟨p.id, p.policy, .ok (l.groups.resultOf p.id)⟩] ∧
      (BookStep.perform l (.scan s block)).2.groups.proposalTable.get? p.id
        = some { p with result := l.groups.resultOf p.id } := by
  have hp : p ∈ l.groups.eligible block.time := h.mem_eligible_iff.2 hdue
  have hnodup := MemGroups.nodup_eligible h.keyed block.time
  rw [perform_scan_of_serves h.keyed hallowed hserves]
  constructor
  · show ((l.groups.eligible block.time).map l.groups.outcome).filter _ = _
    rw [List.filter_map]
    show ((l.groups.eligible block.time).filter fun q => q.id == p.id).map l.groups.outcome = _
    rw [filter_key_eq_singleton hnodup hp, List.map_singleton, MemGroups.outcome, hserves.answer_eq]
  · show (l.groups.executed _).proposalTable.get? p.id = _
    rw [MemGroups.get?_executed hnodup fun q hq => MemGroups.get?_of_mem_eligible h.keyed hq,
      if_pos ⟨List.mem_map_of_mem hp, hserves.2.2⟩, h.found]
    rfl

end

/-! ### Histories -/

/-- A proposal goes on waiting until a scan finds it due. -/
theorem Waiting.afterSteps (h : Waiting p l) (hallowed : AllAllowed l steps)
    (hserved : AllServe p l steps)
    (hearly : ∀ s block, .scan s block ∈ steps → block.time < p.votingPeriodEnd) :
    Waiting p (afterSteps l steps) ∧ ∀ o ∈ attempts l steps, o.proposalId ≠ p.id := by
  induction steps generalizing l with
  | nil => exact ⟨h, List.forall_mem_nil _⟩
  | cons step steps ih =>
    have hnot : ∀ o ∈ (step.perform l).1, o.proposalId ≠ p.id := by
      intro o ho hsame
      cases step with
      | scan s block =>
        have hdue := (h.tried_iff hallowed.1 hserved.1).1 ⟨o, ho, hsame⟩
        exact Int64.not_lt.2 hdue (hearly s block List.mem_cons_self)
      | setFaults | addGroup | addPolicy | addProposal => cases ho
    obtain ⟨hwaiting, hrest⟩ := ih (h.perform hallowed.1 hserved.1 hnot) hallowed.2 hserved.2
      fun s block hin => hearly s block (List.mem_cons_of_mem _ hin)
    exact ⟨hwaiting, List.forall_mem_append.2 ⟨hnot, hrest⟩⟩

/-- A history that does a proposal justice executes it whenever it tries it. -/
theorem executed_of_served (hk : l.groups.Keyed) (hallowed : AllAllowed l steps)
    (hserved : AllServe p l steps) :
    ∀ o ∈ attempts l steps, o.proposalId = p.id → o.executed = true := by
  induction steps generalizing l with
  | nil => exact List.forall_mem_nil _
  | cons step steps ih =>
    refine List.forall_mem_append.2 ⟨fun o ho hsame => ?_,
      ih (effect_perform hk hallowed.1).keyed hallowed.2 hserved.2⟩
    cases step with
    | scan s block =>
      rw [perform_scan_of_serves hk hallowed.1 hserved.1] at ho
      obtain ⟨q, -, rfl⟩ := List.mem_map.1 ho
      have hid : q.id = p.id := hsame
      rw [ExecutionOutcome.executed, MemGroups.outcome, hid, hserved.1.answer_eq]
      rfl
    | setFaults | addGroup | addPolicy | addProposal => cases ho

/-- A proposal without a result was not tried before. -/
theorem not_tried_of_pending (hk : l.groups.Keyed) (hallowed : AllAllowed l steps)
    (hserved : AllServe p l steps)
    (hfound : (afterSteps l steps).groups.proposalTable.get? p.id = some p)
    (hpending : p.result = .notRun) : ∀ o ∈ attempts l steps, o.proposalId ≠ p.id := by
  intro o ho hsame
  have hexecuted := executed_of_served hk hallowed hserved o ho hsame
  obtain ⟨q, hq, hresolved⟩ := (effect_history hk hallowed).resolved o ho hexecuted
  rw [hsame] at hq
  cases hq.symm.trans hfound
  rw [hpending] at hresolved
  cases hresolved

end

/-- **A proposal is executed when it is first due.**  The history has scans
without a cap whose listings all succeed, and between them any changes that
leave the proposal's policy in a group that is there.  At some point the
proposal is in the book, accepted and without a result: it was there from the
start, or it has just been added.  From then on, the first scan at a time not
before the end of its voting executes it; no other scan of the history tries
it; before that scan it is what it was, and after it nothing but its result is
different, which is what the faults made it at that scan.  If there is no such
scan, it is never tried and stays what it was. -/
theorem executed_when_first_due (l : Ledger) (hbuilt : l.groups.Built) (p : Proposal)
    (haccepted : p.status = .accepted) (hpending : p.result = .notRun)
    (hregistered : l.groups.Registered p.policy) (before after : List BookStep)
    (hallowed : AllAllowed l (before ++ after)) (hserved : AllServe p l (before ++ after))
    (hfound : (afterSteps l before).groups.proposalTable.get? p.id = some p) :
    (afterSteps l (before ++ after)).groups.execCalls = l.groups.execCalls
      ++ (attempts l (before ++ after)).map (fun o => ⟨o.proposalId, o.policy⟩) ∧
    (∀ early s block late, after = early ++ .scan s block :: late →
      (∀ s' block', .scan s' block' ∈ early → block'.time < p.votingPeriodEnd) →
      p.votingPeriodEnd ≤ block.time →
      ∃ start result, start = afterSteps l (before ++ early) ∧
        result = (if start.groups.faults.failing.contains p.id then .failure else .success) ∧
        (∀ o ∈ attempts l (before ++ early), o.proposalId ≠ p.id) ∧
        (BookStep.perform start (.scan s block)).1.filter (fun o => o.proposalId == p.id)
          = [⟨p.id, p.policy, .ok result⟩] ∧
        (∀ o ∈ attempts (BookStep.perform start (.scan s block)).2 late, o.proposalId ≠ p.id) ∧
        (∀ done rest, early = done ++ rest →
          (afterSteps l (before ++ done)).groups.proposalTable.get? p.id = some p) ∧
        (∀ done rest, late = done ++ rest →
          (afterSteps l (before ++ early ++ .scan s block :: done)).groups.proposalTable.get? p.id
            = some { p with result := result })) ∧
    ((∀ s block, .scan s block ∈ after → block.time < p.votingPeriodEnd) →
      (∀ o ∈ attempts l (before ++ after), o.proposalId ≠ p.id) ∧
        (afterSteps l (before ++ after)).groups.proposalTable.get? p.id = some p) := by
  have hk := hbuilt.keyed
  obtain ⟨hallowedBefore, hallowedAfter⟩ := allAllowed_append_iff.1 hallowed
  obtain ⟨hservedBefore, hservedAfter⟩ := allServe_append_iff.1 hserved
  have hpast := not_tried_of_pending hk hallowedBefore hservedBefore hfound hpending
  have hwaiting : Waiting p (afterSteps l before) := {
    keyed := (effect_history hk hallowedBefore).keyed
    accepted := haccepted
    pending := hpending
    registered := registered_afterSteps hk hallowedBefore hservedBefore hregistered
    found := hfound }
  refine ⟨(effect_history hk hallowed).calls, ?_, fun hnever => ?_⟩
  · rintro early s block late rfl hearly hdue
    obtain ⟨hallowedEarly, hallowedScan, hallowedLate⟩ := allAllowed_append_iff.1 hallowedAfter
    obtain ⟨hservedEarly, hservedScan, -⟩ := allServe_append_iff.1 hservedAfter
    obtain ⟨hstill, hnot⟩ := hwaiting.afterSteps hallowedEarly hservedEarly hearly
    obtain ⟨honce, hresult⟩ := hstill.perform_due_scan hallowedScan hservedScan hdue
    have hscanned := effect_perform hstill.keyed hallowedScan
    -- it has a result now, so it is not tried any more
    have hover : ∀ o ∈ attempts (BookStep.perform (afterSteps (afterSteps l before) early)
        (.scan s block)).2 late, o.proposalId ≠ p.id := by
      intro o ho hsame
      exact (effect_history hscanned.keyed hallowedLate).unresolved o ho
        ⟨_, hsame ▸ hresult, MemGroups.isResolved_resultOf _ _⟩
    refine ⟨_, _, rfl, rfl, ?_, ?_, ?_, ?_, ?_⟩
    · rw [attempts_append]
      exact List.forall_mem_append.2 ⟨hpast, hnot⟩
    · rw [afterSteps_append]
      exact honce
    · rw [afterSteps_append]
      exact hover
    · rintro done rest rfl
      rw [afterSteps_append]
      exact get?_afterSteps_of_not_tried hwaiting.keyed hallowedEarly hfound hnot
    · rintro done rest rfl
      rw [afterSteps_append, afterSteps_append, afterSteps]
      exact get?_afterSteps_of_not_tried hscanned.keyed hallowedLate hresult hover
  · obtain ⟨hstill, hnot⟩ := hwaiting.afterSteps hallowedAfter hservedAfter hnever
    rw [attempts_append, afterSteps_append]
    exact ⟨List.forall_mem_append.2 ⟨hpast, hnot⟩, hstill.found⟩

namespace Scenario

/-- The book before the first scan. -/
def newLedger : Ledger := ⟨.empty, .empty, additions⟩

/-- The voting on this proposal ends at 250. -/
def lateProposal : Proposal := ⟨8, policyA, .accepted, 250, .notRun⟩

/-- A scan at a later time than any after it, and the proposal is added. -/
def untilAdded : List BookStep := [.scan uncapped ⟨1, 500⟩, .addProposal lateProposal]

/-- The last second of the voting, and a new fault. -/
def untilDue : List BookStep := [.scan uncapped ⟨2, 249⟩, .setFaults ⟨[8], [], false, [], []⟩]

/-- The fault is gone, and time goes back and on. -/
def afterwards : List BookStep :=
  [.setFaults .none, .scan uncapped ⟨4, 100⟩, .addPolicy 2 policyA, .scan uncapped ⟨5, 900⟩]

end Scenario

open Scenario in
/-- The proposal is executed in the second in which its voting has ended, and
by no other of four scans. -/
theorem executed_when_first_due_lateProposal :
    newLedger.groups.Built ∧ newLedger.groups.Registered policyA ∧
      AllAllowed newLedger (untilAdded ++ (untilDue ++ .scan uncapped ⟨3, 250⟩ :: afterwards)) ∧
      AllServe lateProposal newLedger
        (untilAdded ++ (untilDue ++ .scan uncapped ⟨3, 250⟩ :: afterwards)) ∧
      (afterSteps newLedger untilAdded).groups.proposalTable.get? 8 = some lateProposal ∧
      (∀ o ∈ attempts newLedger (untilAdded ++ untilDue), o.proposalId ≠ 8) ∧
      (BookStep.perform (afterSteps newLedger (untilAdded ++ untilDue))
          (.scan uncapped ⟨3, 250⟩)).1.filter (fun o => o.proposalId == 8)
        = [⟨8, policyA, .ok .failure⟩] ∧
      (afterSteps newLedger (untilAdded ++ untilDue
          ++ .scan uncapped ⟨3, 250⟩ :: afterwards)).groups.proposalTable.get? 8
        = some { lateProposal with result := .failure } := by
  have hbuilt : newLedger.groups.Built := built_additions
  have hregistered : newLedger.groups.Registered policyA :=
    ⟨⟨policyA, 1⟩, by decide +kernel, by decide +kernel⟩
  have hallowed : AllAllowed newLedger
      (untilAdded ++ (untilDue ++ .scan uncapped ⟨3, 250⟩ :: afterwards)) := by
    decide +kernel
  have hserved : AllServe lateProposal newLedger
      (untilAdded ++ (untilDue ++ .scan uncapped ⟨3, 250⟩ :: afterwards)) := by
    decide +kernel
  have hfound : (afterSteps newLedger untilAdded).groups.proposalTable.get? 8
      = some lateProposal := by
    decide +kernel
  obtain ⟨-, hfirst, -⟩ := executed_when_first_due newLedger hbuilt lateProposal rfl rfl hregistered
    untilAdded _ hallowed hserved hfound
  have hearly : ∀ s' block', .scan s' block' ∈ untilDue →
      block'.time < lateProposal.votingPeriodEnd := by
    intro s' block' h
    rcases List.mem_cons.1 h with h | h
    · cases h
      decide
    · cases List.mem_singleton.1 h
  obtain ⟨_, _, rfl, rfl, hnot, honce, -, -, hlater⟩ :=
    hfirst untilDue uncapped ⟨3, 250⟩ afterwards rfl hearly (by decide)
  have hfails : (afterSteps newLedger (untilAdded ++ untilDue)).groups.faults.failing.contains 8
      = true := by
    decide +kernel
  have hresult := hlater afterwards [] (List.append_nil _).symm
  rw [show lateProposal.id = 8 from rfl, hfails] at honce hresult
  exact ⟨hbuilt, hregistered, hallowed, hserved, hfound, hnot, honce, hresult⟩

end BlockHooks
