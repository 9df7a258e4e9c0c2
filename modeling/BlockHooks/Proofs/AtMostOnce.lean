/-
BlockHooks/Proofs/AtMostOnce.lean

No proposal is executed twice.

A history is any sequence of scans, of changes to the faults and of
additions to the book, in which a proposal is added under a new number only.
A book executes a proposal as often as it is asked to; that a scan does not
ask again rests on the results it finds.

A step tries only proposals without a result, it gives one to each that was
executed, and no step changes a result once there is one (`Effect`).  This is
closed under doing one step after another (`Effect.trans`), so it holds of
whole histories (`effect_history`), and in a history a proposal is not tried
again after it was executed (`history_executes_at_most_once`).
-/
import Mathlib
import BlockHooks.Proofs.Scan

namespace BlockHooks

/-! ### Histories -/

/-- What may happen to a book. -/
inductive BookStep where
  | scan (s : Scanner) (block : BlockContext)
  | setFaults (faults : GroupFaults)
  | addGroup (id : UInt64) (admin : Address)
  | addPolicy (groupId : UInt64) (address : Address)
  | addProposal (p : Proposal)

namespace BookStep

/-- The attempts made by a step, and the ledger it leaves. -/
def perform (l : Ledger) : BookStep → List ExecutionOutcome × Ledger
  | .scan s block => (((s.run block).run l).1.outcomes, ((s.run block).run l).2)
  | .setFaults faults => ([], { l with groups := { l.groups with faults := faults } })
  | .addGroup id admin => ([], { l with groups := l.groups.addGroup id admin })
  | .addPolicy groupId address => ([], { l with groups := l.groups.addPolicy groupId address })
  | .addProposal p => ([], { l with groups := l.groups.addProposal p })

/-- A proposal is added under a number that is not in use, and there are no
more policies than offsets when a scan starts. -/
def Allowed (l : Ledger) : BookStep → Prop
  | .scan _ _ => l.groups.policyTable.size ≤ UInt64.size
  | .addProposal p => l.groups.proposalTable.get? p.id = none
  | .setFaults _ | .addGroup _ _ | .addPolicy _ _ => True

end BookStep

instance BookStep.decidableAllowed (l : Ledger) : (step : BookStep) → Decidable (step.Allowed l)
  | .scan _ _ => inferInstanceAs (Decidable (_ ≤ _))
  | .addProposal _ => inferInstanceAs (Decidable (_ = _))
  | .setFaults _ | .addGroup _ _ | .addPolicy _ _ => .isTrue trivial

/-- All attempts of a history from `l` on, in the order they were made. -/
def attempts (l : Ledger) : List BookStep → List ExecutionOutcome
  | [] => []
  | step :: steps => (step.perform l).1 ++ attempts (step.perform l).2 steps

/-- The ledger that a history from `l` on leaves. -/
def afterSteps (l : Ledger) : List BookStep → Ledger
  | [] => l
  | step :: steps => afterSteps (step.perform l).2 steps

/-- Every step of a history from `l` on is allowed where it is made. -/
def AllAllowed (l : Ledger) : List BookStep → Prop
  | [] => True
  | step :: steps => step.Allowed l ∧ AllAllowed (step.perform l).2 steps

instance decidableAllAllowed (l : Ledger) : (steps : List BookStep) → Decidable (AllAllowed l steps)
  | [] => .isTrue trivial
  | step :: steps =>
    have := decidableAllAllowed (step.perform l).2 steps
    inferInstanceAs (Decidable (_ ∧ _))

theorem attempts_append (l : Ledger) (steps steps' : List BookStep) :
    attempts l (steps ++ steps') = attempts l steps ++ attempts (afterSteps l steps) steps' := by
  induction steps generalizing l with
  | nil => rfl
  | cons step steps ih =>
    rw [List.cons_append, attempts, ih, attempts, List.append_assoc]
    rfl

theorem afterSteps_append (l : Ledger) (steps steps' : List BookStep) :
    afterSteps l (steps ++ steps') = afterSteps (afterSteps l steps) steps' := by
  induction steps generalizing l with
  | nil => rfl
  | cons step steps ih => exact ih _

theorem allAllowed_append_iff {l : Ledger} {steps steps' : List BookStep} :
    AllAllowed l (steps ++ steps')
      ↔ AllAllowed l steps ∧ AllAllowed (afterSteps l steps) steps' := by
  induction steps generalizing l with
  | nil => exact ⟨fun h => ⟨trivial, h⟩, fun h => h.2⟩
  | cons step steps ih =>
    rw [List.cons_append, AllAllowed, AllAllowed, ih, and_assoc]
    rfl

/-! ### What a step may do -/

/-- The proposal is in the book and has a result. -/
def MemGroups.Resolved (g : MemGroups) (id : UInt64) : Prop :=
  ∃ p, g.proposalTable.get? id = some p ∧ p.result.isResolved = true

/-- Tells whether the proposal was executed, with whatever result. -/
def ExecutionOutcome.executed (o : ExecutionOutcome) : Bool := o.result.isOk

/-- What the attempts `os` may have to do with the ledgers before and after. -/
structure Effect (l : Ledger) (os : List ExecutionOutcome) (l' : Ledger) : Prop where
  keyed : l'.groups.Keyed
  calls : l'.groups.execCalls = l.groups.execCalls ++ os.map fun o => ⟨o.proposalId, o.policy⟩
  /-- Proposals stay in the book, and results stay what they are. -/
  kept : ∀ id p, l.groups.proposalTable.get? id = some p →
    ∃ p', l'.groups.proposalTable.get? id = some p' ∧
      (p.result.isResolved = true → p'.result = p.result)
  present : ∀ o ∈ os, ∃ p, l'.groups.proposalTable.get? o.proposalId = some p
  unresolved : ∀ o ∈ os, ¬ l.groups.Resolved o.proposalId
  resolved : ∀ o ∈ os, o.executed = true → l'.groups.Resolved o.proposalId
  once : os.Pairwise fun o o' => o.executed = true → o'.proposalId ≠ o.proposalId

namespace Effect

variable {l l' l'' : Ledger} {os os' : List ExecutionOutcome}

theorem resolved_of_resolved (h : Effect l os l') {id : UInt64} (hid : l.groups.Resolved id) :
    l'.groups.Resolved id := by
  obtain ⟨p, hp, hresolved⟩ := hid
  obtain ⟨p', hp', hsame⟩ := h.kept id p hp
  exact ⟨p', hp', hsame hresolved ▸ hresolved⟩

/-- A step without attempts. -/
theorem quiet (hk : l'.groups.Keyed) (hcalls : l'.groups.execCalls = l.groups.execCalls)
    (hkept : ∀ id p, l.groups.proposalTable.get? id = some p →
      l'.groups.proposalTable.get? id = some p) : Effect l [] l' where
  keyed := hk
  calls := hcalls.trans (List.append_nil _).symm
  kept id p h := ⟨p, hkept id p h, fun _ => rfl⟩
  present := nofun
  unresolved := nofun
  resolved := nofun
  once := List.Pairwise.nil

/-- One step after another. -/
theorem trans (h : Effect l os l') (h' : Effect l' os' l'') : Effect l (os ++ os') l'' where
  keyed := h'.keyed
  calls := by rw [h'.calls, h.calls, List.map_append, List.append_assoc]
  kept id p hp := by
    obtain ⟨p', hp', hsame⟩ := h.kept id p hp
    obtain ⟨p'', hp'', hsame'⟩ := h'.kept id p' hp'
    refine ⟨p'', hp'', fun hresolved => ?_⟩
    have hmiddle := hsame hresolved
    exact (hsame' (hmiddle ▸ hresolved)).trans hmiddle
  present o ho := by
    rcases List.mem_append.1 ho with ho | ho
    · obtain ⟨p, hp⟩ := h.present o ho
      obtain ⟨p', hp', -⟩ := h'.kept _ p hp
      exact ⟨p', hp'⟩
    · exact h'.present o ho
  unresolved o ho hresolved := by
    rcases List.mem_append.1 ho with ho | ho
    · exact h.unresolved o ho hresolved
    · exact h'.unresolved o ho (h.resolved_of_resolved hresolved)
  resolved o ho hexecuted := by
    rcases List.mem_append.1 ho with ho | ho
    · exact h'.resolved_of_resolved (h.resolved o ho hexecuted)
    · exact h'.resolved o ho hexecuted
  once := by
    rw [List.pairwise_append]
    refine ⟨h.once, h'.once, fun o ho o' ho' hexecuted hsame => ?_⟩
    -- what was executed before has a result, what is tried later has none
    refine h'.unresolved o' ho' ?_
    rw [hsame]
    exact h.resolved o ho hexecuted

end Effect

/-! ### What every step does -/

theorem MemGroups.isResolved_resultOf (g : MemGroups) (id : UInt64) :
    (g.resultOf id).isResolved = true := by
  rw [resultOf]
  split <;> rfl

theorem perform_scan (s : Scanner) (block : BlockContext) {l : Ledger} (hk : l.groups.Keyed)
    (hsize : l.groups.policyTable.size ≤ UInt64.size) :
    BookStep.perform l (.scan s block)
      = ((s.selection block l.groups).map l.groups.outcome,
        { l with groups := l.groups.executed (s.selection block l.groups) }) := by
  rw [BookStep.perform, Scanner.run_run s block hk hsize]
  rfl

/-- A scan tries proposals without a result, each once. -/
theorem effect_scan (s : Scanner) (block : BlockContext) {l : Ledger} (hk : l.groups.Keyed)
    (hsize : l.groups.policyTable.size ≤ UInt64.size) :
    Effect l (BookStep.perform l (.scan s block)).1 (BookStep.perform l (.scan s block)).2 := by
  have hfound : ∀ p ∈ s.selection block l.groups,
      l.groups.proposalTable.get? p.id = some p :=
    fun p hp => Scanner.get?_of_mem_selection hk hp
  have hids := Scanner.nodup_selection s block hk
  have hafter := MemGroups.get?_executed hids hfound
  rw [perform_scan s block hk hsize]
  refine
    { keyed := hk.executed _
      calls := ?calls
      kept := fun id p hp => ?kept
      present := fun o ho => ?present
      unresolved := fun o ho hresolved => ?unresolved
      resolved := fun o ho hexecuted => ?resolved
      once := ?once }
  case calls => exact Scanner.execCalls_reportOn ..
  case kept =>
    show ∃ p', (l.groups.executed _).proposalTable.get? id = some p' ∧ _
    rw [hafter, hp]
    split
    next htried =>
      -- a proposal that was tried had no result
      obtain ⟨q, hq, rfl⟩ := List.mem_map.1 htried.1
      rw [hfound q hq, Option.some.injEq] at hp
      subst hp
      refine ⟨_, rfl, fun hresolved => ?_⟩
      rw [Scanner.notRun_of_mem_selection hq] at hresolved
      cases hresolved
    next hother => exact ⟨p, rfl, fun _ => rfl⟩
  case present =>
    obtain ⟨p, hp, rfl⟩ := List.mem_map.1 ho
    show ∃ q, (l.groups.executed _).proposalTable.get? p.id = some q
    rw [hafter, hfound p hp]
    split
    · exact ⟨_, rfl⟩
    · exact ⟨p, rfl⟩
  case unresolved =>
    obtain ⟨p, hp, rfl⟩ := List.mem_map.1 ho
    obtain ⟨q, hq, hresult⟩ := hresolved
    cases (hfound p hp).symm.trans hq
    rw [Scanner.notRun_of_mem_selection hp] at hresult
    cases hresult
  case resolved =>
    -- an attempt that was not refused was not marked as erroring
    obtain ⟨p, hp, rfl⟩ := List.mem_map.1 ho
    have herr : l.groups.faults.erroring.contains p.id = false := by
      refine eq_false_of_ne_true fun herr => ?_
      rw [ExecutionOutcome.executed, MemGroups.outcome, MemGroups.answer, if_pos herr] at hexecuted
      cases hexecuted
    refine ⟨{ p with result := l.groups.resultOf p.id }, ?_, l.groups.isResolved_resultOf p.id⟩
    show (l.groups.executed _).proposalTable.get? p.id = _
    rw [hafter, if_pos ⟨List.mem_map_of_mem hp, herr⟩, hfound p hp]
    rfl
  case once =>
    rw [List.pairwise_map]
    rw [List.Nodup, List.pairwise_map] at hids
    exact hids.imp fun hne _ hsame => hne hsame.symm

theorem effect_perform {l : Ledger} {step : BookStep} (hk : l.groups.Keyed)
    (hallowed : step.Allowed l) : Effect l (step.perform l).1 (step.perform l).2 := by
  cases step with
  | scan s block => exact effect_scan s block hk hallowed
  | setFaults faults =>
    exact .quiet ⟨hk.groups, hk.policies, hk.proposals⟩ rfl fun _ _ h => h
  | addGroup id admin => exact .quiet (hk.addGroup id admin) rfl fun _ _ h => h
  | addPolicy groupId address => exact .quiet (hk.addPolicy groupId address) rfl fun _ _ h => h
  | addProposal p =>
    -- the number is a new one, so no proposal is replaced
    refine .quiet (hk.addProposal p) rfl fun id q hq => ?_
    show (l.groups.proposalTable.insert p.id p).get? id = some q
    have hne : id ≠ p.id := by
      rintro rfl
      cases hq.symm.trans hallowed
    rw [Table.get?_insert, if_neg hne, hq]

/-- A history does what a single step may do. -/
theorem effect_history {l : Ledger} {steps : List BookStep} (hk : l.groups.Keyed)
    (hallowed : AllAllowed l steps) : Effect l (attempts l steps) (afterSteps l steps) := by
  induction steps generalizing l with
  | nil => exact .quiet hk rfl fun _ _ h => h
  | cons step steps ih =>
    have hfirst := effect_perform hk hallowed.1
    exact hfirst.trans (ih hfirst.keyed hallowed.2)

/-! ### At most once -/

/-- No two members of a list are related, so it has one member at most. -/
theorem length_le_one_of_pairwise {α : Type} {R : α → α → Prop} {l : List α}
    (h : l.Pairwise R) (hnot : ∀ a ∈ l, ∀ b ∈ l, ¬ R a b) : l.length ≤ 1 := by
  rcases l with - | ⟨a, - | ⟨b, l⟩⟩
  · exact Nat.zero_le 1
  · exact Nat.le_refl 1
  · have hab := (List.pairwise_cons.1 h).1 b List.mem_cons_self
    exact absurd hab (hnot a (by simp) b (by simp))

/-- **No proposal is executed twice.**  Over every history of a book: the
attempts are what the book was asked to execute; each proposal is executed
at most once; none is tried that had a result at the start or when it was
added; none is tried again after it was executed; and a result, once there
is one, never changes. -/
theorem history_executes_at_most_once (l : Ledger) (steps : List BookStep)
    (hbuilt : l.groups.Built) (hallowed : AllAllowed l steps) :
    (afterSteps l steps).groups.execCalls
      = l.groups.execCalls ++ (attempts l steps).map (fun o => ⟨o.proposalId, o.policy⟩) ∧
    (∀ id, ((attempts l steps).filter fun o => o.proposalId == id && o.result.isOk).length ≤ 1) ∧
    (∀ id p, l.groups.proposalTable.get? id = some p → p.result.isResolved = true →
      ∀ o ∈ attempts l steps, o.proposalId ≠ id) ∧
    (∀ before p after, steps = before ++ .addProposal p :: after → p.result.isResolved = true →
      ∀ o ∈ attempts l steps, o.proposalId ≠ p.id) ∧
    (attempts l steps).Pairwise
      (fun o o' => o.result.isOk = true → o'.proposalId ≠ o.proposalId) ∧
    (∀ before between after, steps = before ++ between ++ after →
      ∀ id p, (afterSteps l before).groups.proposalTable.get? id = some p →
        p.result.isResolved = true →
        ∃ p', (afterSteps l (before ++ between)).groups.proposalTable.get? id = some p' ∧
          p'.result = p.result) := by
  have hk := hbuilt.keyed
  -- the history as a whole does what a single step may do
  have heffect := effect_history hk hallowed
  refine ⟨heffect.calls, fun id => ?_, fun id p hp hresolved o ho hsame => ?_, ?_,
    heffect.once, ?_⟩
  · refine length_le_one_of_pairwise (heffect.once.filter _) fun o ho o' ho' h => ?_
    have ho := (List.mem_filter.1 ho).2
    have ho' := (List.mem_filter.1 ho').2
    rw [Bool.and_eq_true, beq_iff_eq] at ho ho'
    exact h ho.2 (ho'.1.trans ho.1.symm)
  · exact heffect.unresolved o ho (hsame ▸ ⟨p, hp, hresolved⟩)
  · rintro before p after rfl hresolved o ho hsame
    obtain ⟨hbefore, hadded, hafter⟩ := allAllowed_append_iff.1 hallowed
    have hpast := effect_history hk hbefore
    have hadd := effect_perform hpast.keyed hadded
    have hfuture := effect_history hadd.keyed hafter
    rw [attempts_append] at ho
    rcases List.mem_append.1 ho with ho | ho
    · -- what was tried before is in the book, the proposal that is added is not
      obtain ⟨q, hq⟩ := hpast.present o ho
      rw [hsame] at hq
      cases hq.symm.trans hadded
    · -- what is tried later had no result when the proposal was added
      refine hfuture.unresolved o ho ⟨p, ?_, hresolved⟩
      show ((afterSteps l before).groups.proposalTable.insert p.id p).get? o.proposalId = _
      rw [Table.get?_insert, if_pos hsame]
  · -- the part of the history in between is a history of its own
    rintro before between after rfl id p hp hresolved
    obtain ⟨hbefore, hbetween⟩ :=
      allAllowed_append_iff.1 (allAllowed_append_iff.1 hallowed).1
    have hpast := effect_history hk hbefore
    obtain ⟨p', hp', hsame⟩ := (effect_history hpast.keyed hbetween).kept id p hp
    rw [afterSteps_append]
    exact ⟨p', hp', hsame hresolved⟩

namespace Scenario

/-- Three scans, the second one at an earlier time than the first one, and
between them other faults, a proposal that has a result already, and a policy
that moves to another group. -/
def bookSteps : List BookStep := [
  .scan scanner ⟨1, 200⟩,
  .setFaults ⟨[], [], false, [], [policyB]⟩,
  .addProposal ⟨8, policyA, .accepted, 50, .success⟩,
  .scan ⟨⟨100, none⟩, by decide⟩ ⟨2, 150⟩,
  .addPolicy 1 policyB,
  .setFaults .none,
  .scan scanner ⟨3, 400⟩]

end Scenario

open Scenario in
theorem history_executes_at_most_once_bookSteps :
    book.Built ∧ AllAllowed ⟨.empty, .empty, book⟩ bookSteps ∧
      (attempts ⟨.empty, .empty, book⟩ bookSteps).map (fun o => (o.proposalId, o.result.isOk))
        = [(2, false), (3, true), (2, true), (7, true), (1, true)] ∧
      ∀ o ∈ attempts ⟨.empty, .empty, book⟩ bookSteps, o.proposalId ≠ 8 := by
  have hallowed : AllAllowed ⟨.empty, .empty, book⟩ bookSteps := by decide +kernel
  obtain ⟨-, -, -, hadded, -⟩ := history_executes_at_most_once _ _ built_book hallowed
  refine ⟨built_book, hallowed, by decide +kernel, ?_⟩
  exact hadded [.scan scanner ⟨1, 200⟩, .setFaults ⟨[], [], false, [], [policyB]⟩]
    ⟨8, policyA, .accepted, 50, .success⟩ _ rfl rfl

end BlockHooks
