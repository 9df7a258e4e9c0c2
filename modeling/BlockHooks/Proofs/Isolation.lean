/-
BlockHooks/Proofs/Isolation.lean

A listing that fails hides what is behind it, and nothing else.

The proposals of a policy can be reached unless they are unlistable
themselves or the policies of its group are (`MemGroups.reaches`).  While
groups can be listed, a scan lists exactly the proposals it can reach, in
their usual order, and it notes each listing that fails where it would have
stood (`MemGroups.listing_eq_filter`).

So a scan of a book with such faults is a scan of the same book without them
(`MemGroups.healed`), cut down to what can be reached
(`Scanner.run_isolates_failures`).  What it left out is still eligible: once
the faults are gone, the next scan catches up
(`MemGroups.proposalTable_executed_eligible`).
-/
import Mathlib
import BlockHooks.Proofs.Rounds

namespace BlockHooks

namespace MemGroups

variable {g : MemGroups} {time : Int64}

/-! ### What can be reached -/

/-- Tells whether the listings lead to the proposals of a policy. -/
def reaches (g : MemGroups) (policy : Address) : Bool :=
  !g.faults.unlistablePolicies.contains policy &&
    (g.policyTable.get? policy).all fun p => !g.faults.unlistableGroups.contains p.groupId

/-- The listings that fail in a group: that of its policies, or else those of
the proposals of its unlistable policies. -/
def brokenIn (g : MemGroups) (groupId : UInt64) : List ScanError :=
  if g.faults.unlistableGroups.contains groupId then
    [.listPolicies groupId (.unavailable s!"injected policy listing failure for group {groupId}")]
  else
    (g.policiesOf groupId).flatMap fun policy =>
      if g.faults.unlistablePolicies.contains policy.address then
        [.listProposals policy.address
          (.unavailable s!"injected proposal listing failure for policy {policy.address.text}")]
      else []

/-- The listings that fail when all groups are gone through. -/
def brokenListings (g : MemGroups) : List ScanError :=
  g.groupTable.values.flatMap fun group => g.brokenIn group.id

theorem reaches_of_mem_policiesOf (hk : g.Keyed) {groupId : UInt64} {policy : Policy}
    (h : policy ∈ g.policiesOf groupId) :
    g.reaches policy.address = (!g.faults.unlistablePolicies.contains policy.address
      && !g.faults.unlistableGroups.contains groupId) := by
  obtain ⟨hmem, hgroup⟩ := List.mem_filter.1 h
  rw [reaches, hk.policies.get?_of_mem hmem, Option.all_some, eq_of_beq hgroup]

/-- Of a policy all is listed or nothing. -/
theorem policyListing_eq (hlisting : g.faults.failListing = false) (policy : Address) :
    g.policyListing policy =
      if g.faults.unlistablePolicies.contains policy then
        ⟨[], [.listProposals policy
          (.unavailable s!"injected proposal listing failure for policy {policy.text}")]⟩
      else ⟨g.proposalsOf policy, []⟩ := by
  rw [policyListing, drained, hlisting, if_neg Bool.false_ne_true, listableProposals]
  split
  next proposals h =>
    split at h
    next hbroken => cases h
    next hlistable =>
      cases h
      rw [if_neg hlistable]
  next e h =>
    split at h
    next hbroken =>
      cases h
      rw [if_pos hbroken]
    next hlistable => cases h

/-- Of a group that is there what can be reached is listed. -/
theorem groupListing_eq (hk : g.Keyed) (hlisting : g.faults.failListing = false) {group : Group}
    (h : group ∈ g.groupTable.values) :
    g.groupListing group.id =
      ⟨((g.policiesOf group.id).flatMap fun policy => g.proposalsOf policy.address).filter
        fun p => g.reaches p.policy, g.brokenIn group.id⟩ := by
  have hthere : g.groupTable.contains group.id = true := by
    rw [Table.contains, hk.groups.get?_of_mem h]
    rfl
  -- whether a proposal can be reached is decided by its policy
  have hreached : ∀ policy ∈ g.policiesOf group.id,
      (g.proposalsOf policy.address).filter (fun p => g.reaches p.policy)
        = if g.faults.unlistablePolicies.contains policy.address
            || g.faults.unlistableGroups.contains group.id then []
          else g.proposalsOf policy.address := by
    intro policy hpolicy
    have hsame : ∀ p ∈ g.proposalsOf policy.address,
        g.reaches p.policy = g.reaches policy.address :=
      fun p hp => congrArg _ (eq_of_beq (List.mem_filter.1 hp).2)
    rw [List.filter_congr hsame, reaches_of_mem_policiesOf hk hpolicy]
    cases g.faults.unlistablePolicies.contains policy.address <;>
      cases g.faults.unlistableGroups.contains group.id <;> simp
  rw [List.filter_flatMap, List.flatMap_congr hreached, brokenIn]
  cases hgroup : g.faults.unlistableGroups.contains group.id with
  | true =>
    have hbroken : g.drained (g.listablePolicies group.id) = .error
        (.unavailable s!"injected policy listing failure for group {group.id}") := by
      rw [drained, hlisting, if_neg Bool.false_ne_true, listablePolicies, if_pos hgroup]
    rw [groupListing, hbroken]
    simp
  | false =>
    have hall : g.listablePolicies group.id = .ok (g.policiesOf group.id) :=
      listablePolicies_eq_ok_iff.2 ⟨hgroup, hthere, rfl⟩
    rw [groupListing, drained_eq_ok_iff.2 ⟨hlisting, hall⟩, if_neg Bool.false_ne_true]
    show Listing.concat _ = _
    rw [Listing.concat, List.flatMap_map, List.flatMap_map]
    simp only [policyListing_eq hlisting, Bool.or_false]
    congr 1
    · refine List.flatMap_congr fun policy _ => ?_
      split <;> rfl
    · refine List.flatMap_congr fun policy _ => ?_
      split <;> rfl

/-- What is listed is what can be reached. -/
theorem listing_eq_filter (hk : g.Keyed) (hlisting : g.faults.failListing = false) :
    g.listing = ⟨g.visited.filter fun p => g.reaches p.policy, g.brokenListings⟩ := by
  rw [listing, drained_eq_ok_iff.2 ⟨hlisting, rfl⟩, visited, brokenListings, List.filter_flatMap]
  show Listing.concat _ = _
  rw [Listing.concat, List.flatMap_map, List.flatMap_map]
  congr 1
  · exact List.flatMap_congr fun group h => by rw [groupListing_eq hk hlisting h]
  · exact List.flatMap_congr fun group h => by rw [groupListing_eq hk hlisting h]

/-! ### Books of which every listing succeeds -/

theorem brokenIn_eq_nil_iff {groupId : UInt64} :
    g.brokenIn groupId = [] ↔ g.faults.unlistableGroups.contains groupId = false ∧
      ∀ policy ∈ g.policiesOf groupId,
        g.faults.unlistablePolicies.contains policy.address = false := by
  rw [brokenIn]
  cases g.faults.unlistableGroups.contains groupId <;> simp

/-- If no listing fails, everything behind a group is listed. -/
theorem listing_eq_of_failures_nil (hk : g.Keyed) (h : g.listing.failures = []) :
    g.listing = ⟨g.visited, []⟩ := by
  cases hlisting : g.faults.failListing with
  | true => simp [listing, drained, hlisting] at h
  | false =>
    rw [listing_eq_filter hk hlisting] at h ⊢
    have hsound : ∀ group ∈ g.groupTable.values, g.brokenIn group.id = [] :=
      List.flatMap_eq_nil_iff.1 h
    have hall : ∀ p ∈ g.visited, g.reaches p.policy = true := by
      intro p hp
      obtain ⟨group, hgroup, hp⟩ := List.mem_flatMap.1 hp
      obtain ⟨policy, hpolicy, hp⟩ := List.mem_flatMap.1 hp
      obtain ⟨hopen, hopens⟩ := brokenIn_eq_nil_iff.1 (hsound group hgroup)
      rw [eq_of_beq (List.mem_filter.1 hp).2, reaches_of_mem_policiesOf hk hpolicy, hopen,
        hopens policy hpolicy]
      rfl
    rw [List.filter_eq_self.2 hall]
    exact congrArg (Listing.mk g.visited) h

/-- Executions make no listing fail. -/
theorem failures_executed (hk : g.Keyed) (h : g.listing.failures = []) (ps : List Proposal) :
    (g.executed ps).listing.failures = [] := by
  cases hlisting : g.faults.failListing with
  | true => simp [listing, drained, hlisting] at h
  | false =>
    have hlisting' : (g.executed ps).faults.failListing = false := by
      rw [faults_executed]
      exact hlisting
    rw [listing_eq_filter hk hlisting] at h
    rw [listing_eq_filter (hk.executed ps) hlisting', executed_eq]
    exact h

/-! ### Without the faults -/

/-- The book with no group and no policy that is unlistable. -/
def healed (g : MemGroups) : MemGroups :=
  { g with faults := { g.faults with unlistableGroups := [], unlistablePolicies := [] } }

theorem Keyed.healed (h : g.Keyed) : g.healed.Keyed :=
  ⟨h.groups, h.policies, h.proposals⟩

theorem listable_healed (hlisting : g.faults.failListing = false) : g.healed.Listable :=
  ⟨hlisting, rfl, rfl⟩

theorem eligible_healed (g : MemGroups) (time : Int64) : g.healed.eligible time = g.eligible time :=
  rfl

/-- Executions do not ask what can be listed. -/
theorem healed_executed (g : MemGroups) (ps : List Proposal) :
    (g.executed ps).healed = g.healed.executed ps := by
  induction ps generalizing g with
  | nil => rfl
  | cons p ps ih => exact ih (g.afterExecuting p)

/-! ### Catching up -/

/-- When some of the eligible proposals have been executed and then all that
still are eligible, the proposals are what they are when all are executed at
once.  An erroring one may have been tried twice, and twice for nothing. -/
theorem proposalTable_executed_eligible (hk : g.Keyed) {ps : List Proposal}
    (hps : ps.Sublist (g.eligible time)) :
    ((g.executed ps).executed ((g.executed ps).eligible time)).proposalTable
      = (g.executed (g.eligible time)).proposalTable := by
  have hids : (ps.map Proposal.id).Nodup := (nodup_eligible hk time).sublist (hps.map _)
  have hfound : ∀ p ∈ ps, g.proposalTable.get? p.id = some p :=
    fun p hp => get?_of_mem_eligible hk (hps.subset hp)
  refine Table.ext_get? fun id => ?_
  rw [get?_executed (nodup_eligible (hk.executed ps) time)
      fun p hp => get?_of_mem_eligible (hk.executed ps) hp,
    get?_executed (nodup_eligible hk time) fun p hp => get?_of_mem_eligible hk hp,
    get?_executed hids hfound, resultOf, faults_executed]
  cases herr : g.faults.erroring.contains id with
  | true => simp
  | false =>
    -- the second time those are left that were not executed the first time
    have hleft : id ∈ ((g.executed ps).eligible time).map Proposal.id
        ↔ id ∈ (g.eligible time).map Proposal.id ∧ id ∉ ps.map Proposal.id := by
      rw [eligible_executed hk hids hfound, List.mem_map, List.mem_map]
      constructor
      · rintro ⟨p, hp, rfl⟩
        obtain ⟨hp, hnot⟩ := List.mem_filter.1 hp
        exact ⟨⟨p, hp, rfl⟩, fun hin => of_decide_eq_true hnot ⟨hin, herr⟩⟩
      · rintro ⟨⟨p, hp, rfl⟩, hout⟩
        exact ⟨p, List.mem_filter.2 ⟨hp, decide_eq_true fun h => hout h.1⟩, rfl⟩
    have hfirst : id ∈ ps.map Proposal.id → id ∈ (g.eligible time).map Proposal.id :=
      fun h => (hps.map _).subset h
    simp only [hleft, and_true]
    by_cases hdone : id ∈ ps.map Proposal.id
    · simp [hdone, hfirst hdone, resultOf]
    · simp [hdone, resultOf]

end MemGroups

/-- The ledger whose book has no group and no policy that is unlistable. -/
def Ledger.healed (l : Ledger) : Ledger := { l with groups := l.groups.healed }

namespace Scanner

variable {s : Scanner} {block : BlockContext} {g : MemGroups} {l : Ledger}

/-! ### The scan -/

theorem listedEligible_eq_filter (block : BlockContext) (hk : g.Keyed)
    (hlisting : g.faults.failListing = false) :
    listedEligible block g = (g.eligible block.time).filter fun p => g.reaches p.policy := by
  rw [listedEligible, MemGroups.listing_eq_filter hk hlisting, Proposal.filter_standing_eq,
    MemGroups.eligible, List.filter_filter, List.filter_filter]
  exact List.filter_congr fun p _ => Bool.and_comm ..

theorem listedEligible_of_failures_nil (block : BlockContext) (hk : g.Keyed)
    (h : g.listing.failures = []) : listedEligible block g = g.eligible block.time := by
  rw [listedEligible, MemGroups.listing_eq_of_failures_nil hk h, Proposal.filter_standing_eq,
    MemGroups.eligible]

/-- Without a cap all eligible proposals that can be reached are executed. -/
theorem selection_of_uncapped (hcap : s.config.maxExecutions = none) (block : BlockContext)
    (hk : g.Keyed) (hlisting : g.faults.failListing = false) :
    s.selection block g = (g.eligible block.time).filter fun p => g.reaches p.policy := by
  rw [selection, withinCap, hcap, listedEligible_eq_filter block hk hlisting]

theorem selection_of_failures_nil (hcap : s.config.maxExecutions = none) (block : BlockContext)
    (hk : g.Keyed) (h : g.listing.failures = []) :
    s.selection block g = g.eligible block.time := by
  rw [selection, withinCap, hcap, listedEligible_of_failures_nil block hk h]

theorem selection_healed (hcap : s.config.maxExecutions = none) (block : BlockContext)
    (hk : g.Keyed) (hlisting : g.faults.failListing = false) :
    s.selection block g.healed = g.eligible block.time := by
  rw [selection, withinCap, hcap,
    listedEligible_eq block hk.healed (MemGroups.listable_healed hlisting),
    MemGroups.eligible_healed]

/-- What is behind a failure is not executed. -/
theorem not_mem_selection_of_unreached (hcap : s.config.maxExecutions = none)
    (block : BlockContext) (hk : g.Keyed) (hlisting : g.faults.failListing = false) {id : UInt64}
    {p : Proposal} (hp : g.proposalTable.get? id = some p) (hbehind : g.reaches p.policy = false) :
    id ∉ (s.selection block g).map Proposal.id := by
  intro hin
  obtain ⟨q, hq, rfl⟩ := List.mem_map.1 hin
  cases (get?_of_mem_selection hk hq).symm.trans hp
  rw [selection_of_uncapped hcap block hk hlisting] at hq
  exact Bool.false_ne_true (hbehind.symm.trans (List.mem_filter.1 hq).2)

/-- A scan with faults and one at the same time without them do together what
the latter would have done alone. -/
theorem proposalTable_run_healed (hcap : s.config.maxExecutions = none) {again : BlockContext}
    (htime : again.time = block.time) (hk : l.groups.Keyed)
    (hsize : l.groups.policyTable.size ≤ UInt64.size)
    (hlisting : l.groups.faults.failListing = false) :
    ((s.run again).run ((s.run block).run l).2.healed).2.groups.proposalTable
      = ((s.run block).run l.healed).2.groups.proposalTable := by
  have hafter : ((s.run block).run l).2.healed.groups
      = (l.groups.executed (s.selection block l.groups)).healed :=
    congrArg MemGroups.healed (groups_run s block hk hsize)
  have hk' : (l.groups.executed (s.selection block l.groups)).Keyed := hk.executed _
  have hlisting' : (l.groups.executed (s.selection block l.groups)).faults.failListing = false := by
    rw [MemGroups.faults_executed]
    exact hlisting
  have hsize' : (l.groups.executed (s.selection block l.groups)).healed.policyTable.size
      ≤ UInt64.size := by
    rw [MemGroups.healed_executed, MemGroups.policyTable_executed]
    exact hsize
  -- in both cases the faults may as well be taken away at the end
  rw [groups_run s again (hafter ▸ hk'.healed) (hafter ▸ hsize'), hafter,
    selection_healed hcap again hk' hlisting', ← MemGroups.healed_executed,
    groups_run s block (l := l.healed) hk.healed hsize]
  show _ = (l.groups.healed.executed (s.selection block l.groups.healed)).proposalTable
  rw [selection_healed hcap block hk hlisting, ← MemGroups.healed_executed, htime,
    selection_of_uncapped hcap block hk hlisting]
  exact MemGroups.proposalTable_executed_eligible hk List.filter_sublist

/-- **A listing failure is isolated.**  While groups can be listed, an
uncapped scan of a book with unlistable groups and policies has the outcomes
of a scan without these faults, as far as the policies can be reached.  It
notes one failure for each unlistable group, and one for each unlistable
policy of the others, in the order of the listings.  Proposals behind a
failure are not tried and stay as they are.  When the faults are gone, another
scan at the same time leaves all proposals as one scan without them would
have left them. -/
theorem run_isolates_failures (s : Scanner) (hcap : s.config.maxExecutions = none)
    (block again : BlockContext) (htime : again.time = block.time) (l : Ledger)
    (hbuilt : l.groups.Built) (hsize : l.groups.policyTable.size ≤ UInt64.size)
    (hlisting : l.groups.faults.failListing = false) :
    ∃ report after healthy afterHealthy, (s.run block).run l = (report, after) ∧
      (s.run block).run l.healed = (healthy, afterHealthy) ∧
      report.outcomes = healthy.outcomes.filter (fun o => l.groups.reaches o.policy) ∧
      report.listingFailures = l.groups.brokenListings ∧
      after.groups.execCalls
        = l.groups.execCalls ++ report.outcomes.map (fun o => ⟨o.proposalId, o.policy⟩) ∧
      (∀ id p, l.groups.proposalTable.get? id = some p → l.groups.reaches p.policy = false →
        after.groups.proposalTable.get? id = some p ∧ ∀ o ∈ report.outcomes, o.proposalId ≠ id) ∧
      ((s.run again).run after.healed).2.groups.proposalTable
        = afterHealthy.groups.proposalTable := by
  have hk := hbuilt.keyed
  have hrun := run_run s block hk hsize
  have hcaught := proposalTable_run_healed hcap htime hk hsize hlisting
  rw [hrun] at hcaught
  refine ⟨_, _, _, _, hrun, run_run s block (l := l.healed) hk.healed hsize, ?_, ?_, ?_,
    fun id p hp hbehind => ?_, ?_⟩
  · show (s.selection block l.groups).map l.groups.outcome
      = ((s.selection block l.groups.healed).map l.groups.outcome).filter _
    rw [selection_of_uncapped hcap block hk hlisting, selection_healed hcap block hk hlisting,
      List.filter_map]
    rfl
  · show l.groups.listing.failures = _
    rw [MemGroups.listing_eq_filter hk hlisting]
  · exact execCalls_reportOn ..
  · -- what is behind a failure is not selected, and only what is selected changes
    have hout := not_mem_selection_of_unreached hcap block hk hlisting hp hbehind
    constructor
    · show (l.groups.executed (s.selection block l.groups)).proposalTable.get? id = _
      rw [MemGroups.get?_executed (nodup_selection s block hk)
        fun q hq => get?_of_mem_selection hk hq, if_neg fun h => hout h.1, hp]
    · rintro o ho rfl
      obtain ⟨q, hq, rfl⟩ := List.mem_map.1 ho
      exact hout (List.mem_map_of_mem hq)
  · rw [hcaught, run_run s block (l := l.healed) hk.healed hsize]

end Scanner

namespace Scenario

/-- A second policy of the first group. -/
def policyC : Address := ⟨"verana1c"⟩

/-- The second group cannot be listed, and in the first one neither can the
first of two policies.  Of the proposals of the other policy the execution of
one fails and that of the other one is refused. -/
def brokenLedger : Ledger :=
  ⟨.empty, .empty, { (additions
    |>.addPolicy 1 policyC
    |>.addProposal ⟨8, policyC, .accepted, 100, .notRun⟩
    |>.addProposal ⟨9, policyC, .accepted, 100, .notRun⟩) with
      faults := ⟨[8], [9], false, [2], [policyA]⟩ }⟩

theorem built_brokenLedger : brokenLedger.groups.Built :=
  .setFaults _ <| .addProposal _ <| .addProposal _ <| .addPolicy _ _ built_additions

/-- Pages of one item, no cap. -/
def uncapped : Scanner := ⟨⟨1, none⟩, by decide⟩

end Scenario

open Scenario in
/-- Of five eligible proposals two can be reached; the next scan without the
faults executes the others. -/
theorem Scanner.run_isolates_failures_brokenLedger :
    uncapped.config.maxExecutions = none ∧ brokenLedger.groups.Built ∧
      brokenLedger.groups.policyTable.size ≤ UInt64.size ∧
      brokenLedger.groups.faults.failListing = false ∧
      (brokenLedger.groups.eligible 200).map Proposal.id = [2, 3, 8, 9, 1] ∧
      ∃ (report : ScanReport) (after : Ledger),
        (uncapped.run ⟨8, 200⟩).run brokenLedger = (report, after) ∧
        report.executedIds = [8, 9] ∧
        report.listingFailures
          = [.listProposals policyA
              (.unavailable "injected proposal listing failure for policy verana1a"),
            .listPolicies 2 (.unavailable "injected policy listing failure for group 2")] ∧
        after.groups.proposalTable.get? 1 = some ⟨1, policyB, .accepted, 100, .notRun⟩ ∧
        (((uncapped.run ⟨9, 200⟩).run after.healed).2.groups.proposalTable.get? 1).map
          Proposal.result = some .success := by
  have hsize : brokenLedger.groups.policyTable.size ≤ UInt64.size := by
    decide
  obtain ⟨report, after, healthy, afterHealthy, hrun, hhealthy, houtcomes, hfailures, -, hbehind,
    hcaught⟩ := Scanner.run_isolates_failures uncapped rfl ⟨8, 200⟩ ⟨9, 200⟩ rfl brokenLedger
      built_brokenLedger hsize rfl
  refine ⟨rfl, built_brokenLedger, hsize, rfl, by decide +kernel, report, after, hrun, ?_, ?_, ?_, ?_⟩
  · rw [ScanReport.executedIds, houtcomes, ← show _ = healthy from congrArg Prod.fst hhealthy]
    decide +kernel
  · rw [hfailures]
    decide +kernel
  · exact (hbehind 1 _ (by decide +kernel) (by decide +kernel)).1
  · rw [hcaught, ← show _ = afterHealthy from congrArg Prod.snd hhealthy]
    decide +kernel

end BlockHooks
