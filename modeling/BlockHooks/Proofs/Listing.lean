/-
BlockHooks/Proofs/Listing.lean

What a scan lists.

The listings of a scan are read page by page, but what they give is a
function of the book alone (`MemGroups.listing`), whatever the size of the
pages; and they leave the book as it is (`Scanner.run_listAll`).

Without faults all proposals behind some group are listed
(`MemGroups.visited`); faults can only leave some of them out
(`MemGroups.listing_sublist`).  A proposal has one policy and a policy has
one group, so no proposal is listed twice (`MemGroups.Keyed.nodup_visited`).
-/
import Mathlib
import BlockHooks.Ledger
import BlockHooks.Proofs.Book
import BlockHooks.Proofs.Paging
import BlockHooks.Scan.Run

namespace BlockHooks

/-- All listings in a row. -/
def Listing.concat (listings : List Listing) : Listing :=
  ⟨listings.flatMap (·.proposals), listings.flatMap (·.failures)⟩

namespace MemGroups

variable {g : MemGroups} {α : Type}

/-! ### Listings without pages -/

/-- What a listing gives when it is read to its end. -/
def drained (g : MemGroups) (all : Except GroupError (List α)) : Except GroupError (List α) :=
  if g.faults.failListing then .error (.unavailable "injected listing failure") else all

/-- What is listed of a policy. -/
def policyListing (g : MemGroups) (policy : Address) : Listing :=
  match g.drained (g.listableProposals policy) with
  | .ok proposals => ⟨proposals, []⟩
  | .error e => ⟨[], [.listProposals policy e]⟩

/-- What is listed of a group. -/
def groupListing (g : MemGroups) (groupId : UInt64) : Listing :=
  match g.drained (g.listablePolicies groupId) with
  | .ok policies => .concat (policies.map fun policy => g.policyListing policy.address)
  | .error e => ⟨[], [.listPolicies groupId e]⟩

/-- What is listed of a book. -/
def listing (g : MemGroups) : Listing :=
  match g.drained (.ok g.groupTable.values) with
  | .ok groups => .concat (groups.map fun group => g.groupListing group.id)
  | .error e => ⟨[], [.listGroups e]⟩

theorem drained_eq_ok_iff {all : Except GroupError (List α)} {items : List α} :
    g.drained all = .ok items ↔ g.faults.failListing = false ∧ all = .ok items := by
  unfold drained
  split
  next hfail => simp [hfail]
  next hfail => simp [hfail]

theorem listablePolicies_eq_ok_iff {groupId : UInt64} {policies : List Policy} :
    g.listablePolicies groupId = .ok policies ↔
      g.faults.unlistableGroups.contains groupId = false ∧
        g.groupTable.contains groupId = true ∧ g.policiesOf groupId = policies := by
  unfold listablePolicies
  split
  next hout =>
    rw [hout]
    simp
  next hin =>
    rw [eq_false_of_ne_true hin]
    cases g.groupTable.contains groupId <;> simp

theorem listableProposals_eq_ok_iff {policy : Address} {proposals : List Proposal} :
    g.listableProposals policy = .ok proposals ↔
      g.faults.unlistablePolicies.contains policy = false ∧ g.proposalsOf policy = proposals := by
  unfold listableProposals
  split
  next hout =>
    rw [hout]
    simp
  next hin =>
    rw [eq_false_of_ne_true hin]
    simp

/-- A listing of the book that is read page by page from its start. -/
theorem run_drain_listed {list : PageRequest → Action Ledger GroupError (Page α)}
    {all : Except GroupError (List α)} {l : Ledger} {limit : UInt64} (hlimit : limit ≠ 0)
    (hlen : ∀ items, all = .ok items → items.length ≤ UInt64.size)
    (hlist : ∀ request, (list request).run l = (l.groups.listed request all, l)) :
    (Page.drain list (.first limit)).run l = (l.groups.drained all, l) := by
  unfold drained
  split
  next hfail =>
    -- the first request fails already
    refine Page.run_drain_error ?_
    rw [hlist, listed, if_pos hfail]
  next hfail =>
    rcases all with e | items
    · refine Page.run_drain_error ?_
      rw [hlist, listed, if_neg hfail]
      show (if limit = 0 then _ else _, l) = _
      rw [if_neg hlimit]
      rfl
    · refine Page.run_drain (hlen items rfl) (fun request hrequest => ?_) (.first limit) hlimit
      rw [hlist, listed, if_neg hfail, if_neg hrequest]
      rfl

/-! ### All proposals behind groups -/

/-- The proposals of all policies of all groups: by ascending number of the
group, then by ascending address of the policy, then by ascending number. -/
def visited (g : MemGroups) : List Proposal :=
  g.groupTable.values.flatMap fun group =>
    (g.policiesOf group.id).flatMap fun policy => g.proposalsOf policy.address

theorem policyListing_sublist (policy : Address) :
    (g.policyListing policy).proposals.Sublist (g.proposalsOf policy) := by
  unfold policyListing
  split
  next proposals h =>
    rw [(listableProposals_eq_ok_iff.1 (drained_eq_ok_iff.1 h).2).2]
  next e h => exact List.nil_sublist _

theorem groupListing_sublist (groupId : UInt64) :
    (g.groupListing groupId).proposals.Sublist
      ((g.policiesOf groupId).flatMap fun policy => g.proposalsOf policy.address) := by
  unfold groupListing
  split
  next policies h =>
    rw [(listablePolicies_eq_ok_iff.1 (drained_eq_ok_iff.1 h).2).2.2, Listing.concat,
      List.flatMap_map]
    exact List.Sublist.flatMap_right _ fun policy _ => policyListing_sublist policy.address
  next e h => exact List.nil_sublist _

/-- Nothing is listed that is not behind a group. -/
theorem listing_sublist : g.listing.proposals.Sublist g.visited := by
  unfold listing
  split
  next groups h =>
    rw [visited, Except.ok.inj (drained_eq_ok_iff.1 h).2, Listing.concat, List.flatMap_map]
    exact List.Sublist.flatMap_right _ fun group _ => groupListing_sublist group.id
  next e h => exact List.nil_sublist _

/-- Every proposal that is visited is in the book. -/
theorem Keyed.get?_of_mem_visited (hk : g.Keyed) {p : Proposal} (h : p ∈ g.visited) :
    g.proposalTable.get? p.id = some p := by
  obtain ⟨group, -, hgroup⟩ := List.mem_flatMap.1 h
  obtain ⟨policy, -, hpolicy⟩ := List.mem_flatMap.1 hgroup
  exact hk.proposals.get?_of_mem (List.mem_of_mem_filter hpolicy)

/-- Values with different keys that are taken up by their tags, for tags
that are all different, still have different keys. -/
theorem nodup_map_fibers {β κ τ : Type} [BEq τ] [LawfulBEq τ] {key : β → κ} (tag : β → τ)
    {values : List β} {tags : List τ} (hvalues : (values.map key).Nodup) (htags : tags.Nodup) :
    ((tags.flatMap fun t => values.filter fun v => tag v == t).map key).Nodup := by
  rw [List.Nodup, List.pairwise_map, List.pairwise_flatMap]
  constructor
  · intro t _
    rw [List.Nodup, List.pairwise_map] at hvalues
    exact hvalues.filter _
  · -- values taken up by different tags are different, so their keys are
    refine htags.imp fun {t u} hne v hv w hw hsame => ?_
    obtain ⟨hv, htagv⟩ := List.mem_filter.1 hv
    obtain ⟨hw, htagw⟩ := List.mem_filter.1 hw
    have hvw : v = w := List.inj_on_of_nodup_map hvalues hv hw hsame
    refine hne ?_
    rw [← eq_of_beq htagv, ← eq_of_beq htagw, hvw]

/-- No proposal is visited twice. -/
theorem Keyed.nodup_visited (hk : g.Keyed) : (g.visited.map Proposal.id).Nodup := by
  -- first the policies behind groups, then the proposals behind these
  have hpolicies : ((g.groupTable.values.flatMap fun group =>
      g.policiesOf group.id).map Policy.address).Nodup := by
    have hfibers := nodup_map_fibers Policy.groupId hk.policies.nodup_values
      hk.groups.nodup_values
    rwa [List.flatMap_map] at hfibers
  have hfibers := nodup_map_fibers Proposal.policy hk.proposals.nodup_values hpolicies
  rwa [List.flatMap_map, List.flatMap_assoc] at hfibers

/-! ### Books without faulty listings -/

/-- All listings can be read. -/
structure Listable (g : MemGroups) : Prop where
  listings : g.faults.failListing = false
  groups : g.faults.unlistableGroups = []
  policies : g.faults.unlistablePolicies = []

theorem Listable.policyListing_eq (h : g.Listable) (policy : Address) :
    g.policyListing policy = ⟨g.proposalsOf policy, []⟩ := by
  have hall : g.listableProposals policy = .ok (g.proposalsOf policy) :=
    listableProposals_eq_ok_iff.2 ⟨by rw [h.policies]; rfl, rfl⟩
  rw [policyListing, drained_eq_ok_iff.2 ⟨h.listings, hall⟩]

theorem Listable.groupListing_eq (h : g.Listable) {groupId : UInt64}
    (hgroup : g.groupTable.contains groupId = true) :
    g.groupListing groupId
      = ⟨(g.policiesOf groupId).flatMap fun policy => g.proposalsOf policy.address, []⟩ := by
  have hall : g.listablePolicies groupId = .ok (g.policiesOf groupId) :=
    listablePolicies_eq_ok_iff.2 ⟨by rw [h.groups]; rfl, hgroup, rfl⟩
  rw [groupListing, drained_eq_ok_iff.2 ⟨h.listings, hall⟩]
  simp [h.policyListing_eq, Listing.concat, List.flatMap_map]

/-- Without faults everything behind a group is listed. -/
theorem Listable.listing_eq (h : g.Listable) (hk : g.Keyed) :
    g.listing = ⟨g.visited, []⟩ := by
  rw [listing, drained_eq_ok_iff.2 ⟨h.listings, rfl⟩]
  have hgroups : g.groupTable.values.map (fun group => g.groupListing group.id)
      = g.groupTable.values.map fun group =>
        ⟨(g.policiesOf group.id).flatMap fun policy => g.proposalsOf policy.address, []⟩ := by
    refine List.map_congr_left fun group hmem => h.groupListing_eq ?_
    rw [Table.contains, hk.groups.get?_of_mem hmem]
    rfl
  show Listing.concat _ = _
  rw [hgroups]
  simp [Listing.concat, List.flatMap_map, visited]

end MemGroups

/-! ### The listings of a scanner -/

namespace Scanner

/-- There are no more proposals than words, so those of a policy are all read. -/
theorem run_listPolicy {limit : UInt64} (hlimit : limit ≠ 0) (policy : Address) (l : Ledger) :
    (listPolicy limit policy).run l = (l.groups.policyListing policy, l) := by
  have hdrain : (Page.drain (GroupKeeper.proposals policy) (.first limit)).run l
      = (l.groups.drained (l.groups.listableProposals policy), l) := by
    refine MemGroups.run_drain_listed hlimit (fun proposals h => ?_) fun request => rfl
    rw [← (MemGroups.listableProposals_eq_ok_iff.1 h).2]
    refine (List.length_filter_le _ _).trans ?_
    rw [Table.length_values]
    exact Table.size_le _
  rw [listPolicy, Action.run_state_bind, Action.run_outcome, hdrain, MemGroups.policyListing]
  cases l.groups.drained (l.groups.listableProposals policy) <;> rfl

theorem run_listPolicies {limit : UInt64} (hlimit : limit ≠ 0) (policies : List Policy)
    (l : Ledger) :
    (listPolicies limit policies).run l
      = (.concat (policies.map fun policy => l.groups.policyListing policy.address), l) := by
  induction policies with
  | nil => rfl
  | cons policy policies ih =>
    rw [listPolicies, Action.run_state_bind, run_listPolicy hlimit, Action.run_state_bind, ih]
    rfl

theorem run_listGroup {limit : UInt64} (hlimit : limit ≠ 0) (groupId : UInt64) {l : Ledger}
    (hsize : l.groups.policyTable.size ≤ UInt64.size) :
    (listGroup limit groupId).run l = (l.groups.groupListing groupId, l) := by
  have hdrain : (Page.drain (GroupKeeper.policies groupId) (.first limit)).run l
      = (l.groups.drained (l.groups.listablePolicies groupId), l) := by
    refine MemGroups.run_drain_listed hlimit (fun policies h => ?_) fun request => rfl
    rw [← (MemGroups.listablePolicies_eq_ok_iff.1 h).2.2]
    refine (List.length_filter_le _ _).trans ?_
    rwa [Table.length_values]
  rw [listGroup, Action.run_state_bind, Action.run_outcome, hdrain, MemGroups.groupListing]
  rcases l.groups.drained (l.groups.listablePolicies groupId) with e | policies
  · rfl
  · exact run_listPolicies hlimit policies l

theorem run_listGroups {limit : UInt64} (hlimit : limit ≠ 0) (groups : List Group) {l : Ledger}
    (hsize : l.groups.policyTable.size ≤ UInt64.size) :
    (listGroups limit groups).run l
      = (.concat (groups.map fun group => l.groups.groupListing group.id), l) := by
  induction groups with
  | nil => rfl
  | cons group groups ih =>
    rw [listGroups, Action.run_state_bind, run_listGroup hlimit group.id hsize,
      Action.run_state_bind, ih]
    rfl

/-- The listing of a book does not depend on the size of the pages, and it
changes nothing. -/
theorem run_listAll {limit : UInt64} (hlimit : limit ≠ 0) {l : Ledger}
    (hsize : l.groups.policyTable.size ≤ UInt64.size) :
    (listAll limit).run l = (l.groups.listing, l) := by
  have hdrain : (Page.drain GroupKeeper.groups (.first limit)).run l
      = (l.groups.drained (.ok l.groups.groupTable.values), l) := by
    refine MemGroups.run_drain_listed hlimit (fun groups h => ?_) fun request => rfl
    rw [← Except.ok.inj h, Table.length_values]
    exact Table.size_le _
  rw [listAll, Action.run_state_bind, Action.run_outcome, hdrain, MemGroups.listing]
  rcases l.groups.drained (.ok l.groups.groupTable.values) with e | groups
  · rfl
  · exact run_listGroups hlimit groups hsize

end Scanner

end BlockHooks
