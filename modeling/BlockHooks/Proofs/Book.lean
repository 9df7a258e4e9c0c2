/-
BlockHooks/Proofs/Book.lean

Every entry of a book is kept under its own number or address.

This holds of the empty book and is kept by whatever may be done to a book:
adding to it, changing a proposal or the faults, and executing a proposal
(`MemGroups.Built.keyed`).  A table kept in this way lists its values by
ascending key and each of them once (`Table.IndexedBy.pairwise_values`).
-/
import Mathlib
import BlockHooks.Group.Keeper

namespace BlockHooks

/-! ### Tables indexed by a part of their values -/

namespace Table

variable {κ β : Type} [Ord κ]

/-- Every value is bound to the key that is a part of it. -/
def IndexedBy (t : Table κ β) (key : β → κ) : Prop :=
  ∀ k v, t.get? k = some v → key v = k

theorem indexedBy_empty (key : β → κ) : (empty : Table κ β).IndexedBy key := by
  intro k v h
  rw [get?_empty] at h
  cases h

theorem length_values (t : Table κ β) : t.values.length = t.size :=
  List.length_map ..

variable [Std.TransOrd κ] [Std.LawfulEqOrd κ] {t : Table κ β} {key : β → κ}

theorem IndexedBy.insert [DecidableEq κ] {k : κ} {v : β} (h : t.IndexedBy key)
    (hv : key v = k) : (t.insert k v).IndexedBy key := by
  intro k' v' h'
  rw [get?_insert] at h'
  split at h'
  next hk =>
    cases h'
    exact hv.trans hk.symm
  next hk => exact h k' v' h'

omit [Std.TransOrd κ] in
/-- A value is found under the key that is a part of it. -/
theorem IndexedBy.get?_of_mem {v : β} (h : t.IndexedBy key) (hv : v ∈ t.values) :
    t.get? (key v) = some v := by
  obtain ⟨⟨k, w⟩, hmem, rfl⟩ := List.mem_map.1 hv
  have hget := mem_entries_iff.1 hmem
  rw [h k w hget]
  exact hget

omit [Std.TransOrd κ] in
theorem IndexedBy.mem_values_iff {v : β} (h : t.IndexedBy key) :
    v ∈ t.values ↔ t.get? (key v) = some v := by
  refine ⟨h.get?_of_mem, fun hget => ?_⟩
  exact List.mem_map_of_mem (mem_entries_iff.2 hget)

omit [Std.TransOrd κ] in
/-- The values are listed by ascending key. -/
theorem IndexedBy.pairwise_values (h : t.IndexedBy key) :
    t.values.Pairwise fun v w => compare (key v) (key w) = .lt := by
  rw [values, List.pairwise_map]
  refine t.ascending.imp_of_mem fun {a b} ha hb hlt => ?_
  rw [h a.1 a.2 (mem_entries_iff.1 ha), h b.1 b.2 (mem_entries_iff.1 hb)]
  exact hlt

omit [Std.TransOrd κ] in
/-- No two values have the same key. -/
theorem IndexedBy.nodup_values (h : t.IndexedBy key) : (t.values.map key).Nodup := by
  rw [List.Nodup, List.pairwise_map]
  refine h.pairwise_values.imp fun {a b} hlt hsame => ?_
  rw [hsame, Std.ReflOrd.compare_self] at hlt
  cases hlt

/-- There are no more keys than words. -/
theorem size_le (t : Table UInt64 β) : t.size ≤ UInt64.size := by
  -- ascending keys are different, and there are 2⁶⁴ words
  have hkeys : (t.entries.map fun e => e.1.toFin).Nodup := by
    rw [List.Nodup, List.pairwise_map]
    refine t.ascending.imp fun {a b} hlt hsame => ?_
    rw [UInt64.toFin_inj.1 hsame, Std.ReflOrd.compare_self] at hlt
    cases hlt
  have hcard := hkeys.length_le_card
  rwa [List.length_map, Fintype.card_fin] at hcard

end Table

namespace MemGroups

variable {g : MemGroups}

theorem proposal_eq_ok_iff {id : UInt64} {p : Proposal} :
    g.proposal id = .ok p ↔ g.proposalTable.get? id = some p := by
  rw [proposal]
  cases g.proposalTable.get? id <;> simp

/-! ### Execution -/

/-- A proposal may be executed if it is there, was accepted, and its voting
is over, unless its number is marked as erroring. -/
theorem executable_eq_ok_iff {time : Int64} {id : UInt64} {p : Proposal} :
    g.executable time id = .ok p ↔
      g.faults.erroring.contains id = false ∧ g.proposalTable.get? id = some p ∧
        p.status = .accepted ∧ ¬ time < p.votingPeriodEnd := by
  unfold executable
  constructor
  · intro h
    split at h
    next => cases h
    next herr =>
      split at h
      next => cases h
      next q hq =>
        split at h
        next => cases h
        next hstatus =>
          split at h
          next => cases h
          next hdue =>
            cases h
            exact ⟨eq_false_of_ne_true herr, hq, not_not.1 hstatus, hdue⟩
  · rintro ⟨herr, hget, hstatus, hdue⟩
    rw [herr, if_neg Bool.false_ne_true, hget]
    show (if p.status ≠ .accepted then _ else _) = _
    rw [if_neg (not_not.2 hstatus), if_neg hdue]

/-! ### Books -/

/-- Groups and proposals are kept under their numbers, policies under their
addresses. -/
structure Keyed (g : MemGroups) : Prop where
  groups : g.groupTable.IndexedBy Group.id
  policies : g.policyTable.IndexedBy Policy.address
  proposals : g.proposalTable.IndexedBy Proposal.id

theorem keyed_empty : empty.Keyed :=
  ⟨Table.indexedBy_empty _, Table.indexedBy_empty _, Table.indexedBy_empty _⟩

theorem Keyed.addGroup (h : g.Keyed) (id : UInt64) (admin : Address) : (g.addGroup id admin).Keyed :=
  { h with groups := h.groups.insert rfl }

theorem Keyed.addPolicy (h : g.Keyed) (groupId : UInt64) (address : Address) :
    (g.addPolicy groupId address).Keyed :=
  { h with policies := h.policies.insert rfl }

theorem Keyed.addProposal (h : g.Keyed) (p : Proposal) : (g.addProposal p).Keyed :=
  { h with proposals := h.proposals.insert rfl }

theorem Keyed.amendProposal (h : g.Keyed) (id : UInt64) (status : Option ProposalStatus)
    (result : Option ExecutorResult) (votingPeriodEnd : Option Int64) :
    (g.amendProposal id status result votingPeriodEnd).Keyed := by
  unfold MemGroups.amendProposal
  split
  next hnone => exact h
  next p hp => exact { h with proposals := h.proposals.insert (h.proposals id p hp) }

theorem Keyed.execute (h : g.Keyed) (block : BlockContext) (call : ExecRequest) :
    (g.execute block call).2.Keyed := by
  unfold MemGroups.execute
  split
  next hrefused => exact ⟨h.groups, h.policies, h.proposals⟩
  next p hp =>
    have hfound := (executable_eq_ok_iff.1 hp).2.1
    exact { h with proposals := h.proposals.insert (h.proposals _ p hfound) }

/-- The books that can be made from the empty one. -/
inductive Built : MemGroups → Prop
  | empty : Built empty
  | addGroup {g : MemGroups} (id : UInt64) (admin : Address) : Built g → Built (g.addGroup id admin)
  | addPolicy {g : MemGroups} (groupId : UInt64) (address : Address) :
      Built g → Built (g.addPolicy groupId address)
  | addProposal {g : MemGroups} (p : Proposal) : Built g → Built (g.addProposal p)
  | amendProposal {g : MemGroups} (id : UInt64) (status : Option ProposalStatus)
      (result : Option ExecutorResult) (votingPeriodEnd : Option Int64) :
      Built g → Built (g.amendProposal id status result votingPeriodEnd)
  | setFaults {g : MemGroups} (faults : GroupFaults) : Built g → Built { g with faults := faults }
  | execute {g : MemGroups} (block : BlockContext) (call : ExecRequest) :
      Built g → Built (g.execute block call).2

theorem Built.keyed (h : g.Built) : g.Keyed := by
  induction h with
  | empty => exact keyed_empty
  | addGroup id admin _ ih => exact ih.addGroup id admin
  | addPolicy groupId address _ ih => exact ih.addPolicy groupId address
  | addProposal p _ ih => exact ih.addProposal p
  | amendProposal id status result votingPeriodEnd _ ih =>
    exact ih.amendProposal id status result votingPeriodEnd
  | setFaults faults _ ih => exact ⟨ih.groups, ih.policies, ih.proposals⟩
  | execute block call _ ih => exact ih.execute block call

end MemGroups

end BlockHooks
