/-
BlockHooks/Proofs/Rounds.lean

One capped scan after another.

A scan gives a result to the proposals it tries, and these are not eligible
any more.  Those marked as erroring get none: they stay eligible, and they
stay in front (`MemGroups.eligible_executed_take`).  So when nothing but
scans happens to a book, then at any time some first part of what was
eligible at the start has been tried, and what is eligible now are the
erroring ones of that part and all of the rest (`remaining`).  Each scan
spends its cap on those that are erroring first, and what is left of the cap
takes it further (`advance`).

A proposal is therefore tried early if few erroring ones stand before it,
and never if they are as many as the cap (`scans_reach`).
-/
import Mathlib
import BlockHooks.Proofs.AtMostOnce

namespace BlockHooks

/-! ### Tables with other values -/

namespace Table

variable {κ β : Type} [Ord κ] [Std.TransOrd κ] [Std.LawfulEqOrd κ] {t u : Table κ β}

theorem entries_eq_map {f : κ → β → β} (h : ∀ k, u.get? k = (t.get? k).map (f k)) :
    u.entries = t.entries.map fun e => (e.1, f e.1 e.2) := by
  refine eq_of_ascending u.ascending ?_ fun ⟨k, v⟩ => ?_
  · rw [List.pairwise_map]
    exact t.ascending
  · rw [mem_entries_iff, h, Option.map_eq_some_iff, List.mem_map]
    constructor
    · rintro ⟨w, hw, rfl⟩
      exact ⟨(k, w), mem_entries_iff.2 hw, rfl⟩
    · rintro ⟨⟨k', w⟩, hw, he⟩
      cases he
      exact ⟨w, mem_entries_iff.1 hw, rfl⟩

/-- A table with the same keys lists the same values, each of them changed. -/
theorem IndexedBy.values_eq_map {key : β → κ} (ht : t.IndexedBy key) {f : κ → β → β}
    (h : ∀ k, u.get? k = (t.get? k).map (f k)) :
    u.values = t.values.map fun v => f (key v) v := by
  rw [values, values, entries_eq_map h, List.map_map, List.map_map]
  refine List.map_congr_left fun e he => ?_
  have hkey : key e.2 = e.1 := ht e.1 e.2 (mem_entries_iff.1 he)
  show f e.1 e.2 = f (key e.2) e.2
  rw [hkey]

end Table

/-! ### What is eligible after a scan -/

/-- Whether a proposal may be executed and never was. -/
def Proposal.isEligible (time : Int64) (p : Proposal) : Bool :=
  decide (p.votingPeriodEnd ≤ time ∧ p.result = .notRun ∧ p.status = .accepted)

namespace MemGroups

variable {g : MemGroups} {time : Int64} {ps : List Proposal}

theorem eligible_eq (g : MemGroups) (time : Int64) :
    g.eligible time = g.visited.filter (Proposal.isEligible time) :=
  rfl

/-- Whether the execution of a proposal is refused. -/
def isErroring (g : MemGroups) (p : Proposal) : Bool := g.faults.erroring.contains p.id

theorem isErroring_executed (g : MemGroups) (ps : List Proposal) :
    (g.executed ps).isErroring = g.isErroring := by
  funext p
  rw [isErroring, isErroring, faults_executed]

theorem Listable.executed (h : g.Listable) (ps : List Proposal) : (g.executed ps).Listable := by
  have hfaults := faults_executed g ps
  exact ⟨hfaults ▸ h.listings, hfaults ▸ h.groups, hfaults ▸ h.policies⟩

/-- A proposal after the proposals with the given numbers were tried. -/
def tried (g : MemGroups) (ids : List UInt64) (p : Proposal) : Proposal :=
  if p.id ∈ ids ∧ g.isErroring p = false then { p with result := g.resultOf p.id } else p

theorem tried_of_not {ids : List UInt64} {p : Proposal}
    (h : ¬ (p.id ∈ ids ∧ g.isErroring p = false)) : g.tried ids p = p :=
  if_neg h

theorem policy_tried (g : MemGroups) (ids : List UInt64) (p : Proposal) :
    (g.tried ids p).policy = p.policy := by
  rw [tried]
  split <;> rfl

theorem values_executed (hk : g.Keyed) (hids : (ps.map Proposal.id).Nodup)
    (hfound : ∀ p ∈ ps, g.proposalTable.get? p.id = some p) :
    (g.executed ps).proposalTable.values
      = g.proposalTable.values.map (g.tried (ps.map Proposal.id)) := by
  refine hk.proposals.values_eq_map (f := fun id p =>
    if id ∈ ps.map Proposal.id ∧ g.faults.erroring.contains id = false then
      { p with result := g.resultOf id } else p) fun id => ?_
  rw [get?_executed hids hfound]
  split
  · rfl
  · exact (Option.map_id' ..).symm

/-- The same proposals are visited as before, in the same order. -/
theorem visited_executed (hk : g.Keyed) (hids : (ps.map Proposal.id).Nodup)
    (hfound : ∀ p ∈ ps, g.proposalTable.get? p.id = some p) :
    (g.executed ps).visited = g.visited.map (g.tried (ps.map Proposal.id)) := by
  have hproposals : ∀ policy, (g.executed ps).proposalsOf policy
      = (g.proposalsOf policy).map (g.tried (ps.map Proposal.id)) := by
    intro policy
    rw [proposalsOf, values_executed hk hids hfound, List.filter_map, proposalsOf]
    refine congrArg _ (List.filter_congr fun p _ => ?_)
    rw [Function.comp, policy_tried]
  simp only [visited, policiesOf, groupTable_executed, policyTable_executed, hproposals,
    List.map_flatMap]

/-- Only the proposals that were tried and not refused are eligible no more. -/
theorem eligible_executed (hk : g.Keyed) (hids : (ps.map Proposal.id).Nodup)
    (hfound : ∀ p ∈ ps, g.proposalTable.get? p.id = some p) :
    (g.executed ps).eligible time = (g.eligible time).filter fun p =>
      decide ¬ (p.id ∈ ps.map Proposal.id ∧ g.isErroring p = false) := by
  rw [eligible_eq, visited_executed hk hids hfound, List.filter_map, eligible_eq,
    List.filter_filter]
  have hsame : ∀ p, (Proposal.isEligible time ∘ g.tried (ps.map Proposal.id)) p
      = (decide ¬ (p.id ∈ ps.map Proposal.id ∧ g.isErroring p = false) && p.isEligible time) := by
    intro p
    rw [Function.comp]
    by_cases hresolved : p.id ∈ ps.map Proposal.id ∧ g.isErroring p = false
    · -- it has a result now
      have hresult : g.resultOf p.id ≠ .notRun := by
        rw [resultOf]
        split <;> decide
      rw [tried, if_pos hresolved]
      simp [Proposal.isEligible, hresolved, hresult]
    · rw [tried_of_not hresolved, decide_eq_true hresolved, Bool.true_and]
  rw [List.filter_congr fun p _ => hsame p]
  refine (List.map_congr_left fun p hp => ?_).trans (List.map_id _)
  have hkept := (List.mem_filter.1 hp).2
  rw [Bool.and_eq_true, decide_eq_true_iff] at hkept
  exact tried_of_not hkept.1

theorem get?_of_mem_eligible (hk : g.Keyed) {p : Proposal} (h : p ∈ g.eligible time) :
    g.proposalTable.get? p.id = some p :=
  hk.get?_of_mem_visited (List.mem_of_mem_filter h)

theorem nodup_eligible (hk : g.Keyed) (time : Int64) : ((g.eligible time).map Proposal.id).Nodup :=
  hk.nodup_visited.sublist (List.filter_sublist.map _)

/-- Of the first `n` eligible proposals only the erroring ones stay eligible,
and all others stay eligible behind them. -/
theorem eligible_executed_take (hk : g.Keyed) (time : Int64) (n : Nat) :
    (g.executed ((g.eligible time).take n)).eligible time
      = ((g.eligible time).take n).filter g.isErroring ++ (g.eligible time).drop n := by
  have hids : (((g.eligible time).take n).map Proposal.id).Nodup :=
    (nodup_eligible hk time).sublist ((List.take_sublist _ _).map _)
  have hfound : ∀ p ∈ (g.eligible time).take n, g.proposalTable.get? p.id = some p :=
    fun p hp => get?_of_mem_eligible hk (List.mem_of_mem_take hp)
  rw [eligible_executed hk hids hfound]
  generalize hL : g.eligible time = L
  have hnodup : (L.map Proposal.id).Nodup := hL ▸ nodup_eligible hk time
  -- no two have the same number, so those behind the first were not tried
  have hdisjoint : ∀ p ∈ L.drop n, p.id ∉ (L.take n).map Proposal.id := by
    rw [← List.take_append_drop n L, List.map_append, List.nodup_append] at hnodup
    intro p hp hin
    exact hnodup.2.2 p.id hin p.id (List.mem_map_of_mem hp) rfl
  rw [← List.take_append_drop n L, List.filter_append, List.take_append_drop n L]
  congr 1
  · refine List.filter_congr fun p hp => ?_
    have hin : p.id ∈ (L.take n).map Proposal.id := List.mem_map_of_mem hp
    simp [hin, -List.map_take]
  · refine List.filter_eq_self.2 fun p hp => ?_
    simp [hdisjoint p hp, -List.map_take]

end MemGroups

/-! ### Rounds over a queue -/

section Queue

variable {α : Type} (stuck : α → Bool) (cap : Nat) (l : List α)

/-- What is left of `l` when its first `n` elements have been tried. -/
def remaining (n : Nat) : List α := (l.take n).filter stuck ++ l.drop n

/-- How far one more round leads: those that are stuck are tried first. -/
def advance (n : Nat) : Nat := n + (cap - (l.take n).countP stuck)

/-- What a round tries. -/
theorem take_remaining (n : Nat) :
    (remaining stuck l n).take cap = ((l.take n).filter stuck).take cap
      ++ (l.drop n).take (cap - (l.take n).countP stuck) := by
  rw [remaining, List.take_append, List.countP_eq_length_filter]

/-- What a round leaves. -/
theorem round_remaining (n : Nat) :
    ((remaining stuck l n).take cap).filter stuck ++ (remaining stuck l n).drop cap
      = remaining stuck l (advance stuck cap l n) := by
  have hstuck : (((l.take n).filter stuck).take cap).filter stuck
      = ((l.take n).filter stuck).take cap := by
    refine List.filter_eq_self.2 fun a ha => ?_
    exact (List.mem_filter.1 (List.mem_of_mem_take ha)).2
  rw [take_remaining, List.filter_append, hstuck, remaining, List.drop_append,
    ← List.countP_eq_length_filter]
  rcases Nat.le_total cap ((l.take n).countP stuck) with hspent | hleft
  · -- the cap is spent on those that are stuck
    have hsame : advance stuck cap l n = n := by
      rw [advance, Nat.sub_eq_zero_of_le hspent, Nat.add_zero]
    rw [hsame, Nat.sub_eq_zero_of_le hspent, List.take_zero, List.filter_nil, List.drop_zero,
      List.append_nil, ← List.append_assoc, List.take_append_drop, remaining]
  · rw [List.countP_eq_length_filter] at hleft
    rw [List.take_of_length_le hleft, List.drop_of_length_le hleft, List.nil_append, remaining,
      advance, List.take_add, List.filter_append, List.drop_drop, List.append_assoc]

theorem le_advance (n : Nat) : n ≤ advance stuck cap l n := Nat.le_add_right _ _

theorem le_iterate_advance (rounds n : Nat) : n ≤ (advance stuck cap l)^[rounds] n := by
  induction rounds generalizing n with
  | zero => exact Nat.le_refl n
  | succ rounds ih => exact (le_advance stuck cap l n).trans (ih _)

variable {stuck cap l} {before after : List α} {a : α} {n : Nat}

/-- A round tries an element exactly if it leads past it. -/
theorem exists_mem_take_remaining_iff (stuck : α → Bool) (cap : Nat) {κ : Type} {key : α → κ}
    (hnodup : ((before ++ a :: after).map key).Nodup) (hn : n ≤ before.length) :
    (∃ b ∈ (remaining stuck (before ++ a :: after) n).take cap, key b = key a)
      ↔ before.length < advance stuck cap (before ++ a :: after) n := by
  rw [take_remaining, advance, List.take_append_of_le_length hn, List.drop_append_of_le_length hn]
  generalize cap - (before.take n).countP stuck = left
  have hlength : (before.drop n).length = before.length - n := List.length_drop
  constructor
  · rintro ⟨b, hb, hkey⟩
    by_contra hnear
    -- what is tried stands before the element, and has another key
    have hbefore : b ∈ before := by
      rcases List.mem_append.1 hb with hb | hb
      · exact List.mem_of_mem_take (List.mem_of_mem_filter (List.mem_of_mem_take hb))
      · rw [List.take_append_of_le_length (by omega)] at hb
        exact List.mem_of_mem_drop (List.mem_of_mem_take hb)
    rw [List.map_append, List.nodup_append] at hnodup
    exact hnodup.2.2 _ (List.mem_map_of_mem hbefore) _ (List.mem_map_of_mem List.mem_cons_self) hkey
  · intro hfar
    obtain ⟨more, hmore⟩ : ∃ more, left - (before.drop n).length = more + 1 :=
      Nat.exists_eq_succ_of_ne_zero (by omega)
    refine ⟨a, List.mem_append_right _ ?_, rfl⟩
    rw [List.take_append, hmore, List.take_succ_cons]
    exact List.mem_append_right _ List.mem_cons_self

/-- No round leads past as many stuck elements as the cap. -/
theorem advance_le_length (hstuck : cap ≤ before.countP stuck) (hn : n ≤ before.length) :
    advance stuck cap (before ++ after) n ≤ before.length := by
  have hsplit : before.countP stuck
      = (before.take n).countP stuck + (before.drop n).countP stuck := by
    rw [← List.countP_append, List.take_append_drop]
  have hrest : (before.drop n).countP stuck ≤ before.length - n :=
    List.countP_le_length.trans_eq List.length_drop
  rw [advance, List.take_append_of_le_length hn]
  omega

theorem iterate_advance_le_length (hstuck : cap ≤ before.countP stuck) (hn : n ≤ before.length)
    (rounds : Nat) : (advance stuck cap (before ++ after))^[rounds] n ≤ before.length := by
  induction rounds generalizing n with
  | zero => exact hn
  | succ rounds ih => exact ih (advance_le_length hstuck hn)

/-- Every round goes on by what those that are stuck leave of the cap. -/
theorem lt_iterate_advance {rounds : Nat}
    (h : before.length < n + rounds * (cap - before.countP stuck)) :
    before.length < (advance stuck cap (before ++ after))^[rounds] n := by
  induction rounds generalizing n with
  | zero => simpa using h
  | succ rounds ih =>
    -- rounds never lead back, so only those before the element count
    rcases Nat.lt_or_ge before.length n with hpast | hn
    · exact hpast.trans_le (le_iterate_advance _ _ _ _ _)
    · have hfewer : (before.take n).countP stuck ≤ before.countP stuck :=
        (List.take_sublist n before).countP_le
      have hgain : n + (cap - before.countP stuck) ≤ advance stuck cap (before ++ after) n := by
        rw [advance, List.take_append_of_le_length hn]
        omega
      refine ih ?_
      rw [Nat.succ_mul] at h
      omega

/-- The first round spends nothing on elements tried before, so only those
that are not stuck stand in the way. -/
theorem lt_iterate_advance_zero {rounds : Nat}
    (h : before.length - before.countP stuck < rounds * (cap - before.countP stuck)) :
    before.length < (advance stuck cap (before ++ after))^[rounds] 0 := by
  rcases rounds with - | rounds
  · simp at h
  have hfew : before.countP stuck < cap := by
    by_contra hmany
    rw [Nat.sub_eq_zero_of_le (Nat.not_lt.1 hmany), Nat.mul_zero] at h
    exact absurd h (Nat.not_lt_zero _)
  have hfirst : advance stuck cap (before ++ after) 0 = cap := by
    simp [advance]
  rw [Function.iterate_succ_apply, hfirst]
  refine lt_iterate_advance ?_
  rw [Nat.succ_mul] at h
  omega

/-- Rounds that are enough for all elements are enough for each. -/
theorem others_before_lt {rounds : Nat} (hrounds : 0 < rounds)
    (hfew : (before ++ a :: after).countP stuck < cap)
    (h : (before ++ a :: after).length - (before ++ a :: after).countP stuck
      ≤ (cap - (before ++ a :: after).countP stuck) * rounds) :
    before.length - before.countP stuck < rounds * (cap - before.countP stuck) := by
  have hafter : after.countP stuck ≤ after.length := List.countP_le_length
  have hbefore : before.countP stuck ≤ before.length := List.countP_le_length
  rw [List.countP_append, List.countP_cons] at hfew h
  rw [List.length_append, List.length_cons] at h
  rw [Nat.mul_comm]
  cases hstuck : stuck a with
  | false =>
    -- the element itself is one of the others
    rw [hstuck, if_neg Bool.false_ne_true, Nat.add_zero] at hfew h
    refine Nat.lt_of_lt_of_le ?_ (h.trans (Nat.mul_le_mul_right rounds ?_))
    · omega
    · omega
  | true =>
    -- the element itself is one of those that the cap is spent on
    rw [hstuck, if_pos rfl] at hfew h
    refine Nat.lt_of_le_of_lt (le_trans ?_ h) (Nat.mul_lt_mul_of_pos_right ?_ hrounds)
    · omega
    · omega

end Queue

/-! ### Scans of a book -/

/-- A book whose scans have tried the first `n` of the proposals `ps`, which
were eligible when they began. -/
structure TriedTo (time : Int64) (stuck : Proposal → Bool) (ps : List Proposal) (n : Nat)
    (g : MemGroups) : Prop where
  keyed : g.Keyed
  size : g.policyTable.size ≤ UInt64.size
  listable : g.Listable
  erroring : g.isErroring = stuck
  eligible : g.eligible time = remaining stuck ps n

section

variable {s : Scanner} {cap : UInt32} {time : Int64} {stuck : Proposal → Bool}
  {ps : List Proposal} {n : Nat} {l : Ledger}

/-- One scan tries what a round tries, and leaves what a round leaves. -/
theorem TriedTo.perform_scan (hcap : s.config.maxExecutions = some cap)
    (h : TriedTo time stuck ps n l.groups) {block : BlockContext} (htime : block.time = time) :
    (BookStep.perform l (.scan s block)).1
        = ((remaining stuck ps n).take cap.toNat).map l.groups.outcome ∧
      TriedTo time stuck ps (advance stuck cap.toNat ps n)
        (BookStep.perform l (.scan s block)).2.groups := by
  have hselection : s.selection block l.groups = (l.groups.eligible time).take cap.toNat := by
    rw [Scanner.selection, Scanner.listedEligible_eq block h.keyed h.listable, htime,
      Scanner.withinCap, hcap]
  rw [BlockHooks.perform_scan s block h.keyed h.size, hselection]
  refine ⟨by rw [h.eligible], ?_⟩
  show TriedTo _ _ _ _ (l.groups.executed _)
  exact {
    keyed := h.keyed.executed _
    size := by
      rw [MemGroups.policyTable_executed]
      exact h.size
    listable := h.listable.executed _
    erroring := (MemGroups.isErroring_executed ..).trans h.erroring
    eligible := by
      rw [MemGroups.eligible_executed_take h.keyed, h.eligible, h.erroring, round_remaining] }

/-- A proposal is tried exactly if the scans lead past it. -/
theorem TriedTo.exists_attempt_iff (hcap : s.config.maxExecutions = some cap)
    {before after : List Proposal} {p : Proposal}
    (hnodup : ((before ++ p :: after).map Proposal.id).Nodup)
    (h : TriedTo time stuck (before ++ p :: after) n l.groups) (hn : n ≤ before.length)
    {blocks : List BlockContext} (htime : ∀ block ∈ blocks, block.time = time) :
    (∃ o ∈ attempts l (blocks.map (.scan s)), o.proposalId = p.id)
      ↔ before.length
        < (advance stuck cap.toNat (before ++ p :: after))^[blocks.length] n := by
  induction blocks generalizing l n with
  | nil => simpa [attempts] using hn
  | cons block blocks ih =>
    obtain ⟨hfirst, hrest⟩ := List.forall_mem_cons.1 htime
    obtain ⟨houtcomes, hnext⟩ := h.perform_scan hcap hfirst
    have hround := exists_mem_take_remaining_iff stuck cap.toNat hnodup hn
    rw [List.map_cons, attempts, houtcomes]
    show _ ↔ before.length < (advance stuck cap.toNat _)^[blocks.length]
      (advance stuck cap.toNat (before ++ p :: after) n)
    rcases Nat.lt_or_ge before.length (advance stuck cap.toNat (before ++ p :: after) n)
      with hpast | hnear
    · -- this scan tries it
      obtain ⟨q, hq, hsame⟩ := hround.2 hpast
      refine ⟨fun _ => hpast.trans_le (le_iterate_advance _ _ _ _ _), fun _ => ?_⟩
      exact ⟨_, List.mem_append_left _ (List.mem_map_of_mem hq), hsame⟩
    · -- this scan does not come to it, so it is for the later ones
      rw [← ih hnext hnear hrest]
      constructor
      · rintro ⟨o, ho, hsame⟩
        rcases List.mem_append.1 ho with ho | ho
        · obtain ⟨q, hq, rfl⟩ := List.mem_map.1 ho
          exact absurd (hround.1 ⟨q, hq, hsame⟩) (Nat.not_lt.2 hnear)
        · exact ⟨o, ho, hsame⟩
      · rintro ⟨o, ho, hsame⟩
        exact ⟨o, List.mem_append_right _ ho, hsame⟩

/-- What scans try is what the book is asked to execute. -/
theorem execCalls_afterSteps_scans (s : Scanner) (blocks : List BlockContext)
    (hk : l.groups.Keyed) (hsize : l.groups.policyTable.size ≤ UInt64.size) :
    (afterSteps l (blocks.map (.scan s))).groups.execCalls = l.groups.execCalls
      ++ (attempts l (blocks.map (.scan s))).map fun o => ⟨o.proposalId, o.policy⟩ := by
  induction blocks generalizing l with
  | nil => exact (List.append_nil _).symm
  | cons block blocks ih =>
    have hsize' : (l.groups.executed (s.selection block l.groups)).policyTable.size
        ≤ UInt64.size := by
      rw [MemGroups.policyTable_executed]
      exact hsize
    rw [List.map_cons, afterSteps, attempts, perform_scan s block hk hsize,
      ih (hk.executed _) hsize', MemGroups.execCalls_executed, List.map_append, List.map_map,
      List.append_assoc]
    rfl

end

/-- **How soon capped scans try a proposal.**  Scans at one time of a book
without faulty listings, in which nothing else happens, ask for the execution
of the proposals that were eligible at first.  A proposal that is listed
behind as many erroring ones as the cap is never tried.  Behind fewer, it is
tried when what these leave of the cap in each scan has been enough for all
others before it.  So `k` proposals of which `e` are erroring are all tried in
`(k - e) / (cap - e)` scans, rounded up, if `e` is below the cap. -/
theorem scans_reach (s : Scanner) (cap : UInt32) (hcap : s.config.maxExecutions = some cap)
    (l : Ledger) (hbuilt : l.groups.Built) (hsize : l.groups.policyTable.size ≤ UInt64.size)
    (hlistable : l.groups.Listable) (time : Int64) (blocks : List BlockContext)
    (htime : ∀ block ∈ blocks, block.time = time) :
    (afterSteps l (blocks.map (.scan s))).groups.execCalls = l.groups.execCalls
      ++ (attempts l (blocks.map (.scan s))).map (fun o => ⟨o.proposalId, o.policy⟩) ∧
    (∀ before p after, l.groups.eligible time = before ++ p :: after →
      (cap.toNat ≤ before.countP l.groups.isErroring →
        ∀ o ∈ attempts l (blocks.map (.scan s)), o.proposalId ≠ p.id) ∧
      (before.length - before.countP l.groups.isErroring
          < blocks.length * (cap.toNat - before.countP l.groups.isErroring) →
        ∃ o ∈ attempts l (blocks.map (.scan s)), o.proposalId = p.id)) ∧
    (blocks ≠ [] → (l.groups.eligible time).countP l.groups.isErroring < cap.toNat →
      ((l.groups.eligible time).length - (l.groups.eligible time).countP l.groups.isErroring)
          ⌈/⌉ (cap.toNat - (l.groups.eligible time).countP l.groups.isErroring) ≤ blocks.length →
      ∀ p ∈ l.groups.eligible time,
        ∃ o ∈ attempts l (blocks.map (.scan s)), o.proposalId = p.id) := by
  have hk := hbuilt.keyed
  have hnodup := MemGroups.nodup_eligible hk time
  have hstart : TriedTo time l.groups.isErroring (l.groups.eligible time) 0 l.groups :=
    ⟨hk, hsize, hlistable, rfl, rfl⟩
  -- how far the scans get is a matter of numbers: one `advance` for each of them
  have hreach : ∀ before p after, l.groups.eligible time = before ++ p :: after →
      ((∃ o ∈ attempts l (blocks.map (.scan s)), o.proposalId = p.id)
        ↔ before.length < (advance l.groups.isErroring cap.toNat
          (before ++ p :: after))^[blocks.length] 0) := by
    intro before p after heligible
    rw [heligible] at hnodup hstart
    exact hstart.exists_attempt_iff hcap hnodup (Nat.zero_le _) htime
  refine ⟨execCalls_afterSteps_scans s blocks hk hsize,
    fun before p after heligible => ⟨fun hstuck o ho hsame => ?_, fun hnear => ?_⟩,
    fun hscans hfew hlength p hp => ?_⟩
  · have hpast := (hreach before p after heligible).1 ⟨o, ho, hsame⟩
    exact absurd (iterate_advance_le_length hstuck (Nat.zero_le _) _) (Nat.not_le.2 hpast)
  · exact (hreach before p after heligible).2 (lt_iterate_advance_zero hnear)
  · -- what is in front of a proposal is part of the listing, so the same scans reach it
    obtain ⟨before, after, heligible⟩ := List.append_of_mem hp
    refine (hreach before p after heligible).2 (lt_iterate_advance_zero ?_)
    rw [ceilDiv_le_iff_le_mul (Nat.sub_pos_of_lt hfew), heligible] at hlength
    rw [heligible] at hfew
    exact others_before_lt (List.length_pos_of_ne_nil hscans) hfew hlength

namespace Scenario

/-- One execution in a block. -/
def narrowScanner : Scanner := ⟨⟨100, some 1⟩, by decide⟩

/-- Three blocks at one time. -/
def instant : List BlockContext := [⟨8, 200⟩, ⟨9, 200⟩, ⟨10, 200⟩]

end Scenario

open Scenario in
/-- With a cap of two, two scans try all three eligible proposals of the book;
with a cap of one the erroring proposal keeps the others from ever being
tried. -/
theorem scans_reach_book :
    scanner.config.maxExecutions = some 2 ∧ narrowScanner.config.maxExecutions = some 1 ∧
      book.Built ∧ book.policyTable.size ≤ UInt64.size ∧ book.Listable ∧
      (book.eligible 200).map Proposal.id = [2, 3, 1] ∧
      (∀ p ∈ book.eligible 200, ∃ o ∈ attempts ⟨.empty, .empty, book⟩
        ((instant.take 2).map (.scan scanner)), o.proposalId = p.id) ∧
      ∀ blocks : List BlockContext, (∀ block ∈ blocks, block.time = 200) →
        ∀ o ∈ attempts ⟨.empty, .empty, book⟩ (blocks.map (.scan narrowScanner)),
          o.proposalId ≠ 3 := by
  have hsize : book.policyTable.size ≤ UInt64.size := by
    decide +kernel
  have hlistable : book.Listable := ⟨rfl, rfl, rfl⟩
  have heligible : book.eligible 200 = [⟨2, policyA, .accepted, 100, .notRun⟩]
      ++ ⟨3, policyA, .accepted, 200, .notRun⟩ :: [⟨1, policyB, .accepted, 100, .notRun⟩] := by
    decide +kernel
  have hcount : (book.eligible 200).countP book.isErroring = 1 := by
    decide +kernel
  obtain ⟨-, -, hall⟩ := scans_reach scanner 2 rfl ⟨.empty, .empty, book⟩ built_book hsize hlistable
    200 (instant.take 2) (by decide)
  refine ⟨rfl, rfl, built_book, hsize, hlistable, by rw [heligible]; rfl, hall (by decide) ?_ ?_,
    fun blocks htime => ?_⟩
  · exact Nat.lt_of_le_of_lt (Nat.le_of_eq hcount) (by decide)
  · show (_ - (book.eligible 200).countP book.isErroring)
      ⌈/⌉ (_ - (book.eligible 200).countP book.isErroring) ≤ _
    rw [hcount]
    decide +kernel
  · obtain ⟨-, hone, -⟩ := scans_reach narrowScanner 1 rfl ⟨.empty, .empty, book⟩ built_book hsize
      hlistable 200 blocks htime
    exact (hone _ _ _ heligible).1 (by decide)

open Scenario in
/-- Three proposals are eligible and the cap is one, but three scans at one
time try the erroring one three times and no other. -/
theorem scans_starve :
    book.Built ∧ book.Listable ∧ narrowScanner.config.maxExecutions = some 1 ∧
      (book.eligible 200).length ⌈/⌉ (1 : UInt32).toNat = instant.length ∧
      (∀ block ∈ instant, block.time = 200) ∧
      (book.eligible 200).map Proposal.id = [2, 3, 1] ∧
      (attempts ⟨.empty, .empty, book⟩ (instant.map (.scan narrowScanner))).map (·.proposalId)
        = [2, 2, 2] := by
  refine ⟨built_book, ⟨rfl, rfl, rfl⟩, rfl, ?_⟩
  decide +kernel

end BlockHooks
