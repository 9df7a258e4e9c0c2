/-
BlockHooks/Proofs/Tally.lean

What the metrics count.

The metrics depend on nothing but what the hooks answered: each answer
changes them in one way, and an aborted block not at all
(`HookMetrics.record`).  A word that counts up to 2⁶⁴ and starts again is what
it was and all that was added, whatever else the answers were (`counter_foldl`).

Counts per label stop at the largest word instead, and so does their total.
While fewer answers than there are words have been counted neither has
stopped: each rejection has raised the count of its own code by one and the
sum of all counts by one (`rejections_foldl`), and the total is that sum
(`LabelCounts.toNat_total`).
-/
import Mathlib
import BlockHooks.Hooks.Basic
import BlockHooks.Proofs.Transfers

namespace BlockHooks

/-! ### Counts per label -/

/-- A capped sum stops at the largest word. -/
theorem toNat_foldl_addCapped (ns : List UInt64) (n : UInt64) :
    (ns.foldl addCapped n).toNat
      = min (n.toNat + ns.foldr (fun n total => n.toNat + total) 0) (UInt64.size - 1) := by
  induction ns generalizing n with
  | nil =>
    have hn : n.toNat < UInt64.size := n.toNat_lt_size
    show n.toNat = min (n.toNat + 0) _
    omega
  | cons m ns ih =>
    rw [List.foldl_cons, ih, toNat_addCapped, List.foldr_cons]
    omega

namespace LabelCounts

variable {c : LabelCounts} {label : UInt32}

/-- How many events were counted. -/
def sum (c : LabelCounts) : Nat := totalOf c.counts.entries

theorem sum_insert (c : LabelCounts) (label : UInt32) (n : UInt64) :
    totalOf (c.counts.insert label n).entries + (c.get label).toNat = c.sum + n.toNat :=
  totalOf_bind label n c.counts.ascending

theorem get_le_sum (c : LabelCounts) (label : UInt32) : (c.get label).toNat ≤ c.sum := by
  -- without the label the others add up to what is missing to the sum
  have h := c.sum_insert label 0
  have hzero : (0 : UInt64).toNat = 0 := rfl
  omega

theorem toNat_addCapped_get (h : c.sum + 1 < UInt64.size) :
    (addCapped (c.get label) 1).toNat = (c.get label).toNat + 1 := by
  have hle := c.get_le_sum label
  have hone : (1 : UInt64).toNat = 1 := rfl
  rw [toNat_addCapped]
  omega

theorem sum_bump (h : c.sum + 1 < UInt64.size) : (c.bump label).sum = c.sum + 1 := by
  have hinsert := c.sum_insert label (addCapped (c.get label) 1)
  rw [toNat_addCapped_get h] at hinsert
  show totalOf (c.counts.insert label _).entries = _
  omega

theorem get_bump (h : c.sum + 1 < UInt64.size) (label' : UInt32) :
    ((c.bump label).get label').toNat
      = (c.get label').toNat + if label' = label then 1 else 0 := by
  show (((c.counts.insert label _).get? label').getD 0).toNat = _
  rw [Table.get?_insert]
  split
  next hlabel =>
    subst hlabel
    exact toNat_addCapped_get h
  next => rfl

/-- The total is exact while the sum is a word. -/
theorem toNat_total (h : c.sum < UInt64.size) : c.total.toNat = c.sum := by
  have hzero : (0 : UInt64).toNat = 0 := rfl
  have hsum : c.counts.values.foldr (fun n total => n.toNat + total) 0 = c.sum := rfl
  rw [total, toNat_foldl_addCapped, hsum]
  omega

end LabelCounts

/-! ### Answers -/

/-- What one of the three hooks may answer. -/
inductive HookAnswer where
  | checked (result : Except AdmissionError TxContext)
  | settled (result : Except HookError SettlementReport)
  | scanned (report : ScanReport)

namespace HookAnswer

/-- Tells whether a transaction was admitted. -/
def isAdmitted : HookAnswer → Bool
  | .checked (.ok _) => true
  | .checked (.error _) | .settled _ | .scanned _ => false

/-- The code of a rejection. -/
def rejectedCode? : HookAnswer → Option UInt32
  | .checked (.error e) => some e.code.number
  | .checked (.ok _) | .settled _ | .scanned _ => none

/-- The report of a settlement that succeeded. -/
def report? : HookAnswer → Option SettlementReport
  | .settled (.ok r) => some r
  | .settled (.error _) | .checked _ | .scanned _ => none

/-- How many executions a scan asked for. -/
def attempted : HookAnswer → Nat
  | .scanned r => r.outcomes.length
  | .checked _ | .settled _ => 0

/-- How many of them succeeded. -/
def succeeded : HookAnswer → Nat
  | .scanned r => r.succeeded
  | .checked _ | .settled _ => 0

end HookAnswer

/-- What an answer does to the metrics. -/
def HookMetrics.record (m : HookMetrics) : HookAnswer → HookMetrics
  | .checked result => m.recordAdmission result
  | .settled (.ok r) => m.recordSettlement r
  | .settled (.error _) => m
  | .scanned r => m.recordScan r

/-- The reports of the settlements that succeeded, oldest first. -/
def reportsIn (answers : List HookAnswer) : List SettlementReport :=
  answers.filterMap HookAnswer.report?

theorem sum_map_reportsIn (w : SettlementReport → Nat) (answers : List HookAnswer) :
    ((reportsIn answers).map w).sum
      = (answers.map fun answer => answer.report?.elim 0 w).sum := by
  induction answers with
  | nil => rfl
  | cons answer answers ih =>
    rw [List.map_cons, List.sum_cons, ← ih, reportsIn]
    rcases hanswer : answer.report? with - | r
    · rw [List.filterMap_cons_none hanswer]
      exact (Nat.zero_add _).symm
    · rw [List.filterMap_cons_some hanswer]
      exact List.sum_cons

/-- Members are counted by adding one for each. -/
theorem countP_eq_sum {α : Type} (p : α → Bool) (as : List α) :
    as.countP p = (as.map fun a => if p a then 1 else 0).sum := by
  induction as with
  | nil => rfl
  | cons a as ih => rw [List.countP_cons, List.map_cons, List.sum_cons, ih, Nat.add_comm]

theorem ScanReport.succeeded_add_failed (r : ScanReport) :
    r.succeeded + r.failed = r.outcomes.length :=
  Nat.add_sub_cancel' (List.length_filter_le _ _)

namespace HookMetrics

variable (m : HookMetrics) (answers : List HookAnswer)

/-! ### Counters -/

/-- A counter to which every answer adds its share counts all shares, modulo
2⁶⁴. -/
theorem counter_foldl {f : HookMetrics → UInt64} {share : HookAnswer → Nat}
    (hstep : ∀ m answer, f (record m answer) = f m + .ofNat (share answer)) :
    f (answers.foldl record m) = f m + .ofNat (answers.map share).sum := by
  induction answers generalizing m with
  | nil => exact (UInt64.add_zero _).symm
  | cons answer answers ih =>
    rw [List.foldl_cons, ih, hstep, List.map_cons, List.sum_cons, UInt64.ofNat_add,
      UInt64.add_assoc]

theorem txAdmitted_foldl : (answers.foldl record m).txAdmitted
    = m.txAdmitted + .ofNat (answers.countP HookAnswer.isAdmitted) := by
  rw [countP_eq_sum]
  refine counter_foldl m answers fun m answer => ?_
  rcases answer with (e | context) | (e | r) | r <;>
    simp [record, recordAdmission, add, reject, recordSettlement, recordScan,
      HookAnswer.isAdmitted]

/-- A counter that settlements alone raise counts what they report. -/
theorem counter_foldl_reportsIn {f : HookMetrics → UInt64} {w : SettlementReport → Nat}
    (hchecked : ∀ m (result : Except AdmissionError TxContext),
      f (recordAdmission result m) = f m)
    (hsettled : ∀ m r, f (recordSettlement r m) = f m + .ofNat (w r))
    (hscanned : ∀ m r, f (recordScan r m) = f m) :
    f (answers.foldl record m) = f m + .ofNat ((reportsIn answers).map w).sum := by
  rw [sum_map_reportsIn]
  refine counter_foldl m answers fun m answer => ?_
  rcases answer with result | (e | r) | r
  · exact (hchecked m result).trans (UInt64.add_zero _).symm
  · exact (UInt64.add_zero _).symm
  · exact hsettled m r
  · exact (hscanned m r).trans (UInt64.add_zero _).symm

theorem yieldTransferred_foldl : (answers.foldl record m).yieldTransferred
    = m.yieldTransferred + .ofNat ((reportsIn answers).map (·.transferred.toNat)).sum := by
  refine counter_foldl_reportsIn m answers (fun m result => ?_) (fun m r => ?_) fun _ _ => rfl
  · cases result <;> rfl
  · rw [UInt64.ofNat_toNat]
    rfl

theorem yieldPoolSwept_foldl : (answers.foldl record m).yieldPoolSwept
    = m.yieldPoolSwept + .ofNat ((reportsIn answers).map (·.swept.toNat)).sum := by
  refine counter_foldl_reportsIn m answers (fun m result => ?_) (fun m r => ?_) fun _ _ => rfl
  · cases result <;> rfl
  · rw [UInt64.ofNat_toNat]
    rfl

theorem yieldDeferredBlocks_foldl : (answers.foldl record m).yieldDeferredBlocks
    = m.yieldDeferredBlocks + .ofNat ((reportsIn answers).countP (·.isDeferred)) := by
  rw [countP_eq_sum]
  refine counter_foldl_reportsIn m answers (fun m result => ?_) (fun m r => ?_) fun _ _ => rfl
  · cases result <;> rfl
  · show m.yieldDeferredBlocks + (if r.isDeferred then 1 else 0) = _
    cases r.isDeferred <;> rfl

theorem proposalsExecuted_foldl : (answers.foldl record m).proposalsExecuted
    = m.proposalsExecuted + .ofNat (answers.map HookAnswer.succeeded).sum := by
  refine counter_foldl m answers fun m answer => ?_
  rcases answer with (e | context) | (e | r) | r <;>
    simp [record, recordAdmission, add, reject, recordSettlement, recordScan,
      HookAnswer.succeeded]

/-- An execution that does not succeed fails. -/
theorem proposalsExecuted_add_failed_foldl :
    (answers.foldl record m).proposalsExecuted + (answers.foldl record m).proposalsFailed
      = m.proposalsExecuted + m.proposalsFailed
        + .ofNat (answers.map HookAnswer.attempted).sum := by
  apply counter_foldl (f := fun m => m.proposalsExecuted + m.proposalsFailed)
  intro m answer
  rcases answer with (e | context) | (e | r) | r
  · exact (UInt64.add_zero _).symm
  · exact (UInt64.add_zero _).symm
  · exact (UInt64.add_zero _).symm
  · exact (UInt64.add_zero _).symm
  · show m.proposalsExecuted + .ofNat r.succeeded + (m.proposalsFailed + .ofNat r.failed)
      = m.proposalsExecuted + m.proposalsFailed + .ofNat r.outcomes.length
    rw [← r.succeeded_add_failed, UInt64.ofNat_add]
    ac_rfl

/-! ### Rejections -/

/-- As long as all answers fit into a word, each rejection is counted once,
under its own code. -/
theorem rejections_foldl (hfits : m.txRejected.sum + answers.length < UInt64.size) :
    (answers.foldl record m).txRejected.sum
        = m.txRejected.sum + answers.countP (·.rejectedCode?.isSome) ∧
      ∀ code, ((answers.foldl record m).txRejected.get code).toNat
        = (m.txRejected.get code).toNat + answers.countP (·.rejectedCode? == some code) := by
  induction answers generalizing m with
  | nil => exact ⟨rfl, fun _ => rfl⟩
  | cons answer answers ih =>
    rw [List.length_cons] at hfits
    rw [List.foldl_cons]
    rcases hanswer : answer.rejectedCode? with - | label
    · -- the answer is no rejection, and the counts are left alone
      have hsame : (record m answer).txRejected = m.txRejected := by
        rcases answer with (e | context) | (e | r) | r
        · cases hanswer
        · rfl
        · rfl
        · rfl
        · rfl
      obtain ⟨hsum, hget⟩ := ih (record m answer) (by rw [hsame]; omega)
      rw [hsame] at hsum hget
      refine ⟨?_, fun code => ?_⟩
      · rw [hsum, List.countP_cons_of_neg (by rw [hanswer]; decide)]
      · rw [hget, List.countP_cons_of_neg (by rw [hanswer]; exact Bool.false_ne_true)]
    · have hbumped : (record m answer).txRejected = m.txRejected.bump label := by
        rcases answer with (e | context) | (e | r) | r <;> cases hanswer
        rfl
      have hroom : m.txRejected.sum + 1 < UInt64.size := by omega
      obtain ⟨hsum, hget⟩ := ih (record m answer) (by
        rw [hbumped, LabelCounts.sum_bump hroom]
        omega)
      rw [hbumped] at hsum hget
      refine ⟨?_, fun code => ?_⟩
      · rw [hsum, LabelCounts.sum_bump hroom, List.countP_cons_of_pos (by rw [hanswer]; rfl)]
        omega
      · rw [hget, LabelCounts.get_bump hroom, List.countP_cons, hanswer]
        by_cases hcode : code = label
        · subst hcode
          simp
          omega
        · have hother : ¬ (some label == some code) = true := fun h =>
            hcode (Option.some.inj (beq_iff_eq.1 h)).symm
          rw [if_neg hcode, if_neg hother]
          omega

/-! ### Counts that start at zero -/

/-- As many admissions as answers fit into a word. -/
theorem toNat_txAdmitted_foldl_zero (hfits : answers.length < UInt64.size) :
    (answers.foldl record .zero).txAdmitted.toNat = answers.countP HookAnswer.isAdmitted := by
  have hcount : answers.countP HookAnswer.isAdmitted < UInt64.size :=
    Nat.lt_of_le_of_lt List.countP_le_length hfits
  have hword := (txAdmitted_foldl .zero answers).trans (UInt64.zero_add _)
  rw [hword]
  exact UInt64.toNat_ofNat_of_lt hcount

/-- And as many rejections, under all codes together and under each. -/
theorem rejections_foldl_zero (hfits : answers.length < UInt64.size) :
    (answers.foldl record .zero).txRejected.total.toNat
        = answers.countP (·.rejectedCode?.isSome) ∧
      ∀ code, ((answers.foldl record .zero).txRejected.get code).toNat
        = answers.countP (·.rejectedCode? == some code) := by
  have hzero : HookMetrics.zero.txRejected.sum = 0 := rfl
  have hcount : answers.countP (·.rejectedCode?.isSome) < UInt64.size :=
    Nat.lt_of_le_of_lt List.countP_le_length hfits
  obtain ⟨hsum, hget⟩ := rejections_foldl .zero answers (by rw [hzero]; omega)
  rw [hzero, Nat.zero_add] at hsum
  refine ⟨?_, fun code => (hget code).trans (Nat.zero_add _)⟩
  rw [LabelCounts.toNat_total (hsum ▸ hcount), hsum]

end HookMetrics

end BlockHooks
