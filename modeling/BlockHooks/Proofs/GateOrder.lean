/-
BlockHooks/Proofs/GateOrder.lean

Gates together, and gates one after the other.

Gates and messages span a table.  The stage of several gates goes through it
message by message; a chain in which every gate is a stage of its own goes
through it gate by gate.  Both stop at the first rejection they meet
(`run_checkMsgs_cases`, `run_alone_cases`).  So both let a transaction through
if the table has no rejection at all, and otherwise neither does.

Which rejection is reported depends on the direction: `FirstByMessage` is the
first in the order of messages, `FirstByGate` the first in the order of gates.
The former belongs to the first message that any gate rejects, hence to none
after that of the latter.

All this needs gates that do not disturb each other: a gate that lets a
message pass leaves the state as it was (`Gate.Quiet`).
-/
import BlockHooks.Proofs.FailClosed

namespace BlockHooks

/-! ### The first place of a table -/

/-- Row by row, no place where `R` holds comes before row `a`, column `b`. -/
def Leads (R : Nat → Nat → Prop) (a b : Nat) : Prop :=
  ∀ a' b', R a' b' → a < a' ∨ a = a' ∧ b ≤ b'

namespace Leads

variable {R : Nat → Nat → Prop} {a b a' b' : Nat}

theorem row_le (h : Leads R a b) (h' : R a' b') : a ≤ a' := by
  rcases h a' b' h' with hlt | ⟨heq, -⟩
  · exact Nat.le_of_lt hlt
  · exact Nat.le_of_eq heq

/-- What is first in the first row comes first. -/
theorem zero (h : ∀ b', R 0 b' → b ≤ b') : Leads R 0 b := by
  intro a' b' h'
  cases a' with
  | zero => exact .inr ⟨rfl, h b' h'⟩
  | succ a' => exact .inl a'.succ_pos

/-- What comes first in the other rows comes first if the first row is empty. -/
theorem succ (hempty : ∀ b', ¬ R 0 b') (h : Leads (fun a' b' => R (a' + 1) b') a b) :
    Leads R (a + 1) b := by
  intro a' b' h'
  cases a' with
  | zero => exact absurd h' (hempty b')
  | succ a' =>
    rcases h a' b' h' with hlt | ⟨rfl, hle⟩
    · exact .inl (Nat.succ_lt_succ hlt)
    · exact .inr ⟨rfl, hle⟩

end Leads

variable {σ : Type}

namespace Gate

/-- The gate changes nothing when it lets a message pass. -/
def Quiet (gate : Gate σ) : Prop :=
  ∀ context msg s s', (gate context msg).run s = (.ok (), s') → s' = s

theorem Admits.quiet {gate : Gate σ} {InOrder : σ → TxContext → Msg → Prop}
    (h : gate.Admits InOrder) : gate.Quiet :=
  fun context msg s s' hrun => ((h context msg s s').1 hrun).1

/-! ### The table of gates and messages -/

variable (gates : List (Gate σ)) (context : TxContext) (s : σ) (msgs : List Msg)

/-- Every gate lets every message pass. -/
def AllPass : Prop :=
  ∀ gate ∈ gates, ∀ msg ∈ msgs, (gate context msg).run s = (.ok (), s)

/-- Message `i` is rejected by gate `j` with `e`, which leaves the state `t`. -/
def Rejects (i j : Nat) (e : AdmissionError) (t : σ) : Prop :=
  ∃ gate msg, gates[j]? = some gate ∧ msgs[i]? = some msg ∧
    (gate context msg).run s = (.error e, t)

/-- No message before this one is rejected, and this one by no earlier gate. -/
structure FirstByMessage (i j : Nat) (e : AdmissionError) (t : σ) : Prop where
  rejects : Rejects gates context s msgs i j e t
  first : Leads (fun i' j' => ∃ e' t', Rejects gates context s msgs i' j' e' t') i j

/-- No gate before this one rejects anything, and this one no earlier message. -/
structure FirstByGate (i j : Nat) (e : AdmissionError) (t : σ) : Prop where
  rejects : Rejects gates context s msgs i j e t
  first : Leads (fun j' i' => ∃ e' t', Rejects gates context s msgs i' j' e' t') j i

variable {gates context s msgs} {gate : Gate σ} {msg : Msg} {i j i' j' : Nat}
  {e e' : AdmissionError} {t t' : σ}

/-- Going by messages, one gets to a message no later than by gates. -/
theorem FirstByMessage.le (h : FirstByMessage gates context s msgs i j e t)
    (h' : FirstByGate gates context s msgs i' j' e' t') : i ≤ i' :=
  h.first.row_le ⟨e', t', h'.rejects⟩

theorem AllPass.not_rejects (h : AllPass gates context s msgs) :
    ¬ Rejects gates context s msgs i j e t := by
  rintro ⟨gate, msg, hgate, hmsg, hrun⟩
  rw [h gate (List.mem_of_getElem? hgate) msg (List.mem_of_getElem? hmsg)] at hrun
  cases hrun

/-! ### One gate more, one message more -/

/-- What the first gate rejects does not depend on the others. -/
theorem rejects_zero_gate_iff : Rejects (gate :: gates) context s msgs i 0 e t ↔
    Rejects [gate] context s msgs i 0 e t :=
  Iff.rfl

/-- Why the first message is rejected does not depend on the others. -/
theorem rejects_zero_msg_iff : Rejects gates context s (msg :: msgs) 0 j e t ↔
    Rejects gates context s [msg] 0 j e t :=
  Iff.rfl

theorem AllPass.cons_gate (h : AllPass [gate] context s msgs)
    (h' : AllPass gates context s msgs) : AllPass (gate :: gates) context s msgs := by
  intro g hmem
  rcases List.mem_cons.1 hmem with rfl | hmem
  · exact h g List.mem_cons_self
  · exact h' g hmem

theorem AllPass.cons_msg (h : AllPass gates context s [msg])
    (h' : AllPass gates context s msgs) : AllPass gates context s (msg :: msgs) := by
  intro g hg m hmem
  rcases List.mem_cons.1 hmem with rfl | hmem
  · exact h g hg m List.mem_cons_self
  · exact h' g hg m hmem

theorem FirstByGate.cons_gate (hpass : AllPass [gate] context s msgs)
    (h : FirstByGate gates context s msgs i j e t) :
    FirstByGate (gate :: gates) context s msgs i (j + 1) e t where
  rejects := h.rejects
  first := by
    refine Leads.succ ?_ h.first
    rintro i' ⟨e', t', hrejects⟩
    exact hpass.not_rejects (rejects_zero_gate_iff.1 hrejects)

theorem FirstByMessage.cons_msg (hpass : AllPass gates context s [msg])
    (h : FirstByMessage gates context s msgs i j e t) :
    FirstByMessage gates context s (msg :: msgs) (i + 1) j e t where
  rejects := h.rejects
  first := by
    refine Leads.succ ?_ h.first
    rintro j' ⟨e', t', hrejects⟩
    exact hpass.not_rejects (rejects_zero_msg_iff.1 hrejects)

/-- What the only gate rejects first is rejected first by the first of
several gates. -/
theorem FirstByMessage.byGate (h : FirstByMessage [gate] context s msgs i j e t) :
    FirstByGate (gate :: gates) context s msgs i 0 e t where
  rejects := by
    obtain ⟨g, msg, hg, hmsg, hrun⟩ := h.rejects
    rw [List.mem_singleton.1 (List.mem_of_getElem? hg)] at hrun
    exact ⟨gate, msg, rfl, hmsg, hrun⟩
  first := by
    refine Leads.zero ?_
    rintro i' ⟨e', t', hrejects⟩
    exact h.first.row_le ⟨e', t', rejects_zero_gate_iff.1 hrejects⟩

/-- The first gate to reject the only message is the first to reject the
first of several messages. -/
theorem FirstByGate.byMessage (h : FirstByGate gates context s [msg] i j e t) :
    FirstByMessage gates context s (msg :: msgs) 0 j e t where
  rejects := by
    obtain ⟨gate, m, hgate, hm, hrun⟩ := h.rejects
    rw [List.mem_singleton.1 (List.mem_of_getElem? hm)] at hrun
    exact ⟨gate, msg, hgate, rfl, hrun⟩
  first := by
    refine Leads.zero ?_
    rintro j' ⟨e', t', hrejects⟩
    exact h.first.row_le ⟨e', t', rejects_zero_msg_iff.1 hrejects⟩

/-! ### Runs -/

/-- One message before all gates. -/
theorem run_checkAll_cases (hquiet : ∀ gate ∈ gates, gate.Quiet) (context : TxContext) (s : σ)
    (msg : Msg) :
    (AllPass gates context s [msg] ∧ (checkAll gates context msg).run s = (.ok (), s)) ∨
      ∃ j e t, FirstByGate gates context s [msg] 0 j e t ∧
        (checkAll gates context msg).run s = (.error e, t) := by
  induction gates with
  | nil => exact .inl ⟨nofun, rfl⟩
  | cons gate gates ih =>
    rw [checkAll]
    rcases hrun : (gate context msg).run s with ⟨e | ⟨⟩, t⟩
    · have hfirst : FirstByGate (gate :: gates) context s [msg] 0 0 e t :=
        ⟨⟨gate, msg, rfl, rfl, hrun⟩, .zero fun i' _ => i'.zero_le⟩
      exact .inr ⟨0, e, t, hfirst, Action.run_bind_error hrun⟩
    · obtain rfl : t = s := hquiet gate List.mem_cons_self context msg s t hrun
      have hpass : AllPass [gate] context t [msg] := by
        simpa [AllPass] using hrun
      rw [Action.run_bind_ok hrun]
      rcases ih fun g hg => hquiet g (List.mem_cons_of_mem _ hg) with
        ⟨hall, hdone⟩ | ⟨j, e, t', hfirst, hfailed⟩
      · exact .inl ⟨hpass.cons_gate hall, hdone⟩
      · exact .inr ⟨j + 1, e, t', hfirst.cons_gate hpass, hfailed⟩

/-- All messages before all gates: the first rejection in the order of
messages is reported. -/
theorem run_checkMsgs_cases (hquiet : ∀ gate ∈ gates, gate.Quiet) (context : TxContext) (s : σ)
    (msgs : List Msg) :
    (AllPass gates context s msgs ∧ (checkMsgs gates context msgs).run s = (.ok (), s)) ∨
      ∃ i j e t, FirstByMessage gates context s msgs i j e t ∧
        (checkMsgs gates context msgs).run s = (.error e, t) := by
  induction msgs with
  | nil => exact .inl ⟨fun _ _ => nofun, rfl⟩
  | cons msg msgs ih =>
    rw [checkMsgs]
    rcases run_checkAll_cases hquiet context s msg with
      ⟨hpass, hrun⟩ | ⟨j, e, t, hfirst, hrun⟩
    · rw [Action.run_bind_ok hrun]
      rcases ih with ⟨hall, hdone⟩ | ⟨i, j, e, t, hfirst, hfailed⟩
      · exact .inl ⟨hpass.cons_msg hall, hdone⟩
      · exact .inr ⟨i + 1, j, e, t, hfirst.cons_msg hpass, hfailed⟩
    · exact .inr ⟨0, j, e, t, hfirst.byMessage, Action.run_bind_error hrun⟩

end Gate

namespace Stage

open Gate

variable {gates : List (Gate σ)}

/-- What follows the gates, if they all let the transaction through, runs as
if they were not there; otherwise it does not run. -/
theorem run_ofGates_cases (hquiet : ∀ gate ∈ gates, gate.Quiet) (context : TxContext) (tx : Tx)
    (s : σ) :
    (AllPass gates context s tx.msgs ∧ ∀ simulate rest,
        (ofGates gates context tx simulate rest).run s = (rest context tx simulate).run s) ∨
      ∃ i j e t, FirstByMessage gates context s tx.msgs i j e t ∧ ∀ simulate rest,
        (ofGates gates context tx simulate rest).run s = (.error e, t) := by
  rcases run_checkMsgs_cases hquiet context s tx.msgs with
    ⟨hall, hrun⟩ | ⟨i, j, e, t, hfirst, hrun⟩
  · exact .inl ⟨hall, fun _ _ => Action.run_bind_ok hrun⟩
  · exact .inr ⟨i, j, e, t, hfirst, fun _ _ => Action.run_bind_error hrun⟩

/-- The same of gates that stand alone: the first rejection in the order of
gates is reported. -/
theorem run_alone_cases (hquiet : ∀ gate ∈ gates, gate.Quiet) (context : TxContext) (tx : Tx)
    (s : σ) :
    (AllPass gates context s tx.msgs ∧ ∀ simulate stages,
        (Rest.ofStages (gates.map ofGate ++ stages) context tx simulate).run s
          = (Rest.ofStages stages context tx simulate).run s) ∨
      ∃ i j e t, FirstByGate gates context s tx.msgs i j e t ∧ ∀ simulate stages,
        (Rest.ofStages (gates.map ofGate ++ stages) context tx simulate).run s
          = (.error e, t) := by
  -- each gate is a stage of one gate, and the gates behind it run if it passes all
  induction gates with
  | nil => exact .inl ⟨nofun, fun _ _ => rfl⟩
  | cons gate gates ih =>
    have hone : ∀ g ∈ [gate], g.Quiet := by
      intro g hg
      rw [List.mem_singleton.1 hg]
      exact hquiet gate List.mem_cons_self
    rcases run_ofGates_cases hone context tx s with
      ⟨hpass, hrun⟩ | ⟨i, j, e, t, hfirst, hrun⟩
    · rcases ih fun g hg => hquiet g (List.mem_cons_of_mem _ hg) with
        ⟨hall, hdone⟩ | ⟨i, j, e, t, hfirst, hfailed⟩
      · exact .inl ⟨hpass.cons_gate hall, fun simulate stages =>
          (hrun simulate _).trans (hdone simulate stages)⟩
      · exact .inr ⟨i, j + 1, e, t, hfirst.cons_gate hpass, fun simulate stages =>
          (hrun simulate _).trans (hfailed simulate stages)⟩
    · exact .inr ⟨i, 0, e, t, hfirst.byGate, fun simulate stages => hrun simulate _⟩

/-- Each of the two gates judges its own kind of messages. -/
theorem checkAll_swap (proposal : UInt64 → Action σ GroupError Proposal)
    (isListed : Address → StateM σ Bool) (context : TxContext) (msg : Msg) :
    checkAll [proposalTiming proposal, whitelist isListed] context msg
      = checkAll [whitelist isListed, proposalTiming proposal] context msg := by
  cases msg with
  | groupExec request => rfl
  | createValidator request => rfl
  | other url => rfl

theorem ofGates_swap (proposal : UInt64 → Action σ GroupError Proposal)
    (isListed : Address → StateM σ Bool) :
    ofGates [proposalTiming proposal, whitelist isListed]
      = ofGates [whitelist isListed, proposalTiming proposal] := by
  have hmsgs : ∀ context msgs,
      checkMsgs [proposalTiming proposal, whitelist isListed] context msgs
        = checkMsgs [whitelist isListed, proposalTiming proposal] context msgs := by
    intro context msgs
    induction msgs with
    | nil => rfl
    | cons msg msgs ih => rw [checkMsgs, checkMsgs, checkAll_swap, ih]
  funext context tx simulate rest
  rw [ofGates, ofGates, hmsgs]

/-- **Gates admit together what they admit one by one.**  Gates that change
nothing when they let a message pass are run as one stage that asks all of
them about each message, and as stages of their own in the same order.  In
either form what follows runs as if there were no gates, or both reject and
what follows does not run.  The one stage then reports the first message that
some gate rejects, and the first gate to reject it; the separate stages report
the first gate to reject some message, and the first that it rejects, which
comes no earlier.  One stage of the gate of proposals and that of operators
is the same in either order. -/
theorem gates_together_and_alone (gates : List (Gate σ)) (hquiet : ∀ gate ∈ gates, gate.Quiet)
    (context : TxContext) (tx : Tx) (s : σ) :
    ((AllPass gates context s tx.msgs ∧ ∀ simulate stages,
        (Rest.ofStages (ofGates gates :: stages) context tx simulate).run s
          = (Rest.ofStages stages context tx simulate).run s ∧
        (Rest.ofStages (gates.map ofGate ++ stages) context tx simulate).run s
          = (Rest.ofStages stages context tx simulate).run s) ∨
      ∃ i j e t i' j' e' t', FirstByMessage gates context s tx.msgs i j e t ∧
        FirstByGate gates context s tx.msgs i' j' e' t' ∧ i ≤ i' ∧ ∀ simulate stages,
          (Rest.ofStages (ofGates gates :: stages) context tx simulate).run s
            = (.error e, t) ∧
          (Rest.ofStages (gates.map ofGate ++ stages) context tx simulate).run s
            = (.error e', t')) ∧
    ∀ proposal isListed,
      ofGates (σ := σ) [proposalTiming proposal, whitelist isListed]
        = ofGates [whitelist isListed, proposalTiming proposal] := by
  refine ⟨?_, ofGates_swap⟩
  -- both forms pass or both reject: a message that a gate rejects is found by either
  rcases run_ofGates_cases hquiet context tx s with
    ⟨hall, htogether⟩ | ⟨i, j, e, t, hfirst, htogether⟩
  · rcases run_alone_cases hquiet context tx s with
      ⟨-, halone⟩ | ⟨i', j', e', t', hfirst', -⟩
    · exact .inl ⟨hall, fun simulate stages =>
        ⟨htogether simulate _, halone simulate stages⟩⟩
    · exact absurd hfirst'.rejects hall.not_rejects
  · rcases run_alone_cases hquiet context tx s with
      ⟨hall, -⟩ | ⟨i', j', e', t', hfirst', halone⟩
    · exact absurd hfirst.rejects hall.not_rejects
    · exact .inr ⟨i, j, e, t, i', j', e', t', hfirst, hfirst', hfirst.le hfirst',
        fun simulate stages => ⟨htogether simulate _, halone simulate stages⟩⟩

end Stage

namespace Scenario

/-! ### Two messages that are rejected by different gates -/

/-- The gates of the hook. -/
def hookGates : List (Gate (WithStore Ledger)) :=
  [Gate.proposalTiming GroupKeeper.proposal, Gate.whitelist Registry.admits]

/-- An operator without a record, and an execution of nothing. -/
def strangers : Tx :=
  ⟨[.createValidator ⟨⟨"veranavaloper1b"⟩, "node"⟩, .groupExec ⟨2, ⟨"verana1policy"⟩⟩]⟩

theorem quiet_hookGates : ∀ gate ∈ hookGates, gate.Quiet := by
  intro gate hmem
  rcases List.mem_cons.1 hmem with rfl | hmem
  · exact (Gate.admits_proposalTiming fun _ _ => rfl).quiet
  · rw [List.mem_singleton.1 hmem]
    exact (Gate.admits_whitelist fun _ _ _ => Registry.run_admits_eq_true_iff).quiet

end Scenario

open Scenario in
/-- Together the gates report the operator, one by one the execution. -/
theorem Stage.gates_together_and_alone_strangers :
    (∀ gate ∈ hookGates, gate.Quiet) ∧
    ∃ i j t i' j' t',
      Gate.FirstByMessage hookGates dueContext (nodeWith namingStore).world strangers.msgs i j
        (.notWhitelisted ⟨"veranavaloper1b"⟩) t ∧
      Gate.FirstByGate hookGates dueContext (nodeWith namingStore).world strangers.msgs i' j'
        (.proposalLookup 2 (.proposalNotFound 2)) t' ∧
      i ≤ i' := by
  have htogether : ((Rest.ofStages [Stage.ofGates hookGates] dueContext strangers false).run
      (nodeWith namingStore).world).1 = .error (.notWhitelisted ⟨"veranavaloper1b"⟩) := by
    decide +kernel
  have halone : ((Rest.ofStages (hookGates.map Stage.ofGate ++ []) dueContext strangers false).run
      (nodeWith namingStore).world).1 = .error (.proposalLookup 2 (.proposalNotFound 2)) := by
    decide +kernel
  refine ⟨quiet_hookGates, ?_⟩
  rcases (Stage.gates_together_and_alone hookGates quiet_hookGates dueContext strangers
    (nodeWith namingStore).world).1 with
    ⟨-, hrun⟩ | ⟨i, j, e, t, i', j', e', t', hfirst, hfirst', hle, hrun⟩
  · rw [(hrun false []).1] at htogether
    cases htogether
  · rw [(hrun false []).1] at htogether
    rw [(hrun false []).2] at halone
    cases htogether
    cases halone
    exact ⟨i, j, t, i', j', t', hfirst, hfirst', hle⟩

end BlockHooks
