/-
BlockHooks/Proofs/Violation.lean

Which messages the gates turn away, and why.

The gates look things up: proposals, and who may create a validator.
`Lookups` is what there is to look up in a state; looking changes nothing.
A message violates in a context if it asks to execute a proposal that cannot
be had, is not yet due or was not accepted, in this order, or if it asks for
an operator who is not listed (`Lookups.violation?`).

Asked about all messages of a transaction, the two gates reject with the
violation of the first message that has one, and with nothing if none has
(`run_checkMsgs`, `FirstViolation`).  Either way they leave the state alone.
-/
import BlockHooks.Admission.Handler

namespace BlockHooks

/-- What there is to look up in a state. -/
structure Lookups (σ : Type) where
  /-- The proposal with the given id, or why it cannot be had. -/
  proposal : σ → UInt64 → Except GroupError Proposal
  /-- Tells whether an operator may create a validator. -/
  isListed : σ → Address → Bool

namespace Lookups

variable {σ : Type} (v : Lookups σ)

/-- Looks a proposal up. -/
def groupKeeper (id : UInt64) : Action σ GroupError Proposal :=
  .ofRun fun s => (v.proposal s id, s)

/-- Looks an operator up. -/
def whitelist (operator : Address) : StateM σ Bool :=
  fun s => (v.isListed s operator, s)

/-! ### Violations -/

/-- Why a proposal must not be executed in a context; none if it may be. -/
def executionFault? (context : TxContext) (id : UInt64) :
    Except GroupError Proposal → Option AdmissionError
  | .error cause => some (.proposalLookup id cause)
  | .ok p =>
    if context.block.time < p.votingPeriodEnd then
      some (.premature id p.votingPeriodEnd context.block.time)
    else if p.status ≠ .accepted then some (.notAccepted id p.status)
    else none

/-- Why a message is turned away in a context; none if it is not. -/
def violation? (s : σ) (context : TxContext) : Msg → Option AdmissionError
  | .groupExec request =>
    executionFault? context request.proposalId (v.proposal s request.proposalId)
  | .createValidator request =>
    if v.isListed s request.operator then none else some (.notWhitelisted request.operator)
  | .other _ => none

/-- No message violates. -/
def Clean (s : σ) (context : TxContext) (msgs : List Msg) : Prop :=
  ∀ msg ∈ msgs, v.violation? s context msg = none

/-- Some message violates, for the reason given, and none before it does. -/
def FirstViolation (s : σ) (context : TxContext) (msgs : List Msg) (e : AdmissionError) : Prop :=
  ∃ before msg after, msgs = before ++ msg :: after ∧
    v.violation? s context msg = some e ∧ v.Clean s context before

variable {v}

theorem firstViolation_iff {s : σ} {context : TxContext} {msgs : List Msg}
    {e : AdmissionError} :
    v.FirstViolation s context msgs e ↔ msgs.findSome? (v.violation? s context) = some e :=
  List.findSome?_eq_some_iff.symm

theorem clean_iff {s : σ} {context : TxContext} {msgs : List Msg} :
    v.Clean s context msgs ↔ msgs.findSome? (v.violation? s context) = none :=
  List.findSome?_eq_none_iff.symm

/-- There is a first violation exactly if some message violates. -/
theorem exists_firstViolation_iff {s : σ} {context : TxContext} {msgs : List Msg} :
    (∃ e, v.FirstViolation s context msgs e) ↔
      ∃ msg ∈ msgs, v.violation? s context msg ≠ none := by
  simp only [firstViolation_iff, ← Option.ne_none_iff_exists', ne_eq,
    List.findSome?_eq_none_iff, Classical.not_forall, exists_prop]

/-! ### The gates -/

/-- The two gates over the look-ups. -/
def gates (v : Lookups σ) : List (Gate σ) :=
  [Gate.proposalTiming v.groupKeeper, Gate.whitelist v.whitelist]

/-- What a gate answers to a violation, or to none. -/
def answer : Option AdmissionError → Except AdmissionError Unit
  | some e => .error e
  | none => .ok ()

theorem run_proposalTiming (s : σ) (context : TxContext) (request : ExecRequest) :
    (Gate.proposalTiming v.groupKeeper context (.groupExec request)).run s =
      (answer (executionFault? context request.proposalId (v.proposal s request.proposalId)),
        s) := by
  rw [Gate.proposalTiming, Action.run_bind, Action.run_mapError, groupKeeper, Action.run_ofRun]
  rcases v.proposal s request.proposalId with cause | p
  · rfl
  · rw [executionFault?]
    show Action.run (if context.block.time < p.votingPeriodEnd then _ else if _ then _ else _) s = _
    split
    · rfl
    · split
      · rfl
      · rfl

theorem run_whitelist (s : σ) (context : TxContext) (request : CreateValidator) :
    (Gate.whitelist v.whitelist context (.createValidator request)).run s =
      (answer (v.violation? s context (.createValidator request)), s) := by
  rw [Gate.whitelist, Action.run_bind, Action.run_ofState]
  simp only [violation?]
  show Action.run (if v.isListed s request.operator then _ else _) s = _
  split
  · rfl
  · rfl

/-- A message passes both gates unless it violates. -/
theorem run_checkAll (s : σ) (context : TxContext) (msg : Msg) :
    (Gate.checkAll v.gates context msg).run s = (answer (v.violation? s context msg), s) := by
  cases msg with
  | groupExec request =>
    -- the whitelist has nothing to say about an execution
    rw [gates, Gate.checkAll, Action.run_bind, run_proposalTiming]
    show _ = (answer (executionFault? context request.proposalId _), s)
    rcases executionFault? context request.proposalId (v.proposal s request.proposalId) with - | e
    · rfl
    · rfl
  | createValidator request =>
    -- and the timing nothing about an operator
    show (Gate.whitelist v.whitelist context (.createValidator request) >>= fun _ => pure ()).run s
      = _
    rw [Action.run_bind, run_whitelist]
    rcases v.violation? s context (.createValidator request) with - | e
    · rfl
    · rfl
  | other url => rfl

/-- The gates reject with the first violation there is. -/
theorem run_checkMsgs (s : σ) (context : TxContext) (msgs : List Msg) :
    (Gate.checkMsgs v.gates context msgs).run s =
      (answer (msgs.findSome? (v.violation? s context)), s) := by
  induction msgs with
  | nil => rfl
  | cons msg msgs ih =>
    rw [Gate.checkMsgs, Action.run_bind, run_checkAll, List.findSome?_cons]
    rcases v.violation? s context msg with - | e
    · exact ih
    · rfl

/-- The rest is reached, in the same state and context, exactly if no
message violates. -/
theorem run_ofGates (s : σ) (context : TxContext) (tx : Tx) (simulate : Bool) (rest : Rest σ) :
    (Stage.ofGates v.gates context tx simulate rest).run s =
      match tx.msgs.findSome? (v.violation? s context) with
      | some e => (.error e, s)
      | none => (rest context tx simulate).run s := by
  rw [Stage.ofGates, Action.run_bind, run_checkMsgs]
  rcases tx.msgs.findSome? (v.violation? s context) with - | e
  · rfl
  · rfl

end Lookups

namespace Scenario

/-! ### Look-ups for a run -/

/-- Proposal 1 may be executed from second 1000 on, and one operator is
listed. -/
def lookups {σ : Type} : Lookups σ where
  proposal _ id :=
    if id = 1 then .ok ⟨1, ⟨"verana1policy"⟩, .accepted, 1000, .notRun⟩
    else .error (.proposalNotFound id)
  isListed _ operator := operator == ⟨"veranavaloper1listed"⟩

/-- An execution that may be due, an operator who is not listed, and an
execution of a proposal that is not there. -/
def mixed : Tx where
  msgs := [.groupExec ⟨1, ⟨"verana1policy"⟩⟩,
    .createValidator ⟨⟨"veranavaloper1unlisted"⟩, "node"⟩,
    .groupExec ⟨2, ⟨"verana1policy"⟩⟩]

end Scenario

end BlockHooks
