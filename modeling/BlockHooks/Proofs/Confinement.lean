/-
BlockHooks/Proofs/Confinement.lean

No stage gets a transaction past the gates.

The stages before the gates may do what they like: reject, answer by
themselves, run what follows several times, on other contexts, other
transactions and another flag, and go on after a rejection.  Still, what
stands behind the gates is entered only with a context and a transaction
none of whose messages violates.

That is a statement about two handlers: if the stages behind the gates agree
wherever no message violates, the handlers agree everywhere
(`handle_eq_of_agree_on_clean`).  In particular nothing is ever seen of what
a stage behind the gates would do on a violation, say raise an alarm.
-/
import BlockHooks.Proofs.Violation
import BlockHooks.Sandbox.Basic

namespace BlockHooks

variable {σ : Type}

/-- The parts of a handler with arbitrary stages around the gates. -/
def Lookups.parts (v : Lookups σ) (setup validate fee sequence : Stage σ) : HandlerParts σ where
  setupContext := some setup
  validateBasic := some validate
  groupKeeper := some v.groupKeeper
  validatorWhitelist := some v.whitelist
  deductFee := some fee
  incrementSequence := some sequence

/-- Two rests that agree on clean transactions are the same rest behind the
gates. -/
theorem Stage.ofGates_congr {v : Lookups σ} {rest rest' : Rest σ}
    (h : ∀ context tx simulate s, v.Clean s context tx.msgs →
      (rest context tx simulate).run s = (rest' context tx simulate).run s)
    (context : TxContext) (tx : Tx) (simulate : Bool) :
    Stage.ofGates v.gates context tx simulate rest =
      Stage.ofGates v.gates context tx simulate rest' := by
  apply Action.ext
  intro s
  rw [Lookups.run_ofGates, Lookups.run_ofGates]
  rcases hgates : tx.msgs.findSome? (v.violation? s context) with - | e
  · have hclean : v.Clean s context tx.msgs := Lookups.clean_iff.2 hgates
    exact h context tx simulate s hclean
  · -- both are turned away, in the same state
    rfl

/-- **The gates cannot be bypassed.**  Whatever the stages before the gates
are, two handlers whose stages behind the gates agree on every context,
transaction and flag under which no message violates end alike, in outcome
and state, on every context, transaction and flag. -/
theorem handle_eq_of_agree_on_clean [LogSink σ] (v : Lookups σ)
    (setup validate fee sequence fee' sequence' : Stage σ)
    (hagree : ∀ context tx simulate s, v.Clean s context tx.msgs →
      (fee context tx simulate (Rest.ofStages [sequence])).run s =
        (fee' context tx simulate (Rest.ofStages [sequence'])).run s) :
    ∃ h h', Handler.ofParts (v.parts setup validate fee sequence) = .ok h ∧
      Handler.ofParts (v.parts setup validate fee' sequence') = .ok h' ∧
      ∀ context tx simulate s,
        (h.handle context tx simulate).run s = (h'.handle context tx simulate).run s := by
  refine ⟨⟨[setup, validate, Stage.ofGates v.gates, fee, sequence]⟩,
    ⟨[setup, validate, Stage.ofGates v.gates, fee', sequence']⟩, rfl, rfl, ?_⟩
  -- setup and validation are handed one and the same rest
  have hrest : Rest.ofStages [Stage.ofGates v.gates, fee, sequence] =
      Rest.ofStages [Stage.ofGates v.gates, fee', sequence'] := by
    funext context tx simulate
    exact Stage.ofGates_congr hagree context tx simulate
  have hstages : Rest.ofStages [setup, validate, Stage.ofGates v.gates, fee, sequence] =
      Rest.ofStages [setup, validate, Stage.ofGates v.gates, fee', sequence'] := by
    funext context tx simulate
    show setup context tx simulate (fun c t f => validate c t f _) =
      setup context tx simulate (fun c t f => validate c t f _)
    rw [hrest]
  intro context tx simulate s
  rw [Handler.handle, Handler.handle, hstages]

namespace Scenario

/-- Once rejected, tries again with the first message alone. -/
def insistent : Stage Sandbox := fun context tx simulate rest => do
  match ← Action.ofState (rest context tx simulate).outcome with
  | .ok context => return context
  | .error _ => rest context ⟨tx.msgs.take 1⟩ simulate

/-- Notes that it was entered. -/
def charging : Stage Sandbox := fun context tx simulate rest => do
  Sandbox.note (.stage "fee")
  rest context tx simulate

/-- Raises an alarm if it is entered although some message violates. -/
def alarmed : Stage Sandbox := fun context tx simulate rest => .ofRun fun s =>
  match tx.msgs.findSome? (lookups.violation? s context) with
  | some e => (.error e, s.write (.stage "alarm") false)
  | none => (charging context tx simulate rest).run s

end Scenario

open Scenario in
/-- The insistent stage gets the first message through, and no alarm is raised. -/
theorem handle_eq_of_agree_on_clean_alarmed :
    (∀ context tx simulate s, lookups.Clean s context tx.msgs →
      (charging context tx simulate (Rest.ofStages [Stage.passThrough])).run s =
        (alarmed context tx simulate (Rest.ofStages [Stage.passThrough])).run s) ∧
    ∃ h h', Handler.ofParts
        (lookups.parts Stage.passThrough insistent charging Stage.passThrough) = .ok h ∧
      Handler.ofParts
        (lookups.parts Stage.passThrough insistent alarmed Stage.passThrough) = .ok h' ∧
      (h.handle (.initial ⟨7, 1000⟩ .deliver) mixed false).run .empty =
        (h'.handle (.initial ⟨7, 1000⟩ .deliver) mixed false).run .empty := by
  have hagree : ∀ context tx simulate s, lookups.Clean s context tx.msgs →
      (charging context tx simulate (Rest.ofStages [Stage.passThrough])).run s =
        (alarmed context tx simulate (Rest.ofStages [Stage.passThrough])).run s := by
    intro context tx simulate s hclean
    rw [alarmed, Action.run_ofRun, Lookups.clean_iff.1 hclean]
  obtain ⟨h, h', hparts, hparts', hsame⟩ := handle_eq_of_agree_on_clean lookups
    Stage.passThrough insistent charging Stage.passThrough alarmed Stage.passThrough hagree
  exact ⟨hagree, h, h', hparts, hparts', hsame _ _ _ _⟩

end BlockHooks
