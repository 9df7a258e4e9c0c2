/-
BlockHooks/Proofs/Admission.lean

The way of a transaction through the standard handler.

The host's four stages are taken to decide and forward: each either rejects
or runs the rest once, on the same transaction, with a context and a flag of
its own choosing (`Stage.forwarding`).  What they decide, and what they do to
the state while they decide it, is left open.

`Course` lists the ways there are: the stages come in the order setup,
validation, gates, fee, sequence, each in the state that the one before it
left, and the first that rejects is the last.  The gates judge what
validation forwarded, hand it on as it is, and reject with the violation of
the first message that has one.  The handler takes a course and no other way
(`first_violation_decides`).
-/
import BlockHooks.Proofs.Violation
import BlockHooks.Sandbox.Basic

namespace BlockHooks

variable {σ : Type}

/-! ### Stages that decide and forward -/

/-- A rejection, or the context and the flag to go on with. -/
abbrev Decision (σ : Type) :=
  TxContext → Tx → Bool → Action σ AdmissionError (TxContext × Bool)

/-- The stage that rejects or runs the rest once, as decided, on the same
transaction. -/
def Stage.forwarding (decide : Decision σ) : Stage σ := fun context tx simulate rest => do
  let (context, simulate) ← decide context tx simulate
  rest context tx simulate

/-- What the host's four stages decide. -/
structure HostDecisions (σ : Type) where
  setup : Decision σ
  validate : Decision σ
  fee : Decision σ
  sequence : Decision σ

namespace HostDecisions

/-- The parts of a handler whose host decides and forwards. -/
def parts (host : HostDecisions σ) (v : Lookups σ) : HandlerParts σ where
  setupContext := some (.forwarding host.setup)
  validateBasic := some (.forwarding host.validate)
  groupKeeper := some v.groupKeeper
  validatorWhitelist := some v.whitelist
  deductFee := some (.forwarding host.fee)
  incrementSequence := some (.forwarding host.sequence)

variable (host : HostDecisions σ) (context : TxContext) (tx : Tx) (simulate : Bool) (s : σ)

/-- Setup and validation let the transaction through, and the gates are
reached with the context, the flag and the state given. -/
def Reaches (c : TxContext) (f : Bool) (t : σ) : Prop :=
  ∃ c₁ f₁ s₁, (host.setup context tx simulate).run s = (.ok (c₁, f₁), s₁) ∧
    (host.validate c₁ tx f₁).run s₁ = (.ok (c, f), t)

end HostDecisions

/-- The ways through the handler: the outcome, and the state the last stage
that ran has left. -/
inductive Course (v : Lookups σ) (host : HostDecisions σ) (context : TxContext) (tx : Tx)
    (simulate : Bool) (s : σ) : Except AdmissionError TxContext → σ → Prop
  | setup {e s₁} :
      (host.setup context tx simulate).run s = (.error e, s₁) →
      Course v host context tx simulate s (.error e) s₁
  | validate {c₁ f₁ s₁ e s₂} :
      (host.setup context tx simulate).run s = (.ok (c₁, f₁), s₁) →
      (host.validate c₁ tx f₁).run s₁ = (.error e, s₂) →
      Course v host context tx simulate s (.error e) s₂
  | gates {c₂ f₂ s₂ e} :
      host.Reaches context tx simulate s c₂ f₂ s₂ →
      v.FirstViolation s₂ c₂ tx.msgs e →
      Course v host context tx simulate s (.error e) s₂
  | fee {c₂ f₂ s₂ e s₃} :
      host.Reaches context tx simulate s c₂ f₂ s₂ →
      v.Clean s₂ c₂ tx.msgs →
      (host.fee c₂ tx f₂).run s₂ = (.error e, s₃) →
      Course v host context tx simulate s (.error e) s₃
  | sequence {c₂ f₂ s₂ c₃ f₃ s₃ e s₄} :
      host.Reaches context tx simulate s c₂ f₂ s₂ →
      v.Clean s₂ c₂ tx.msgs →
      (host.fee c₂ tx f₂).run s₂ = (.ok (c₃, f₃), s₃) →
      (host.sequence c₃ tx f₃).run s₃ = (.error e, s₄) →
      Course v host context tx simulate s (.error e) s₄
  | admitted {c₂ f₂ s₂ c₃ f₃ s₃ c₄ f₄ s₄} :
      host.Reaches context tx simulate s c₂ f₂ s₂ →
      v.Clean s₂ c₂ tx.msgs →
      (host.fee c₂ tx f₂).run s₂ = (.ok (c₃, f₃), s₃) →
      (host.sequence c₃ tx f₃).run s₃ = (.ok (c₄, f₄), s₄) →
      Course v host context tx simulate s (.ok c₄) s₄

/-! ### What a stage does to a run -/

theorem Stage.run_forwarding {decide : Decision σ} {context : TxContext} {tx : Tx}
    {simulate : Bool} {rest : Rest σ} {s s' : σ} {c : TxContext} {f : Bool}
    (h : (decide context tx simulate).run s = (.ok (c, f), s')) :
    (Stage.forwarding decide context tx simulate rest).run s = (rest c tx f).run s' :=
  Action.run_bind_ok h

theorem Stage.run_forwarding_error {decide : Decision σ} {context : TxContext} {tx : Tx}
    {simulate : Bool} {rest : Rest σ} {s s' : σ} {e : AdmissionError}
    (h : (decide context tx simulate).run s = (.error e, s')) :
    (Stage.forwarding decide context tx simulate rest).run s = (.error e, s') :=
  Action.run_bind_error h

namespace Handler

variable [LogSink σ]

/-- The state once a rejection has been logged. -/
def logged (context : TxContext) : Except AdmissionError TxContext → σ → σ
  | .ok _, s => s
  | .error e, s =>
    LogSink.write ⟨.debug, s!"ante: rejected tx at height {context.block.height} with code "
      ++ s!"{e.code.number}: {e.message}"⟩ s

/-- A handler runs its stages and logs a rejection. -/
theorem run_handle (h : Handler σ) (context : TxContext) (tx : Tx) (simulate : Bool) (s : σ) :
    (h.handle context tx simulate).run s =
      (((Rest.ofStages h.stages context tx simulate).run s).1,
        logged context ((Rest.ofStages h.stages context tx simulate).run s).1
          ((Rest.ofStages h.stages context tx simulate).run s).2) := by
  rw [handle, Action.run_bind, Action.run_ofState, Action.run_outcome]
  rcases (Rest.ofStages h.stages context tx simulate).run s with ⟨e | c, s'⟩
  · rfl
  · rfl

end Handler

/-! ### The course of a transaction -/

section

variable {v : Lookups σ} {host : HostDecisions σ} {context : TxContext} {tx : Tx}
  {simulate : Bool} {s : σ}

/-- The handler put together from the host's decisions and the look-ups. -/
def HostDecisions.handler (host : HostDecisions σ) (v : Lookups σ) : Handler σ :=
  ⟨[.forwarding host.setup, .forwarding host.validate, Stage.ofGates v.gates,
    .forwarding host.fee, .forwarding host.sequence]⟩

theorem HostDecisions.ofParts_parts :
    Handler.ofParts (host.parts v) = .ok (host.handler v) :=
  rfl

/-- Once the gates are reached, what is left to run is the gates and what
follows them. -/
theorem HostDecisions.Reaches.run_eq {c : TxContext} {f : Bool} {t : σ}
    (h : host.Reaches context tx simulate s c f t) :
    (Rest.ofStages (host.handler v).stages context tx simulate).run s =
      (Stage.ofGates v.gates c tx f
        (Rest.ofStages [.forwarding host.fee, .forwarding host.sequence])).run t := by
  obtain ⟨c₁, f₁, s₁, hsetup, hvalidate⟩ := h
  exact (Stage.run_forwarding hsetup).trans (Stage.run_forwarding hvalidate)

/-- If no message violates, fee and sequence are left. -/
theorem HostDecisions.Reaches.run_eq_of_clean {c : TxContext} {f : Bool} {t : σ}
    (h : host.Reaches context tx simulate s c f t) (hclean : v.Clean t c tx.msgs) :
    (Rest.ofStages (host.handler v).stages context tx simulate).run s =
      (Rest.ofStages [.forwarding host.fee, .forwarding host.sequence] c tx f).run t := by
  rw [h.run_eq, Lookups.run_ofGates, Lookups.clean_iff.1 hclean]

/-- The stages end as the course says. -/
theorem Course.run_eq {r : Except AdmissionError TxContext} {s' : σ}
    (h : Course v host context tx simulate s r s') :
    (Rest.ofStages (host.handler v).stages context tx simulate).run s = (r, s') := by
  cases h with
  | setup hsetup => exact Stage.run_forwarding_error hsetup
  | validate hsetup hvalidate =>
    exact (Stage.run_forwarding hsetup).trans (Stage.run_forwarding_error hvalidate)
  | gates hreach hfirst =>
    rw [hreach.run_eq, Lookups.run_ofGates, Lookups.firstViolation_iff.1 hfirst]
  | fee hreach hclean hfee =>
    rw [hreach.run_eq_of_clean hclean]
    exact Stage.run_forwarding_error hfee
  | sequence hreach hclean hfee hsequence =>
    rw [hreach.run_eq_of_clean hclean]
    exact (Stage.run_forwarding hfee).trans (Stage.run_forwarding_error hsequence)
  | admitted hreach hclean hfee hsequence =>
    rw [hreach.run_eq_of_clean hclean]
    exact (Stage.run_forwarding hfee).trans (Stage.run_forwarding hsequence)

variable (v host context tx simulate s)

/-- Every transaction takes some course. -/
theorem exists_course : ∃ r s', Course v host context tx simulate s r s' := by
  rcases hsetup : (host.setup context tx simulate).run s with ⟨e | ⟨c₁, f₁⟩, s₁⟩
  · exact ⟨_, _, .setup hsetup⟩
  rcases hvalidate : (host.validate c₁ tx f₁).run s₁ with ⟨e | ⟨c₂, f₂⟩, s₂⟩
  · exact ⟨_, _, .validate hsetup hvalidate⟩
  have hreach : host.Reaches context tx simulate s c₂ f₂ s₂ := ⟨c₁, f₁, s₁, hsetup, hvalidate⟩
  rcases hgates : tx.msgs.findSome? (v.violation? s₂ c₂) with - | e
  · have hclean : v.Clean s₂ c₂ tx.msgs := Lookups.clean_iff.2 hgates
    rcases hfee : (host.fee c₂ tx f₂).run s₂ with ⟨e | ⟨c₃, f₃⟩, s₃⟩
    · exact ⟨_, _, .fee hreach hclean hfee⟩
    rcases hsequence : (host.sequence c₃ tx f₃).run s₃ with ⟨e | ⟨c₄, f₄⟩, s₄⟩
    · exact ⟨_, _, .sequence hreach hclean hfee hsequence⟩
    · exact ⟨_, _, .admitted hreach hclean hfee hsequence⟩
  · exact ⟨_, _, .gates hreach (Lookups.firstViolation_iff.2 hgates)⟩

end

/-- **The first violation in message order decides.**  The standard handler,
put together from look-ups and from four stages that decide and forward,
takes a transaction through setup, validation, gates, fee and sequence in
this order, and stops at the first rejection.  If the gates are reached they
reject exactly when some message violates in the context that validation
forwarded; the error is then the violation of the first such message, and
fee and sequence have not run. -/
theorem first_violation_decides [LogSink σ] (v : Lookups σ) (host : HostDecisions σ) :
    ∃ h, Handler.ofParts (host.parts v) = .ok h ∧ ∀ context tx simulate s,
      (∀ r t, (h.handle context tx simulate).run s = (r, t) ↔
        ∃ s', Course v host context tx simulate s r s' ∧ t = Handler.logged context r s') ∧
      ∀ c f t, host.Reaches context tx simulate s c f t →
        ((∃ msg ∈ tx.msgs, v.violation? t c msg ≠ none) ↔
          ∃ e, v.FirstViolation t c tx.msgs e ∧
            (h.handle context tx simulate).run s =
              (.error e, Handler.logged context (.error e) t)) := by
  -- a course fixes the outcome of the handler
  have hrun : ∀ {context tx simulate s r s'}, Course v host context tx simulate s r s' →
      ((host.handler v).handle context tx simulate).run s =
        (r, Handler.logged context r s') := by
    intro context tx simulate s r s' hcourse
    rw [Handler.run_handle, hcourse.run_eq]
  refine ⟨host.handler v, HostDecisions.ofParts_parts, fun context tx simulate s => ⟨?_, ?_⟩⟩
  · intro r t
    constructor
    · intro h
      obtain ⟨r', s', hcourse⟩ := exists_course v host context tx simulate s
      have hsame := h.symm.trans (hrun hcourse)
      cases hsame
      exact ⟨s', hcourse, rfl⟩
    · rintro ⟨s', hcourse, rfl⟩
      exact hrun hcourse
  · intro c f t hreach
    rw [← Lookups.exists_firstViolation_iff]
    constructor
    · rintro ⟨e, hfirst⟩
      exact ⟨e, hfirst, hrun (.gates hreach hfirst)⟩
    · rintro ⟨e, hfirst, -⟩
      exact ⟨e, hfirst⟩

namespace Scenario

/-- Notes where it is and forwards, with the block's time set to `time`. -/
def announce (name : String) (time : Int64) : Decision Sandbox := fun context _ simulate => do
  Sandbox.note (.stage name)
  return ({ context with block := { context.block with time := time } }, simulate)

/-- A host whose validation sets the time at which the first proposal is due. -/
def host : HostDecisions Sandbox where
  setup := announce "setup" 5
  validate := announce "validate" 1000
  fee := announce "fee" 5
  sequence := announce "sequence" 5

end Scenario

open Scenario in
/-- The operator is turned away; the fee is never reached. -/
theorem first_violation_decides_mixed :
    ∃ h, Handler.ofParts (host.parts lookups) = .ok h ∧
      ∃ t, (h.handle (.initial ⟨7, 0⟩ .deliver) mixed true).run .empty =
          (.error (.notWhitelisted ⟨"veranavaloper1unlisted"⟩), t) ∧
        t.calls = [⟨.stage "setup", false⟩, ⟨.stage "validate", false⟩] := by
  obtain ⟨h, hparts, hall⟩ := first_violation_decides lookups host
  have hreach : host.Reaches (.initial ⟨7, 0⟩ .deliver) mixed true .empty
      (.initial ⟨7, 1000⟩ .deliver) true
      ((Sandbox.empty.write (.stage "setup") false).write (.stage "validate") false) :=
    ⟨_, _, _, rfl, rfl⟩
  have hviolates : ∃ msg ∈ mixed.msgs, lookups.violation?
      ((Sandbox.empty.write (.stage "setup") false).write (.stage "validate") false)
      (.initial ⟨7, 1000⟩ .deliver) msg ≠ none :=
    ⟨.createValidator ⟨⟨"veranavaloper1unlisted"⟩, "node"⟩, by decide, by decide⟩
  obtain ⟨e, hfirst, hrun⟩ := ((hall _ _ _ _).2 _ _ _ hreach).1 hviolates
  have he : e = .notWhitelisted ⟨"veranavaloper1unlisted"⟩ :=
    (Option.some.inj ((Lookups.firstViolation_iff.1 hfirst).symm.trans rfl))
  subst he
  exact ⟨h, hparts, _, hrun, rfl⟩

end BlockHooks
