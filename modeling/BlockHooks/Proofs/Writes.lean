/-
BlockHooks/Proofs/Writes.lean

Under which keys requests and settlements write.

Funding a module and updating the parameters write under the key of the
parameters only, onboarding and removing a validator under the key of its
record only.  That holds of requests that fail as well.  The dust has a key
of its own, which is none of these; under it a settlement writes, and under
no other.
-/
import BlockHooks.Deposit.Messages
import BlockHooks.Proofs.Settlement
import BlockHooks.Registry.Basic

namespace BlockHooks

namespace Deposit

variable {key : Bytes}

/-! ### Keys -/

theorem dustKey_ne_paramsKey : dustItem.key ≠ paramsItem.key := by
  decide

/-- No record of a validator is stored under the key of the dust. -/
theorem dustKey_ne_validatorKey (index : String) :
    dustItem.key ≠ Registry.validators.fullKey index := by
  intro h
  have hfirst : (utf8 "td/dust").head? = (utf8 "validator/value/" ++ utf8 index).head? :=
    congrArg List.head? h
  have hletter : (utf8 "validator/value/").head? = some 118 := by decide
  rw [List.head?_append, hletter, Option.some_or] at hfirst
  revert hfirst
  decide

/-! ### Requests to the trust deposit -/

theorem keeps_setParams (p : Params) (h : key ≠ paramsItem.key) :
    Action.Keeps (Ledger.bytesAt key) (setParams p : Action Ledger DepositError Unit) := by
  refine Action.Keeps.bind (Action.Keeps.mapError _ (Action.Keeps.ofExcept _)) fun _ => ?_
  exact Action.Keeps.mapError _ (paramsItem.keeps_save_of_ne p h)

/-- Raising the principal reads the parameters and writes nothing. -/
theorem keeps_raisedParams {γ : Type} (obs : Ledger → γ) (d : Deposit) (msg : FundModule) :
    Action.Keeps obs (d.raisedParams msg : Action Ledger DepositError (Option Params)) := by
  refine Action.Keeps.ite ?_ (Action.Keeps.pure _)
  refine Action.Keeps.bind (keeps_params _) fun _ => ?_
  exact Action.Keeps.bind (Action.Keeps.ofExcept _) fun _ => Action.Keeps.pure _

theorem keeps_fundModule (d : Deposit) (msg : FundModule) (h : key ≠ paramsItem.key) :
    Action.Keeps (Ledger.bytesAt key) (d.fundModule msg : Action Ledger DepositError Event) := by
  refine Action.Keeps.bind (Action.Keeps.ofExcept _) fun _ => ?_
  refine Action.Keeps.bind (d.keeps_raisedParams _ msg) fun raised => ?_
  refine Action.Keeps.bind (Action.Keeps.mapError _ (Ledger.keeps_onBank _ _)) fun _ => ?_
  cases raised with
  | none => exact Action.Keeps.bind (Ledger.keeps_log _ _ _) fun _ => Action.Keeps.pure _
  | some p =>
    refine Action.Keeps.bind (keeps_setParams p h) fun _ => ?_
    exact Action.Keeps.bind (Ledger.keeps_log _ _ _) fun _ => Action.Keeps.pure _

theorem keeps_updateParams (d : Deposit) (msg : UpdateParams) (h : key ≠ paramsItem.key) :
    Action.Keeps (Ledger.bytesAt key)
      (d.updateParams msg : Action Ledger DepositError Unit) := by
  refine Action.Keeps.ite (Action.Keeps.throw _) ?_
  exact Action.Keeps.bind (keeps_setParams msg.params h) fun _ => Ledger.keeps_log _ _ _

/-! ### Settlements -/

theorem keeps_setDust (v : Dec) (h : key ≠ dustItem.key) :
    Action.Keeps (Ledger.bytesAt key) (setDust v : Action Ledger DepositError Unit) :=
  Action.Keeps.mapError _ (dustItem.keeps_save_of_ne v h)

theorem keeps_setDust_then {α : Type} (v : Dec) (level : Level) (text : String) (a : α)
    (h : key ≠ dustItem.key) :
    Action.Keeps (Ledger.bytesAt key)
      (do setDust v; log level text; return a : Action Ledger DepositError α) := by
  refine Action.Keeps.bind (keeps_setDust v h) fun _ => ?_
  exact Action.Keeps.bind (Ledger.keeps_log _ _ _) fun _ => Action.Keeps.pure _

theorem keeps_payYield (d : Deposit) (block : BlockContext) (total : Dec)
    (h : key ≠ dustItem.key) :
    Action.Keeps (Ledger.bytesAt key)
      (d.payYield block total : Action Ledger DepositError (YieldTransfer × Dec)) := by
  refine Action.Keeps.bind (Action.Keeps.mapError _ (Action.Keeps.ofExcept _)) fun _ => ?_
  refine Action.Keeps.bind (Action.Keeps.mapError _ (Ledger.keeps_onBank _ _)) fun _ => ?_
  refine Action.Keeps.ite (keeps_setDust_then _ _ _ _ h) ?_
  refine Action.Keeps.bind (Action.Keeps.mapError _ (Ledger.keeps_onBank _ _)) fun _ => ?_
  exact keeps_setDust_then _ _ _ _ h

theorem keeps_accrue (d : Deposit) (block : BlockContext) (h : key ≠ dustItem.key) :
    Action.Keeps (Ledger.bytesAt key) (d.accrue block : Action Ledger DepositError Accrual) := by
  refine Action.Keeps.bind (keeps_params _) fun _ => ?_
  refine Action.Keeps.bind (Action.Keeps.mapError _ (Action.Keeps.ofExcept _)) fun _ => ?_
  refine Action.Keeps.bind (keeps_dust _) fun _ => ?_
  refine Action.Keeps.bind (Action.Keeps.mapError _ (Action.Keeps.ofExcept _)) fun _ => ?_
  refine Action.Keeps.ite (keeps_setDust_then _ _ _ _ h) ?_
  exact Action.Keeps.bind (d.keeps_payYield block _ h) fun _ => Action.Keeps.pure _

/-- A settlement writes under the key of the dust only. -/
theorem keeps_settle (d : Deposit) (block : BlockContext) (h : key ≠ dustItem.key) :
    Action.Keeps (Ledger.bytesAt key)
      (d.settle block : Action Ledger DepositError SettlementReport) := by
  refine Action.Keeps.bind (d.keeps_accrue block h) fun _ => ?_
  refine Action.Keeps.bind (fun l => ?_) fun _ => Action.Keeps.pure _
  exact congrArg (MemStore.bytesAt · key) (keeps_store_sweep d block l)

end Deposit

/-! ### Requests to the registry -/

namespace Registry

variable {key : Bytes}

theorem keeps_onboard (r : Registry) {msg : OnboardValidator}
    (h : key ≠ validators.fullKey msg.memberId) :
    Action.Keeps (Ledger.bytesAt key) (r.onboard msg : Action Ledger RegistryError Event) := by
  refine Action.Keeps.bind (Action.Keeps.ofExcept _) fun _ => ?_
  refine Action.Keeps.bind (Action.Keeps.mapError _ ?_) fun taken => ?_
  · exact Action.Keeps.bind (Ledger.keeps_get _ _) fun _ => Action.Keeps.pure _
  refine Action.Keeps.ite (Action.Keeps.throw _) ?_
  refine Action.Keeps.bind (Action.Keeps.ofExcept _) fun _ => ?_
  refine Action.Keeps.bind (Action.Keeps.mapError _ (Item.keeps_save_of_ne _ _ h)) fun _ => ?_
  exact Action.Keeps.bind (Ledger.keeps_log _ _ _) fun _ => Action.Keeps.pure _

theorem keeps_removeValidator {index : String} (h : key ≠ validators.fullKey index) :
    Action.Keeps (Ledger.bytesAt key)
      (removeValidator index : Action Ledger RegistryError Unit) :=
  Action.Keeps.mapError _ (Ledger.keeps_delete_of_ne h)

end Registry

end BlockHooks
