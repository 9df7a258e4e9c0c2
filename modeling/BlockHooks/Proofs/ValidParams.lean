/-
BlockHooks/Proofs/ValidParams.lean

The parameters in the store are valid, and messages do all or nothing.

Whoever writes parameters has validated them, and nothing else is written
under their key (`MemStore.validParams_invariant`).  So from a store without
parameters on, whatever is called and whatever fails in between, the bytes
under that key are the form of valid parameters.

This is what the funding of a module relies on.  It moves the amount first and
then writes the raised parameters; they are as valid as the ones that were
read, from a store that still works, so that the write cannot fail once the
amount has moved.  `Deposit.allOrNothing_afterCalls` says of every state that calls
lead to what its parameters are and what the two messages do to it.
-/
import BlockHooks.Proofs.Initialised
import BlockHooks.Proofs.Principal

namespace BlockHooks

open BlockHooks.Action (Keeps Maintains)

/-! ### Parameters in the store -/

/-- Under the key of the parameters there is nothing but the form of valid
ones. -/
def MemStore.ValidParams (s : MemStore) : Prop :=
  ∀ bs, s.entries.get? Deposit.paramsItem.key = some bs → ∃ p : Params, p.validate = .ok () ∧
    Stored.encode Deposit.paramsItem.key Deposit.paramsItem.discriminator p = .ok bs

theorem MemStore.validParams_of_none {s : MemStore}
    (h : s.entries.get? Deposit.paramsItem.key = none) : s.ValidParams := by
  intro bs hget
  rw [h] at hget
  cases hget

/-- No write of the hooks puts anything else there. -/
theorem MemStore.validParams_invariant : StoreInvariant MemStore.ValidParams where
  put := by
    intro s key bs h hkept bs' hget
    rw [get?_put] at hget
    split at hget
    next hkey =>
      cases hget
      -- what is kept under this key can only be parameters
      cases hkept with
      | params _ hvalid hencode => exact ⟨_, hvalid, hkey ▸ hencode⟩
      | dust hdust _ => exact absurd (hdust.symm.trans hkey.symm) Deposit.dustKey_ne_paramsKey
      | validator hv => exact absurd (hkey.trans hv.1) (paramsKey_ne_validatorKey _)
    next => exact h bs' hget
  drop := by
    intro s index h bs hget
    rw [get?_drop] at hget
    split at hget
    next => cases hget
    next => exact h bs hget

theorem Ledger.valid_of_validParams {l : Ledger} {p : Params} (h : l.store.ValidParams)
    (hp : l.params = .ok p) : p.validate = .ok () := by
  have hworks : l.Working := Deposit.working_of_params hp
  rcases hget : l.store.entries.get? Deposit.paramsItem.key with - | bs
  · rw [params_eq, bytesAt, MemStore.bytesAt_of_working hworks, hget] at hp
    cases hp
  · obtain ⟨p', hvalid, hencode⟩ := h bs hget
    rw [Ledger.params_of_entry hworks hencode hget] at hp
    cases hp
    exact hvalid

/-! ### Calls of the deposit -/

/-- What may be called, and what may begin or cease to fail between two calls. -/
inductive DepositCall where
  | initGenesis (g : DepositGenesis)
  | setParams (p : Params)
  | updateParams (msg : UpdateParams)
  | fundModule (msg : FundModule)
  | beginBlock (block : BlockContext)
  /-- Whether the store, balance reads and transfers fail from now on. -/
  | switches (store balance send : Bool)

/-- The ledger that a call leaves, whether it succeeds or fails. -/
def DepositCall.perform (d : Deposit) (l : Ledger) : DepositCall → Ledger
  | .initGenesis g => ((Deposit.initGenesis g).run l).2
  | .setParams p => ((Deposit.setParams p).run l).2
  | .updateParams msg => ((d.updateParams msg).run l).2
  | .fundModule msg => ((d.fundModule msg).run l).2
  | .beginBlock block => ((d.settle block).run l).2
  | .switches store balance send =>
    { l with
      store := { l.store with failing := store }
      bank := { l.bank with failingBalance := balance, failingSend := send } }

/-- The ledger after calls. -/
def Deposit.afterCalls (d : Deposit) : Ledger → List DepositCall → Ledger
  | l, [] => l
  | l, c :: cs => d.afterCalls (c.perform d l) cs

theorem StoreInvariant.maintains_initGenesis {P : MemStore → Prop} (hP : StoreInvariant P)
    (g : DepositGenesis) :
    Maintains (Ledger.StoreHas P) (Deposit.initGenesis g : Action Ledger DepositError Unit) := by
  apply Maintains.bind (maintains_ofExcept _)
  intro _
  apply Maintains.bind (hP.maintains_setParams g.params)
  intro _
  exact hP.maintains_setDust g.dust

namespace Deposit

variable {d : Deposit} {l l' : Ledger}

theorem validParams_perform (c : DepositCall) (h : l.store.ValidParams) :
    (c.perform d l).store.ValidParams := by
  have hP : StoreInvariant MemStore.ValidParams := MemStore.validParams_invariant
  cases c with
  | initGenesis g => exact hP.maintains_initGenesis g l h
  | setParams p => exact hP.maintains_setParams p l h
  | updateParams msg => exact hP.maintains_updateParams d msg l h
  | fundModule msg => exact hP.maintains_fundModule d msg l h
  | beginBlock block => exact hP.maintains_settle d block l h
  | switches store balance send => exact h

theorem validParams_afterCalls (cs : List DepositCall) (h : l.store.ValidParams) :
    (d.afterCalls l cs).store.ValidParams := by
  induction cs generalizing l with
  | nil => exact h
  | cons c cs ih => exact ih (validParams_perform c h)

/-! ### Messages -/

/-- Parameters are checked and put into their form before anything is
written. -/
theorem atomic_setParams (p : Params) :
    Action.Atomic (fun _ => True) (setParams p : Action Ledger DepositError Unit) := by
  apply Action.Atomic.bind_of_keeps (Keeps.mapError _ (Keeps.ofExcept _))
  intro _
  apply Action.Atomic.mapError
  intro l _ e l' hrun
  exact Item.eq_of_run_save_error _ hrun

theorem run_updateParams_of_foreign {msg : UpdateParams} (h : msg.authority ≠ d.authority) :
    (d.updateParams msg).run l = (.error (.invalidAuthority d.authority msg.authority), l) := by
  rw [updateParams, if_pos h]
  rfl

theorem atomic_updateParams (d : Deposit) (msg : UpdateParams) :
    Action.Atomic (fun _ => True) (d.updateParams msg : Action Ledger DepositError Unit) := by
  apply Action.Atomic.ite (Keeps.throw _).atomic
  apply Action.Atomic.bind_of_succeeds (q := fun _ => True) (atomic_setParams msg.params)
  · exact fun _ _ => trivial
  · exact fun _ l _ => ⟨_, l, rfl⟩

theorem updateParams_ok_inv {msg : UpdateParams} (h : (d.updateParams msg).run l = (.ok (), l')) :
    msg.authority = d.authority ∧ (setParams msg.params).run l = (.ok (), l') := by
  by_cases hauthority : msg.authority = d.authority
  · rw [updateParams, if_neg (not_not.2 hauthority), Action.run_bind_eq_ok_iff] at h
    obtain ⟨⟨⟩, l₁, hset, hlog⟩ := h
    cases hlog
    exact ⟨hauthority, hset⟩
  · rw [run_updateParams_of_foreign hauthority] at h
    cases h

/-- What is known of a ledger that the deposit's calls have led to: its
parameters are valid, and a message does to it all that it asks for or
nothing. -/
structure AllOrNothing (d : Deposit) (l : Ledger) : Prop where
  stored : l.store.ValidParams
  valid : ∀ p, l.params = .ok p → p.validate = .ok ()
  fundModule_ok : ∀ msg event l', (d.fundModule msg).run l = (.ok event, l') → Funded d msg l l'
  fundModule_error : ∀ msg e l', (d.fundModule msg).run l = (.error e, l') → l' = l
  updateParams_ok : ∀ msg l', (d.updateParams msg).run l = (.ok (), l') →
    msg.authority = d.authority ∧ msg.params.validate = .ok () ∧ l'.params = .ok msg.params ∧
      l'.bank = l.bank
  updateParams_error : ∀ msg e l', (d.updateParams msg).run l = (.error e, l') → l' = l
  foreign : ∀ msg, msg.authority ≠ d.authority →
    (d.updateParams msg).run l = (.error (.invalidAuthority d.authority msg.authority), l)

theorem allOrNothing_of_validParams (h : l.store.ValidParams) : d.AllOrNothing l where
  stored := h
  valid _ hp := Ledger.valid_of_validParams h hp
  fundModule_ok _ _ _ hrun := fundModule_ok_inv hrun
  fundModule_error msg e l' hrun :=
    atomic_fundModule d msg l (fun _ hp => Ledger.valid_of_validParams h hp) e l' hrun
  updateParams_ok msg l' hrun := by
    obtain ⟨hauthority, hset⟩ := updateParams_ok_inv hrun
    obtain ⟨hvalid, hsave⟩ := run_setParams_eq_ok_iff.1 hset
    obtain ⟨-, bs, -, hwritten⟩ := paramsItem.run_save_eq_ok_iff.1 hsave
    exact ⟨hauthority, hvalid, params_of_setParams hset, by rw [hwritten]⟩
  updateParams_error msg e l' hrun := atomic_updateParams d msg l trivial e l' hrun
  foreign _ hforeign := run_updateParams_of_foreign hforeign

/-- **Parameters stay valid, and messages do all or nothing.**  From a store
without parameters on, whatever else it holds, and after any calls, of which
any may fail for any cause, the bytes under the key of the parameters are the
form of valid ones.  In every such state a message that funds a module or
updates the parameters either does all that it asks for, or it fails and the
store, all balances and the list of transfers are what they were; and one
that does not come from the authority is refused. -/
theorem allOrNothing_afterCalls (d : Deposit) (l : Ledger)
    (hnone : l.store.entries.get? paramsItem.key = none) (cs : List DepositCall) :
    d.AllOrNothing (d.afterCalls l cs) :=
  allOrNothing_of_validParams (validParams_afterCalls cs (MemStore.validParams_of_none hnone))

end Deposit

namespace Scenario

/-! ### Calls between failures -/

/-- Nothing is stored, and one account holds something. -/
def unsettled : Ledger := { Ledger.empty with bank := MemBank.empty.fund funder 10 }

/-- Parameters that are not valid are refused before there are any and in a
genesis; a store and transfers that fail stop one call each; the rest is
accepted. -/
def interruptedCalls : List DepositCall := [
  .setParams ⟨5, ⟨Dec.one.raw + 1, by decide⟩, 1⟩,
  .fundModule ⟨funder, "trust_deposit", 1⟩,
  .initGenesis ⟨⟨5, Dec.one, 0⟩, Dec.zero⟩,
  .initGenesis ⟨params, quarter⟩,
  .switches true false false,
  .setParams Params.default,
  .switches false false true,
  .fundModule ⟨funder, "trust_deposit", 4⟩,
  .switches false true false,
  .fundModule ⟨funder, "trust_deposit", 3⟩,
  .beginBlock ⟨1, 1700000005⟩]

/-- More than there is in the account. -/
def overdraft : FundModule := ⟨funder, "trust_deposit", 8⟩

end Scenario

open Scenario in
theorem Deposit.allOrNothing_afterCalls_interrupted :
    unsettled.store.entries.get? Deposit.paramsItem.key = none ∧
      (deposit.afterCalls unsettled interruptedCalls).params
        = .ok ⟨9467283, Dec.one, Params.defaultBlocksPerYear⟩ ∧
      (deposit.afterCalls unsettled interruptedCalls).bank.balanceOf funder = 7 ∧
      ∃ e, (deposit.fundModule overdraft).run (deposit.afterCalls unsettled interruptedCalls)
        = (.error e, deposit.afterCalls unsettled interruptedCalls) := by
  have hnone : unsettled.store.entries.get? Deposit.paramsItem.key = none := rfl
  have hsound := Deposit.allOrNothing_afterCalls deposit unsettled hnone interruptedCalls
  have hparams : (deposit.afterCalls unsettled interruptedCalls).params
      = .ok ⟨9467283, Dec.one, Params.defaultBlocksPerYear⟩ := by
    decide +kernel
  have hrefused : ((deposit.fundModule overdraft).run
      (deposit.afterCalls unsettled interruptedCalls)).1.isOk = false := by
    decide +kernel
  refine ⟨hnone, hparams, by decide +kernel, ?_⟩
  rcases hrun : (deposit.fundModule overdraft).run (deposit.afterCalls unsettled interruptedCalls)
    with ⟨e | event, l'⟩
  · exact ⟨e, by rw [hsound.fundModule_error _ _ _ hrun]⟩
  · rw [hrun] at hrefused
    cases hrefused

end BlockHooks
