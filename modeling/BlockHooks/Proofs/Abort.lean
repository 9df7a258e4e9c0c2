/-
BlockHooks/Proofs/Abort.lean

What an aborted block leaves behind.

Each of the two steps of a settlement is all or nothing (`atomic_accrue`,
`atomic_sweep`), but the settlement is not: where step two fails, step one
has been done and stays done.  So a block that is aborted has changed
nothing, or it is `HalfSettled`: height and time are those of the block
before, but the yield of the block is in the dust or has been paid
(`nextBlock_error`).  A block made in its place earns that yield once more.
-/
import BlockHooks.Chain.Basic
import BlockHooks.Proofs.Atomicity
import BlockHooks.Proofs.Conservation

namespace BlockHooks

namespace Deposit

variable {d : Deposit} {block : BlockContext} {l l' : Ledger}

/-! ### The steps -/

theorem atomic_send {p : Ledger → Prop} (sender receiver : Address) (amount : UInt64) :
    Action.Atomic p (Bank.send sender receiver amount : Action Ledger BankError Unit) := by
  intro l _ e l' hrun
  rw [Ledger.run_send] at hrun
  split at hrun
  · cases hrun
  · cases hrun
    rfl

/-- Every decimal has a form, so a working store takes it. -/
theorem succeeds_setDust (v : Dec) :
    Action.Succeeds Ledger.Working (setDust v : Action Ledger DepositError Unit) := by
  intro l hworks
  have hsave : (dustItem.save v).run l
      = (.ok (), { l with store := l.store.put dustItem.key (2 :: Codec.littleEndian 16 v.raw) }) :=
    dustItem.run_save_eq_ok_iff.2 ⟨hworks, _, rfl, rfl⟩
  exact ⟨(), _, run_setDust_eq_ok_iff.2 hsave⟩

/-- Dust is written last, and the log takes everything. -/
theorem succeeds_setDust_then {α : Type} (v : Dec) (level : Level) (text : String) (a : α) :
    Action.Succeeds Ledger.Working
      (do setDust v; log level text; return a : Action Ledger DepositError α) := by
  intro l hworks
  obtain ⟨⟨⟩, l', hset⟩ := succeeds_setDust v l hworks
  refine ⟨a, l', ?_⟩
  rw [Action.run_bind_ok hset]
  rfl

theorem atomic_payYield (d : Deposit) (block : BlockContext) (total : Dec) :
    Action.Atomic Ledger.Working
      (d.payYield block total : Action Ledger DepositError (YieldTransfer × Dec)) := by
  apply Action.Atomic.bind_of_keeps (Action.Keeps.mapError _ (Action.Keeps.ofExcept _))
  intro amount
  apply Action.Atomic.bind_of_keeps (Action.Keeps.mapError _ (Ledger.keeps_balance _ _))
  intro available
  apply Action.Atomic.ite
  · exact (succeeds_setDust_then _ _ _ _).atomic
  · -- only the transfer may fail, and it leaves the store working
    apply Action.Atomic.bind_of_succeeds (q := Ledger.Working)
      (Action.Atomic.mapError _ (atomic_send _ _ _))
    · intro l hworks
      exact hworks
    · intro _
      exact succeeds_setDust_then _ _ _ _

/-- A failing store stops step one at its first read. -/
theorem params_of_not_working (h : ¬ l.Working) : ∃ e, l.params = .error e := by
  have hfailing : l.store.failing = true := by
    rcases e : l.store.failing with - | -
    · exact absurd e h
    · rfl
  refine ⟨.store (.backend "injected store failure"), ?_⟩
  rw [Ledger.params, params, Action.run_bind, Action.run_mapError, Item.run_load?,
    Ledger.bytesAt, MemStore.bytesAt, if_pos hfailing]
  rfl

/-- Parameters can be read from a working store only. -/
theorem working_of_params {p : Params} (h : l.params = .ok p) : l.Working := by
  by_contra hfailing
  obtain ⟨e, he⟩ := params_of_not_working hfailing
  rw [h] at he
  cases he

/-- Step one is all or nothing. -/
theorem atomic_accrue (d : Deposit) (block : BlockContext) :
    Action.Atomic (fun _ => True) (d.accrue block : Action Ledger DepositError Accrual) := by
  intro l _ e l' hrun
  by_cases hworks : l.Working
  · revert hrun
    suffices h : Action.Atomic Ledger.Working
        (d.accrue block : Action Ledger DepositError Accrual) by
      exact h l hworks e l'
    apply Action.Atomic.bind_of_keeps (keeps_params _)
    intro p
    apply Action.Atomic.bind_of_keeps (Action.Keeps.mapError _ (Action.Keeps.ofExcept _))
    intro earned
    apply Action.Atomic.bind_of_keeps (keeps_dust _)
    intro carried
    apply Action.Atomic.bind_of_keeps (Action.Keeps.mapError _ (Action.Keeps.ofExcept _))
    intro total
    apply Action.Atomic.ite
    · exact (succeeds_setDust_then _ _ _ _).atomic
    · -- what follows the payment only answers
      apply Action.Atomic.bind_of_succeeds (q := fun _ => True) (atomic_payYield d block total)
      · exact fun _ _ => trivial
      · exact fun _ => Action.Succeeds.pure _
  · obtain ⟨err, herr⟩ := params_of_not_working hworks
    have hparams : params.run l = (.error err, l) := by
      rw [Ledger.run_params, herr]
    rw [accrue, Action.run_bind_error hparams] at hrun
    cases hrun
    rfl

/-- Step two is all or nothing. -/
theorem atomic_sweep {p : Ledger → Prop} (d : Deposit) (block : BlockContext) :
    Action.Atomic p (d.sweep block : Action Ledger DepositError UInt64) := by
  apply Action.Atomic.bind_of_keeps (Action.Keeps.mapError _ (Ledger.keeps_balance _ _))
  intro excess
  apply Action.Atomic.ite
  · exact (Action.Succeeds.pure _).atomic
  · apply Action.Atomic.bind_of_succeeds (q := fun _ => True)
      (Action.Atomic.mapError _ (atomic_send _ _ _))
    · exact fun _ _ => trivial
    · exact fun _ l _ => ⟨_, l, rfl⟩

/-- A settlement that fails has done nothing, or all of step one. -/
theorem settle_error_inv {e : DepositError} (h : (d.settle block).run l = (.error e, l')) :
    l' = l ∨ ∃ a, (d.accrue block).run l = (.ok a, l') ∧
      (d.sweep block).run l' = (.error e, l') := by
  rcases haccrue : (d.accrue block).run l with ⟨err | a, l₁⟩
  · rw [settle, Action.run_bind_error haccrue] at h
    cases h
    exact Or.inl (atomic_accrue d block l trivial _ _ haccrue)
  · rw [settle, Action.run_bind_ok haccrue] at h
    rcases hsweep : (d.sweep block).run l₁ with ⟨err | swept, l₂⟩
    · rw [Action.run_bind_error hsweep] at h
      cases h
      have hsame := atomic_sweep (p := fun _ => True) d block l₁ trivial _ _ hsweep
      subst hsame
      exact Or.inr ⟨a, rfl, hsweep⟩
    · rw [Action.run_bind_ok hsweep] at h
      cases h

/-- Step one leaves the parameters and the groups as they were. -/
theorem accrue_ok_frame {a : Accrual} (h : (d.accrue block).run l = (.ok a, l')) :
    l'.params = l.params ∧ l'.groups = l.groups := by
  obtain ⟨p, carried, total, b, -, -, -, -, -, hset⟩ := accrue_ok_inv h
  have hsave := run_setDust_eq_ok_iff.1 hset
  constructor
  · apply Ledger.params_congr
    have hkeep := dustItem.keeps_save_of_ne a.dust dustKey_ne_paramsKey.symm { l with bank := b }
    rwa [hsave] at hkeep
  · obtain ⟨-, bs, -, rfl⟩ := dustItem.run_save_eq_ok_iff.1 hsave
    rfl

end Deposit

/-- The report of a block in which this was step one. -/
def Accrual.report (a : Accrual) (block : BlockContext) (swept : UInt64) : SettlementReport :=
  ⟨block.height, a.perBlockYield, a.transfer, a.dust, swept⟩

namespace Chain

variable {h : Hooks} {c c' : Chain}

/-! ### One block -/

/-- The chain with another ledger. -/
def withLedger (c : Chain) (l : Ledger) : Chain :=
  { c with node := { c.node with world := l } }

theorem run_nextBlock_of_error {e : DepositError} {l : Ledger}
    (hsettle : (h.deposit.settle c.nextBlockContext).run c.ledger = (.error e, l)) :
    (nextBlock h).run c = (.error (.deposit e), c.withLedger l) := by
  have hbegin : (onNode (h.beginBlock c.nextBlockContext)).run c
      = (.error (.deposit e), c.withLedger l) := by
    have hrun := h.run_beginBlock c.nextBlockContext c.node
    rw [show c.node.world = c.ledger from rfl, hsettle] at hrun
    rw [onNode, Action.run_onPart, hrun]
    rfl
  rw [nextBlock, Action.run_bind_ok (Action.run_read _ _), Action.run_bind_error hbegin]

theorem run_nextBlock_of_ok {r : SettlementReport} {l : Ledger}
    (hsettle : (h.deposit.settle c.nextBlockContext).run c.ledger = (.ok r, l)) :
    ∃ executions c', (nextBlock h).run c = (.ok ⟨r, executions⟩, c') := by
  have hbegin : (onNode (h.beginBlock c.nextBlockContext)).run c
      = (.ok r, { c with node := ⟨l, c.node.metrics.recordSettlement r⟩ }) := by
    have hrun := h.run_beginBlock c.nextBlockContext c.node
    rw [show c.node.world = c.ledger from rfl, hsettle] at hrun
    rw [onNode, Action.run_onPart, hrun]
  rw [nextBlock, Action.run_bind_ok (Action.run_read _ _), Action.run_bind_ok hbegin]
  exact ⟨_, _, rfl⟩

/-- A block is aborted by its settlement, and then nothing else was done. -/
theorem nextBlock_error_inv {e : HookError} (hrun : (nextBlock h).run c = (.error e, c')) :
    ∃ cause, (h.deposit.settle c.nextBlockContext).run c.ledger = (.error cause, c'.ledger) ∧
      c' = c.withLedger c'.ledger := by
  rcases hsettle : (h.deposit.settle c.nextBlockContext).run c.ledger with ⟨cause | r, l⟩
  · rw [run_nextBlock_of_error hsettle] at hrun
    cases hrun
    exact ⟨cause, rfl, rfl⟩
  · obtain ⟨executions, c'', hok⟩ := run_nextBlock_of_ok hsettle
    rw [hok] at hrun
    cases hrun

/-- A block that was made has been settled. -/
theorem nextBlock_ok_inv {o : BlockOutcome} (hrun : (nextBlock h).run c = (.ok o, c')) :
    ∃ l, (h.deposit.settle c.nextBlockContext).run c.ledger = (.ok o.settlement, l) := by
  rcases hsettle : (h.deposit.settle c.nextBlockContext).run c.ledger with ⟨cause | r, l⟩
  · rw [run_nextBlock_of_error hsettle] at hrun
    cases hrun
  · obtain ⟨executions, c'', hok⟩ := run_nextBlock_of_ok hsettle
    rw [hok] at hrun
    cases hrun
    exact ⟨l, rfl⟩

/-! ### Aborted blocks -/

/-- From `c` on a block was aborted in step two and left `c'`: step one found
the dust `carried` and did `a`. -/
structure HalfSettled (h : Hooks) (c c' : Chain) (carried : Dec) (a : Accrual) : Prop where
  accrued : (h.deposit.accrue c.nextBlockContext).run c.ledger = (.ok a, c'.ledger)
  refused : ∃ e, (h.deposit.sweep c.nextBlockContext).run c'.ledger = (.error e, c'.ledger)
  found : c.ledger.dust = .ok carried
  left : c'.ledger.dust = .ok a.dust
  conserves : a.dust.raw + Dec.scale * (a.report c.nextBlockContext 0).transferred.toNat
    = carried.raw + a.perBlockYield.raw

/-- The block made in the place of a half settled one earns the same yield
again, on top of what was accrued before. -/
theorem HalfSettled.retry {carried : Dec} {a : Accrual} (hhalf : HalfSettled h c c' carried a)
    {later later' : Chain} {o : BlockOutcome} (hparams : later.ledger.params = c.ledger.params)
    (hdust : later.ledger.dust = c'.ledger.dust)
    (hrun : (nextBlock h).run later = (.ok o, later')) :
    o.settlement.perBlockYield = a.perBlockYield ∧
      o.settlement.dust.raw + Dec.scale * (o.settlement.transferred.toNat
          + (a.report c.nextBlockContext 0).transferred.toNat)
        = carried.raw + 2 * a.perBlockYield.raw := by
  obtain ⟨l, hsettle⟩ := nextBlock_ok_inv hrun
  have hyield : o.settlement.perBlockYield = a.perBlockYield := by
    -- both blocks read the same parameters
    obtain ⟨p, -, -, -, hp, hearned, -⟩ := Deposit.settle_ok_inv hsettle
    obtain ⟨p', -, -, -, hp', hearned', -⟩ := Deposit.accrue_ok_inv hhalf.accrued
    rw [hparams, hp', Except.ok.injEq] at hp
    subst hp
    exact Except.ok.inj (hearned.symm.trans hearned')
  obtain ⟨-, hsum⟩ := Deposit.settle_conserves hsettle (hdust.trans hhalf.left)
  have hfirst := hhalf.conserves
  rw [hyield] at hsum
  refine ⟨hyield, ?_⟩
  rw [Nat.mul_add]
  omega

/-- **What an aborted block leaves.**  Height, time, metrics, parameters and
groups are as they were.  Either nothing at all has changed, or step one was
done before step two failed: then the yield of the block has been accrued,
and a block made later on what is left earns the same yield once more. -/
theorem nextBlock_error (h : Hooks) (c c' : Chain) (e : HookError)
    (hrun : (nextBlock h).run c = (.error e, c')) :
    (c'.height = c.height ∧ c'.time = c.time ∧ c'.node.metrics = c.node.metrics ∧
      c'.ledger.params = c.ledger.params ∧ c'.ledger.groups = c.ledger.groups) ∧
    (c' = c ∨ ∃ carried a, HalfSettled h c c' carried a ∧
      ∀ later o later', later.ledger.params = c.ledger.params →
        later.ledger.dust = c'.ledger.dust → (nextBlock h).run later = (.ok o, later') →
        o.settlement.perBlockYield = a.perBlockYield ∧
          o.settlement.dust.raw + Dec.scale * (o.settlement.transferred.toNat
              + (a.report c.nextBlockContext 0).transferred.toNat)
            = carried.raw + 2 * a.perBlockYield.raw) := by
  obtain ⟨cause, hsettle, hleft⟩ := nextBlock_error_inv hrun
  have hframe : c'.height = c.height ∧ c'.time = c.time ∧ c'.node.metrics = c.node.metrics := by
    rw [hleft]
    exact ⟨rfl, rfl, rfl⟩
  obtain ⟨hheight, htime, hmetrics⟩ := hframe
  rcases Deposit.settle_error_inv hsettle with hsame | ⟨a, haccrue, hsweep⟩
  · -- step one failed, or had nothing done
    have hall : c' = c := by
      rw [hleft, hsame]
      rfl
    refine ⟨⟨hheight, htime, hmetrics, ?_, ?_⟩, Or.inl hall⟩
    · rw [hsame]
    · rw [hsame]
  · obtain ⟨hparams, hgroups⟩ := Deposit.accrue_ok_frame haccrue
    obtain ⟨p, carried, total, b, -, -, hfound, htotal, hpaid, hset⟩ :=
      Deposit.accrue_ok_inv haccrue
    have hpaid' : Deposit.Payment h.deposit.pools total c.ledger.bank
        (a.report c.nextBlockContext 0).transfer (a.report c.nextBlockContext 0).dust b := hpaid
    have hhalf : HalfSettled h c c' carried a := {
      accrued := haccrue
      refused := ⟨cause, hsweep⟩
      found := hfound
      left := Deposit.dust_of_setDust hset
      conserves := hpaid'.dust_add_transferred.trans (Deposit.raw_of_add_eq_ok htotal) }
    refine ⟨⟨hheight, htime, hmetrics, hparams, hgroups⟩, Or.inr ⟨carried, a, hhalf, ?_⟩⟩
    intro later o later' hlater hdust hok
    exact hhalf.retry hlater hdust hok

end Chain

namespace Scenario

/-! ### A block that loses its pool -/

/-- The hooks of the default configuration. -/
def hooks : Hooks where
  config := .default
  deposit := deposit
  registry := registry
  scanner := ⟨.default, rfl⟩

/-- Balances can be read, or not. -/
def setReadable (readable : Bool) (c : Chain) : Chain :=
  c.withLedger { c.ledger with bank := { c.ledger.bank with failingBalance := !readable } }

/-- The chain of the reference scenario, with balances that cannot be read. -/
def unreadable : Chain :=
  setReadable false <|
    (Chain.ofGenesis Chain.scenarioGenesis).toOption.getD ⟨⟨.empty, .zero⟩, 0, 0⟩

/-- What the aborted block has left. -/
def aborted : Chain := ((Chain.nextBlock hooks).run unreadable).2

end Scenario

open Scenario in
/-- The block is aborted in step two, and its yield has been accrued. -/
theorem Chain.nextBlock_error_unreadable :
    ∃ e, (Chain.nextBlock hooks).run unreadable = (.error e, aborted) ∧
      aborted.height = unreadable.height ∧ aborted.ledger.params = unreadable.ledger.params ∧
      ∃ carried a, Chain.HalfSettled hooks unreadable aborted carried a := by
  have hfailed : ((Chain.nextBlock hooks).run unreadable).1.map (·.settlement)
      = .error (.deposit (.bank (.unavailable "injected balance failure"))) := by
    decide +kernel
  have hmoved : aborted.ledger.dust ≠ unreadable.ledger.dust := by
    decide +kernel
  rcases hrun : (Chain.nextBlock hooks).run unreadable with ⟨e | o, c'⟩
  · have hc' : c' = aborted := by
      rw [aborted, hrun]
    subst hc'
    obtain ⟨⟨hheight, -, -, hparams, -⟩, hsame | ⟨carried, a, hhalf, -⟩⟩ :=
      Chain.nextBlock_error hooks unreadable aborted e hrun
    · exact absurd (congrArg (·.ledger.dust) hsame) hmoved
    · exact ⟨e, rfl, hheight, hparams, carried, a, hhalf⟩
  · rw [hrun] at hfailed
    cases hfailed

open Scenario in
/-- The aborted block has moved the dust, and made again it moves it again. -/
theorem Chain.nextBlock_error_moves_dust :
    ((Chain.nextBlock hooks).run unreadable).1.map (·.settlement)
        = .error (.deposit (.bank (.unavailable "injected balance failure"))) ∧
      unreadable.ledger.dust = .ok Dec.zero ∧
      aborted.ledger.dust = .ok ⟨23766065860521713, by decide⟩ ∧
      ((Chain.nextBlock hooks).run (setReadable true aborted)).2.ledger.dust
        = .ok ⟨2 * 23766065860521713, by decide⟩ := by
  decide +kernel

end BlockHooks
