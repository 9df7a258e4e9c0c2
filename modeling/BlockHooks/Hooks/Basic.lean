/-
BlockHooks/Hooks/Basic.lean

The hooks of a ledger as one object.

A host calls three hooks: one admits transactions, one settles at the
beginning of a block and one executes due proposals at its end.  Beside them
stand the import and the export of a genesis.  Everything they touch is in
the state; the hooks themselves only know their configuration.

The metrics are kept beside the state that the hooks act on (`Node`), and
only after the fact: a settlement that fails leaves them as they are.
-/
import BlockHooks.Admission.Handler
import BlockHooks.Deposit.Messages
import BlockHooks.Deposit.Settlement
import BlockHooks.Hooks.Genesis
import BlockHooks.Metrics.Basic
import BlockHooks.Scan.Run

namespace BlockHooks

/-- A state together with the metrics of the hooks that act on it. -/
structure Node (σ : Type) where
  world : σ
  metrics : HookMetrics

namespace Node

variable {σ ε α : Type}

/-- Acts on the state and leaves the metrics alone. -/
def onWorld (x : Action σ ε α) : Action (Node σ) ε α :=
  x.onPart world fun s n => { n with world := s }

/-- Updates the metrics. -/
def count (f : HookMetrics → HookMetrics) : Action (Node σ) ε Unit :=
  .update fun n => { n with metrics := f n.metrics }

end Node

/-! ### Metrics of the hooks -/

namespace HookMetrics

/-- Counts a transaction as admitted, or as rejected under its code. -/
def recordAdmission {α : Type} (result : Except AdmissionError α) (m : HookMetrics) :
    HookMetrics :=
  match result with
  | .ok _ => m.add .txAdmitted 1
  | .error e => m.reject e.code.number

/-- The raw value of a billionth of a unit. -/
def nanoUnit : Nat := 1000000000

/-- The dust gauge counts billionths of a unit. -/
def dustGauge (d : Dec) : Int64 := gaugeValue (d.raw / nanoUnit)

/-- Adds up what settlements moved; height and dust are those of the last one. -/
def recordSettlement (r : SettlementReport) (m : HookMetrics) : HookMetrics :=
  { m with
    settlementHeight := gaugeValue r.height.toNat
    yieldTransferred := m.yieldTransferred + r.transferred
    yieldDeferredBlocks := m.yieldDeferredBlocks + (if r.isDeferred then 1 else 0)
    yieldPoolSwept := m.yieldPoolSwept + r.swept
    dustNanoUnits := dustGauge r.dust }

/-- Adds up what scans executed and left out; the number of proposals visited is
that of the last one. -/
def recordScan (r : ScanReport) (m : HookMetrics) : HookMetrics :=
  { m with
    proposalsScanned := gaugeValue r.scanned
    proposalsExecuted := m.proposalsExecuted + UInt64.ofNat r.succeeded
    proposalsFailed := m.proposalsFailed + UInt64.ofNat r.failed
    proposalsDeferred := m.proposalsDeferred + UInt64.ofNat r.deferred
    proposalListingFailures :=
      m.proposalListingFailures + UInt64.ofNat r.listingFailures.length }

end HookMetrics

/-! ### The hooks -/

/-- The stages of the admission that the host brings. -/
structure HostStages (σ : Type) where
  setupContext : Stage σ
  validateBasic : Stage σ
  deductFee : Stage σ
  incrementSequence : Stage σ

/-- Stages that let everything through. -/
def HostStages.permissive {σ : Type} : HostStages σ :=
  ⟨Stage.passThrough, Stage.passThrough, Stage.passThrough, Stage.passThrough⟩

/-- A configuration, and the parts that the hooks are made of under it. -/
structure Hooks where
  config : HookConfig
  deposit : Deposit
  registry : Registry
  scanner : Scanner

namespace Hooks

/-- The three pools that a configuration names. -/
def poolsOf (c : HookConfig) : Pools :=
  ⟨.ofName c.yieldPool, .ofName c.trustDeposit, .ofName c.communityPool⟩

/-- The hooks with a valid configuration. -/
def ofConfig (c : HookConfig) : Except HookError Hooks := do
  c.validate
  let scanner ← (Scanner.ofConfig c.scan).mapError HookError.scan
  return ⟨c, ⟨c.authority, poolsOf c⟩, ⟨c.operatorPrefix⟩, scanner⟩

variable {σ : Type} [KvStore σ] [Bank σ] [GroupKeeper σ] [LogSink σ]

/-- `ofConfig`, and a log record of what was configured. -/
def configure (c : HookConfig) : Action σ HookError Hooks := do
  let hooks ← Action.ofExcept (ofConfig c)
  log .info (s!"app: hooks configured (authority {c.authority.text}, valoper prefix "
    ++ s!"{c.operatorPrefix}, page limit {c.scan.pageLimit})")
  return hooks

/-- Admits a transaction or turns it away.  Operators are looked up in the
registry, proposals in the book of groups. -/
def checkTx (host : HostStages σ) (context : TxContext) (tx : Tx) (simulate : Bool) :
    Action (Node σ) AdmissionError TxContext := do
  let handler ← .ofExcept <| Handler.ofParts {
    setupContext := some host.setupContext
    validateBasic := some host.validateBasic
    groupKeeper := some GroupKeeper.proposal
    validatorWhitelist := some Registry.admits
    deductFee := some host.deductFee
    incrementSequence := some host.incrementSequence }
  let result ← .ofState (Node.onWorld (handler.handle context tx simulate)).outcome
  Node.count (HookMetrics.recordAdmission result)
  .ofExcept result

/-- Settles at the beginning of a block; an error aborts the block. -/
def beginBlock (h : Hooks) (block : BlockContext) :
    Action (Node σ) HookError SettlementReport := do
  let report ← Node.onWorld ((h.deposit.settle block).mapError .deposit)
  Node.count (HookMetrics.recordSettlement report)
  return report

/-- Executes due proposals at the end of a block; this never fails. -/
def endBlock (h : Hooks) (block : BlockContext) : StateM (Node σ) ScanReport := fun n =>
  let (report, world) := h.scanner.run block n.world
  (report, { world := world, metrics := n.metrics.recordScan report })

/-- Writes a valid genesis into the store. -/
def initGenesis (g : HookGenesis) : Action σ HookError Unit := do
  Action.ofExcept g.validate
  (Deposit.initGenesis g.deposit).mapError .deposit
  (Registry.initGenesis g.registry).mapError .registry
  log .info s!"app: genesis initialised with {g.registry.validators.length} validators"

/-- What the store holds, as a genesis. -/
def exportGenesis : Action σ HookError HookGenesis := do
  let deposit ← Deposit.exportGenesis.mapError .deposit
  let registry ← Registry.exportGenesis.mapError .registry
  return ⟨deposit, registry⟩

end Hooks

end BlockHooks
