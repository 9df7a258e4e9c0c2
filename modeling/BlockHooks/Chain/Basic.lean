/-
BlockHooks/Chain/Basic.lean

A chain without consensus.

Each block is the next height, five seconds after the block before it: first
the settlement, then the scan for due proposals.  A block whose settlement
fails is not committed: height and time stay what they were.  Transactions
are admitted as of the next block, by hosts that let everything through.

The reference scenario deposits a million units at fifteen percent a year,
and has one group with one policy.
-/
import BlockHooks.Hooks.Basic
import BlockHooks.Ledger

namespace BlockHooks

/-- A chain between two blocks. -/
structure Chain where
  node : Node Ledger
  /-- The height of the last block; zero before the first. -/
  height : UInt64
  /-- The time of the last block. -/
  time : Int64

/-- What both hooks of a block reported. -/
structure BlockOutcome where
  settlement : SettlementReport
  executions : ScanReport

namespace Chain

/-- The time from one block to the next. -/
def secondsPerBlock : Int64 := 5

/-- The time of the genesis, in seconds since 1970. -/
def genesisTime : Int64 := 1700000000

/-- The term of a validator that was onboarded, in seconds. -/
def termSeconds : Int64 := 31536000

/-- The group of the reference scenario. -/
def groupId : UInt64 := 1

/-- Who administers the group. -/
def admin : Address := ⟨"verana1admin"⟩

/-- The group's policy. -/
def policy : Address := ⟨"verana1policy"⟩

/-- A million units at fifteen percent a year. -/
def scenarioParams : Params where
  trustDepositValue := 1000000
  yieldRate := (Dec.ofRatio 15 100).toOption.getD Dec.zero
  blocksPerYear := 6311520

/-- The genesis of the reference scenario: no dust and no validators. -/
def scenarioGenesis : HookGenesis where
  deposit := ⟨scenarioParams, Dec.zero⟩
  registry := .default

/-- The book of groups that a chain starts with. -/
def initialGroups : MemGroups := (MemGroups.empty.addGroup groupId admin).addPolicy groupId policy

/-- A chain that starts from a genesis. -/
def ofGenesis (g : HookGenesis) : Except HookError Chain :=
  match (Hooks.initGenesis g).run ({ Ledger.empty with groups := initialGroups } : Ledger) with
  | (.ok (), ledger) => .ok ⟨⟨ledger, .zero⟩, 0, genesisTime⟩
  | (.error e, _) => .error e

/-- The state that the hooks act on. -/
def ledger (c : Chain) : Ledger := c.node.world

variable {ε α : Type}

/-- Acts on the node and leaves height and time alone. -/
def onNode (x : Action (Node Ledger) ε α) : Action Chain ε α :=
  x.onPart node fun n c => { c with node := n }

/-- Acts on the ledger and leaves metrics, height and time alone. -/
def onLedger (x : Action Ledger ε α) : Action Chain ε α := onNode (Node.onWorld x)

/-- Height and time of the next block. -/
def nextBlockContext (c : Chain) : BlockContext :=
  ⟨addCapped c.height 1, addSignedCapped c.time secondsPerBlock⟩

/-- Makes a block. -/
def nextBlock (h : Hooks) : Action Chain HookError BlockOutcome := do
  let block ← .read nextBlockContext
  let settlement ← onNode (h.beginBlock block)
  let executions ← onNode (.ofState (h.endBlock block))
  .update fun c => { c with height := block.height, time := block.time }
  return ⟨settlement, executions⟩

/-- Makes `count` blocks, or as many as can be made. -/
def advance (h : Hooks) : Nat → Action Chain HookError (List BlockOutcome)
  | 0 => return []
  | count + 1 => do
    let outcome ← nextBlock h
    return outcome :: (← advance h count)

/-- Lets time pass without blocks. -/
def skipTime (c : Chain) (seconds : Int64) : Chain :=
  { c with time := addSignedCapped c.time seconds }

/-- Admits a transaction as of the next block. -/
def checkTx (tx : Tx) : Action Chain AdmissionError TxContext := do
  let block ← .read nextBlockContext
  onNode (Hooks.checkTx .permissive (.initial block .deliver) tx false)

/-- The dust, or zero if it cannot be read. -/
def dust (c : Chain) : Dec := (Deposit.dust.run c.ledger).1.toOption.getD Dec.zero

/-- Adds a proposal whose voting ends `window` seconds after the last block,
and answers that time. -/
def submitProposal (id : UInt64) (status : ProposalStatus) (window : Int64) :
    Action Chain ε Int64 := do
  let votingPeriodEnd := addSignedCapped (← .read Chain.time) window
  onLedger <| Ledger.onGroups <| .update fun g =>
    g.addProposal ⟨id, policy, status, votingPeriodEnd, .notRun⟩
  return votingPeriodEnd

/-- The result of a proposal that is there. -/
def executorResult? (c : Chain) (id : UInt64) : Option ExecutorResult :=
  (c.ledger.groups.proposalTable.get? id).map Proposal.result

/-- Registers an operator on behalf of the policy. -/
def onboard (h : Hooks) (memberId operator : String) : Action Chain HookError Unit := do
  let now ← .read Chain.time
  let _ ← onLedger <| (h.registry.onboard {
    creator := policy
    memberId := memberId
    operator := ⟨operator⟩
    nodePubkey := memberId ++ "-pubkey"
    termEnd := addSignedCapped now termSeconds }).mapError .registry
  return ()

end Chain

end BlockHooks
