/-
BlockHooks/Sandbox/Basic.lean

A ledger under observation.

A sandbox is a ledger whose store, bank and book of groups keep a journal:
every call that a hook makes to one of them is written down, in one order
for all three, before it is made.  Log records are kept as well.

Single calls can be made to fail.  `arm` names calls by how many calls to
that collaborator come before them; such a call is written down as failed
and does not reach the ledger.
-/
import BlockHooks.Ledger

namespace BlockHooks

/-- What hooks call. -/
inductive Collaborator where
  | store
  | bank
  | groups
  deriving DecidableEq, Repr

/-- A call, or a step of an admission. -/
inductive Call where
  | storeGet (key : Bytes)
  | storeSet (key value : Bytes)
  | storeDelete (key : Bytes)
  | storeScan (front : Bytes)
  | balance (address : Address)
  | send (sender receiver : Address) (amount : UInt64)
  | proposal (id : UInt64)
  | groups (request : PageRequest)
  | policies (groupId : UInt64) (request : PageRequest)
  | proposals (policy : Address) (request : PageRequest)
  | exec (request : ExecRequest)
  /-- The whitelist was asked about an operator. -/
  | whitelist (operator : Address)
  /-- A stage told where it is. -/
  | stage (note : String)
  deriving DecidableEq, Repr

/-- A call as a line of the journal: its name and what it is about. -/
def Call.text : Call → String
  | .storeGet key => s!"store.get {lossyText key}"
  | .storeSet key value => s!"store.set {lossyText key} {hexText value}"
  | .storeDelete key => s!"store.delete {lossyText key}"
  | .storeScan front => s!"store.prefix {lossyText front}"
  | .balance a => s!"bank.balance {a.text}"
  | .send sender receiver amount => s!"bank.send {sender.text} {receiver.text} {amount}"
  | .proposal id => s!"groups.proposal {id}"
  | .groups r => s!"groups.groups {r.offset} {r.limit}"
  | .policies groupId r => s!"groups.policies {groupId} {r.offset} {r.limit}"
  | .proposals policy r => s!"groups.proposals {policy.text} {r.offset} {r.limit}"
  | .exec r => s!"groups.exec {r.proposalId} {r.executor.text}"
  | .whitelist operator => s!"whitelist {operator.text}"
  | .stage note => note

/-- A call as it was written down. -/
structure JournalEntry where
  call : Call
  /-- The call was made to fail. -/
  failed : Bool
  deriving DecidableEq, Repr

/-- An entry as a line; a call that was made to fail is marked. -/
def JournalEntry.text (e : JournalEntry) : String :=
  if e.failed then e.call.text ++ " !" else e.call.text

/-- The calls to one collaborator, and those among them that are to fail. -/
structure FaultPlan where
  /-- The number of calls so far. -/
  made : Nat
  /-- The numbers of the calls that fail. -/
  armed : List Nat
  deriving DecidableEq, Repr

/-- No calls yet, none to fail. -/
def FaultPlan.start : FaultPlan := ⟨0, []⟩

/-- A ledger, what was written down of it, and which calls are to fail. -/
structure Sandbox where
  ledger : Ledger
  /-- What was called, latest first. -/
  journal : List JournalEntry
  /-- What was logged, latest first. -/
  records : List LogRecord
  storePlan : FaultPlan
  bankPlan : FaultPlan
  groupPlan : FaultPlan

namespace Sandbox

/-- An empty ledger, nothing written down. -/
def empty : Sandbox := ⟨.empty, [], [], .start, .start, .start⟩

instance : Inhabited Sandbox := ⟨empty⟩

variable {ε α : Type}

/-! ### The journal -/

/-- The calls in the order they were made. -/
def calls (s : Sandbox) : List JournalEntry := s.journal.reverse

/-- The log records in the order they were written. -/
def logs (s : Sandbox) : List LogRecord := s.records.reverse

/-- Forgets what was written down. -/
def forget (s : Sandbox) : Sandbox := { s with journal := [], records := [] }

/-- Writes a call down. -/
def write (call : Call) (failed : Bool) (s : Sandbox) : Sandbox :=
  { s with journal := ⟨call, failed⟩ :: s.journal }

/-- Writes down a call that cannot be made to fail. -/
def note (call : Call) : Action Sandbox ε Unit := .update (write call false)

/-! ### Faults -/

/-- The plan for a collaborator. -/
def plan (s : Sandbox) : Collaborator → FaultPlan
  | .store => s.storePlan
  | .bank => s.bankPlan
  | .groups => s.groupPlan

/-- Replaces the plan for a collaborator. -/
def setPlan (s : Sandbox) (c : Collaborator) (p : FaultPlan) : Sandbox :=
  match c with
  | .store => { s with storePlan := p }
  | .bank => { s with bankPlan := p }
  | .groups => { s with groupPlan := p }

/-- Makes the `k`-th call from now on fail, for each `k` given. -/
def arm (s : Sandbox) (c : Collaborator) (ks : List Nat) : Sandbox :=
  let p := s.plan c
  s.setPlan c { p with armed := p.armed ++ ks.map (p.made + ·) }

/-- Writes a call down and makes it, unless it is to fail. -/
def observed (c : Collaborator) (call : Call) (fault : ε) (x : Action Ledger ε α) :
    Action Sandbox ε α :=
  .ofRun fun s =>
    let p := s.plan c
    let number := p.made + 1
    let s := s.setPlan c { p with made := number }
    if p.armed.contains number then (.error fault, s.write call true)
    else
      let r := x.run s.ledger
      (r.1, { s.write call false with ledger := r.2 })

/-- Why a call that was made to fail has failed. -/
def injected : String := "injected call failure"

/-- `observed` for the store. -/
def observedStore (call : Call) (x : Action Ledger StoreError α) : Action Sandbox StoreError α :=
  observed .store call (.backend injected) x

/-- `observed` for the bank. -/
def observedBank (call : Call) (x : Action Ledger BankError α) : Action Sandbox BankError α :=
  observed .bank call (.unavailable injected) x

/-- `observed` for the book of groups. -/
def observedGroups (call : Call) (x : Action Ledger GroupError α) :
    Action Sandbox GroupError α :=
  observed .groups call (.unavailable injected) x

/-! ### A sandbox as collaborator -/

instance : KvStore Sandbox where
  get key := observedStore (.storeGet key) (KvStore.get key)
  set key value := observedStore (.storeSet key value) (KvStore.set key value)
  delete key := observedStore (.storeDelete key) (KvStore.delete key)
  scan front := observedStore (.storeScan front) (KvStore.scan front)

instance : Bank Sandbox where
  balance a := observedBank (.balance a) (Bank.balance a)
  send sender receiver amount :=
    observedBank (.send sender receiver amount) (Bank.send sender receiver amount)

instance : GroupKeeper Sandbox where
  proposal id := observedGroups (.proposal id) (GroupKeeper.proposal id)
  groups request := observedGroups (.groups request) (GroupKeeper.groups request)
  policies groupId request :=
    observedGroups (.policies groupId request) (GroupKeeper.policies groupId request)
  proposals policy request :=
    observedGroups (.proposals policy request) (GroupKeeper.proposals policy request)
  exec block call := observedGroups (.exec call) (GroupKeeper.exec block call)

instance : LogSink Sandbox where
  write record s := { s with records := record :: s.records }

/-- A whitelist of the given operators that writes down what it is asked. -/
def whitelist (operators : List Address) (operator : Address) : StateM Sandbox Bool := fun s =>
  (operators.contains operator, s.write (.whitelist operator) false)

/-- Acts on the ledger behind the journal's back. -/
def onLedger (f : Ledger → Ledger) (s : Sandbox) : Sandbox := { s with ledger := f s.ledger }

end Sandbox

end BlockHooks
