/-
BlockHooks/Ledger.lean

A store, a bank and a book of groups in memory, as one state.

Every operation of a part acts on that part alone and leaves the others as
they are.  Log records are dropped.
-/
import BlockHooks.Bank
import BlockHooks.Group.Keeper
import BlockHooks.Log
import BlockHooks.Store.Basic

namespace BlockHooks

/-- Everything that the hooks act on, in memory. -/
structure Ledger where
  store : MemStore
  bank : MemBank
  groups : MemGroups

namespace Ledger

/-- Nothing stored, no accounts, no groups. -/
def empty : Ledger := ⟨.empty, .empty, .empty⟩

instance : Inhabited Ledger := ⟨empty⟩

variable {ε α : Type}

/-- Acts on the store alone. -/
def onStore (x : Action MemStore ε α) : Action Ledger ε α :=
  x.onPart store fun s l => { l with store := s }

/-- Acts on the bank alone. -/
def onBank (x : Action MemBank ε α) : Action Ledger ε α :=
  x.onPart bank fun b l => { l with bank := b }

/-- Acts on the book of groups alone. -/
def onGroups (x : Action MemGroups ε α) : Action Ledger ε α :=
  x.onPart groups fun g l => { l with groups := g }

instance : KvStore Ledger where
  get key := onStore (KvStore.get key)
  set key value := onStore (KvStore.set key value)
  delete key := onStore (KvStore.delete key)
  scan front := onStore (KvStore.scan front)

instance : Bank Ledger where
  balance a := onBank (Bank.balance a)
  send sender receiver amount := onBank (Bank.send sender receiver amount)

instance : GroupKeeper Ledger where
  proposal id := onGroups (GroupKeeper.proposal id)
  groups request := onGroups (GroupKeeper.groups request)
  policies groupId request := onGroups (GroupKeeper.policies groupId request)
  proposals policy request := onGroups (GroupKeeper.proposals policy request)
  exec block call := onGroups (GroupKeeper.exec block call)

instance : LogSink Ledger where
  write _ l := l

end Ledger

end BlockHooks
