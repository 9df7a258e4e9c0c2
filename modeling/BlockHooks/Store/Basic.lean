/-
BlockHooks/Store/Basic.lean

Key-value stores.

`KvStore σ` is what the hooks ask of a store kept in states `σ`: reading,
writing and removing the bytes under a key, and the entries whose key begins
with given bytes, in ascending order of the keys.

`MemStore` is the store in memory: a table of byte sequences, with a switch
that makes every operation fail.
-/
import BlockHooks.Action
import BlockHooks.Store.Encoding
import BlockHooks.Table

namespace BlockHooks

/-- A store kept in states `σ`, as far as the hooks use it. -/
class KvStore (σ : Type) where
  get : Bytes → Action σ StoreError (Option Bytes)
  set : Bytes → Bytes → Action σ StoreError Unit
  delete : Bytes → Action σ StoreError Unit
  /-- The entries whose key begins with the given bytes, in ascending order. -/
  scan : Bytes → Action σ StoreError (List (Bytes × Bytes))

/-- Tells whether a key is bound. -/
def KvStore.has {σ : Type} [KvStore σ] (key : Bytes) : Action σ StoreError Bool := do
  return (← KvStore.get key).isSome

/-- A store in memory. -/
structure MemStore where
  entries : Table Bytes Bytes
  /-- Every operation fails while this is set. -/
  failing : Bool

namespace MemStore

/-- The store without entries. -/
def empty : MemStore := ⟨Table.empty, false⟩

instance : Inhabited MemStore := ⟨empty⟩

/-- Runs `x` unless the store is failing. -/
def guarded {α : Type} (x : Action MemStore StoreError α) : Action MemStore StoreError α :=
  Action.ofRun fun s =>
    if s.failing then (.error (.backend "injected store failure"), s) else x.run s

/-- The entries whose key begins with `front`: the walk from the first key
not below `front` on, as long as keys begin with it. -/
def entriesUnder (s : MemStore) (front : Bytes) : List (Bytes × Bytes) :=
  s.entries.walkFrom front fun key => front.isPrefixOf key

instance : KvStore MemStore where
  get key := guarded (.read fun s => s.entries.get? key)
  set key value := guarded (.update fun s => { s with entries := s.entries.insert key value })
  delete key := guarded (.update fun s => { s with entries := s.entries.erase key })
  scan front := guarded (.read fun s => s.entriesUnder front)

/-- Runs on a failing store change nothing. -/
@[simp] theorem run_guarded_failing {α : Type} {x : Action MemStore StoreError α}
    {s : MemStore} (h : s.failing = true) :
    (guarded x).run s = (.error (.backend "injected store failure"), s) := by
  simp [guarded, h]

@[simp] theorem run_guarded {α : Type} {x : Action MemStore StoreError α}
    {s : MemStore} (h : s.failing = false) : (guarded x).run s = x.run s := by
  simp [guarded, h]

end MemStore

end BlockHooks
