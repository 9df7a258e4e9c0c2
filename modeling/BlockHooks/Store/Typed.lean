/-
BlockHooks/Store/Typed.lean

Typed places in a store.

An `Item` is one value under a fixed key.  A `Collection` holds the values
under all keys that begin with its own bytes, the rest of a key being a
text; its entries come in ascending order of the keys' bytes.  Both keep
their values behind a discriminator.
-/
import BlockHooks.Store.Basic

namespace BlockHooks

/-- One value of type `α` under a fixed key. -/
structure Item (α : Type) where
  key : Bytes
  discriminator : UInt8

/-- Values of type `α` under the keys that begin with `base`. -/
structure Collection (α : Type) where
  base : Bytes
  discriminator : UInt8

section

variable {σ α : Type} [KvStore σ] [Codec α]

namespace Item

/-- The value, if one is there; bytes that are not its form are an error. -/
def load? (item : Item α) : Action σ StoreError (Option α) := do
  match ← KvStore.get item.key with
  | none => return none
  | some bs => return some (← .ofExcept (Stored.decode item.key item.discriminator bs))

/-- The value, which must be there. -/
def load (item : Item α) : Action σ StoreError α := do
  match ← item.load? with
  | some v => return v
  | none => throw (.notFound (lossyText item.key))

/-- Writes the value; if it has no form nothing is written. -/
def save (item : Item α) (v : α) : Action σ StoreError Unit := do
  let bs ← .ofExcept (Stored.encode item.key item.discriminator v)
  KvStore.set item.key bs

/-- Removes whatever is there. -/
def remove (item : Item α) : Action σ StoreError Unit := KvStore.delete item.key

end Item

namespace Collection

/-- The store's key for the key `k` of the collection. -/
def fullKey (c : Collection α) (k : String) : Bytes := c.base ++ utf8 k

/-- Tells whether anything is stored for `k`, be it a value or not. -/
def has (c : Collection α) (k : String) : Action σ StoreError Bool := KvStore.has (c.fullKey k)

/-- The value for `k`, if one is there. -/
def load? (c : Collection α) (k : String) : Action σ StoreError (Option α) :=
  Item.load? ⟨c.fullKey k, c.discriminator⟩

/-- The value for `k`, which must be there. -/
def load (c : Collection α) (k : String) : Action σ StoreError α :=
  Item.load ⟨c.fullKey k, c.discriminator⟩

/-- Writes the value for `k`. -/
def save (c : Collection α) (k : String) (v : α) : Action σ StoreError Unit :=
  Item.save ⟨c.fullKey k, c.discriminator⟩ v

/-- Removes whatever is stored for `k`. -/
def remove (c : Collection α) (k : String) : Action σ StoreError Unit :=
  KvStore.delete (c.fullKey k)

/-- A stored entry with its key as text, without the collection's own bytes. -/
def decodeEntry (c : Collection α) (e : Bytes × Bytes) : Except StoreError (String × α) := do
  let v ← Stored.decode e.1 c.discriminator e.2
  return (lossyText (e.1.drop c.base.length), v)

/-- The entries of the collection; the first that cannot be read decides the error. -/
def entries (c : Collection α) : Action σ StoreError (List (String × α)) := do
  let raw ← KvStore.scan c.base
  .ofExcept (raw.mapM c.decodeEntry)

end Collection

end

end BlockHooks
