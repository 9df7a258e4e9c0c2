/-
BlockHooks/Store/Encoding.lean

Values as they stand in the store.

A stored value is one byte that tells its kind, its discriminator, followed
by its binary form.  A value read under another discriminator is refused, so
that bytes are never taken for something they were not written as.
-/
import BlockHooks.Codec

namespace BlockHooks

/-- Why a store does not answer, or why what it answers is not the value asked for. -/
inductive StoreError where
  | notFound (key : String)
  | emptyValue (key : String)
  | invalidDiscriminator (key : String) (expected found : UInt8)
  | codec (key : String) (cause : CodecError)
  | backend (reason : String)
  deriving DecidableEq, Repr

/-- How an error of the store is told, with the key as text. -/
def StoreError.message : StoreError → String
  | .notFound key => s!"no value stored under key {key}"
  | .emptyValue key => s!"value under key {key} is empty"
  | .invalidDiscriminator key expected found =>
    s!"value under key {key} has discriminator {found}, expected {expected}"
  | .codec key cause =>
    s!"failed to encode or decode value under key {key}: {cause.message}"
  | .backend reason => s!"storage backend failure: {reason}"

namespace Stored

variable {α : Type} [Codec α]

/-- `v` behind its discriminator. -/
def encode (key : Bytes) (discriminator : UInt8) (v : α) : Except StoreError Bytes :=
  match Codec.encode v with
  | .ok bs => .ok (discriminator :: bs)
  | .error e => .error (.codec (lossyText key) e)

/-- Reads a value written behind `discriminator`. -/
def decode (key : Bytes) (discriminator : UInt8) : Bytes → Except StoreError α
  | [] => .error (.emptyValue (lossyText key))
  | found :: body =>
    if found = discriminator then (Codec.decode body).mapError (.codec (lossyText key))
    else .error (.invalidDiscriminator (lossyText key) discriminator found)

end Stored

end BlockHooks
