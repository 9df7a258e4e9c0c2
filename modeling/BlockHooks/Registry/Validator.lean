/-
BlockHooks/Registry/Validator.lean

Validator records and what can go wrong with them.
-/
import BlockHooks.Codec
import BlockHooks.Store.Encoding

namespace BlockHooks

/-- What is known of a validator. -/
structure Validator where
  /-- The key of the record in the registry. -/
  index : String
  memberId : String
  operator : Address
  consensusPubkey : String
  status : String
  termEnd : Int64
  deriving DecidableEq, Repr

/-- The status of a validator that was just admitted. -/
def Validator.activeStatus : String := "active"

instance : Codec Validator where
  encode v := do
    let index ← Codec.encode v.index
    let memberId ← Codec.encode v.memberId
    let operator ← Codec.encode v.operator
    let pubkey ← Codec.encode v.consensusPubkey
    let status ← Codec.encode v.status
    let termEnd ← Codec.encode v.termEnd
    return index ++ memberId ++ operator ++ pubkey ++ status ++ termEnd
  decodePart bs := do
    let (index, bs) ← Codec.decodePart bs
    let (memberId, bs) ← Codec.decodePart bs
    let (operator, bs) ← Codec.decodePart bs
    let (pubkey, bs) ← Codec.decodePart bs
    let (status, bs) ← Codec.decodePart bs
    let (termEnd, bs) ← Codec.decodePart bs
    return (⟨index, memberId, operator, pubkey, status, termEnd⟩, bs)

/-- Why the registry turns a request away or does not answer. -/
inductive RegistryError where
  | invalidCreator (cause : AddressError)
  | emptyMemberId
  | alreadyExists (index : String)
  | emptyOperatorAddress
  | invalidOperatorAddress (address : Address) (cause : AddressError)
  | notFound (index : String)
  | duplicateIndex (index : String)
  | invalidPage
  | store (cause : StoreError)
  deriving DecidableEq, Repr

/-- How an error of the registry is told, with the words of its cause. -/
def RegistryError.message : RegistryError → String
  | .invalidCreator cause => s!"invalid creator address: {cause.message}"
  | .emptyMemberId => "member id cannot be empty"
  | .alreadyExists index => s!"validator with index {index} already exists"
  | .emptyOperatorAddress => "operator address cannot be empty"
  | .invalidOperatorAddress address cause =>
    s!"invalid operator address format {address.text}: {cause.message}"
  | .notFound index => s!"validator {index} not found"
  | .duplicateIndex index => s!"duplicated index {index} for validator"
  | .invalidPage => "page limit must be greater than zero"
  | .store cause => s!"store error: {cause.message}"

end BlockHooks
