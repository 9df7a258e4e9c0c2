/-
BlockHooks/Registry/Json.lean

The JSON forms of validator records and of the registry's genesis.  All
fields of a record must be there; the list of records may be left out.
-/
import BlockHooks.Json.Basic
import BlockHooks.Registry.Genesis

namespace BlockHooks

open Json

/-- A record as far as it was read. -/
structure Validator.Draft where
  index : Option String
  memberId : Option String
  operator : Option Address
  consensusPubkey : Option String
  status : Option String
  termEnd : Option Int64

/-- Six fields, none of which may be left out. -/
def Validator.shape : RecordShape Validator.Draft Validator where
  name := "Validator"
  start := ⟨none, none, none, none, none, none⟩
  fields := [
    .of "index" (·.index) fun a d => { d with index := some a },
    .of "member_id" (·.memberId) fun a d => { d with memberId := some a },
    .of "operator_address" (·.operator) fun a d => { d with operator := some a },
    .of "consensus_pubkey" (·.consensusPubkey) fun a d => { d with consensusPubkey := some a },
    .of "status" (·.status) fun a d => { d with status := some a },
    .of "term_end" (·.termEnd) fun a d => { d with termEnd := some a }]
  complete d := do
    let index ← required "index" d.index
    let memberId ← required "member_id" d.memberId
    let operator ← required "operator_address" d.operator
    let pubkey ← required "consensus_pubkey" d.consensusPubkey
    let status ← required "status" d.status
    let termEnd ← required "term_end" d.termEnd
    return ⟨index, memberId, operator, pubkey, status, termEnd⟩

instance : Readable Validator := ⟨Validator.shape.read⟩

instance : Writable Validator where
  chars v := objectChars [
    member "index" v.index,
    member "member_id" v.memberId,
    member "operator_address" v.operator,
    member "consensus_pubkey" v.consensusPubkey,
    member "status" v.status,
    member "term_end" v.termEnd]

/-- The registry's genesis as far as it was read. -/
structure RegistryGenesis.Draft where
  validators : Option (List Validator)

/-- The list of records, which is empty if it is left out. -/
def RegistryGenesis.shape : RecordShape RegistryGenesis.Draft RegistryGenesis where
  name := "GenesisState"
  start := ⟨none⟩
  fields := [.of "validators" (·.validators) fun a _ => ⟨some a⟩]
  complete d := .ok ⟨d.validators.getD []⟩

instance : Readable RegistryGenesis := ⟨RegistryGenesis.shape.read⟩

instance : Writable RegistryGenesis where
  chars g := objectChars [member "validators" g.validators]

end BlockHooks
