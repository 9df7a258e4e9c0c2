/-
BlockHooks/Registry/Genesis.lean

The registry's share of a genesis: a list of records, no two of which may
have the same index.
-/
import BlockHooks.Registry.Basic

namespace BlockHooks

/-- The records to start from, in any order. -/
structure RegistryGenesis where
  validators : List Validator
  deriving DecidableEq, Repr

/-- No records. -/
def RegistryGenesis.default : RegistryGenesis := ⟨[]⟩

instance : Inhabited RegistryGenesis := ⟨.default⟩

/-- The first text in a list that occurs earlier in it, given the texts
that came before. -/
def firstRepeated (seen : List String) : List String → Option String
  | [] => none
  | s :: ss => if seen.contains s then some s else firstRepeated (s :: seen) ss

/-- No two records may have the same index.  Nothing else is asked of a record,
not even what onboarding asks of an operator. -/
def RegistryGenesis.validate (g : RegistryGenesis) : Except RegistryError Unit :=
  match firstRepeated [] (g.validators.map Validator.index) with
  | some index => .error (.duplicateIndex index)
  | none => .ok ()

namespace Registry

variable {σ : Type} [KvStore σ]

/-- Stores records one after the other. -/
def setValidators : List Validator → Action σ RegistryError Unit
  | [] => pure ()
  | v :: vs => do
    setValidator v
    setValidators vs

/-- Writes a valid genesis into the store. -/
def initGenesis (g : RegistryGenesis) : Action σ RegistryError Unit := do
  Action.ofExcept g.validate
  setValidators g.validators

/-- All records, in ascending order of the bytes of their keys. -/
def exportGenesis : Action σ RegistryError RegistryGenesis := do
  return ⟨← allValidators⟩

end Registry

end BlockHooks
