/-
BlockHooks/Hooks/Genesis.lean

The state that the hooks start from: the deposit's share and the registry's
share.  Both may be left out of its JSON form.
-/
import BlockHooks.Deposit.Json
import BlockHooks.Hooks.Config
import BlockHooks.Registry.Json

namespace BlockHooks

/-- What the hooks keep in a store, as one value. -/
structure HookGenesis where
  deposit : DepositGenesis
  registry : RegistryGenesis
  deriving DecidableEq

namespace HookGenesis

/-- Nothing deposited, no validators. -/
def default : HookGenesis := ⟨.default, .default⟩

instance : Inhabited HookGenesis := ⟨default⟩

/-- Both shares must be valid; the deposit's is looked at first. -/
def validate (g : HookGenesis) : Except HookError Unit := do
  g.deposit.validate.mapError .deposit
  g.registry.validate.mapError .registry

/-! ### JSON -/

open Json

/-- The genesis as far as it was read. -/
structure Draft where
  deposit : Option DepositGenesis
  registry : Option RegistryGenesis

/-- Two shares; one that is left out is the default. -/
def shape : RecordShape Draft HookGenesis where
  name := "AppGenesis"
  start := ⟨none, none⟩
  fields := [
    .of "trust_deposit" (·.deposit) fun a d => { d with deposit := some a },
    .of "validator_registry" (·.registry) fun a d => { d with registry := some a }]
  complete d := .ok ⟨d.deposit.getD .default, d.registry.getD .default⟩

instance : Readable HookGenesis := ⟨shape.read⟩

instance : Writable HookGenesis where
  chars g := objectChars [
    member "trust_deposit" g.deposit,
    member "validator_registry" g.registry]

/-- Reads a valid genesis from JSON text. -/
def ofJson (text : String) : Except HookError HookGenesis := do
  let g ← (Json.parse text).mapError HookError.json
  g.validate
  return g

end HookGenesis

end BlockHooks
