/-
BlockHooks/Deposit/Json.lean

The JSON forms of the parameters and of the deposit's genesis.  All fields
of the parameters must be there; of the genesis, the dust may be left out.
-/
import BlockHooks.Deposit.Genesis
import BlockHooks.Json.Basic

namespace BlockHooks

open Json

/-- The parameters as far as they were read. -/
structure Params.Draft where
  trustDepositValue : Option UInt64
  yieldRate : Option Dec
  blocksPerYear : Option UInt64

/-- Three fields, none of which may be left out. -/
def Params.shape : RecordShape Params.Draft Params where
  name := "Params"
  start := ⟨none, none, none⟩
  fields := [
    .of "trust_deposit_value" (·.trustDepositValue)
      fun a d => { d with trustDepositValue := some a },
    .of "trust_deposit_yield_rate" (·.yieldRate) fun a d => { d with yieldRate := some a },
    .of "blocks_per_year" (·.blocksPerYear) fun a d => { d with blocksPerYear := some a }]
  complete d := do
    let value ← required "trust_deposit_value" d.trustDepositValue
    let rate ← required "trust_deposit_yield_rate" d.yieldRate
    let blocks ← required "blocks_per_year" d.blocksPerYear
    return ⟨value, rate, blocks⟩

instance : Readable Params := ⟨Params.shape.read⟩

instance : Writable Params where
  chars p := objectChars [
    member "trust_deposit_value" p.trustDepositValue,
    member "trust_deposit_yield_rate" p.yieldRate,
    member "blocks_per_year" p.blocksPerYear]

/-- The deposit's genesis as far as it was read. -/
structure DepositGenesis.Draft where
  params : Option Params
  dust : Option Dec

/-- The parameters and the dust, which is zero if it is left out. -/
def DepositGenesis.shape : RecordShape DepositGenesis.Draft DepositGenesis where
  name := "GenesisState"
  start := ⟨none, none⟩
  fields := [
    .of "params" (·.params) fun a d => { d with params := some a },
    .of "dust" (·.dust) fun a d => { d with dust := some a }]
  complete d := do
    let params ← required "params" d.params
    return ⟨params, d.dust.getD Dec.zero⟩

instance : Readable DepositGenesis := ⟨DepositGenesis.shape.read⟩

instance : Writable DepositGenesis where
  chars g := objectChars [member "params" g.params, member "dust" g.dust]

end BlockHooks
