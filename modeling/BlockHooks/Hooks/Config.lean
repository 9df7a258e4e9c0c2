/-
BlockHooks/Hooks/Config.lean

The configuration of the hooks.

It is read from JSON, where every field may be left out, and it is valid if
the authority is a well-formed address, the three modules have names and no
two the same, operators' addresses have a first part, and the scan's own
configuration is valid.
-/
import BlockHooks.Deposit.Error
import BlockHooks.Registry.Validator
import BlockHooks.Scan.Json

namespace BlockHooks

/-- What is wrong with a configuration. -/
inductive ConfigFault where
  | emptyModuleName
  | sameModuleNames (names : List String)
  | emptyOperatorPrefix
  deriving DecidableEq, Repr

/-- How a fault of a configuration is told. -/
def ConfigFault.message : ConfigFault → String
  | .emptyModuleName => "module account names must not be empty"
  | .sameModuleNames names =>
    s!"module account names must be distinct, got {quotedList names}"
  | .emptyOperatorPrefix => "valoper_prefix must not be empty"

/-- What can go wrong with the hooks. -/
inductive HookError where
  | invalidConfig (fault : ConfigFault)
  | invalidAuthority (cause : AddressError)
  /-- There is no configuration to read. -/
  | configMissing
  /-- The configuration is no text. -/
  | configNotText
  | json (cause : JsonError)
  | deposit (cause : DepositError)
  | registry (cause : RegistryError)
  | scan (cause : ScanError)
  deriving DecidableEq

/-- How a JSON error is told: only a wrong shape has words of its own. -/
def JsonError.message : JsonError → String
  | .malformed => "malformed"
  | .truncated => "truncated"
  | .shape message => message

/-- How an error of the hooks is told: the part it comes from, then its cause. -/
def HookError.message : HookError → String
  | .invalidConfig fault => s!"Invalid app config: {fault.message}"
  | .invalidAuthority cause => s!"Invalid authority address: {cause.message}"
  | .configMissing => "Failed to read config file: not found"
  | .configNotText => "Failed to read config file: not UTF-8"
  | .json cause => s!"Failed to parse JSON: {cause.message}"
  | .deposit cause => s!"Trust deposit: {cause.message}"
  | .registry cause => s!"Validator registry: {cause.message}"
  | .scan cause => s!"Group auto-execution: {cause.message}"

/-- What the host decides on. -/
structure HookConfig where
  /-- Who may replace the deposit's parameters. -/
  authority : Address
  yieldPool : String
  trustDeposit : String
  communityPool : String
  /-- The first part of every operator's address. -/
  operatorPrefix : String
  scan : ScanConfig
  /-- What the host is to log; the hooks do not look at it. -/
  logFilter : String
  deriving DecidableEq

namespace HookConfig

/-- The configuration of a host that decides on nothing. -/
def default : HookConfig where
  authority := .ofModule "gov"
  yieldPool := "yield_pool"
  trustDeposit := "trust_deposit"
  communityPool := "community_pool"
  operatorPrefix := "veranavaloper"
  scan := .default
  logFilter := "info"

instance : Inhabited HookConfig := ⟨default⟩

/-- The names of the modules whose accounts are pools. -/
def moduleNames (c : HookConfig) : List String :=
  [c.yieldPool, c.trustDeposit, c.communityPool]

/-- Every pool needs a name, and no two the same. -/
def checkModules (c : HookConfig) : Except HookError Unit :=
  if c.moduleNames.any String.isEmpty then .error (.invalidConfig .emptyModuleName)
  else if c.yieldPool = c.trustDeposit ∨ c.yieldPool = c.communityPool
      ∨ c.trustDeposit = c.communityPool then
    .error (.invalidConfig (.sameModuleNames c.moduleNames))
  else .ok ()

/-- The authority, the modules, the first part of operators and the scan are
looked at in this order; the first fault is told. -/
def validate (c : HookConfig) : Except HookError Unit := do
  c.authority.validate.mapError .invalidAuthority
  c.checkModules
  if c.operatorPrefix.isEmpty then .error (.invalidConfig .emptyOperatorPrefix)
  else c.scan.validate.mapError .scan

/-! ### JSON -/

open Json

/-- The configuration as far as it was read. -/
structure Draft where
  authority : Option Address
  yieldPool : Option String
  trustDeposit : Option String
  communityPool : Option String
  operatorPrefix : Option String
  scan : Option ScanConfig
  logFilter : Option String

/-- Seven fields; one that is left out has its default. -/
def shape : RecordShape Draft HookConfig where
  name := "AppConfig"
  start := ⟨none, none, none, none, none, none, none⟩
  fields := [
    .of "authority" (·.authority) fun a d => { d with authority := some a },
    .of "yield_pool_module" (·.yieldPool) fun a d => { d with yieldPool := some a },
    .of "trust_deposit_module" (·.trustDeposit) fun a d => { d with trustDeposit := some a },
    .of "community_pool_module" (·.communityPool) fun a d => { d with communityPool := some a },
    .of "valoper_prefix" (·.operatorPrefix) fun a d => { d with operatorPrefix := some a },
    .of "autoexec" (·.scan) fun a d => { d with scan := some a },
    .of "log_filter" (·.logFilter) fun a d => { d with logFilter := some a }]
  complete d := .ok {
    authority := d.authority.getD default.authority
    yieldPool := d.yieldPool.getD default.yieldPool
    trustDeposit := d.trustDeposit.getD default.trustDeposit
    communityPool := d.communityPool.getD default.communityPool
    operatorPrefix := d.operatorPrefix.getD default.operatorPrefix
    scan := d.scan.getD default.scan
    logFilter := d.logFilter.getD default.logFilter }

instance : Readable HookConfig := ⟨shape.read⟩

instance : Writable HookConfig where
  chars c := objectChars [
    member "authority" c.authority,
    member "yield_pool_module" c.yieldPool,
    member "trust_deposit_module" c.trustDeposit,
    member "community_pool_module" c.communityPool,
    member "valoper_prefix" c.operatorPrefix,
    member "autoexec" c.scan,
    member "log_filter" c.logFilter]

/-- Reads a valid configuration from JSON text. -/
def ofJson (text : String) : Except HookError HookConfig := do
  let c ← (Json.parse text).mapError HookError.json
  c.validate
  return c

/-- Reads a valid configuration from the bytes of a file; none if there is
no file. -/
def ofFile : Option Bytes → Except HookError HookConfig
  | none => .error .configMissing
  | some bs =>
    match ofUtf8? bs with
    | none => .error .configNotText
    | some text => ofJson text

end HookConfig

end BlockHooks
