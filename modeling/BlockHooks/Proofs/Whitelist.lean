/-
BlockHooks/Proofs/Whitelist.lean

Who is on the whitelist.

The registry is filled in two ways.  Onboarding checks what it registers, so
the record that it writes is `Validator.WellFormed`.  A genesis is searched
for repeated indices only, and its records are written as they are.  Nothing
else writes under the keys of the registry.

So after a genesis and any operations, what is found under these keys are
records of the genesis and records that are well formed (`RecordsAre`), each
under the key of its own index.  An operator on the whitelist carries the
configured first part, or it is the genesis that names it
(`Hooks.stored_records`).
-/
import BlockHooks.Proofs.Abort
import BlockHooks.Proofs.Initialised

namespace BlockHooks

open BlockHooks.Action (Keeps Maintains)

/-! ### Well-formed records -/

/-- What onboarding sees to. -/
structure Validator.WellFormed (operatorPrefix : String) (v : Validator) : Prop where
  member : v.memberId = v.index
  named : v.memberId ≠ ""
  operator : v.operator.validateWithPrefix operatorPrefix = .ok ()

namespace Registry

/-- A request that is not refused leads to a well-formed record. -/
theorem wellFormed_record {r : Registry} {msg : OnboardValidator} (hform : msg.validate = .ok ())
    (hoperator : r.checkOperator msg.operator = .ok ()) :
    msg.record.WellFormed r.operatorPrefix where
  member := rfl
  named := by
    rw [OnboardValidator.validate] at hform
    -- the name is looked at only behind a creator that passes
    rcases hcreator : msg.creator.validate with e | ⟨⟩
    · rw [hcreator] at hform
      cases hform
    · intro hempty
      have hmember : msg.memberId = "" := hempty
      rw [hcreator, hmember] at hform
      cases hform
  operator := by
    rw [checkOperator] at hoperator
    split at hoperator
    next => cases hoperator
    next =>
      show msg.operator.validateWithPrefix r.operatorPrefix = .ok ()
      rcases hcarries : msg.operator.validateWithPrefix r.operatorPrefix with e | ⟨⟩
      · rw [hcarries] at hoperator
        cases hoperator
      · rfl

/-! ### What is found in the registry -/

/-- What a read under a key of the registry may answer: nothing, or a record
with the property `ok`, whose own key it is. -/
inductive Found (ok : Validator → Prop) (key : Bytes) : Except StoreError (Option Bytes) → Prop
  | nothing : Found ok key (.ok none)
  | record {v bs} : Validator.StoredAs v (key, bs) → ok v → Found ok key (.ok (some bs))

/-- The store can be read, and all records in it have the property `ok`. -/
def RecordsAre (ok : Validator → Prop) (l : Ledger) : Prop :=
  ∀ key, validators.base <+: key → Found ok key (l.bytesAt key)

variable {ok : Validator → Prop} {ε α : Type}

theorem RecordsAre.working {l : Ledger} (h : RecordsAre ok l) : l.Working := by
  have hfound := h validators.base List.prefix_rfl
  rcases hfailing : l.store.failing with - | -
  · exact hfailing
  · rw [Ledger.bytesAt, MemStore.bytesAt, if_pos hfailing] at hfound
    cases hfound

/-- All that a scan of the registry answers are records with the property. -/
theorem RecordsAre.exists_storedRecords {l : Ledger} (h : RecordsAre ok l) :
    ∃ vs, StoredRecords vs (l.store.entriesUnder validators.base) ∧ ∀ v ∈ vs, ok v := by
  have hrecords : ∀ e ∈ l.store.entriesUnder validators.base,
      ∃ v, ok v ∧ Validator.StoredAs v e := by
    rintro ⟨key, bs⟩ he
    obtain ⟨hget, hbegins⟩ := MemStore.mem_entriesUnder_iff.1 he
    have hfound := h key hbegins
    rw [Ledger.bytesAt, MemStore.bytesAt_of_working h.working, hget] at hfound
    cases hfound with
    | record hstored hok => exact ⟨_, hok, hstored⟩
  obtain ⟨vs, hvs⟩ := exists_partners (R := fun v e => ok v ∧ Validator.StoredAs v e) hrecords
  obtain ⟨hok, hstored⟩ := (List.forall₂_and_left _ _).1 hvs
  exact ⟨vs, hstored, hok⟩

/-! ### What keeps it so -/

/-- What writes under other keys only does no harm. -/
theorem maintains_recordsAre_of_keeps {x : Action Ledger ε α}
    (hx : ∀ key, validators.base <+: key → Keeps (Ledger.bytesAt key) x) :
    Maintains (RecordsAre ok) x := by
  intro l hl key hbegins
  rw [hx key hbegins l]
  exact hl key hbegins

theorem ne_paramsKey {key : Bytes} (h : validators.base <+: key) :
    key ≠ Deposit.paramsItem.key := by
  rintro rfl
  exact MemStore.not_base_prefix_paramsKey h

theorem ne_dustKey {key : Bytes} (h : validators.base <+: key) : key ≠ Deposit.dustItem.key := by
  rintro rfl
  exact MemStore.not_base_prefix_dustKey h

theorem maintains_recordsAre_setValidator {v : Validator} (hv : ok v) :
    Maintains (RecordsAre ok) (setValidator v : Action Ledger RegistryError Unit) := by
  apply Maintains.mapError
  intro l hl key hbegins
  -- the record now stands under its own key, and under the others nothing has changed
  by_cases hkey : key = validators.fullKey v.index
  · subst hkey
    rcases hrun : (validators.save v.index v).run l with ⟨e | ⟨⟩, l'⟩
    · rw [Item.eq_of_run_save_error _ hrun]
      exact hl _ hbegins
    · obtain ⟨hworks, bs, hencode, rfl⟩ := (Item.run_save_eq_ok_iff _).1 hrun
      have hread : (l.store.put (validators.fullKey v.index) bs).bytesAt
          (validators.fullKey v.index) = .ok (some bs) := MemStore.bytesAt_put_self hworks _ _
      show Found ok _ ((l.store.put (validators.fullKey v.index) bs).bytesAt _)
      rw [hread]
      exact .record ⟨rfl, hencode⟩ hv
  · have hsame : ((validators.save v.index v).run l).2.bytesAt key = l.bytesAt key :=
      Item.keeps_save_of_ne _ _ hkey l
    rw [hsame]
    exact hl key hbegins

theorem maintains_recordsAre_removeValidator (index : String) :
    Maintains (RecordsAre ok) (removeValidator index : Action Ledger RegistryError Unit) := by
  intro l hl key hbegins
  by_cases hkey : key = validators.fullKey index
  · subst hkey
    show Found ok _ (((KvStore.delete (validators.fullKey index)).run l).2.bytesAt _)
    rw [Ledger.run_delete, if_neg (by rw [hl.working]; exact Bool.false_ne_true)]
    show Found ok _ ((l.store.drop (validators.fullKey index)).bytesAt _)
    rw [MemStore.bytesAt_drop_self hl.working]
    exact .nothing
  · rw [keeps_removeValidator hkey l]
    exact hl key hbegins

/-- What is onboarded was checked. -/
theorem maintains_recordsAre_onboard {r : Registry}
    (hok : ∀ v : Validator, v.WellFormed r.operatorPrefix → ok v) (msg : OnboardValidator) :
    Maintains (RecordsAre ok) (r.onboard msg : Action Ledger RegistryError Event) := by
  apply Maintains.bind_ofExcept
  intro _ hform
  apply Maintains.bind
  · apply maintains_recordsAre_of_keeps
    intro key _
    exact Keeps.mapError _ (Keeps.bind (Ledger.keeps_get _ _) fun _ => Keeps.pure _)
  intro taken
  apply Maintains.ite
  · exact fun _ hl => hl
  -- both checks were passed where the record is written
  apply Maintains.bind_ofExcept
  intro _ hoperator
  apply Maintains.bind (maintains_recordsAre_setValidator (hok _ (wellFormed_record hform hoperator)))
  intro _
  exact fun _ hl => hl

/-! ### Genesis and operations -/

theorem recordsAre_empty (bank : MemBank) (groups : MemGroups) :
    RecordsAre ok (⟨.empty, bank, groups⟩ : Ledger) :=
  fun _ _ => .nothing

theorem maintains_recordsAre_setValidators {vs : List Validator} (h : ∀ v ∈ vs, ok v) :
    Maintains (RecordsAre ok) (setValidators vs : Action Ledger RegistryError Unit) := by
  induction vs with
  | nil => exact fun _ hl => hl
  | cons v vs ih =>
    obtain ⟨hfirst, hrest⟩ := List.forall_mem_cons.1 h
    exact Maintains.bind (maintains_recordsAre_setValidator hfirst) fun _ => ih hrest

/-- Of a genesis the records are written as they are. -/
theorem maintains_recordsAre_initGenesis {g : HookGenesis} (h : ∀ v ∈ g.registry.validators, ok v) :
    Maintains (RecordsAre ok) (Hooks.initGenesis g : Action Ledger HookError Unit) := by
  apply Maintains.bind_ofExcept
  intro _ _
  apply Maintains.bind
  · apply maintains_recordsAre_of_keeps
    intro key hbegins
    apply Keeps.mapError
    refine Keeps.bind (Keeps.ofExcept _) fun _ => ?_
    refine Keeps.bind (Deposit.keeps_setParams _ (ne_paramsKey hbegins)) fun _ => ?_
    exact Deposit.keeps_setDust _ (ne_dustKey hbegins)
  intro _
  apply Maintains.bind
  · apply Maintains.mapError
    apply Maintains.bind_ofExcept
    intro _ _
    exact maintains_recordsAre_setValidators h
  intro _
  exact fun _ hl => hl

/-- Whatever may happen to a ledger keeps its records what they are. -/
theorem recordsAre_perform {d : Deposit} {r : Registry}
    (hok : ∀ v : Validator, v.WellFormed r.operatorPrefix → ok v) {l : Ledger}
    (hl : RecordsAre ok l) (op : Operation) : RecordsAre ok (op.perform d r l).ledger := by
  cases op with
  | settle block =>
    exact maintains_recordsAre_of_keeps
      (fun _ hbegins => d.keeps_settle block (ne_dustKey hbegins)) l hl
  | fundModule msg =>
    exact maintains_recordsAre_of_keeps
      (fun _ hbegins => d.keeps_fundModule msg (ne_paramsKey hbegins)) l hl
  | updateParams msg =>
    exact maintains_recordsAre_of_keeps
      (fun _ hbegins => d.keeps_updateParams msg (ne_paramsKey hbegins)) l hl
  | onboard msg => exact maintains_recordsAre_onboard hok msg l hl
  | removeValidator index => exact maintains_recordsAre_removeValidator index l hl
  | fund account amount => exact hl
  | send sender receiver amount => exact hl

theorem recordsAre_ledgerAfter {d : Deposit} {r : Registry}
    (hok : ∀ v : Validator, v.WellFormed r.operatorPrefix → ok v) {l : Ledger}
    (hl : RecordsAre ok l) (ops : List Operation) : RecordsAre ok (ledgerAfter d r l ops) := by
  induction ops generalizing l with
  | nil => exact hl
  | cons op ops ih => exact ih (recordsAre_perform hok hl op)

/-- The whitelist is read from the records. -/
theorem run_admits {l : Ledger} {vs : List Validator} (hworks : l.Working)
    (h : StoredRecords vs (l.store.entriesUnder validators.base)) (a : Address) :
    (admits a).run l = (vs.any fun v => v.operator == a, l) := by
  have hlisted : (isListed a).run l = (.ok (vs.any fun v => v.operator == a), l) := by
    rw [isListed, Action.run_bind_ok (run_allValidators hworks h)]
    rfl
  rw [admits, Action.run_state_bind, Action.run_outcome, hlisted]
  rfl

end Registry

namespace Hooks

/-- A valid configuration gives hooks, and their registry knows the first part
that is configured. -/
theorem exists_ofConfig {c : HookConfig} (hvalid : c.validate = .ok ()) :
    ∃ h, ofConfig c = .ok h ∧ h.registry.operatorPrefix = c.operatorPrefix := by
  -- the scan is the last part that is checked
  have hscan : c.scan.validate = .ok () := by
    rw [HookConfig.validate, bind_eq_ok_iff] at hvalid
    obtain ⟨⟨⟩, -, hvalid⟩ := hvalid
    rw [bind_eq_ok_iff] at hvalid
    obtain ⟨⟨⟩, -, hvalid⟩ := hvalid
    split at hvalid
    next => cases hvalid
    next =>
      rcases hscan : c.scan.validate with e | ⟨⟩
      · rw [hscan] at hvalid
        cases hvalid
      · rfl
  have hscanner : Scanner.ofConfig c.scan = .ok ⟨c.scan, hscan⟩ := by
    rw [Scanner.ofConfig]
    split
    next => rfl
    next hfailed =>
      rw [hscan] at hfailed
      cases hfailed
  refine ⟨⟨c, ⟨c.authority, poolsOf c⟩, ⟨c.operatorPrefix⟩, ⟨c.scan, hscan⟩⟩, ?_, rfl⟩
  rw [ofConfig, hvalid, hscanner]
  rfl

/-- The ledger that a genesis, imported into a store without entries, and
operations after it lead to. -/
def ledgerSince (h : Hooks) (g : HookGenesis) (bank : MemBank) (groups : MemGroups)
    (ops : List Operation) : Ledger :=
  ledgerAfter h.deposit h.registry ((initGenesis g).run (⟨.empty, bank, groups⟩ : Ledger)).2 ops

/-- **What the registry holds.**  After a genesis, accepted or not, and any
operations, the records can be read; each stands under the key of its own
index, and it is well formed or a record of the genesis.  An operator on the
whitelist carries the configured first part or is named by the genesis.  So
if the records of the genesis are well formed, all records are, and no other
operators are on the whitelist than those that carry the first part. -/
theorem stored_records (c : HookConfig) (hvalid : c.validate = .ok ()) :
    ∃ h, ofConfig c = .ok h ∧ ∀ g bank groups ops,
      ∃ vs, Registry.allValidators.run (h.ledgerSince g bank groups ops)
          = (.ok vs, h.ledgerSince g bank groups ops) ∧
        StoredRecords vs
          ((h.ledgerSince g bank groups ops).store.entriesUnder Registry.validators.base) ∧
        (∀ v ∈ vs, v ∈ g.registry.validators ∨ v.WellFormed c.operatorPrefix) ∧
        (∀ a, ((Registry.admits a).run (h.ledgerSince g bank groups ops)).1 = true →
          a.validateWithPrefix c.operatorPrefix = .ok () ∨
            ∃ v ∈ g.registry.validators, v.operator = a) ∧
        ((∀ v ∈ g.registry.validators, v.WellFormed c.operatorPrefix) →
          (∀ v ∈ vs, v.WellFormed c.operatorPrefix) ∧
          ∀ a, ((Registry.admits a).run (h.ledgerSince g bank groups ops)).1 = true →
            a.validateWithPrefix c.operatorPrefix = .ok ()) := by
  obtain ⟨h, hc, hconfigured⟩ := exists_ofConfig hvalid
  refine ⟨h, hc, fun g bank groups ops => ?_⟩
  have hrecords : Registry.RecordsAre
      (fun v => v ∈ g.registry.validators ∨ v.WellFormed c.operatorPrefix)
      (h.ledgerSince g bank groups ops) := by
    apply Registry.recordsAre_ledgerAfter
    · intro v hv
      rw [hconfigured] at hv
      exact Or.inr hv
    · exact Registry.maintains_recordsAre_initGenesis (fun v hv => Or.inl hv) _
        (Registry.recordsAre_empty bank groups)
  obtain ⟨vs, hstored, hok⟩ := hrecords.exists_storedRecords
  -- whoever is on the whitelist is named by one of the records
  have hlisted : ∀ a, ((Registry.admits a).run (h.ledgerSince g bank groups ops)).1 = true →
      ∃ v ∈ vs, v.operator = a := by
    intro a ha
    rw [Registry.run_admits hrecords.working hstored] at ha
    obtain ⟨v, hv, hsame⟩ := List.any_eq_true.1 ha
    exact ⟨v, hv, beq_iff_eq.1 hsame⟩
  refine ⟨vs, run_allValidators hrecords.working hstored, hstored, hok, fun a ha => ?_,
    fun hgenesis => ?_⟩
  · obtain ⟨v, hv, rfl⟩ := hlisted a ha
    rcases hok v hv with himported | hform
    · exact Or.inr ⟨v, himported, rfl⟩
    · exact Or.inl hform.operator
  · have hall : ∀ v ∈ vs, v.WellFormed c.operatorPrefix := fun v hv =>
      (hok v hv).elim (hgenesis v) id
    refine ⟨hall, fun a ha => ?_⟩
    obtain ⟨v, hv, rfl⟩ := hlisted a ha
    exact (hall v hv).operator

end Hooks

namespace Scenario

/-! ### Two genesis files -/

/-- The hooks of the default configuration. -/
def defaultHooks : Hooks :=
  { hooks with deposit := ⟨.ofModule "gov", Hooks.poolsOf .default⟩ }

/-- The genesis of one record, of the member `m1`. -/
def genesisOf (memberId operator : String) : HookGenesis :=
  ⟨.default, ⟨[⟨"m1", memberId, ⟨operator⟩, "", Validator.activeStatus, 0⟩]⟩⟩

/-- One onboarding is accepted and two are refused, and a record goes. -/
def turnover : List Operation := [
  .onboard ⟨⟨"verana1policy"⟩, "m2", ⟨"veranavaloper1b"⟩, "", 0⟩,
  .onboard ⟨⟨"verana1policy"⟩, "m3", ⟨"verana1c"⟩, "", 0⟩,
  .onboard ⟨⟨"verana1policy"⟩, "m1", ⟨"veranavaloper1d"⟩, "", 0⟩,
  .settle ⟨1, 1700000005⟩,
  .removeValidator "m1"]

theorem validate_default : HookConfig.default.validate = .ok () := by
  decide +kernel

theorem ofConfig_default : Hooks.ofConfig .default = .ok defaultHooks := by
  rw [Hooks.ofConfig, validate_default]
  rfl

end Scenario

open Scenario in
/-- From a genesis with a well-formed record on, only what was checked is
left. -/
theorem Hooks.stored_records_turnover :
    HookConfig.default.validate = .ok () ∧ Hooks.ofConfig .default = .ok defaultHooks ∧
      (∀ v ∈ (genesisOf "m1" "veranavaloper1a").registry.validators,
        v.WellFormed HookConfig.default.operatorPrefix) ∧
      ∃ vs, Registry.allValidators.run
          (defaultHooks.ledgerSince (genesisOf "m1" "veranavaloper1a") .empty .empty turnover)
          = (.ok vs, defaultHooks.ledgerSince (genesisOf "m1" "veranavaloper1a") .empty .empty
            turnover) ∧
        vs.map Validator.index = ["m2"] ∧
        ∀ v ∈ vs, v.WellFormed HookConfig.default.operatorPrefix := by
  have hgenesis : ∀ v ∈ (genesisOf "m1" "veranavaloper1a").registry.validators,
      v.WellFormed HookConfig.default.operatorPrefix := by
    intro v hv
    rw [List.mem_singleton.1 hv]
    exact ⟨rfl, by decide, by decide +kernel⟩
  obtain ⟨h, hc, hall⟩ := Hooks.stored_records .default validate_default
  rw [ofConfig_default, Except.ok.injEq] at hc
  subst hc
  obtain ⟨vs, hrun, -, -, -, hform⟩ :=
    hall (genesisOf "m1" "veranavaloper1a") .empty .empty turnover
  have hindices : (Registry.allValidators.run (defaultHooks.ledgerSince
      (genesisOf "m1" "veranavaloper1a") .empty .empty turnover)).1.map (·.map Validator.index)
      = .ok ["m2"] := by
    decide +kernel
  rw [hrun] at hindices
  exact ⟨validate_default, ofConfig_default, hgenesis, vs, hrun, Except.ok.inj hindices,
    (hform hgenesis).1⟩

open Scenario in
/-- A genesis is accepted whose record has no member and an operator without
the configured first part, and that operator is on the whitelist. -/
theorem Hooks.stored_records_unchecked :
    HookConfig.default.validate = .ok () ∧ Hooks.ofConfig .default = .ok defaultHooks ∧
      (genesisOf "" "verana1alice").validate = .ok () ∧
      (Registry.allValidators.run
        (defaultHooks.ledgerSince (genesisOf "" "verana1alice") .empty .empty [])).1
        = .ok [⟨"m1", "", ⟨"verana1alice"⟩, "", Validator.activeStatus, 0⟩] ∧
      ((Registry.admits ⟨"verana1alice"⟩).run
        (defaultHooks.ledgerSince (genesisOf "" "verana1alice") .empty .empty [])).1 = true ∧
      (Address.mk "verana1alice").validateWithPrefix HookConfig.default.operatorPrefix
        = .error (.wrongPrefix "verana1alice" "veranavaloper") := by
  refine ⟨validate_default, ofConfig_default, ?_⟩
  decide +kernel

end BlockHooks
