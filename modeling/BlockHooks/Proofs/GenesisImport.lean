/-
BlockHooks/Proofs/GenesisImport.lean

Importing a genesis into any store.

A genesis is checked before anything is written (`HookGenesis.refused_iff`),
and on a store that works every write of a checked genesis succeeds, if its
texts are not too long to be stored.  A store that fails refuses the first
write.  So an import that fails has changed nothing.

An import that succeeds writes under the keys of the parameters, of the dust
and of the genesis's own records, whatever stood there.  If no other records
are in the store, a scan lists those of the genesis, each once, in the order
of their keys (`perm_entriesUnder_putAll`): exporting answers the genesis with
its records sorted (`initGenesis_then_export`).
-/
import Mathlib.Data.List.Perm.Basic
import BlockHooks.Proofs.Initialised

namespace BlockHooks

/-! ### What is refused -/

/-- The rate is above one, a year has no blocks, or two records share an
index. -/
def HookGenesis.Refused (g : HookGenesis) : Prop :=
  Dec.one.raw < g.deposit.params.yieldRate.raw ∨ g.deposit.params.blocksPerYear = 0 ∨
    ¬ (g.registry.validators.map Validator.index).Nodup

theorem HookGenesis.refused_iff {g : HookGenesis} : g.Refused ↔ g.validate ≠ .ok () := by
  rw [Ne, HookGenesis.validate_eq_ok_iff, DepositGenesis.validate_eq_ok_iff,
    Params.validate_eq_ok_iff, RegistryGenesis.validate_eq_ok_iff, not_and_or, not_and_or,
    Nat.not_le, not_not, or_assoc]
  rfl

/-! ### Records among other entries -/

namespace MemStore

variable {s : MemStore} {es : List (Bytes × Bytes)} {front : Bytes}

/-- The entries that were written into a store without any entries under
`front` are those that a scan lists, in another order. -/
theorem perm_entriesUnder_putAll (hnone : ∀ key, front <+: key → s.entries.get? key = none)
    (hnodup : (es.map Prod.fst).Nodup) (hfront : ∀ e ∈ es, front <+: e.1) :
    ((s.putAll es).entriesUnder front).Perm es := by
  have hlisted : ((s.putAll es).entriesUnder front).Nodup :=
    ((s.putAll es).nodup_entriesUnder front).of_map
  rw [List.perm_ext_iff_of_nodup hlisted hnodup.of_map]
  rintro ⟨key, value⟩
  rw [mem_entriesUnder_iff]
  constructor
  · rintro ⟨hget, hbegins⟩
    by_cases hmem : key ∈ es.map Prod.fst
    · obtain ⟨⟨key, value'⟩, he, rfl⟩ := List.mem_map.1 hmem
      rw [get?_putAll_of_mem hnodup he] at hget
      cases hget
      exact he
    · rw [get?_putAll_of_not_mem hmem, hnone key hbegins] at hget
      cases hget
  · intro he
    exact ⟨get?_putAll_of_mem hnodup he s, hfront _ he⟩

end MemStore

theorem StoredRecords.begins {vs : List Validator} {es : List (Bytes × Bytes)}
    (h : StoredRecords vs es) : ∀ e ∈ es, Registry.validators.base <+: e.1 := by
  intro e he
  obtain ⟨v, -, hv⟩ := exists_partner_of_mem h.flip he
  rw [hv.1]
  exact List.prefix_append _ _

theorem StoredRecords.nodup_keys {vs : List Validator} {es : List (Bytes × Bytes)}
    (h : StoredRecords vs es) (hnodup : (vs.map Validator.index).Nodup) :
    (es.map Prod.fst).Nodup := by
  rw [h.keys_eq]
  exact hnodup.map fun _ _ => Registry.validators.fullKey_injective

/-! ### Imports -/

namespace Hooks

variable {g : HookGenesis} {l l' : Ledger}

theorem run_initGenesis_of_refused (h : g.Refused) :
    ∃ e, (initGenesis g).run l = (.error e, l) := by
  rcases hvalid : g.validate with e | ⟨⟩
  · refine ⟨e, ?_⟩
    rw [initGenesis, hvalid]
    rfl
  · exact absurd hvalid (HookGenesis.refused_iff.1 h)

/-- A store that fails refuses the parameters already. -/
theorem run_initGenesis_of_failing (h : ¬ l.Working) (hvalid : g.validate = .ok ()) :
    ∃ e, (initGenesis g).run l = (.error e, l) := by
  have hfailing : l.store.failing = true := by
    rcases hswitch : l.store.failing with - | -
    · exact absurd hswitch h
    · rfl
  have hdeposit := (HookGenesis.validate_eq_ok_iff.1 hvalid).1
  -- the parameters are valid, so it is the store that refuses them
  have hset : (Deposit.setParams g.deposit.params).run l
      = (.error (.store (.backend "injected store failure")), l) := by
    rw [Deposit.setParams, DepositGenesis.validate_eq_ok_iff.1 hdeposit]
    show (Action.mapError _ (KvStore.set _ _)).run l = _
    rw [Action.run_mapError, Ledger.run_set, hfailing]
    rfl
  have hfirst : (Deposit.initGenesis g.deposit).run l
      = (.error (.store (.backend "injected store failure")), l) := by
    rw [Deposit.initGenesis, hdeposit, Action.run_bind_ok (Action.run_ofExcept (.ok ()) l),
      Action.run_bind_error hset]
  refine ⟨.deposit (.store (.backend "injected store failure")), ?_⟩
  rw [initGenesis, hvalid, Action.run_bind_ok (Action.run_ofExcept (.ok ()) l)]
  apply Action.run_bind_error
  rw [Action.run_mapError, hfirst]
  rfl

/-- What `l` has become by an import of `g`. -/
structure Imported (g : HookGenesis) (l l' : Ledger) : Prop where
  others : ∀ key, key ≠ Deposit.paramsItem.key → key ≠ Deposit.dustItem.key →
    (∀ v ∈ g.registry.validators, key ≠ Registry.validators.fullKey v.index) →
    l'.store.entries.get? key = l.store.entries.get? key
  bank : l'.bank = l.bank
  groups : l'.groups = l.groups
  /-- Without other records the genesis is exported again, its records in
  ascending order of their indices' bytes. -/
  exported : (∀ key, Registry.validators.base <+: key → l.store.entries.get? key = none) →
    ∃ vs, exportGenesis.run l' = (.ok ⟨g.deposit, ⟨vs⟩⟩, l') ∧
      vs.Perm g.registry.validators ∧
      vs.Pairwise fun v w => compare (utf8 v.index) (utf8 w.index) = .lt

/-- The store once parameters, dust and records are written. -/
theorem imported_put_putAll {es : List (Bytes × Bytes)} {pbs dbs : Bytes} (hworks : l.Working)
    (hnodup : (g.registry.validators.map Validator.index).Nodup)
    (hpbs : Stored.encode Deposit.paramsItem.key Deposit.paramsItem.discriminator
      g.deposit.params = .ok pbs)
    (hdbs : Stored.encode Deposit.dustItem.key Deposit.dustItem.discriminator
      g.deposit.dust = .ok dbs)
    (hes : StoredRecords g.registry.validators es) :
    Imported g l { l with store :=
      ((l.store.put Deposit.paramsItem.key pbs).put Deposit.dustItem.key dbs).putAll es } where
  others key hparams hdust hrecords := by
    have hmem : key ∉ es.map Prod.fst := by
      rw [hes.keys_eq, List.map_map]
      intro hmem
      obtain ⟨v, hv, hkey⟩ := List.mem_map.1 hmem
      exact hrecords v hv hkey.symm
    rw [MemStore.get?_putAll_of_not_mem hmem, MemStore.get?_put, if_neg hdust,
      MemStore.get?_put, if_neg hparams]
  bank := rfl
  groups := rfl
  exported hnone := by
    let s := (l.store.put Deposit.paramsItem.key pbs).put Deposit.dustItem.key dbs
    have hparams : Deposit.paramsItem.key ∉ es.map Prod.fst := fun hmem => by
      obtain ⟨e, he, hkey⟩ := List.mem_map.1 hmem
      exact MemStore.not_base_prefix_paramsKey (hkey ▸ hes.begins e he)
    have hdust : Deposit.dustItem.key ∉ es.map Prod.fst := fun hmem => by
      obtain ⟨e, he, hkey⟩ := List.mem_map.1 hmem
      exact MemStore.not_base_prefix_dustKey (hkey ▸ hes.begins e he)
    -- parameters and dust are no records either
    have hbare : ∀ key, Registry.validators.base <+: key → s.entries.get? key = none := by
      intro key hbegins
      have hnotDust : key ≠ Deposit.dustItem.key := fun hkey =>
        MemStore.not_base_prefix_dustKey (hkey ▸ hbegins)
      have hnotParams : key ≠ Deposit.paramsItem.key := fun hkey =>
        MemStore.not_base_prefix_paramsKey (hkey ▸ hbegins)
      rw [MemStore.get?_put, if_neg hnotDust, MemStore.get?_put, if_neg hnotParams, hnone key hbegins]
    have hperm := MemStore.perm_entriesUnder_putAll hbare (hes.nodup_keys hnodup) hes.begins
    obtain ⟨vs, hvs, hsame⟩ := List.perm_comp_forall₂ hperm hes.flip
    refine ⟨vs, ?_, hsame, StoredRecords.ascending hvs.flip⟩
    refine run_exportGenesis_of_entries (g := ⟨g.deposit, ⟨vs⟩⟩) ?_ hpbs ?_ hdbs ?_ hvs.flip
    · show (s.putAll es).failing = false
      rw [MemStore.failing_putAll]
      exact hworks
    · show (s.putAll es).entries.get? _ = _
      rw [MemStore.get?_putAll_of_not_mem hparams, MemStore.get?_put,
        if_neg Deposit.dustKey_ne_paramsKey.symm, MemStore.get?_put, if_pos rfl]
    · show (s.putAll es).entries.get? _ = _
      rw [MemStore.get?_putAll_of_not_mem hdust, MemStore.get?_put, if_pos rfl]

theorem exists_run_initGenesis (hworks : l.Working) (hvalid : g.validate = .ok ())
    (hshort : ∀ v ∈ g.registry.validators, v.Short) :
    ∃ l', (initGenesis g).run l = (.ok (), l') ∧ Imported g l l' := by
  obtain ⟨es, hes⟩ := exists_storedRecords hshort
  have hnodup := RegistryGenesis.validate_eq_ok_iff.1 (HookGenesis.validate_eq_ok_iff.1 hvalid).2
  exact ⟨_, run_initGenesis hworks hvalid rfl rfl hes,
    imported_put_putAll hworks hnodup rfl rfl hes⟩

/-- An import is refused, or it fails at the store, or it is made. -/
theorem run_initGenesis_cases (l : Ledger) (hshort : ∀ v ∈ g.registry.validators, v.Short) :
    ((g.Refused ∨ ¬ l.Working) ∧ ∃ e, (initGenesis g).run l = (.error e, l)) ∨
      (¬ g.Refused ∧ l.Working) ∧
        ∃ l', (initGenesis g).run l = (.ok (), l') ∧ Imported g l l' := by
  by_cases hrefused : g.Refused
  · exact .inl ⟨.inl hrefused, run_initGenesis_of_refused hrefused⟩
  have hvalid : g.validate = .ok () := by
    by_contra hinvalid
    exact hrefused (HookGenesis.refused_iff.2 hinvalid)
  by_cases hworks : l.Working
  · exact .inr ⟨⟨hrefused, hworks⟩, exists_run_initGenesis hworks hvalid hshort⟩
  · exact .inl ⟨.inr hworks, run_initGenesis_of_failing hworks hvalid⟩

/-- **An import is atomic, and it sorts.**  A genesis whose texts can be stored
is imported into a ledger with any store.  If the import fails, nothing has
changed; on a store that works it fails exactly if the rate is above one, a
year has no blocks or two records share an index.  If it succeeds, only the
keys of the parameters, of the dust and of the records of the genesis have
changed; and if there were no records before, exporting answers the genesis
with its records in ascending order of their indices' bytes. -/
theorem initGenesis_then_export (g : HookGenesis) (l : Ledger)
    (hshort : ∀ v ∈ g.registry.validators, v.Short) :
    (∀ e l', (initGenesis g).run l = (.error e, l') → l' = l) ∧
    (l.Working → ((∃ e l', (initGenesis g).run l = (.error e, l')) ↔
      Dec.one.raw < g.deposit.params.yieldRate.raw ∨ g.deposit.params.blocksPerYear = 0 ∨
        ¬ (g.registry.validators.map Validator.index).Nodup)) ∧
    ∀ l', (initGenesis g).run l = (.ok (), l') → Imported g l l' := by
  -- either the import is refused, for one of the reasons, or it is made
  rcases run_initGenesis_cases l hshort with ⟨hwhy, e, hrun⟩ | ⟨⟨hfine, -⟩, l₁, hrun, himported⟩
  · rw [hrun]
    refine ⟨?_, fun hworks => iff_of_true ⟨e, l, rfl⟩ ?_, ?_⟩
    · intro e' l' h
      cases h
      rfl
    · rcases hwhy with hrefused | hfailing
      · exact hrefused
      · exact absurd hworks hfailing
    · intro l' h
      cases h
  · rw [hrun]
    refine ⟨?_, fun _ => iff_of_false ?_ hfine, ?_⟩
    · intro e l' h
      cases h
    · rintro ⟨e, l', h⟩
      cases h
    · intro l' h
      cases h
      exact himported

end Hooks

namespace Scenario

/-! ### A genesis out of order -/

/-- An index, and what it is in all three places of a record. -/
def record (index : String) : Validator :=
  ⟨index, index, ⟨"veranavaloper1" ++ index⟩, "", Validator.activeStatus, 0⟩

/-- The bytes of "m10" stand between those of "m1" and "m2". -/
def unsorted : HookGenesis where
  deposit := ⟨Params.default, ⟨7, by decide⟩⟩
  registry := ⟨[record "m2", record "m10", record "m1"]⟩

/-- Something is stored under a key of nobody's, and nothing that can be read
under the key of the parameters. -/
def occupied : Ledger :=
  { Ledger.empty with
    store := (MemStore.empty.put (utf8 "validator/") [7]).put Deposit.paramsItem.key [9, 9] }

end Scenario

open Scenario in
theorem Hooks.initGenesis_then_export_unsorted :
    (∀ v ∈ unsorted.registry.validators, v.Short) ∧
    ∃ l', (Hooks.initGenesis unsorted).run occupied = (.ok (), l') ∧
      l'.store.entries.get? (utf8 "validator/") = some [7] ∧
      ∃ vs, Hooks.exportGenesis.run l' = (.ok ⟨unsorted.deposit, ⟨vs⟩⟩, l') ∧
        vs.Perm unsorted.registry.validators ∧
        vs.map Validator.index = ["m1", "m10", "m2"] := by
  have hshort : ∀ v ∈ unsorted.registry.validators, v.Short := by
    show ∀ v ∈ unsorted.registry.validators, ∀ s ∈ v.texts, (utf8 s).length < UInt32.size
    decide +kernel
  have hdone : ((Hooks.initGenesis unsorted).run occupied).1 = .ok () := by
    decide +kernel
  have hbare : ∀ key, Registry.validators.base <+: key →
      occupied.store.entries.get? key = none := by
    intro key hbegins
    have hforeign : key ≠ utf8 "validator/" := by
      rintro rfl
      revert hbegins
      decide
    have hparams : key ≠ Deposit.paramsItem.key := by
      rintro rfl
      exact MemStore.not_base_prefix_paramsKey hbegins
    rw [occupied, MemStore.get?_put, if_neg hparams, MemStore.get?_put, if_neg hforeign]
    rfl
  have hindices : (Hooks.exportGenesis.run ((Hooks.initGenesis unsorted).run occupied).2).1.map
      (fun g => g.registry.validators.map Validator.index) = .ok ["m1", "m10", "m2"] := by
    decide +kernel
  rcases hrun : (Hooks.initGenesis unsorted).run occupied with ⟨r, l'⟩
  rw [hrun] at hdone hindices
  subst hdone
  obtain ⟨-, -, himported⟩ := Hooks.initGenesis_then_export unsorted occupied hshort
  obtain ⟨vs, hexport, hperm, -⟩ := (himported l' hrun).exported hbare
  rw [hexport] at hindices
  refine ⟨hshort, l', rfl, ?_, vs, hexport, hperm, Except.ok.inj hindices⟩
  rw [(himported l' hrun).others _ (by decide) (by decide) (by decide)]
  decide

end BlockHooks
