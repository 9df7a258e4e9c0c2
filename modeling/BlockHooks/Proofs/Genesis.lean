/-
BlockHooks/Proofs/Genesis.lean

A genesis and the store that it is the image of.

`MemStore.Holds s g` says that `s` has under its keys what `g` is written
as, and nothing else.  Then exporting from `s` answers `g`
(`run_exportGenesis`), and importing `g` into a store without entries gives
`s` again, every key and every byte (`run_initGenesis_empty`).  The records come in the order of
their keys from the one store and may go in any order into the other: no two
of them have the same key.
-/
import Mathlib.Data.List.Nodup
import BlockHooks.Hooks.Basic
import BlockHooks.Proofs.Collections
import BlockHooks.Proofs.Records
import BlockHooks.Proofs.Settlement

namespace BlockHooks

/-! ### Validity -/

theorem firstRepeated_eq_none_iff {seen ss : List String} :
    firstRepeated seen ss = none ↔ ss.Nodup ∧ ∀ s ∈ ss, s ∉ seen := by
  -- `seen` grows by each text that is passed
  induction ss generalizing seen with
  | nil => simp [firstRepeated]
  | cons s ss ih =>
    rw [firstRepeated]
    split
    next hseen =>
      have hmem : s ∈ seen := List.contains_iff_mem.1 hseen
      constructor
      · intro h
        cases h
      · rintro ⟨-, hnone⟩
        exact absurd hmem (hnone s List.mem_cons_self)
    next hnew =>
      have hnot : s ∉ seen := fun hmem => hnew (List.contains_iff_mem.2 hmem)
      rw [ih, List.nodup_cons]
      constructor
      · rintro ⟨hnodup, hnone⟩
        refine ⟨⟨fun hmem => hnone s hmem List.mem_cons_self, hnodup⟩, fun t ht => ?_⟩
        rcases List.mem_cons.1 ht with rfl | ht
        · exact hnot
        · exact fun hmem => hnone t ht (List.mem_cons_of_mem _ hmem)
      · rintro ⟨⟨hfirst, hnodup⟩, hnone⟩
        refine ⟨hnodup, fun t ht hmem => ?_⟩
        rcases List.mem_cons.1 hmem with rfl | hmem
        · exact hfirst ht
        · exact hnone t (List.mem_cons_of_mem _ ht) hmem

theorem RegistryGenesis.validate_eq_ok_iff {g : RegistryGenesis} :
    g.validate = .ok () ↔ (g.validators.map Validator.index).Nodup := by
  have hrepeated : firstRepeated [] (g.validators.map Validator.index) = none ↔ _ :=
    firstRepeated_eq_none_iff
  rw [validate]
  rcases h : firstRepeated [] (g.validators.map Validator.index) with - | index
  · rw [h] at hrepeated
    exact ⟨fun _ => (hrepeated.1 rfl).1, fun _ => rfl⟩
  · rw [h] at hrepeated
    refine ⟨nofun, fun hnodup => ?_⟩
    cases hrepeated.2 ⟨hnodup, fun _ _ => List.not_mem_nil⟩

theorem DepositGenesis.validate_eq_ok_iff {g : DepositGenesis} :
    g.validate = .ok () ↔ g.params.validate = .ok () := by
  rw [validate]
  rcases g.params.validate with e | ⟨⟩
  · exact ⟨nofun, nofun⟩
  · exact ⟨fun _ => rfl, fun _ => rfl⟩

theorem HookGenesis.validate_eq_ok_iff {g : HookGenesis} :
    g.validate = .ok () ↔ g.deposit.validate = .ok () ∧ g.registry.validate = .ok () := by
  rw [validate]
  rcases g.deposit.validate with e | ⟨⟩
  · exact ⟨nofun, fun h => nomatch h.1⟩
  · rcases g.registry.validate with e | ⟨⟩
    · exact ⟨nofun, fun h => nomatch h.2⟩
    · exact ⟨fun _ => ⟨rfl, rfl⟩, fun _ => rfl⟩

/-! ### Writing many entries -/

namespace MemStore

/-- The store with all the entries written into it, one after the other. -/
def putAll (s : MemStore) (es : List (Bytes × Bytes)) : MemStore :=
  es.foldl (fun s e => s.put e.1 e.2) s

theorem failing_putAll (s : MemStore) (es : List (Bytes × Bytes)) :
    (s.putAll es).failing = s.failing := by
  induction es generalizing s with
  | nil => rfl
  | cons e es ih => exact ih (s.put e.1 e.2)

theorem get?_putAll_of_not_mem {key : Bytes} {es : List (Bytes × Bytes)}
    (h : key ∉ es.map Prod.fst) (s : MemStore) :
    (s.putAll es).entries.get? key = s.entries.get? key := by
  induction es generalizing s with
  | nil => rfl
  | cons e es ih =>
    rw [List.map_cons, List.mem_cons, not_or] at h
    show ((s.put e.1 e.2).putAll es).entries.get? key = _
    rw [ih h.2, get?_put, if_neg h.1]

theorem get?_putAll_of_mem {key value : Bytes} {es : List (Bytes × Bytes)}
    (hnodup : (es.map Prod.fst).Nodup) (h : (key, value) ∈ es) (s : MemStore) :
    (s.putAll es).entries.get? key = some value := by
  induction es generalizing s with
  | nil => cases h
  | cons e es ih =>
    rw [List.map_cons, List.nodup_cons] at hnodup
    show ((s.put e.1 e.2).putAll es).entries.get? key = _
    rcases List.mem_cons.1 h with rfl | h
    · rw [get?_putAll_of_not_mem hnodup.1, get?_put, if_pos rfl]
    · exact ih hnodup.2 h _

theorem ext_get? {s t : MemStore} (hfailing : s.failing = t.failing)
    (h : ∀ key, s.entries.get? key = t.entries.get? key) : s = t := by
  have hentries : s.entries = t.entries := Table.ext_get? h
  cases s
  cases t
  cases hentries
  cases hfailing
  rfl

end MemStore

/-! ### Records as entries -/

/-- The entry that a record is written as. -/
def Validator.StoredAs (v : Validator) (e : Bytes × Bytes) : Prop :=
  e.1 = Registry.validators.fullKey v.index ∧
    Stored.encode e.1 Registry.validators.discriminator v = .ok e.2

/-- The entries that records are written as, one for one. -/
abbrev StoredRecords : List Validator → List (Bytes × Bytes) → Prop :=
  List.Forall₂ Validator.StoredAs

/-- A record stands for the binding of its own index. -/
theorem StoredRecords.bindings {vs : List Validator} {es : List (Bytes × Bytes)}
    (h : StoredRecords vs es) :
    List.Forall₂ Registry.validators.StoredAs (vs.map fun v => (v.index, v)) es :=
  List.forall₂_map_left_iff.2 h

theorem StoredRecords.keys_eq {vs : List Validator} {es : List (Bytes × Bytes)}
    (h : StoredRecords vs es) :
    es.map Prod.fst = (vs.map Validator.index).map Registry.validators.fullKey := by
  rw [Collection.keys_of_storedAs h.bindings, List.map_map (f := fun v : Validator => (v.index, v))]
  rfl

/-- Records whose keys are distinct have distinct indices. -/
theorem StoredRecords.nodup_index {vs : List Validator} {es : List (Bytes × Bytes)}
    (h : StoredRecords vs es) (hnodup : (es.map Prod.fst).Nodup) :
    (vs.map Validator.index).Nodup := by
  rw [h.keys_eq] at hnodup
  exact List.Nodup.of_map _ hnodup

/-- The scan of the registry lists records in ascending order of their indices'
bytes. -/
theorem StoredRecords.ascending {s : MemStore} {vs : List Validator}
    (h : StoredRecords vs (s.entriesUnder Registry.validators.base)) :
    vs.Pairwise fun v w => compare (utf8 v.index) (utf8 w.index) = .lt :=
  List.pairwise_map.1 (Collection.ascending_of_storedAs h.bindings)

/-- Stored records are read back in their order. -/
theorem mapM_decodeEntry {vs : List Validator} {es : List (Bytes × Bytes)}
    (h : StoredRecords vs es) :
    es.mapM Registry.validators.decodeEntry = .ok (vs.map fun v => (v.index, v)) :=
  Collection.mapM_decodeEntry h.bindings

/-! ### A genesis and its image -/

/-- The store has under its keys what the genesis is written as, and nothing
else. -/
structure MemStore.Holds (s : MemStore) (g : HookGenesis) : Prop where
  valid : g.validate = .ok ()
  params : ∃ bs, Stored.encode Deposit.paramsItem.key Deposit.paramsItem.discriminator
    g.deposit.params = .ok bs ∧ s.entries.get? Deposit.paramsItem.key = some bs
  dust : ∃ bs, Stored.encode Deposit.dustItem.key Deposit.dustItem.discriminator
    g.deposit.dust = .ok bs ∧ s.entries.get? Deposit.dustItem.key = some bs
  validators : StoredRecords g.registry.validators (s.entriesUnder Registry.validators.base)
  others : ∀ key, key ≠ Deposit.paramsItem.key → key ≠ Deposit.dustItem.key →
    ¬ Registry.validators.base <+: key → s.entries.get? key = none

/-! ### Exporting -/

variable {g : HookGenesis} {l : Ledger}

theorem Ledger.params_of_entry {p : Params} {bs : Bytes} (h : l.Working)
    (hencode : Stored.encode Deposit.paramsItem.key Deposit.paramsItem.discriminator p = .ok bs)
    (hentry : l.store.entries.get? Deposit.paramsItem.key = some bs) : l.params = .ok p := by
  rw [params_eq, bytesAt, MemStore.bytesAt_of_working h, hentry,
    Deposit.paramsItem.decoded_of_encode hencode]
  rfl

theorem Ledger.dust_of_entry {d : Dec} {bs : Bytes} (h : l.Working)
    (hencode : Stored.encode Deposit.dustItem.key Deposit.dustItem.discriminator d = .ok bs)
    (hentry : l.store.entries.get? Deposit.dustItem.key = some bs) : l.dust = .ok d := by
  rw [dust_eq, bytesAt, MemStore.bytesAt_of_working h, hentry,
    Deposit.dustItem.decoded_of_encode hencode]
  rfl

theorem run_allValidators {vs : List Validator} (hworks : l.Working)
    (h : StoredRecords vs (l.store.entriesUnder Registry.validators.base)) :
    Registry.allValidators.run l = (.ok vs, l) := by
  have hentries : Registry.validators.entries.run l = (.ok (vs.map fun v => (v.index, v)), l) := by
    rw [Collection.entries, Action.run_bind_ok (Ledger.run_scan hworks _), Action.run_ofExcept,
      mapM_decodeEntry h]
  rw [Registry.allValidators, Action.run_bind, Action.run_mapError, hentries]
  show (Except.ok ((vs.map fun v => (v.index, v)).map (·.2)), l) = _
  rw [List.map_map]
  show (Except.ok (vs.map fun v => v), l) = _
  rw [List.map_id']

/-- Exporting answers the genesis whose parts are stored, whatever else is. -/
theorem run_exportGenesis_of_entries {pbs dbs : Bytes} (hworks : l.Working)
    (hpbs : Stored.encode Deposit.paramsItem.key Deposit.paramsItem.discriminator
      g.deposit.params = .ok pbs)
    (hparams : l.store.entries.get? Deposit.paramsItem.key = some pbs)
    (hdbs : Stored.encode Deposit.dustItem.key Deposit.dustItem.discriminator
      g.deposit.dust = .ok dbs)
    (hdust : l.store.entries.get? Deposit.dustItem.key = some dbs)
    (hrecords : StoredRecords g.registry.validators
      (l.store.entriesUnder Registry.validators.base)) :
    Hooks.exportGenesis.run l = (.ok g, l) := by
  have hparams' : Deposit.params.run l = (.ok g.deposit.params, l) := by
    rw [Ledger.run_params, Ledger.params_of_entry hworks hpbs hparams]
  have hdust' : Deposit.dust.run l = (.ok g.deposit.dust, l) := by
    rw [Ledger.run_dust, Ledger.dust_of_entry hworks hdbs hdust]
  have hdeposit : Deposit.exportGenesis.run l = (.ok g.deposit, l) := by
    rw [Deposit.exportGenesis, Action.run_bind_ok hparams', Action.run_bind_ok hdust']
    rfl
  have hregistry : Registry.exportGenesis.run l = (.ok g.registry, l) := by
    rw [Registry.exportGenesis, Action.run_bind_ok (run_allValidators hworks hrecords)]
    rfl
  rw [Hooks.exportGenesis, Action.run_bind_ok (Action.run_mapError_eq_ok_iff.2 hdeposit),
    Action.run_bind_ok (Action.run_mapError_eq_ok_iff.2 hregistry)]
  rfl

/-- Exporting answers the genesis that the store holds. -/
theorem run_exportGenesis (hworks : l.Working) (h : l.store.Holds g) :
    Hooks.exportGenesis.run l = (.ok g, l) := by
  obtain ⟨pbs, hpbs, hparams⟩ := h.params
  obtain ⟨dbs, hdbs, hdust⟩ := h.dust
  exact run_exportGenesis_of_entries hworks hpbs hparams hdbs hdust h.validators

/-! ### Importing -/

/-- Records are written one after the other. -/
theorem run_setValidators {vs : List Validator} {es : List (Bytes × Bytes)}
    (hworks : l.Working) (h : StoredRecords vs es) :
    (Registry.setValidators vs).run l = (.ok (), { l with store := l.store.putAll es }) := by
  induction h generalizing l with
  | nil => rfl
  | @cons v e vs es hv _ ih =>
    obtain ⟨key, bs⟩ := e
    obtain ⟨rfl, hencode⟩ := hv
    have hset : (Registry.setValidator v).run l
        = (.ok (), { l with store := l.store.put (Registry.validators.fullKey v.index) bs }) :=
      Action.run_mapError_eq_ok_iff.2
        ((Item.run_save_eq_ok_iff _).2 ⟨hworks, bs, hencode, rfl⟩)
    rw [Registry.setValidators, Action.run_bind_ok hset]
    exact ih (l := { l with store := l.store.put _ bs }) hworks

/-- Importing a valid genesis writes the parameters, the dust and the
records, in this order. -/
theorem run_initGenesis {es : List (Bytes × Bytes)} {pbs dbs : Bytes} (hworks : l.Working)
    (hvalid : g.validate = .ok ())
    (hpbs : Stored.encode Deposit.paramsItem.key Deposit.paramsItem.discriminator
      g.deposit.params = .ok pbs)
    (hdbs : Stored.encode Deposit.dustItem.key Deposit.dustItem.discriminator
      g.deposit.dust = .ok dbs)
    (hes : StoredRecords g.registry.validators es) :
    (Hooks.initGenesis g).run l = (.ok (), { l with store :=
      ((l.store.put Deposit.paramsItem.key pbs).put Deposit.dustItem.key dbs).putAll es }) := by
  obtain ⟨hdeposit, hregistry⟩ := HookGenesis.validate_eq_ok_iff.1 hvalid
  -- the state after each of the three parts
  let l₁ : Ledger := { l with store := l.store.put Deposit.paramsItem.key pbs }
  let l₂ : Ledger := { l with store := l₁.store.put Deposit.dustItem.key dbs }
  have hsetParams : (Deposit.setParams g.deposit.params).run l = (.ok (), l₁) := by
    rw [Deposit.setParams, DepositGenesis.validate_eq_ok_iff.1 hdeposit]
    exact Action.run_mapError_eq_ok_iff.2
      ((Item.run_save_eq_ok_iff _).2 ⟨hworks, pbs, hpbs, rfl⟩)
  have hsetDust : (Deposit.setDust g.deposit.dust).run l₁ = (.ok (), l₂) :=
    Deposit.run_setDust_eq_ok_iff.2
      ((Item.run_save_eq_ok_iff _).2 ⟨hworks, dbs, hdbs, rfl⟩)
  have hfirst : (Deposit.initGenesis g.deposit).run l = (.ok (), l₂) := by
    rw [Deposit.initGenesis, hdeposit]
    exact (Action.run_bind_ok hsetParams).trans hsetDust
  have hsecond : (Registry.initGenesis g.registry).run l₂
      = (.ok (), { l with store := l₂.store.putAll es }) := by
    rw [Registry.initGenesis, hregistry]
    exact run_setValidators (l := l₂) hworks hes
  rw [Hooks.initGenesis, hvalid, Action.run_bind_ok (Action.run_ofExcept (.ok ()) l),
    Action.run_bind_ok (Action.run_mapError_eq_ok_iff.2 hfirst),
    Action.run_bind_ok (Action.run_mapError_eq_ok_iff.2 hsecond)]
  rfl

/-- A store that holds a genesis is what writing that genesis makes of the
store without entries. -/
theorem MemStore.Holds.eq_putAll {s : MemStore} (h : s.Holds g) (hworks : s.failing = false)
    {pbs dbs : Bytes} (hparams : s.entries.get? Deposit.paramsItem.key = some pbs)
    (hdust : s.entries.get? Deposit.dustItem.key = some dbs) :
    ((MemStore.empty.put Deposit.paramsItem.key pbs).put Deposit.dustItem.key dbs).putAll
      (s.entriesUnder Registry.validators.base) = s := by
  apply ext_get?
  · rw [failing_putAll, hworks]
    rfl
  intro key
  by_cases hmem : key ∈ (s.entriesUnder Registry.validators.base).map Prod.fst
  · obtain ⟨⟨key', value⟩, hentry, rfl⟩ := List.mem_map.1 hmem
    rw [get?_putAll_of_mem (s.nodup_entriesUnder _) hentry]
    exact (mem_entriesUnder_iff.1 hentry).1.symm
  rw [get?_putAll_of_not_mem hmem, get?_put, get?_put]
  split
  next hkey => rw [hkey, hdust]
  split
  next hkey => rw [hkey, hparams]
  next hnotDust hnotParams =>
    -- no other key is bound, in the one store or in the other
    by_cases hbegins : Registry.validators.base <+: key
    · rcases hget : s.entries.get? key with - | value
      · rfl
      · exact absurd (List.mem_map.2 ⟨_, mem_entriesUnder_iff.2 ⟨hget, hbegins⟩, rfl⟩) hmem
    · exact (h.others key hnotParams hnotDust hbegins).symm

/-- Importing the genesis that a store holds into a store without entries
gives the same store again. -/
theorem run_initGenesis_empty (hworks : l.Working) (h : l.store.Holds g) :
    (Hooks.initGenesis g).run { l with store := .empty } = (.ok (), l) := by
  obtain ⟨pbs, hpbs, hparams⟩ := h.params
  obtain ⟨dbs, hdbs, hdust⟩ := h.dust
  rw [run_initGenesis (l := { l with store := .empty }) rfl h.valid hpbs hdbs h.validators,
    h.eq_putAll hworks hparams hdust]

end BlockHooks
