/-
BlockHooks/Proofs/Initialised.lean

What the hooks keep in a store.

Whatever is written goes under one of three kinds of keys: valid parameters
and the dust under the key of their own, a record under the key of its own
index (`Kept`).  Nothing is ever removed but records.  So a store that has
parameters and dust, and nothing that was not written in this way, stays one
that has (`MemStore.Initialised`), whichever hook or message is run, and
whether it succeeds or fails.

Such a store holds a genesis (`MemStore.Initialised.exists_holds`).
-/
import BlockHooks.Proofs.Genesis
import BlockHooks.Proofs.Writes

namespace BlockHooks

open BlockHooks.Action (Keeps Maintains)

/-- What the hooks write, and under which key. -/
inductive Kept : Bytes → Bytes → Prop
  | params {key bs} {p : Params} : key = Deposit.paramsItem.key → p.validate = .ok () →
      Stored.encode key Deposit.paramsItem.discriminator p = .ok bs → Kept key bs
  | dust {key bs} {d : Dec} : key = Deposit.dustItem.key →
      Stored.encode key Deposit.dustItem.discriminator d = .ok bs → Kept key bs
  | validator {key bs v} : Validator.StoredAs v (key, bs) → Kept key bs

/-- Records of short texts can be written. -/
theorem exists_storedRecords {vs : List Validator} (h : ∀ v ∈ vs, v.Short) :
    ∃ es, StoredRecords vs es := by
  have hentries : ∀ v ∈ vs, ∃ e, Validator.StoredAs v e := by
    intro v hv
    obtain ⟨bs, hbs⟩ := Validator.exists_encode (h v hv)
    refine ⟨(Registry.validators.fullKey v.index, Registry.validators.discriminator :: bs), rfl, ?_⟩
    rw [Stored.encode, hbs]
  obtain ⟨es, hes⟩ := exists_partners (R := fun e v => Validator.StoredAs v e) hentries
  exact ⟨es, hes.flip⟩

namespace MemStore

/-- Parameters and dust are there, and everything else was written by the
hooks as well. -/
structure Initialised (s : MemStore) : Prop where
  kept : ∀ key bs, s.entries.get? key = some bs → Kept key bs
  params : s.entries.get? Deposit.paramsItem.key ≠ none
  dust : s.entries.get? Deposit.dustItem.key ≠ none

variable {s : MemStore} {key : Bytes}

theorem get?_put_ne_none {key' : Bytes} (value : Bytes) (h : s.entries.get? key' ≠ none) :
    (s.put key value).entries.get? key' ≠ none := by
  rw [get?_put]
  split
  · exact nofun
  · exact h

theorem Initialised.put {bs : Bytes} (h : s.Initialised) (hkept : Kept key bs) :
    (s.put key bs).Initialised where
  kept key' bs' hget := by
    rw [get?_put] at hget
    split at hget
    next hkey =>
      cases hget
      rw [hkey]
      exact hkept
    next => exact h.kept key' bs' hget
  params := get?_put_ne_none bs h.params
  dust := get?_put_ne_none bs h.dust

/-- Parameters and dust initialise a store without entries. -/
theorem initialised_put_put {p : Params} {d : Dec} {pbs dbs : Bytes}
    (hvalid : p.validate = .ok ())
    (hpbs : Stored.encode Deposit.paramsItem.key Deposit.paramsItem.discriminator p = .ok pbs)
    (hdbs : Stored.encode Deposit.dustItem.key Deposit.dustItem.discriminator d = .ok dbs) :
    ((empty.put Deposit.paramsItem.key pbs).put Deposit.dustItem.key dbs).Initialised where
  -- each entry is the later write or the earlier one
  kept key bs hget := by
    rw [get?_put, get?_put] at hget
    split at hget
    next hkey =>
      cases hget
      subst hkey
      exact .dust rfl hdbs
    split at hget
    next hkey =>
      cases hget
      subst hkey
      exact .params rfl hvalid hpbs
    next => cases hget
  params := by
    apply get?_put_ne_none
    rw [get?_put, if_pos rfl]
    exact nofun
  dust := by
    rw [get?_put, if_pos rfl]
    exact nofun

/-- Only records may go. -/
theorem Initialised.drop (h : s.Initialised) (hparams : Deposit.paramsItem.key ≠ key)
    (hdust : Deposit.dustItem.key ≠ key) : (s.drop key).Initialised where
  kept key' bs' hget := by
    rw [get?_drop] at hget
    split at hget
    next => cases hget
    next => exact h.kept key' bs' hget
  params := by
    rw [get?_drop, if_neg hparams]
    exact h.params
  dust := by
    rw [get?_drop, if_neg hdust]
    exact h.dust

theorem Initialised.putAll {vs : List Validator} {es : List (Bytes × Bytes)}
    (h : s.Initialised) (hes : StoredRecords vs es) : (s.putAll es).Initialised := by
  induction hes generalizing s with
  | nil => exact h
  | cons hv _ ih => exact ih (h.put (.validator hv))

/-! ### The genesis that is held -/

theorem not_base_prefix_paramsKey :
    ¬ Registry.validators.base <+: Deposit.paramsItem.key := by
  decide

theorem not_base_prefix_dustKey : ¬ Registry.validators.base <+: Deposit.dustItem.key := by
  decide

theorem paramsKey_ne_validatorKey (index : String) :
    Deposit.paramsItem.key ≠ Registry.validators.fullKey index := by
  intro h
  apply not_base_prefix_paramsKey
  rw [h]
  exact List.prefix_append _ _

theorem Initialised.exists_params (h : s.Initialised) :
    ∃ (p : Params) (bs : Bytes), p.validate = .ok () ∧
      Stored.encode Deposit.paramsItem.key Deposit.paramsItem.discriminator p = .ok bs ∧
      s.entries.get? Deposit.paramsItem.key = some bs := by
  obtain ⟨bs, hget⟩ := Option.ne_none_iff_exists'.1 h.params
  cases h.kept _ bs hget with
  | params _ hvalid hencode => exact ⟨_, bs, hvalid, hencode, hget⟩
  | dust hkey _ => exact absurd hkey.symm Deposit.dustKey_ne_paramsKey
  | validator hv => exact absurd hv.1 (paramsKey_ne_validatorKey _)

theorem Initialised.exists_dust (h : s.Initialised) :
    ∃ (d : Dec) (bs : Bytes),
      Stored.encode Deposit.dustItem.key Deposit.dustItem.discriminator d = .ok bs ∧
      s.entries.get? Deposit.dustItem.key = some bs := by
  obtain ⟨bs, hget⟩ := Option.ne_none_iff_exists'.1 h.dust
  cases h.kept _ bs hget with
  | params hkey _ _ => exact absurd hkey Deposit.dustKey_ne_paramsKey
  | dust _ hencode => exact ⟨_, bs, hencode, hget⟩
  | validator hv => exact absurd hv.1 (Deposit.dustKey_ne_validatorKey _)

/-- What is found under the registry's keys are records. -/
theorem Initialised.exists_storedAs {bs : Bytes} (h : s.Initialised)
    (hget : s.entries.get? key = some bs) (hbegins : Registry.validators.base <+: key) :
    ∃ v, Validator.StoredAs v (key, bs) := by
  cases h.kept key bs hget with
  | params hkey _ _ => exact absurd (hkey ▸ hbegins) not_base_prefix_paramsKey
  | dust hkey _ => exact absurd (hkey ▸ hbegins) not_base_prefix_dustKey
  | validator hv => exact ⟨_, hv⟩

theorem Initialised.exists_holds (h : s.Initialised) : ∃ g, s.Holds g := by
  obtain ⟨p, pbs, hvalid, hpbs, hparams⟩ := h.exists_params
  obtain ⟨d, dbs, hdbs, hdust⟩ := h.exists_dust
  have hrecords : ∀ e ∈ s.entriesUnder Registry.validators.base, ∃ v, Validator.StoredAs v e := by
    rintro ⟨key, bs⟩ he
    obtain ⟨hget, hbegins⟩ := mem_entriesUnder_iff.1 he
    exact h.exists_storedAs hget hbegins
  obtain ⟨vs, hvs⟩ : ∃ vs, StoredRecords vs (s.entriesUnder Registry.validators.base) :=
    exists_partners hrecords
  -- keys are bound once, and a record stands under the key of its index
  have hnodup : (vs.map Validator.index).Nodup := hvs.nodup_index (s.nodup_entriesUnder _)
  refine ⟨⟨⟨p, d⟩, ⟨vs⟩⟩, ?_, ⟨pbs, hpbs, hparams⟩, ⟨dbs, hdbs, hdust⟩, hvs, ?_⟩
  · exact HookGenesis.validate_eq_ok_iff.2 ⟨DepositGenesis.validate_eq_ok_iff.2 hvalid,
      RegistryGenesis.validate_eq_ok_iff.2 hnodup⟩
  · intro key hnotParams hnotDust hnotRecord
    rcases hget : s.entries.get? key with - | bs
    · rfl
    cases h.kept key bs hget with
    | params hkey _ _ => exact absurd hkey hnotParams
    | dust hkey _ => exact absurd hkey hnotDust
    | validator hv =>
      have hkey : key = Registry.validators.fullKey _ := hv.1
      rw [hkey] at hnotRecord
      exact absurd (List.prefix_append _ _) hnotRecord

end MemStore

/-! ### Invariants of the store -/

/-- A property of stores that no write of the hooks makes false. -/
structure StoreInvariant (P : MemStore → Prop) : Prop where
  put {s key bs} : P s → Kept key bs → P (s.put key bs)
  drop {s} (index : String) : P s → P (s.drop (Registry.validators.fullKey index))

theorem MemStore.initialised_invariant : StoreInvariant MemStore.Initialised where
  put h hkept := h.put hkept
  drop index h :=
    h.drop (paramsKey_ne_validatorKey index) (Deposit.dustKey_ne_validatorKey index)

/-- The property, of the store of a ledger. -/
def Ledger.StoreHas (P : MemStore → Prop) (l : Ledger) : Prop := P l.store

section

variable {P : MemStore → Prop} {ε α : Type}

theorem maintains_of_keeps {x : Action Ledger ε α} (hx : Keeps Ledger.store x) :
    Maintains (Ledger.StoreHas P) x :=
  hx.maintains (q := P)

theorem maintains_pure (a : α) : Maintains (Ledger.StoreHas P) (pure a : Action Ledger ε α) :=
  maintains_of_keeps (Keeps.pure a)

theorem maintains_throw (e : ε) : Maintains (Ledger.StoreHas P) (throw e : Action Ledger ε α) :=
  maintains_of_keeps (Keeps.throw e)

theorem maintains_ofExcept (r : Except ε α) :
    Maintains (Ledger.StoreHas P) (Action.ofExcept r) :=
  maintains_of_keeps (Keeps.ofExcept r)

/-- The bank is no part of the store. -/
theorem maintains_onBank (x : Action MemBank ε α) :
    Maintains (Ledger.StoreHas P) (Ledger.onBank x) :=
  maintains_of_keeps fun _ => rfl

theorem maintains_log_then (level : Level) (text : String) (a : α) :
    Maintains (Ledger.StoreHas P) (do log level text; return a : Action Ledger ε α) :=
  Maintains.bind (maintains_of_keeps (Ledger.keeps_log _ level text)) fun _ => maintains_pure a

end

namespace StoreInvariant

variable {P : MemStore → Prop} (hP : StoreInvariant P)

include hP

theorem maintains_save {α : Type} [Codec α] {item : Item α} {v : α}
    (h : ∀ bs, Stored.encode item.key item.discriminator v = .ok bs → Kept item.key bs) :
    Maintains (Ledger.StoreHas P) (item.save v : Action Ledger StoreError Unit) := by
  intro l hl
  rw [Item.save, Action.run_bind, Action.run_ofExcept]
  rcases hencode : Stored.encode item.key item.discriminator v with e | bs
  · exact hl
  · show Ledger.StoreHas P ((KvStore.set item.key bs).run l).2
    rw [Ledger.run_set]
    split
    · exact hl
    · exact hP.put hl (h bs hencode)

/-! ### The deposit -/

open Deposit

theorem maintains_setDust (v : Dec) :
    Maintains (Ledger.StoreHas P) (setDust v : Action Ledger DepositError Unit) := by
  apply Maintains.mapError
  apply hP.maintains_save
  intro bs hencode
  exact .dust rfl hencode

/-- Parameters are validated before they are written. -/
theorem maintains_setParams (p : Params) :
    Maintains (Ledger.StoreHas P) (setParams p : Action Ledger DepositError Unit) := by
  rcases hvalid : p.validate with e | ⟨⟩
  · intro l hl
    rw [setParams, hvalid]
    exact hl
  · rw [setParams, hvalid]
    apply Maintains.bind (Maintains.mapError _ (maintains_ofExcept _))
    intro _
    apply Maintains.mapError
    apply hP.maintains_save
    intro bs hencode
    exact .params rfl hvalid hencode

theorem maintains_payYield (d : Deposit) (block : BlockContext) (total : Dec) :
    Maintains (Ledger.StoreHas P)
      (d.payYield block total : Action Ledger DepositError (YieldTransfer × Dec)) := by
  apply Maintains.bind (Maintains.mapError _ (maintains_ofExcept _))
  intro amount
  apply Maintains.bind (Maintains.mapError _ (maintains_onBank _))
  intro available
  apply Maintains.ite
  · apply Maintains.bind (hP.maintains_setDust _)
    intro _
    exact maintains_log_then _ _ _
  · apply Maintains.bind (Maintains.mapError _ (maintains_onBank _))
    intro _
    apply Maintains.bind (hP.maintains_setDust _)
    intro _
    exact maintains_log_then _ _ _

theorem maintains_accrue (d : Deposit) (block : BlockContext) :
    Maintains (Ledger.StoreHas P) (d.accrue block : Action Ledger DepositError Accrual) := by
  apply Maintains.bind (maintains_of_keeps (keeps_params _))
  intro p
  apply Maintains.bind (Maintains.mapError _ (maintains_ofExcept _))
  intro earned
  apply Maintains.bind (maintains_of_keeps (keeps_dust _))
  intro carried
  apply Maintains.bind (Maintains.mapError _ (maintains_ofExcept _))
  intro total
  apply Maintains.ite
  · apply Maintains.bind (hP.maintains_setDust _)
    intro _
    exact maintains_log_then _ _ _
  · apply Maintains.bind (hP.maintains_payYield d block total)
    intro _
    exact maintains_pure _

theorem maintains_settle (d : Deposit) (block : BlockContext) :
    Maintains (Ledger.StoreHas P)
      (d.settle block : Action Ledger DepositError SettlementReport) := by
  apply Maintains.bind (hP.maintains_accrue d block)
  intro accrual
  apply Maintains.bind (maintains_of_keeps (keeps_store_sweep d block))
  intro swept
  exact maintains_pure _

theorem maintains_fundModule (d : Deposit) (msg : FundModule) :
    Maintains (Ledger.StoreHas P) (d.fundModule msg : Action Ledger DepositError Event) := by
  have hraised : Maintains (Ledger.StoreHas P)
      (d.raisedParams msg : Action Ledger DepositError (Option Params)) := by
    apply Maintains.ite
    · apply Maintains.bind (maintains_of_keeps (keeps_params _))
      intro p
      exact Maintains.bind (maintains_ofExcept _) fun _ => maintains_pure _
    · exact maintains_pure _
  apply Maintains.bind (maintains_ofExcept _)
  intro _
  apply Maintains.bind hraised
  intro raised
  apply Maintains.bind (Maintains.mapError _ (maintains_onBank _))
  intro _
  cases raised with
  | none => exact maintains_log_then _ _ _
  | some p =>
    apply Maintains.bind (hP.maintains_setParams p)
    intro _
    exact maintains_log_then _ _ _

theorem maintains_updateParams (d : Deposit) (msg : UpdateParams) :
    Maintains (Ledger.StoreHas P) (d.updateParams msg : Action Ledger DepositError Unit) := by
  apply Maintains.ite (maintains_throw _)
  apply Maintains.bind (hP.maintains_setParams msg.params)
  intro _
  exact maintains_of_keeps (Ledger.keeps_log _ _ _)

/-! ### The registry -/

open Registry

theorem maintains_setValidator (v : Validator) :
    Maintains (Ledger.StoreHas P) (setValidator v : Action Ledger RegistryError Unit) := by
  apply Maintains.mapError
  apply hP.maintains_save
  intro bs hencode
  exact .validator ⟨rfl, hencode⟩

theorem maintains_removeValidator (index : String) :
    Maintains (Ledger.StoreHas P) (removeValidator index : Action Ledger RegistryError Unit) := by
  apply Maintains.mapError
  intro l hl
  show Ledger.StoreHas P ((KvStore.delete (validators.fullKey index)).run l).2
  rw [Ledger.run_delete]
  split
  · exact hl
  · exact hP.drop index hl

theorem maintains_onboard (r : Registry) (msg : OnboardValidator) :
    Maintains (Ledger.StoreHas P) (r.onboard msg : Action Ledger RegistryError Event) := by
  have htaken : Maintains (Ledger.StoreHas P)
      (hasValidator msg.memberId : Action Ledger RegistryError Bool) := by
    apply Maintains.mapError
    apply Maintains.bind (maintains_of_keeps (Ledger.keeps_get _ _))
    intro _
    exact maintains_pure _
  apply Maintains.bind (maintains_ofExcept _)
  intro _
  apply Maintains.bind htaken
  intro taken
  apply Maintains.ite (maintains_throw _)
  apply Maintains.bind (maintains_ofExcept _)
  intro _
  apply Maintains.bind (hP.maintains_setValidator msg.record)
  intro _
  exact maintains_log_then _ _ _

end StoreInvariant

end BlockHooks
