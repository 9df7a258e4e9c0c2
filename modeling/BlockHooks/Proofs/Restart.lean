/-
BlockHooks/Proofs/Restart.lean

A restart from an exported genesis changes nothing.

A store is reached by importing a valid genesis and then settling, funding,
updating parameters, onboarding and removing validators, in any order
(`Reached`).  Between two of these calls everything but the entries may be
changed from outside: balances, groups, metrics, and whether the store or
the bank fails.

Every store so reached is initialised (`Reached.initialised`), and so holds
a genesis.  That genesis is what is exported, it goes through its JSON text
unchanged, and importing it gives the same store
(`restart_changes_nothing`).
-/
import BlockHooks.Proofs.Abort
import BlockHooks.Proofs.Initialised
import BlockHooks.Proofs.JsonForms

namespace BlockHooks

/-- What may be called once a genesis was imported. -/
inductive StoreCall where
  | beginBlock (block : BlockContext)
  | fundModule (msg : FundModule)
  | updateParams (msg : UpdateParams)
  | onboard (msg : OnboardValidator)
  | removeValidator (index : String)

/-- The store that a call leaves, whether it succeeds or fails. -/
def StoreCall.perform (h : Hooks) (n : Node Ledger) : StoreCall → MemStore
  | .beginBlock block => ((h.beginBlock block).run n).2.world.store
  | .fundModule msg => ((h.deposit.fundModule msg).run n.world).2.store
  | .updateParams msg => ((h.deposit.updateParams msg).run n.world).2.store
  | .onboard msg => ((h.registry.onboard msg).run n.world).2.store
  | .removeValidator index => ((Registry.removeValidator index).run n.world).2.store

/-- The stores that a valid genesis, with texts that are not too long to be
stored, and calls lead to. -/
inductive Reached (h : Hooks) : MemStore → Prop
  | genesis (g : HookGenesis) (bank : MemBank) (groups : MemGroups) : g.validate = .ok () →
      (∀ v ∈ g.registry.validators, v.Short) →
      Reached h ((Hooks.initGenesis g).run (⟨.empty, bank, groups⟩ : Ledger)).2.store
  | call {s : MemStore} (n : Node Ledger) (c : StoreCall) : Reached h s →
      n.world.store.entries = s.entries → Reached h (c.perform h n)

variable {h : Hooks}

/-! ### Reached stores are initialised -/

/-- Importing a valid genesis initialises a store without entries. -/
theorem initialised_of_initGenesis {g : HookGenesis} (bank : MemBank) (groups : MemGroups)
    (hvalid : g.validate = .ok ()) (hshort : ∀ v ∈ g.registry.validators, v.Short) :
    ((Hooks.initGenesis g).run (⟨.empty, bank, groups⟩ : Ledger)).2.store.Initialised := by
  obtain ⟨es, hes⟩ := exists_storedRecords hshort
  have hparams := DepositGenesis.validate_eq_ok_iff.1 (HookGenesis.validate_eq_ok_iff.1 hvalid).1
  rw [run_initGenesis (l := ⟨.empty, bank, groups⟩) rfl hvalid rfl rfl hes]
  -- parameters and dust initialise the store, and the records keep it so
  exact (MemStore.initialised_put_put hparams rfl rfl).putAll hes

theorem StoreCall.initialised_perform {n : Node Ledger} (c : StoreCall)
    (hn : n.world.store.Initialised) : (c.perform h n).Initialised := by
  have hP := MemStore.initialised_invariant
  cases c with
  | beginBlock block =>
    have hsettle := hP.maintains_settle h.deposit block n.world hn
    show ((h.beginBlock block).run n).2.world.store.Initialised
    rw [h.run_beginBlock]
    rcases e : (h.deposit.settle block).run n.world with ⟨err | r, l⟩
    · rw [e] at hsettle
      exact hsettle
    · rw [e] at hsettle
      exact hsettle
  | fundModule msg => exact hP.maintains_fundModule h.deposit msg n.world hn
  | updateParams msg => exact hP.maintains_updateParams h.deposit msg n.world hn
  | onboard msg => exact hP.maintains_onboard h.registry msg n.world hn
  | removeValidator index => exact hP.maintains_removeValidator index n.world hn

/-- Whether a store fails does not matter to what is in it. -/
theorem MemStore.Initialised.of_entries_eq {s t : MemStore} (hs : s.Initialised)
    (h : t.entries = s.entries) : t.Initialised where
  kept key bs hget := hs.kept key bs (by rwa [h] at hget)
  params := by
    rw [h]
    exact hs.params
  dust := by
    rw [h]
    exact hs.dust

theorem Reached.initialised {s : MemStore} (hs : Reached h s) : s.Initialised := by
  induction hs with
  | genesis g bank groups hvalid hshort => exact initialised_of_initGenesis _ _ hvalid hshort
  | call n c _ hentries ih => exact c.initialised_perform (ih.of_entries_eq hentries)

/-- **A restart from an exported genesis changes nothing.**  From a store that
was reached and is not failing, a genesis can be exported; its text is read
back as the same, valid genesis; and imported into a store without entries it
gives the same store, so that whatever is called next ends alike on both. -/
theorem restart_changes_nothing (h : Hooks) (s : MemStore) (hreached : Reached h s)
    (hworks : s.failing = false) :
    ∃ g : HookGenesis,
      (∀ bank groups, Hooks.exportGenesis.run (⟨s, bank, groups⟩ : Ledger)
        = (.ok g, ⟨s, bank, groups⟩)) ∧
      g.validate = .ok () ∧ HookGenesis.ofJson (Json.text g) = .ok g ∧
      ∀ bank groups, (Hooks.initGenesis g).run (⟨.empty, bank, groups⟩ : Ledger)
        = (.ok (), ⟨s, bank, groups⟩) := by
  obtain ⟨g, hholds⟩ := hreached.initialised.exists_holds
  refine ⟨g, fun bank groups => ?_, hholds.valid, HookGenesis.ofJson_text hholds.valid,
    fun bank groups => ?_⟩
  · exact run_exportGenesis (l := ⟨s, bank, groups⟩) hworks hholds
  · exact run_initGenesis_empty (l := ⟨s, bank, groups⟩) hworks hholds

namespace Scenario

/-! ### A run of calls -/

/-- Two records, the one with the larger key first; it has texts
that have to be escaped. -/
def restartGenesis : HookGenesis where
  deposit := ⟨params, quarter⟩
  registry := ⟨[
    ⟨"m2", "m2", ⟨"veranavaloper1b"⟩, "key \"2\"\n", Validator.activeStatus, -1⟩,
    ⟨"m1", "m1", ⟨"veranavaloper1a"⟩, "", Validator.activeStatus, 1731536000⟩]⟩

/-- A store beside a bank and a book with nothing in them. -/
def ledgerOf (store : MemStore) : Ledger := ⟨store, (ledger quarter).bank, .empty⟩

/-- The store that a call leaves, in such a ledger. -/
def called (store : MemStore) (c : StoreCall) : MemStore :=
  c.perform hooks ⟨ledgerOf store, .zero⟩

/-- A settlement that defers, and then a record comes and another one goes. -/
def reachedStore : MemStore :=
  [StoreCall.beginBlock ⟨1, 1700000005⟩,
    .onboard ⟨⟨"verana1policy"⟩, "m3", ⟨"veranavaloper1c"⟩, "", 0⟩,
    .onboard ⟨⟨"verana1policy"⟩, "m2", ⟨"veranavaloper1d"⟩, "", 0⟩,
    .removeValidator "m1"].foldl called
    ((Hooks.initGenesis restartGenesis).run (ledgerOf .empty)).2.store

theorem reached_foldl_called {s : MemStore} (hs : Reached hooks s) (cs : List StoreCall) :
    Reached hooks (cs.foldl called s) := by
  induction cs generalizing s with
  | nil => exact hs
  | cons c cs ih => exact ih (.call ⟨ledgerOf s, .zero⟩ c hs rfl)

end Scenario

open Scenario in
theorem restart_changes_nothing_reachedStore :
    Reached hooks reachedStore ∧ reachedStore.failing = false ∧
      ∃ g : HookGenesis,
        Hooks.exportGenesis.run (ledgerOf reachedStore) = (.ok g, ledgerOf reachedStore) ∧
        g.registry.validators.map Validator.index = ["m2", "m3"] ∧
        HookGenesis.ofJson (Json.text g) = .ok g ∧
        (Hooks.initGenesis g).run (ledgerOf .empty) = (.ok (), ledgerOf reachedStore) := by
  have hvalid : restartGenesis.validate = .ok () := by
    decide +kernel
  have hshort : ∀ v ∈ restartGenesis.registry.validators, v.Short := by
    show ∀ v ∈ restartGenesis.registry.validators, ∀ s ∈ v.texts, (utf8 s).length < UInt32.size
    decide +kernel
  have hreached : Reached hooks reachedStore :=
    reached_foldl_called (.genesis restartGenesis _ _ hvalid hshort) _
  have hworks : reachedStore.failing = false := by
    decide +kernel
  have hindices : (Hooks.exportGenesis.run (ledgerOf reachedStore)).1.map
      (fun g => g.registry.validators.map Validator.index) = .ok ["m2", "m3"] := by
    decide +kernel
  obtain ⟨g, hexport, -, hread, himport⟩ :=
    restart_changes_nothing hooks reachedStore hreached hworks
  have hrun : Hooks.exportGenesis.run (ledgerOf reachedStore)
      = (.ok g, ledgerOf reachedStore) := hexport _ _
  rw [hrun] at hindices
  exact ⟨hreached, hworks, g, hrun, Except.ok.inj hindices, hread, himport _ _⟩

end BlockHooks
