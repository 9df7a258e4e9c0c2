/-
BlockHooks/Proofs/Independence.lean

The deposit and the registry do not notice each other.

They share a store.  The deposit keeps two values there, the registry any
number of records, each under a key that is made from an index.  No index,
however it is spelled, makes the key of one of the two values, so a request to
the deposit has nothing to do with what is stored under the key of a record
(`Deposit.Request.ignores_serve`).  A request to the registry has to do with
that one key and with nothing else (`Registry.Request.commutes_serve`).

That holds of requests that are refused, of a store and a bank that fail, and
of a store that holds anything at all.  So requests of the two kinds may be
interleaved in any way: each is answered as if those of the other kind were
not there, and the ledger is the same in the end
(`deposit_and_registry_independent`).
-/
import BlockHooks.Proofs.Commuting
import BlockHooks.Proofs.RecordMap

namespace BlockHooks

/-! ### Writes under different keys -/

namespace MemStore

variable {key key' : Bytes}

theorem put_comm (s : MemStore) (value value' : Bytes) (h : key ≠ key') :
    (s.put key value).put key' value' = (s.put key' value').put key value := by
  refine ext_get? rfl fun k => ?_
  rw [get?_put, get?_put, get?_put, get?_put]
  by_cases hk : k = key
  · rw [if_pos hk, if_neg (hk ▸ h), if_pos hk]
  · rw [if_neg hk, if_neg hk]

theorem put_drop_comm (s : MemStore) (value : Bytes) (h : key ≠ key') :
    (s.put key value).drop key' = (s.drop key').put key value := by
  refine ext_get? rfl fun k => ?_
  rw [get?_drop, get?_put, get?_put, get?_drop]
  by_cases hk : k = key
  · rw [if_pos hk, if_neg (hk ▸ h), if_pos hk]
  · rw [if_neg hk, if_neg hk]

end MemStore

/-- A computation replaces the store by `f` of it, unless the store is failing. -/
structure Writes (f : MemStore → MemStore) (x : Action Ledger StoreError Unit) : Prop where
  failing : ∀ s, (f s).failing = s.failing
  run : ∀ l, x.run l =
    if l.store.failing then (.error (.backend "injected store failure"), l)
    else (.ok (), { l with store := f l.store })

theorem writes_set (key value : Bytes) :
    Writes (·.put key value) (KvStore.set key value : Action Ledger StoreError Unit) :=
  ⟨fun _ => rfl, Ledger.run_set key value⟩

theorem writes_delete (key : Bytes) :
    Writes (·.drop key) (KvStore.delete key : Action Ledger StoreError Unit) :=
  ⟨fun _ => rfl, Ledger.run_delete key⟩

/-- A write is refused by a failing store only, and leaves it as failing as it
was. -/
theorem Writes.commutes {f g : MemStore → MemStore} {x y : Action Ledger StoreError Unit}
    (hx : Writes f x) (hy : Writes g y) (h : ∀ s, g (f s) = f (g s)) :
    Commutes x.outcome y.outcome := by
  have hboth : ∀ l : Ledger, (x.run (y.run l).2).1 = (x.run l).1 ∧
      (y.run (x.run l).2).1 = (y.run l).1 ∧ (y.run (x.run l).2).2 = (x.run (y.run l).2).2 := by
    intro l
    rcases hfailing : l.store.failing with - | -
    · have hf : (f l.store).failing = false := (hx.failing _).trans hfailing
      have hg : (g l.store).failing = false := (hy.failing _).trans hfailing
      simp [hx.run, hy.run, hfailing, hf, hg, h]
    · simp [hx.run, hy.run, hfailing]
  exact ⟨fun l => (hboth l).1, fun l => (hboth l).2.1, fun l => (hboth l).2.2⟩

/-! ### Ignoring a key -/

/-- A computation has nothing to do with what is stored under `key`: it commutes
with all that can be done there. -/
structure Ignores {ε α : Type} (key : Bytes) (x : Action Ledger ε α) : Prop where
  get : Commutes x.outcome (KvStore.get key : Action Ledger StoreError _).outcome
  set : ∀ value,
    Commutes x.outcome (KvStore.set key value : Action Ledger StoreError Unit).outcome
  delete : Commutes x.outcome (KvStore.delete key : Action Ledger StoreError Unit).outcome

namespace Ignores

variable {ε ε' α β : Type} {key key' : Bytes}

theorem pure (a : α) : Ignores key (Pure.pure a : Action Ledger ε α) where
  get := Action.commutes_pure a _
  set _ := Action.commutes_pure a _
  delete := Action.commutes_pure a _

theorem throw (e : ε) : Ignores key (MonadExcept.throw e : Action Ledger ε α) where
  get := Action.commutes_throw e _
  set _ := Action.commutes_throw e _
  delete := Action.commutes_throw e _

theorem ofExcept (r : Except ε α) : Ignores key (Action.ofExcept r : Action Ledger ε α) where
  get := Action.commutes_ofExcept r _
  set _ := Action.commutes_ofExcept r _
  delete := Action.commutes_ofExcept r _

theorem mapError {x : Action Ledger ε α} (f : ε → ε') (hx : Ignores key x) :
    Ignores key (Action.mapError f x) where
  get := Action.commutes_mapError f hx.get
  set value := Action.commutes_mapError f (hx.set value)
  delete := Action.commutes_mapError f hx.delete

theorem bind {x : Action Ledger ε α} {f : α → Action Ledger ε β} (hx : Ignores key x)
    (hf : ∀ a, Ignores key (f a)) : Ignores key (x >>= f) where
  get := Action.commutes_bind hx.get fun a => (hf a).get
  set value := Action.commutes_bind (hx.set value) fun a => (hf a).set value
  delete := Action.commutes_bind hx.delete fun a => (hf a).delete

theorem ite {p : Prop} [Decidable p] {x y : Action Ledger ε α} (hx : Ignores key x)
    (hy : Ignores key y) : Ignores key (if p then x else y) := by
  split
  · exact hx
  · exact hy

theorem log_then (level : Level) (text : String) (a : α) :
    Ignores key (do log level text; return a : Action Ledger ε α) :=
  pure a

/-! ### Primitives -/

theorem onBank (x : Action MemBank ε α) : Ignores key (Ledger.onBank x) where
  get := ⟨fun _ => rfl, fun _ => rfl, fun _ => rfl⟩
  set _ := ⟨fun _ => rfl, fun _ => rfl, fun _ => rfl⟩
  delete := ⟨fun _ => rfl, fun _ => rfl, fun _ => rfl⟩

/-- What is only looked at cannot be disturbed by writes elsewhere. -/
theorem kvGet (h : key' ≠ key) :
    Ignores key (KvStore.get key' : Action Ledger StoreError (Option Bytes)) := by
  have hreads : ∀ l : Ledger, ((KvStore.get key').run l).2 = l := fun l => by
    rw [Ledger.run_get]
  have hseen : ∀ {l l' : Ledger}, l'.bytesAt key' = l.bytesAt key' →
      ((KvStore.get key').run l').1 = ((KvStore.get key').run l).1 := by
    intro l l' hsame
    rw [Ledger.run_get, Ledger.run_get, hsame]
  refine ⟨Commutes.of_reads hreads fun l => hseen ?_,
    fun value => Commutes.of_reads hreads fun l => hseen ?_,
    Commutes.of_reads hreads fun l => hseen ?_⟩
  · exact Ledger.keeps_get _ key l
  · exact Ledger.keeps_set_of_ne value h l
  · exact Ledger.keeps_delete_of_ne h l

theorem kvSet (value : Bytes) (h : key' ≠ key) :
    Ignores key (KvStore.set key' value : Action Ledger StoreError Unit) where
  get := ((kvGet h.symm).set value).symm
  set value' := (writes_set key' value).commutes (writes_set key value')
    fun s => s.put_comm value value' h
  delete := (writes_set key' value).commutes (writes_delete key)
    fun s => s.put_drop_comm value h

theorem load? [Codec α] {item : Item α} (h : item.key ≠ key) :
    Ignores key (item.load? : Action Ledger StoreError (Option α)) := by
  apply (kvGet h).bind
  intro found
  cases found with
  | none => exact pure _
  | some bs => exact (ofExcept _).bind fun v => pure _

theorem save [Codec α] {item : Item α} (v : α) (h : item.key ≠ key) :
    Ignores key (item.save v : Action Ledger StoreError Unit) :=
  (ofExcept _).bind fun bs => kvSet bs h

end Ignores

/-! ### Requests to the deposit -/

namespace Deposit

/-- What may be asked of the deposit. -/
inductive Request where
  | settle (block : BlockContext)
  | fundModule (msg : FundModule)
  | updateParams (msg : UpdateParams)
  | setDust (v : Dec)
  | addToDust (amount : Dec)

/-- What the deposit may answer. -/
inductive Answer where
  | settled (report : SettlementReport)
  | funded (event : Event)
  | done
  | dust (v : Dec)

/-- What is done for a request. -/
def Request.serve (d : Deposit) : Request → Action Ledger DepositError Answer
  | .settle block => do return .settled (← d.settle block)
  | .fundModule msg => do return .funded (← d.fundModule msg)
  | .updateParams msg => do d.updateParams msg; return .done
  | .setDust v => do Deposit.setDust v; return .done
  | .addToDust amount => do return .dust (← Deposit.addToDust amount)

section

variable {key : Bytes} (d : Deposit) (block : BlockContext)

theorem ignores_params (h : paramsItem.key ≠ key) :
    Ignores key (params : Action Ledger DepositError Params) := by
  apply ((Ignores.load? h).mapError _).bind
  intro found
  cases found with
  | none => exact Ignores.throw _
  | some p => exact Ignores.pure p

theorem ignores_setParams (p : Params) (h : paramsItem.key ≠ key) :
    Ignores key (setParams p : Action Ledger DepositError Unit) :=
  ((Ignores.ofExcept _).mapError _).bind fun _ => (Ignores.save p h).mapError _

theorem ignores_dust (h : dustItem.key ≠ key) :
    Ignores key (dust : Action Ledger DepositError Dec) :=
  ((Ignores.load? h).mapError _).bind fun _ => Ignores.pure _

theorem ignores_setDust (v : Dec) (h : dustItem.key ≠ key) :
    Ignores key (setDust v : Action Ledger DepositError Unit) :=
  (Ignores.save v h).mapError _

theorem ignores_addToDust (amount : Dec) (h : dustItem.key ≠ key) :
    Ignores key (addToDust amount : Action Ledger DepositError Dec) := by
  apply (ignores_dust h).bind
  intro carried
  apply ((Ignores.ofExcept _).mapError _).bind
  intro total
  apply (ignores_setDust total h).bind
  intro _
  exact Ignores.log_then _ _ _

theorem ignores_payYield (total : Dec) (h : dustItem.key ≠ key) :
    Ignores key (d.payYield block total : Action Ledger DepositError (YieldTransfer × Dec)) := by
  apply ((Ignores.ofExcept _).mapError _).bind
  intro amount
  apply ((Ignores.onBank _).mapError _).bind
  intro available
  apply Ignores.ite
  · apply (ignores_setDust _ h).bind
    intro _
    exact Ignores.log_then _ _ _
  · apply ((Ignores.onBank _).mapError _).bind
    intro _
    apply (ignores_setDust _ h).bind
    intro _
    exact Ignores.log_then _ _ _

theorem ignores_accrue (hparams : paramsItem.key ≠ key) (hdust : dustItem.key ≠ key) :
    Ignores key (d.accrue block : Action Ledger DepositError Accrual) := by
  apply (ignores_params hparams).bind
  intro p
  apply ((Ignores.ofExcept _).mapError _).bind
  intro earned
  apply (ignores_dust hdust).bind
  intro carried
  apply ((Ignores.ofExcept _).mapError _).bind
  intro total
  apply Ignores.ite
  · apply (ignores_setDust _ hdust).bind
    intro _
    exact Ignores.log_then _ _ _
  · exact (d.ignores_payYield block total hdust).bind fun _ => Ignores.pure _

theorem ignores_sweep : Ignores key (d.sweep block : Action Ledger DepositError UInt64) := by
  apply ((Ignores.onBank _).mapError _).bind
  intro excess
  apply Ignores.ite (Ignores.pure _)
  apply ((Ignores.onBank _).mapError _).bind
  intro _
  exact Ignores.log_then _ _ _

theorem ignores_settle (hparams : paramsItem.key ≠ key) (hdust : dustItem.key ≠ key) :
    Ignores key (d.settle block : Action Ledger DepositError SettlementReport) := by
  apply (d.ignores_accrue block hparams hdust).bind
  intro accrual
  exact (d.ignores_sweep block).bind fun _ => Ignores.pure _

theorem ignores_fundModule (msg : FundModule) (h : paramsItem.key ≠ key) :
    Ignores key (d.fundModule msg : Action Ledger DepositError Event) := by
  have hraised : Ignores key
      (d.raisedParams msg : Action Ledger DepositError (Option Params)) := by
    apply Ignores.ite
    · apply (ignores_params h).bind
      intro p
      exact (Ignores.ofExcept _).bind fun _ => Ignores.pure _
    · exact Ignores.pure _
  apply (Ignores.ofExcept _).bind
  intro _
  apply hraised.bind
  intro raised
  apply ((Ignores.onBank _).mapError _).bind
  intro _
  cases raised with
  | none => exact Ignores.log_then _ _ _
  | some p =>
    apply (ignores_setParams p h).bind
    intro _
    exact Ignores.log_then _ _ _

theorem ignores_updateParams (msg : UpdateParams) (h : paramsItem.key ≠ key) :
    Ignores key (d.updateParams msg : Action Ledger DepositError Unit) := by
  apply Ignores.ite (Ignores.throw _)
  apply (ignores_setParams msg.params h).bind
  intro _
  exact Ignores.pure ()

end

/-- The records of the registry are out of the deposit's sight. -/
theorem Request.ignores_serve (d : Deposit) (q : Request) (index : String) :
    Ignores (Registry.validators.fullKey index) (q.serve d) := by
  have hparams := MemStore.paramsKey_ne_validatorKey index
  have hdust := dustKey_ne_validatorKey index
  cases q with
  | settle block => exact (d.ignores_settle block hparams hdust).bind fun _ => Ignores.pure _
  | fundModule msg => exact (d.ignores_fundModule msg hparams).bind fun _ => Ignores.pure _
  | updateParams msg => exact (d.ignores_updateParams msg hparams).bind fun _ => Ignores.pure _
  | setDust v => exact (ignores_setDust v hdust).bind fun _ => Ignores.pure _
  | addToDust amount => exact (ignores_addToDust amount hdust).bind fun _ => Ignores.pure _

end Deposit

/-! ### Requests to the registry -/

namespace Registry

/-- What is done for a request; one that onboards is answered by an event. -/
def Request.serve (r : Registry) : Request → Action Ledger RegistryError (Option Event)
  | .onboard msg => do return some (← r.onboard msg)
  | .set v => do setValidator v; return none
  | .remove index => do removeValidator index; return none

variable {ε α : Type} {x : Action Ledger ε α}

theorem commutes_setValidator (v : Validator) (h : Ignores (validators.fullKey v.index) x) :
    Commutes (setValidator v : Action Ledger RegistryError Unit).outcome x.outcome := by
  apply Action.commutes_mapError
  apply Action.commutes_bind (Action.commutes_ofExcept _ _)
  intro bs
  exact (h.set bs).symm

theorem commutes_onboard (r : Registry) (msg : OnboardValidator)
    (h : Ignores (validators.fullKey msg.memberId) x) :
    Commutes (r.onboard msg : Action Ledger RegistryError Event).outcome x.outcome := by
  have htaken : Commutes (hasValidator msg.memberId : Action Ledger RegistryError Bool).outcome
      x.outcome :=
    Action.commutes_mapError _ (Action.commutes_bind h.get.symm fun _ => Action.commutes_pure _ _)
  apply Action.commutes_bind (Action.commutes_ofExcept _ _)
  intro _
  apply Action.commutes_bind htaken
  intro taken
  cases taken with
  | true => exact Action.commutes_throw _ _
  | false =>
    apply Action.commutes_bind (Action.commutes_ofExcept _ _)
    intro _
    apply Action.commutes_bind (commutes_setValidator msg.record h)
    intro _
    exact Action.commutes_pure _ _

/-- A request to the registry does not notice what ignores the key of its
record, and is not noticed by it. -/
theorem Request.commutes_serve (r : Registry) (q : Request)
    (h : Ignores (validators.fullKey q.target) x) :
    Commutes (q.serve r).outcome x.outcome := by
  cases q with
  | onboard msg =>
    exact Action.commutes_bind (r.commutes_onboard msg h) fun _ => Action.commutes_pure _ _
  | set v =>
    exact Action.commutes_bind (commutes_setValidator v h) fun _ => Action.commutes_pure _ _
  | remove index =>
    apply Action.commutes_bind (Action.commutes_mapError _ h.delete.symm)
    intro _
    exact Action.commutes_pure _ _

end Registry

/-! ### Both together -/

/-- Serves requests to the deposit, one after the other. -/
def Deposit.serveAll (d : Deposit) (qs : List Deposit.Request) :
    StateM Ledger (List (Except DepositError Deposit.Answer)) :=
  qs.mapM fun q => (q.serve d).outcome

/-- Serves requests to the registry, one after the other. -/
def Registry.serveAll (r : Registry) (qs : List Registry.Request) :
    StateM Ledger (List (Except RegistryError (Option Event))) :=
  qs.mapM fun q => (q.serve r).outcome

/-- Serves requests of both kinds in the order in which they come. -/
def serveMixed (d : Deposit) (r : Registry) (qs : List (Deposit.Request ⊕ Registry.Request)) :
    StateM Ledger
      (List (Except DepositError Deposit.Answer ⊕ Except RegistryError (Option Event))) :=
  interleaved (fun q => (q.serve d).outcome) (fun q => (q.serve r).outcome) qs

theorem commutes_serve (d : Deposit) (r : Registry) (q : Deposit.Request) (q' : Registry.Request) :
    Commutes (q.serve d).outcome (q'.serve r).outcome :=
  (q'.commutes_serve r (q.ignores_serve d q'.target)).symm

/-- **The deposit and the registry do not notice each other.**  Whatever the
store and the bank hold and however they fail, a request to the deposit and
one to the registry are answered alike in either order, and both orders lead
to the same ledger.  And however requests of the two kinds are interleaved,
the deposit answers its own as if there were no others, so does the registry,
and the ledger is the one that all requests to the deposit followed by all
requests to the registry lead to. -/
theorem deposit_and_registry_independent (d : Deposit) (r : Registry) :
    (∀ (q : Deposit.Request) (q' : Registry.Request) (l : Ledger),
      ((q.serve d).run ((q'.serve r).run l).2).1 = ((q.serve d).run l).1 ∧
      ((q'.serve r).run ((q.serve d).run l).2).1 = ((q'.serve r).run l).1 ∧
      ((q'.serve r).run ((q.serve d).run l).2).2 = ((q.serve d).run ((q'.serve r).run l).2).2) ∧
    ∀ (qs : List (Deposit.Request ⊕ Registry.Request)) (l : Ledger),
      lefts ((serveMixed d r qs).run l).1 = ((d.serveAll (lefts qs)).run l).1 ∧
      rights ((serveMixed d r qs).run l).1 = ((r.serveAll (rights qs)).run l).1 ∧
      ((serveMixed d r qs).run l).2
        = ((r.serveAll (rights qs)).run ((d.serveAll (lefts qs)).run l).2).2 := by
  refine ⟨fun q q' l => ?_, fun qs l => run_interleaved (commutes_serve d r) qs l⟩
  have h : Commutes (q.serve d).outcome (q'.serve r).outcome := commutes_serve d r q q'
  exact ⟨h.left l, h.right l, h.state l⟩

end BlockHooks
