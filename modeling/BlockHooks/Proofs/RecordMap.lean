/-
BlockHooks/Proofs/RecordMap.lean

The registry is a finite map from indices to records.

`recordMap l` is the map that a ledger stands for: an index is bound to the
record that is read under its key.  As long as the records were written by
the registry (`Written`), each under the key of its own index, a request
does to this map what it says (`Request.run_perform`): onboarding binds an
index that was not bound, setting binds one whether or not it was, removing
unbinds one, and what is refused changes nothing at all.  No two indices
share a key, however they are spelled, so nothing else is rebound.

What can be asked of the registry is answered from the map: the record of an
index, all records in the order of their indices, who is listed, and the
pages put together.  `behaves_as_map` says so of the store after any
requests.
-/
import Mathlib.Logic.Function.Basic
import BlockHooks.Proofs.Paging
import BlockHooks.Proofs.UniqueForms
import BlockHooks.Proofs.Whitelist

namespace BlockHooks

open BlockHooks.Action (Maintains)

namespace Registry

/-! ### The map of a ledger -/

/-- The record that each index is bound to. -/
abbrev RecordMap := String → Option Validator

/-- What a ledger binds an index to: the record that is read under its key. -/
def recordMap (l : Ledger) : RecordMap := fun index =>
  (l.store.entries.get? (validators.fullKey index)).bind fun bs =>
    (Stored.decode (validators.fullKey index) validators.discriminator bs).toOption

/-- The store works, and under the keys of the registry there are records
only, each under the key of its own index. -/
abbrev Written (l : Ledger) : Prop := RecordsAre (fun _ => True) l

variable {l : Ledger} {index : String} {v : Validator} {bs : Bytes}

theorem recordMap_of_entry (hstored : v.StoredAs (validators.fullKey index, bs))
    (hget : l.store.entries.get? (validators.fullKey index) = some bs) :
    recordMap l index = some v := by
  have hread : Stored.decode (validators.fullKey index) validators.discriminator bs = .ok v :=
    Stored.decode_of_encode hstored.2
  rw [recordMap, hget, Option.bind_some, hread]
  rfl

/-- Under the key of an index there is nothing, or the form of the record that
the index is bound to. -/
theorem Written.entry_cases (h : Written l) (index : String) :
    (l.store.entries.get? (validators.fullKey index) = none ∧ recordMap l index = none) ∨
      ∃ v bs, l.store.entries.get? (validators.fullKey index) = some bs ∧
        v.StoredAs (validators.fullKey index, bs) ∧ recordMap l index = some v := by
  have hfound := h (validators.fullKey index) (List.prefix_append _ _)
  rw [Ledger.bytesAt, MemStore.bytesAt_of_working h.working] at hfound
  rcases hget : l.store.entries.get? (validators.fullKey index) with - | bs
  · exact .inl ⟨rfl, by rw [recordMap, hget]; rfl⟩
  · rw [hget] at hfound
    cases hfound with
    | record hstored _ => exact .inr ⟨_, bs, rfl, hstored, recordMap_of_entry hstored hget⟩

theorem Written.recordMap_eq_some_iff (h : Written l) : recordMap l index = some v ↔
    ∃ bs, l.store.entries.get? (validators.fullKey index) = some bs ∧
      v.StoredAs (validators.fullKey index, bs) := by
  constructor
  · intro hbound
    rcases h.entry_cases index with ⟨-, hnone⟩ | ⟨w, bs, hget, hstored, hsome⟩
    · rw [hnone] at hbound
      cases hbound
    · rw [hsome] at hbound
      cases hbound
      exact ⟨bs, hget, hstored⟩
  · rintro ⟨bs, hget, hstored⟩
    exact recordMap_of_entry hstored hget

/-! ### Rebinding one index -/

/-- `l'` is `l` but for what is bound to one index. -/
structure Rebound (index : String) (bound : Option Validator) (l l' : Ledger) : Prop where
  map : recordMap l' = Function.update (recordMap l) index bound
  others : ∀ key, key ≠ validators.fullKey index → l'.bytesAt key = l.bytesAt key
  bank : l'.bank = l.bank
  groups : l'.groups = l.groups

/-- A store that differs under the key of one index only. -/
theorem rebound_of_get? {s : MemStore} {bound : Option Validator}
    (hself : recordMap { l with store := s } index = bound)
    (hget : ∀ key, key ≠ validators.fullKey index →
      s.entries.get? key = l.store.entries.get? key)
    (hfailing : s.failing = l.store.failing) : Rebound index bound l { l with store := s } where
  map := by
    funext index'
    by_cases hindex : index' = index
    · subst hindex
      rw [Function.update_self, hself]
    · rw [Function.update_of_ne hindex, recordMap, recordMap,
        hget _ (hindex ∘ validators.fullKey_injective)]
  others key hkey := by
    show s.bytesAt key = l.store.bytesAt key
    rw [MemStore.bytesAt, MemStore.bytesAt, hget key hkey, hfailing]
  bank := rfl
  groups := rfl

theorem rebound_put (hstored : v.StoredAs (validators.fullKey index, bs)) :
    Rebound index (some v) l
      { l with store := l.store.put (validators.fullKey index) bs } := by
  apply rebound_of_get?
  · exact recordMap_of_entry hstored (by rw [MemStore.get?_put, if_pos rfl])
  · intro key hkey
    rw [MemStore.get?_put, if_neg hkey]
  · rfl

theorem rebound_drop : Rebound index none l
    { l with store := l.store.drop (validators.fullKey index) } := by
  apply rebound_of_get?
  · rw [recordMap, MemStore.get?_drop, if_pos rfl]
    rfl
  · intro key hkey
    rw [MemStore.get?_drop, if_neg hkey]
  · rfl

/-! ### What the three requests do -/

theorem maintains_written_setValidator (v : Validator) :
    Maintains Written (setValidator v : Action Ledger RegistryError Unit) :=
  maintains_recordsAre_setValidator trivial

theorem exists_run_setValidator (h : l.Working) (hshort : v.Short) :
    ∃ l', (setValidator v).run l = (.ok (), l') ∧ Rebound v.index (some v) l l' := by
  obtain ⟨bs, hencode⟩ := Stored.exists_encode_iff.2 (Codec.hasForm_validator_iff.2 hshort)
  refine ⟨{ l with store := l.store.put (validators.fullKey v.index) bs }, ?_,
    rebound_put ⟨rfl, hencode⟩⟩
  exact Action.run_mapError_eq_ok_iff.2 ((Item.run_save_eq_ok_iff _).2 ⟨h, bs, hencode, rfl⟩)

theorem exists_run_removeValidator (h : l.Working) (index : String) :
    ∃ l', (removeValidator index).run l = (.ok (), l') ∧ Rebound index none l l' := by
  refine ⟨{ l with store := l.store.drop (validators.fullKey index) }, ?_, rebound_drop⟩
  apply Action.run_mapError_eq_ok_iff.2
  show (KvStore.delete (validators.fullKey index)).run l = _
  rw [Ledger.run_delete, if_neg (by rw [h]; exact Bool.false_ne_true)]

theorem run_hasValidator (h : Written l) (index : String) :
    (hasValidator index).run l = (.ok (recordMap l index).isSome, l) := by
  apply Action.run_mapError_eq_ok_iff.2
  show (KvStore.has (validators.fullKey index)).run l = _
  have hget : (KvStore.get (validators.fullKey index)).run l
      = (.ok (l.store.entries.get? (validators.fullKey index)), l) := by
    rw [Ledger.run_get, Ledger.bytesAt, MemStore.bytesAt_of_working h.working]
  rw [KvStore.has, Action.run_bind_ok hget, Action.run_pure]
  rcases h.entry_cases index with ⟨hnone, hfree⟩ | ⟨v, bs, hsome, -, hbound⟩
  · rw [hnone, hfree]
    rfl
  · rw [hsome, hbound]
    rfl

end Registry

namespace OnboardValidator

/-- A request that the registry has nothing against: who makes it has an
address, it names a member whose index is free, and the operator carries the
registry's first part. -/
def Accepted (r : Registry) (m : Registry.RecordMap) (msg : OnboardValidator) : Prop :=
  msg.creator.validate = .ok () ∧ msg.memberId ≠ "" ∧ m msg.memberId = none ∧
    msg.operator.validateWithPrefix r.operatorPrefix = .ok ()

instance (r : Registry) (m : Registry.RecordMap) (msg : OnboardValidator) :
    Decidable (msg.Accepted r m) :=
  inferInstanceAs (Decidable (_ ∧ _ ∧ _ ∧ _))

theorem validate_eq_ok_iff {msg : OnboardValidator} :
    msg.validate = .ok () ↔ msg.creator.validate = .ok () ∧ msg.memberId ≠ "" := by
  rw [validate]
  rcases msg.creator.validate with e | ⟨⟩
  · constructor
    · intro h
      cases h
    · rintro ⟨h, -⟩
      cases h
  · show (if msg.memberId.isEmpty then Except.error RegistryError.emptyMemberId else .ok ())
      = .ok () ↔ _
    rw [← String.isEmpty_eq_false_iff]
    rcases msg.memberId.isEmpty with - | -
    · exact iff_of_true rfl ⟨rfl, rfl⟩
    · constructor
      · intro h
        cases h
      · rintro ⟨-, h⟩
        cases h

end OnboardValidator

namespace Registry

variable {l : Ledger} {index : String} {v : Validator} {bs : Bytes}

/-- An operator without any address fails both checks. -/
theorem checkOperator_eq_ok_iff {r : Registry} {a : Address} :
    r.checkOperator a = .ok () ↔ a.validateWithPrefix r.operatorPrefix = .ok () := by
  rw [checkOperator]
  split
  next hempty =>
    have hrefused : a.validateWithPrefix r.operatorPrefix = .error .empty := by
      rw [Address.validateWithPrefix, Address.validate, if_pos hempty]
      rfl
    rw [hrefused]
    constructor
    · intro h
      cases h
    · intro h
      cases h
  next =>
    rcases a.validateWithPrefix r.operatorPrefix with e | ⟨⟩
    · constructor
      · intro h
        cases h
      · intro h
        cases h
    · exact iff_of_true rfl rfl

variable {r : Registry} {msg : OnboardValidator}

theorem exists_run_onboard (h : Written l) (hshort : msg.record.Short)
    (hmsg : msg.Accepted r (recordMap l)) :
    ∃ event l', (r.onboard msg).run l = (.ok event, l') ∧
      Rebound msg.memberId (some msg.record) l l' := by
  obtain ⟨hcreator, hnamed, hfree, hoperator⟩ := hmsg
  have hform : msg.validate = .ok () := OnboardValidator.validate_eq_ok_iff.2 ⟨hcreator, hnamed⟩
  have hcheck : r.checkOperator msg.operator = .ok () := checkOperator_eq_ok_iff.2 hoperator
  obtain ⟨l', hset, hbound⟩ := exists_run_setValidator h.working hshort
  obtain ⟨event, hrun⟩ : ∃ event, (r.onboard msg).run l = (.ok event, l') := by
    rw [onboard, hform, Action.run_bind_ok (Action.run_ofExcept (.ok ()) l),
      Action.run_bind_ok (run_hasValidator h _), hfree]
    show ∃ event, Action.run (Action.ofExcept (r.checkOperator msg.operator) >>= fun _ => _) l = _
    rw [hcheck, Action.run_bind_ok (Action.run_ofExcept (.ok ()) l), Action.run_bind_ok hset]
    exact ⟨_, rfl⟩
  exact ⟨event, l', hrun, hbound⟩

/-- Whatever is wrong with a request is found before anything is written. -/
theorem exists_run_onboard_error (h : Written l) (hmsg : ¬ msg.Accepted r (recordMap l)) :
    ∃ e, (r.onboard msg).run l = (.error e, l) := by
  rcases hform : msg.validate with e | ⟨⟩
  · refine ⟨e, ?_⟩
    rw [onboard, hform]
    rfl
  rw [onboard, hform, Action.run_bind_ok (Action.run_ofExcept (.ok ()) l),
    Action.run_bind_ok (run_hasValidator h _)]
  -- the operator is looked at only if the index is free
  rcases hfree : recordMap l msg.memberId with - | v
  · rcases hcheck : r.checkOperator msg.operator with e | ⟨⟩
    · exact ⟨e, rfl⟩
    · obtain ⟨hcreator, hnamed⟩ := OnboardValidator.validate_eq_ok_iff.1 hform
      exact absurd ⟨hcreator, hnamed, hfree, checkOperator_eq_ok_iff.1 hcheck⟩ hmsg
  · exact ⟨_, rfl⟩

/-- A request is accepted and binds its index, or it is refused and has done
nothing. -/
theorem run_onboard_cases (r : Registry) (h : Written l) (hshort : msg.record.Short) :
    (msg.Accepted r (recordMap l) ∧ ∃ event l', (r.onboard msg).run l = (.ok event, l') ∧
      Rebound msg.memberId (some msg.record) l l') ∨
    (¬ msg.Accepted r (recordMap l) ∧ ∃ e, (r.onboard msg).run l = (.error e, l)) := by
  by_cases hmsg : msg.Accepted r (recordMap l)
  · exact .inl ⟨hmsg, exists_run_onboard h hshort hmsg⟩
  · exact .inr ⟨hmsg, exists_run_onboard_error h hmsg⟩

/-! ### What is answered -/

theorem run_validator (h : Written l) (index : String) : (validator index).run l =
    ((recordMap l index).elim (.error (.notFound index)) .ok, l) := by
  have hload : (validators.load? index).run l = (.ok (recordMap l index), l) := by
    show (Item.load? ⟨validators.fullKey index, validators.discriminator⟩).run l = _
    rw [Item.run_load?, Ledger.bytesAt, MemStore.bytesAt_of_working h.working]
    rcases h.entry_cases index with ⟨hnone, hfree⟩ | ⟨v, bs, hsome, hstored, hbound⟩
    · rw [hnone, hfree]
      rfl
    · rw [hsome, hbound]
      exact congrArg (·, l) (Item.decoded_of_encode ⟨_, validators.discriminator⟩ hstored.2)
  rw [validator, Action.run_bind_ok (Action.run_mapError_eq_ok_iff.2 hload)]
  rcases recordMap l index with - | v <;> rfl

/-- The records that a map binds, in ascending order of their indices' bytes. -/
structure Lists (m : RecordMap) (vs : List Validator) : Prop where
  ascending : vs.Pairwise fun v w => compare (utf8 v.index) (utf8 w.index) = .lt
  bound_iff : ∀ index v, m index = some v ↔ v ∈ vs ∧ v.index = index

/-- An entry is the form of one record only. -/
theorem storedAs_unique {w : Validator} {e : Bytes × Bytes} (hv : v.StoredAs e)
    (hw : w.StoredAs e) : v = w := by
  have hbinding : validators.StoredAs (v.index, v) e := hv
  have hbinding' : validators.StoredAs (w.index, w) e := hw
  exact congrArg Prod.snd (hbinding.unique hbinding')

/-- The scan of the registry lists what the map binds. -/
theorem Written.lists (h : Written l) {vs : List Validator}
    (hvs : StoredRecords vs (l.store.entriesUnder validators.base)) : Lists (recordMap l) vs where
  ascending := hvs.ascending
  bound_iff := by
    intro index v
    rw [h.recordMap_eq_some_iff]
    constructor
    · rintro ⟨bs, hget, hstored⟩
      have hentry := MemStore.mem_entriesUnder_iff.2 ⟨hget, List.prefix_append _ _⟩
      obtain ⟨w, hw, hstored'⟩ := exists_partner_of_mem hvs.flip hentry
      cases storedAs_unique hstored hstored'
      exact ⟨hw, (validators.fullKey_injective hstored.1).symm⟩
    · -- a record that is listed stands under the key of its own index
      rintro ⟨hv, rfl⟩
      obtain ⟨⟨key, bs⟩, he, hstored⟩ := exists_partner_of_mem hvs hv
      have hkey : key = validators.fullKey v.index := hstored.1
      subst hkey
      exact ⟨bs, (MemStore.mem_entriesUnder_iff.1 he).1, hstored⟩

/-- What can be asked of a registry, and what it can be asked to do, is what a
map from indices to records answers and does. -/
structure Behaves (r : Registry) (m : RecordMap) (l : Ledger) : Prop where
  onboard_ok_iff : ∀ msg, msg.record.Short →
    ((∃ event l', (r.onboard msg).run l = (.ok event, l')) ↔ msg.Accepted r m)
  onboard_binds : ∀ msg event l', msg.record.Short → (r.onboard msg).run l = (.ok event, l') →
    Rebound msg.memberId (some msg.record) l l'
  onboard_refused : ∀ msg e l', msg.record.Short → (r.onboard msg).run l = (.error e, l') → l' = l
  set : ∀ v : Validator, v.Short → ∃ l', (setValidator v).run l = (.ok (), l') ∧
    Rebound v.index (some v) l l'
  remove : ∀ index, ∃ l', (removeValidator index).run l = (.ok (), l') ∧ Rebound index none l l'
  validator : ∀ index, (validator index).run l = ((m index).elim (.error (.notFound index)) .ok, l)
  /-- The pages give all records, of which there may be as many as an offset
  can count. -/
  all : ∃ vs, allValidators.run l = (.ok vs, l) ∧ Lists m vs ∧
    (vs.length ≤ UInt64.size → ∀ limit : UInt64, limit ≠ 0 →
      (Page.drain validatorPage (.first limit)).run l = (.ok vs, l))
  listed : ∀ a, ∃ listed, (isListed a).run l = (.ok listed, l) ∧
    (listed = true ↔ ∃ index v, m index = some v ∧ v.operator = a)

theorem run_drain_validatorPage {vs : List Validator} (hall : allValidators.run l = (.ok vs, l))
    (hlen : vs.length ≤ UInt64.size) {limit : UInt64} (hlimit : limit ≠ 0) :
    (Page.drain validatorPage (.first limit)).run l = (.ok vs, l) := by
  refine (Page.run_drain hlen (fun request hrequest => ?_) (.first limit) hlimit)
  rw [validatorPage, if_neg hrequest, Action.run_bind_ok hall]
  rfl

/-- A registry that has written its records behaves as the map that its ledger
stands for. -/
theorem Written.behaves (r : Registry) (h : Written l) : r.Behaves (recordMap l) l := by
  obtain ⟨vs, hvs, -⟩ := h.exists_storedRecords
  -- all that can be asked is read off one listing of the records
  have hall : allValidators.run l = (.ok vs, l) := run_allValidators h.working hvs
  have hlists : Lists (recordMap l) vs := h.lists hvs
  refine ⟨fun msg hshort => ?_, fun msg event l' hshort hrun => ?_, fun msg e l' hshort hrun => ?_,
    fun v hshort => exists_run_setValidator h.working hshort, exists_run_removeValidator h.working,
    run_validator h, ⟨vs, hall, hlists, fun hlen limit => run_drain_validatorPage hall hlen⟩,
    fun a => ?_⟩
  · rcases run_onboard_cases r h hshort with ⟨hmsg, event, l', hok, -⟩ | ⟨hmsg, e, herror⟩
    · exact iff_of_true ⟨event, l', hok⟩ hmsg
    · refine iff_of_false ?_ hmsg
      rintro ⟨event, l', hrun⟩
      rw [herror] at hrun
      cases hrun
  · rcases run_onboard_cases r h hshort with ⟨-, event', l'', hok, hbound⟩ | ⟨-, e, herror⟩
    · rw [hok] at hrun
      cases hrun
      exact hbound
    · rw [herror] at hrun
      cases hrun
  · rcases run_onboard_cases r h hshort with ⟨-, event', l'', hok, -⟩ | ⟨-, e', herror⟩
    · rw [hok] at hrun
      cases hrun
    · rw [herror] at hrun
      cases hrun
      rfl
  · refine ⟨vs.any fun v => v.operator == a, ?_, ?_⟩
    · rw [isListed, Action.run_bind_ok hall]
      rfl
    · rw [List.any_eq_true]
      constructor
      · rintro ⟨v, hv, hoperator⟩
        exact ⟨v.index, v, (hlists.bound_iff _ _).2 ⟨hv, rfl⟩, beq_iff_eq.1 hoperator⟩
      · rintro ⟨index, v, hbound, hoperator⟩
        exact ⟨v, ((hlists.bound_iff _ _).1 hbound).1, beq_iff_eq.2 hoperator⟩

/-! ### Requests -/

/-- What may be asked to be changed. -/
inductive Request where
  | onboard (msg : OnboardValidator)
  | set (v : Validator)
  | remove (index : String)

namespace Request

/-- The index that a request is about. -/
def target : Request → String
  | .onboard msg => msg.memberId
  | .set v => v.index
  | .remove index => index

/-- The texts to be stored fit their lengths. -/
def Short : Request → Prop
  | .onboard msg => msg.record.Short
  | .set v => v.Short
  | .remove _ => True

instance : (q : Request) → Decidable q.Short
  | .onboard msg => inferInstanceAs (Decidable msg.record.Short)
  | .set v => inferInstanceAs (Decidable v.Short)
  | .remove _ => inferInstanceAs (Decidable True)

/-- Makes the request. -/
def perform (r : Registry) : Request → Action Ledger RegistryError Unit
  | .onboard msg => do let _ ← r.onboard msg
  | .set v => setValidator v
  | .remove index => removeValidator index

/-- What a request does to a map; nothing if it is refused. -/
def apply (r : Registry) (m : RecordMap) : Request → RecordMap
  | .onboard msg =>
    if msg.Accepted r m then Function.update m msg.memberId (some msg.record) else m
  | .set v => Function.update m v.index (some v)
  | .remove index => Function.update m index none

theorem written_perform (r : Registry) (q : Request) (h : Written l) :
    Written ((q.perform r).run l).2 := by
  cases q with
  | onboard msg =>
    refine Maintains.bind (maintains_recordsAre_onboard (fun _ _ => trivial) msg) ?_ l h
    exact fun _ _ hl => hl
  | set v => exact maintains_written_setValidator v l h
  | remove index => exact maintains_recordsAre_removeValidator index l h

/-- One request does to the map of a ledger what it does to a map, and nothing
else in the store changes. -/
theorem run_perform (r : Registry) {q : Request} (h : Written l) (hshort : q.Short) :
    recordMap ((q.perform r).run l).2 = q.apply r (recordMap l) ∧
      ∀ key, key ≠ validators.fullKey q.target →
        ((q.perform r).run l).2.bytesAt key = l.bytesAt key := by
  cases q with
  | onboard msg =>
    rcases run_onboard_cases r h hshort with ⟨hmsg, event, l', hrun, hbound⟩ | ⟨hmsg, e, hrun⟩
    · rw [perform, Action.run_bind_ok hrun, apply, if_pos hmsg]
      exact ⟨hbound.map, hbound.others⟩
    · rw [perform, Action.run_bind_error hrun, apply, if_neg hmsg]
      exact ⟨rfl, fun _ _ => rfl⟩
  | set v =>
    obtain ⟨l', hrun, hbound⟩ := exists_run_setValidator h.working hshort
    rw [perform, hrun]
    exact ⟨hbound.map, hbound.others⟩
  | remove index =>
    obtain ⟨l', hrun, hbound⟩ := exists_run_removeValidator h.working index
    rw [perform, hrun]
    exact ⟨hbound.map, hbound.others⟩

end Request

/-- The ledger after requests, refused ones included. -/
def after (r : Registry) : Ledger → List Request → Ledger
  | l, [] => l
  | l, q :: qs => r.after ((q.perform r).run l).2 qs

/-- The map after requests. -/
def mapAfter (r : Registry) : RecordMap → List Request → RecordMap
  | m, [] => m
  | m, q :: qs => r.mapAfter (q.apply r m) qs

theorem Written.after (r : Registry) (h : Written l) (qs : List Request) :
    Written (r.after l qs) := by
  induction qs generalizing l with
  | nil => exact h
  | cons q qs ih => exact ih (q.written_perform r h)

/-- Requests do to the map of a ledger what they do to a map. -/
theorem recordMap_after (r : Registry) (h : Written l) {qs : List Request}
    (hshort : ∀ q ∈ qs, q.Short) : recordMap (r.after l qs) = r.mapAfter (recordMap l) qs := by
  induction qs generalizing l with
  | nil => rfl
  | cons q qs ih =>
    obtain ⟨hfirst, hrest⟩ := List.forall_mem_cons.1 hshort
    rw [after, mapAfter, ih (q.written_perform r h) hrest, (q.run_perform r h hfirst).1]

/-- Keys that are not the registry's are left alone. -/
theorem bytesAt_after (r : Registry) (h : Written l) {qs : List Request}
    (hshort : ∀ q ∈ qs, q.Short) {key : Bytes} (hkey : ¬ validators.base <+: key) :
    (r.after l qs).bytesAt key = l.bytesAt key := by
  induction qs generalizing l with
  | nil => rfl
  | cons q qs ih =>
    obtain ⟨hfirst, hrest⟩ := List.forall_mem_cons.1 hshort
    have hother : key ≠ validators.fullKey q.target := by
      rintro rfl
      exact hkey (List.prefix_append _ _)
    rw [after, ih (q.written_perform r h) hrest, (q.run_perform r h hfirst).2 key hother]

/-- **The registry is a finite map.**  From any store on that works and holds
under the keys of the registry only what was written there as a record, and
after any requests, refused ones included, the registry behaves as the map
does that the same requests lead to.  The rest of the store is as it was. -/
theorem behaves_as_map (r : Registry) (l : Ledger) (h : Written l) (qs : List Request)
    (hshort : ∀ q ∈ qs, q.Short) :
    r.Behaves (r.mapAfter (recordMap l) qs) (r.after l qs) ∧
      recordMap (r.after l qs) = r.mapAfter (recordMap l) qs ∧
      ∀ key, ¬ validators.base <+: key → (r.after l qs).bytesAt key = l.bytesAt key := by
  have hmap : recordMap (r.after l qs) = r.mapAfter (recordMap l) qs := recordMap_after r h hshort
  refine ⟨?_, hmap, fun key => bytesAt_after r h hshort⟩
  rw [← hmap]
  exact (h.after r qs).behaves r

end Registry

namespace Scenario

/-! ### Indices that begin alike -/

/-- The record of a member of the given name. -/
def memberNamed (index : String) : Validator :=
  ⟨index, index, ⟨"veranavaloper1a"⟩, "", Validator.activeStatus, 0⟩

/-- A store with one record, and with bytes under another key. -/
def sharedStore : Ledger :=
  ((Registry.setValidator (memberNamed "m")).run ⟨MemStore.empty.put [0xff] [7], .empty, .empty⟩).2

/-- Indices that begin with each other, one of them twice, an operator without
the first part, a record in the place of another, and one that goes. -/
def mixedRequests : List Registry.Request := [
  .onboard ⟨⟨"verana1policy"⟩, "mé", ⟨"veranavaloper1b"⟩, "", 0⟩,
  .onboard ⟨⟨"verana1policy"⟩, "m/1", ⟨"veranavaloper1c"⟩, "", 0⟩,
  .onboard ⟨⟨"verana1policy"⟩, "m/1", ⟨"veranavaloper1d"⟩, "", 0⟩,
  .onboard ⟨⟨"verana1policy"⟩, "m2", ⟨"verana1e"⟩, "", 0⟩,
  .set { memberNamed "mé" with operator := ⟨"veranavaloper1f"⟩ },
  .remove "m"]

theorem written_sharedStore : Registry.Written sharedStore := by
  apply Registry.maintains_written_setValidator
  intro key hbegins
  have hkey : key ≠ [0xff] := by
    rintro rfl
    exact absurd hbegins (by decide +kernel)
  show Registry.Found _ key ((MemStore.empty.put [0xff] [7]).bytesAt key)
  rw [MemStore.bytesAt_put_of_ne _ hkey]
  exact .nothing

end Scenario

open Scenario in
theorem Registry.behaves_as_map_mixedRequests :
    Registry.Written sharedStore ∧ (∀ q ∈ mixedRequests, q.Short) ∧
      ∃ vs, Registry.allValidators.run (registry.after sharedStore mixedRequests)
          = (.ok vs, registry.after sharedStore mixedRequests) ∧
        vs.map (fun v => (v.index, v.operator.text))
          = [("m/1", "veranavaloper1c"), ("mé", "veranavaloper1f")] ∧
        (Page.drain Registry.validatorPage (.first 1)).run
          (registry.after sharedStore mixedRequests)
          = (.ok vs, registry.after sharedStore mixedRequests) ∧
        (Registry.validator "m").run (registry.after sharedStore mixedRequests)
          = (.error (.notFound "m"), registry.after sharedStore mixedRequests) := by
  have hshort : ∀ q ∈ mixedRequests, q.Short := by
    decide +kernel
  obtain ⟨hbehaves, -, -⟩ :=
    Registry.behaves_as_map registry sharedStore written_sharedStore mixedRequests hshort
  obtain ⟨vs, hall, -, hpages⟩ := hbehaves.all
  have hlisted : (Registry.allValidators.run (registry.after sharedStore mixedRequests)).1.map
      (·.map fun v => (v.index, v.operator.text))
      = .ok [("m/1", "veranavaloper1c"), ("mé", "veranavaloper1f")] := by
    decide +kernel
  rw [hall] at hlisted
  have hlisted' := Except.ok.inj hlisted
  have hlen : vs.length ≤ UInt64.size := by
    have := congrArg List.length hlisted'
    rw [List.length_map] at this
    rw [this]
    decide
  have hfree : registry.mapAfter (Registry.recordMap sharedStore) mixedRequests "m" = none := by
    decide +kernel
  refine ⟨written_sharedStore, hshort, vs, hall, hlisted', hpages hlen 1 (by decide), ?_⟩
  rw [hbehaves.validator, hfree]
  rfl

end BlockHooks
