/-
BlockHooks/Proofs/Store.lean

Reading and writing the store of a ledger.

What a read of one key answers (`MemStore.bytesAt`) is all that an item
under that key depends on.  A write under another key, and anything done to
the bank or the log, leaves it as it was; a write under the key itself makes
it the bytes written.  So an item that was saved is found again
(`decoded_of_save`), and every other item reads as before.
-/
import BlockHooks.Ledger
import BlockHooks.Proofs.Codec
import BlockHooks.Proofs.Frame
import BlockHooks.Store.Typed

namespace BlockHooks

/-! ### A store in memory -/

namespace MemStore

/-- What a read of `key` answers. -/
def bytesAt (s : MemStore) (key : Bytes) : Except StoreError (Option Bytes) :=
  if s.failing then .error (.backend "injected store failure") else .ok (s.entries.get? key)

/-- The store with `value` under `key`. -/
def put (s : MemStore) (key value : Bytes) : MemStore :=
  { s with entries := s.entries.insert key value }

/-- The store with nothing under `key`. -/
def drop (s : MemStore) (key : Bytes) : MemStore :=
  { s with entries := s.entries.erase key }

theorem get?_put (s : MemStore) (key key' value : Bytes) :
    (s.put key value).entries.get? key' = if key' = key then some value else s.entries.get? key' :=
  s.entries.get?_insert key key' value

theorem get?_drop (s : MemStore) (key key' : Bytes) :
    (s.drop key).entries.get? key' = if key' = key then none else s.entries.get? key' :=
  s.entries.get?_erase key key'

theorem bytesAt_of_working {s : MemStore} (h : s.failing = false) (key : Bytes) :
    s.bytesAt key = .ok (s.entries.get? key) := by
  simp [bytesAt, h]

theorem bytesAt_put_self {s : MemStore} (h : s.failing = false) (key value : Bytes) :
    (s.put key value).bytesAt key = .ok (some value) := by
  have hput : (s.put key value).failing = false := h
  rw [bytesAt_of_working hput, get?_put, if_pos rfl]

theorem bytesAt_put_of_ne {s : MemStore} {key key' : Bytes} (value : Bytes) (h : key ≠ key') :
    (s.put key' value).bytesAt key = s.bytesAt key := by
  rw [bytesAt, bytesAt, get?_put, if_neg h]
  rfl

theorem bytesAt_drop_self {s : MemStore} (h : s.failing = false) (key : Bytes) :
    (s.drop key).bytesAt key = .ok none := by
  have hdrop : (s.drop key).failing = false := h
  rw [bytesAt_of_working hdrop, get?_drop, if_pos rfl]

theorem bytesAt_drop_of_ne {s : MemStore} {key key' : Bytes} (h : key ≠ key') :
    (s.drop key').bytesAt key = s.bytesAt key := by
  rw [bytesAt, bytesAt, get?_drop, if_neg h]
  rfl

/-! ### What the operations of a store do -/

theorem run_get (key : Bytes) (s : MemStore) :
    (KvStore.get key).run s = (s.bytesAt key, s) := by
  rcases h : s.failing with - | -
  · simp [KvStore.get, h, bytesAt]
  · simp [KvStore.get, h, bytesAt]

theorem run_set (key value : Bytes) (s : MemStore) :
    (KvStore.set key value).run s =
      if s.failing then (.error (.backend "injected store failure"), s)
      else (.ok (), s.put key value) := by
  rcases h : s.failing with - | -
  · simp [KvStore.set, h, put]
  · simp [KvStore.set, h]

theorem run_delete (key : Bytes) (s : MemStore) :
    (KvStore.delete key).run s =
      if s.failing then (.error (.backend "injected store failure"), s)
      else (.ok (), s.drop key) := by
  rcases h : s.failing with - | -
  · simp [KvStore.delete, h, drop]
  · simp [KvStore.delete, h]

theorem run_scan {s : MemStore} (h : s.failing = false) (front : Bytes) :
    (KvStore.scan front).run s = (.ok (s.entriesUnder front), s) :=
  run_guarded h

end MemStore

/-- What an item reads from the answer to a read of its key. -/
def Item.decoded {α : Type} [Codec α] (item : Item α) :
    Except StoreError (Option Bytes) → Except StoreError (Option α)
  | .ok none => .ok none
  | .ok (some bs) => (Stored.decode item.key item.discriminator bs).map some
  | .error e => .error e

namespace Ledger

variable {ε α γ : Type}

/-- The store is not failing. -/
def Working (l : Ledger) : Prop := l.store.failing = false

/-- What a read of `key` answers. -/
def bytesAt (key : Bytes) (l : Ledger) : Except StoreError (Option Bytes) := l.store.bytesAt key

/-! ### What the store's operations do -/

theorem run_get (key : Bytes) (l : Ledger) :
    (KvStore.get key).run l = (l.bytesAt key, l) := by
  show (((KvStore.get key).run l.store).1, { l with store := ((KvStore.get key).run l.store).2 })
    = _
  rw [MemStore.run_get]
  rfl

theorem run_set (key value : Bytes) (l : Ledger) :
    (KvStore.set key value).run l =
      if l.store.failing then (.error (.backend "injected store failure"), l)
      else (.ok (), { l with store := l.store.put key value }) := by
  show (((KvStore.set key value).run l.store).1,
    { l with store := ((KvStore.set key value).run l.store).2 }) = _
  rw [MemStore.run_set]
  split <;> rfl

theorem run_delete (key : Bytes) (l : Ledger) :
    (KvStore.delete key).run l =
      if l.store.failing then (.error (.backend "injected store failure"), l)
      else (.ok (), { l with store := l.store.drop key }) := by
  show (((KvStore.delete key).run l.store).1,
    { l with store := ((KvStore.delete key).run l.store).2 }) = _
  rw [MemStore.run_delete]
  split <;> rfl

theorem run_scan {l : Ledger} (h : l.Working) (front : Bytes) :
    (KvStore.scan front).run l = (.ok (l.store.entriesUnder front), l) := by
  show (((KvStore.scan front).run l.store).1,
    { l with store := ((KvStore.scan front).run l.store).2 }) = _
  rw [MemStore.run_scan h]

/-! ### What they leave alone -/

theorem keeps_get (obs : Ledger → γ) (key : Bytes) :
    Action.Keeps obs (KvStore.get key : Action Ledger StoreError _) := fun l => by
  rw [run_get]

theorem keeps_scan (obs : Ledger → γ) (front : Bytes) :
    Action.Keeps obs (KvStore.scan front : Action Ledger StoreError _) := by
  intro l
  have hstore : ((KvStore.scan front : Action MemStore StoreError _).run l.store).2 = l.store := by
    rcases h : l.store.failing with - | -
    · simp [KvStore.scan, h]
    · simp [KvStore.scan, h]
  show obs { l with store := ((KvStore.scan front).run l.store).2 } = obs l
  rw [hstore]

/-- A write is not seen under any other key. -/
theorem keeps_set_of_ne {key key' : Bytes} (value : Bytes) (h : key ≠ key') :
    Action.Keeps (bytesAt key) (KvStore.set key' value : Action Ledger StoreError Unit) := by
  intro l
  rw [run_set]
  split
  · rfl
  · exact MemStore.bytesAt_put_of_ne value h

theorem keeps_delete_of_ne {key key' : Bytes} (h : key ≠ key') :
    Action.Keeps (bytesAt key) (KvStore.delete key' : Action Ledger StoreError Unit) := by
  intro l
  rw [run_delete]
  split
  · rfl
  · exact MemStore.bytesAt_drop_of_ne h

theorem keeps_onBank (key : Bytes) (x : Action MemBank ε α) :
    Action.Keeps (bytesAt key) (onBank x) := fun _ => rfl

theorem keeps_log (obs : Ledger → γ) (level : Level) (text : String) :
    Action.Keeps obs (log level text : Action Ledger ε Unit) := fun _ => rfl

end Ledger

/-! ### Items -/

namespace Item

variable {α γ : Type} [Codec α] (item : Item α)

/-- A load decodes what a read of the key answers. -/
theorem run_load?_of_get {σ : Type} [KvStore σ] {s : σ} {read : Except StoreError (Option Bytes)}
    (h : (KvStore.get item.key).run s = (read, s)) :
    (item.load?).run s = (item.decoded read, s) := by
  rw [load?, Action.run_bind, h]
  rcases read with e | - | bs
  · rfl
  · rfl
  · rcases h : (Stored.decode item.key item.discriminator bs : Except StoreError α) with e | v
    · simp [decoded, h, Except.map]
    · simp [decoded, h, Except.map]

theorem run_load? (l : Ledger) :
    item.load?.run l = (item.decoded (l.bytesAt item.key), l) :=
  item.run_load?_of_get (Ledger.run_get item.key l)

/-- A save of a value that has a form is a write of that form. -/
theorem run_save_of_encode {σ : Type} [KvStore σ] {v : α} {bs : Bytes}
    (h : Stored.encode item.key item.discriminator v = .ok bs) (s : σ) :
    (item.save v).run s = (KvStore.set item.key bs).run s := by
  rw [save, h]
  rfl

/-- A value without a form is not written. -/
theorem run_save_of_refused {σ : Type} [KvStore σ] {v : α} {e : StoreError}
    (h : Stored.encode item.key item.discriminator v = .error e) (s : σ) :
    (item.save v).run s = (.error e, s) := by
  rw [save, h]
  rfl

/-- A save succeeds exactly if the value has a form and the store works. -/
theorem run_save_eq_ok_iff {v : α} {l l' : Ledger} :
    (item.save v).run l = (.ok (), l') ↔
      l.store.failing = false ∧ ∃ bs, Stored.encode item.key item.discriminator v = .ok bs ∧
        l' = { l with store := l.store.put item.key bs } := by
  rw [save, Action.run_bind_eq_ok_iff]
  constructor
  · rintro ⟨bs, t, hbs, hset⟩
    -- a value without a form is refused before the store is asked
    cases hbs' : (Stored.encode item.key item.discriminator v) with
    | error e =>
      rw [hbs'] at hbs
      cases hbs
    | ok bs' =>
      rw [hbs'] at hbs
      cases hbs
      rw [Ledger.run_set] at hset
      split at hset
      · cases hset
      next hworks =>
        cases hset
        exact ⟨by simpa using hworks, bs, rfl, rfl⟩
  · rintro ⟨hworks, bs, hbs, rfl⟩
    refine ⟨bs, l, by rw [hbs]; rfl, ?_⟩
    rw [Ledger.run_set, hworks]
    rfl

/-- A save that fails has changed nothing. -/
theorem eq_of_run_save_error {v : α} {l l' : Ledger} {e : StoreError}
    (h : (item.save v).run l = (.error e, l')) : l' = l := by
  rcases hencode : Stored.encode item.key item.discriminator v with err | bs
  · rw [item.run_save_of_refused hencode] at h
    cases h
    rfl
  · rw [item.run_save_of_encode hencode, Ledger.run_set] at h
    split at h
    · cases h
      rfl
    · cases h

/-- What a value is written as is read as that value. -/
theorem decoded_of_encode [Codec.Lawful α] {v : α} {bs : Bytes}
    (h : Stored.encode item.key item.discriminator v = .ok bs) :
    item.decoded (.ok (some bs)) = .ok (some v) := by
  show (Stored.decode item.key item.discriminator bs).map some = _
  rw [Stored.decode_of_encode h]
  rfl

/-- What was saved is found again. -/
theorem decoded_of_save [Codec.Lawful α] {v : α} {l l' : Ledger}
    (h : (item.save v).run l = (.ok (), l')) :
    item.decoded (l'.bytesAt item.key) = .ok (some v) := by
  obtain ⟨hworks, bs, hbs, rfl⟩ := item.run_save_eq_ok_iff.1 h
  show item.decoded ((l.store.put item.key bs).bytesAt item.key) = _
  rw [MemStore.bytesAt_put_self hworks]
  exact item.decoded_of_encode hbs

/-- Saving an item is not seen under any other key. -/
theorem keeps_save_of_ne {key : Bytes} (v : α) (h : key ≠ item.key) :
    Action.Keeps (Ledger.bytesAt key) (item.save v : Action Ledger StoreError Unit) :=
  Action.Keeps.bind (Action.Keeps.ofExcept _) fun bs => Ledger.keeps_set_of_ne bs h

end Item

end BlockHooks
