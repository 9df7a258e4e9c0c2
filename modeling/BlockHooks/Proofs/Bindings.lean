/-
BlockHooks/Proofs/Bindings.lean

What is listed is what is there.

A store is a map from keys to values, and a write does to it what it does to
a map.  So a scan after any writes lists the keys that begin with the given
bytes, each with what was last written under it.

A collection is a map from texts to values that has the keys beginning with
its bytes to itself (`Collection.Binds`).  Saving binds a text, unless the
value has no form to be saved in; removing unbinds it; and what others write
under other keys is not seen.  Whatever is asked of the collection is then
answered from this map: its entries, the value of a text, and whether the
text has one (`Collection.listings_exact`).
-/
import Mathlib.Logic.Function.Basic
import BlockHooks.Proofs.Collections
import BlockHooks.Proofs.Records
import BlockHooks.Proofs.Store

namespace BlockHooks

/-- The store that actions leave one after the other, whether they succeed or
fail. -/
def MemStore.after (s : MemStore) : List (Action MemStore StoreError Unit) → MemStore
  | [] => s
  | x :: xs => (x.run s).2.after xs

/-! ### A store as a map -/

/-- A write under one key. -/
inductive StoreWrite where
  | set (key value : Bytes)
  | delete (key : Bytes)

namespace StoreWrite

/-- The key that is written under. -/
def key : StoreWrite → Bytes
  | set key _ => key
  | delete key => key

/-- What stands under the key once it is written. -/
def written : StoreWrite → Option Bytes
  | set _ value => some value
  | delete _ => none

/-- Makes the write, in a store of any kind. -/
def perform {σ : Type} [KvStore σ] : StoreWrite → Action σ StoreError Unit
  | set key value => KvStore.set key value
  | delete key => KvStore.delete key

/-- What a write does to a map. -/
def apply (m : Bytes → Option Bytes) (w : StoreWrite) : Bytes → Option Bytes :=
  Function.update m w.key w.written

/-- The map after writes: under each key is what was last written there. -/
def mapAfter (m : Bytes → Option Bytes) (ws : List StoreWrite) : Bytes → Option Bytes :=
  ws.foldl apply m

/-- A write succeeds, and does to the store what it does to a map. -/
theorem exists_run_perform {s : MemStore} (hworks : s.failing = false) (w : StoreWrite) :
    ∃ t, w.perform.run s = (.ok (), t) ∧ t.failing = false ∧
      t.entries.get? = w.apply s.entries.get? := by
  cases w with
  | set key value =>
    refine ⟨s.put key value, ?_, hworks, ?_⟩
    · rw [perform, MemStore.run_set, hworks]
      rfl
    · funext key'
      rw [MemStore.get?_put, apply, Function.update_apply]
      rfl
  | delete key =>
    refine ⟨s.drop key, ?_, hworks, ?_⟩
    · rw [perform, MemStore.run_delete, hworks]
      rfl
    · funext key'
      rw [MemStore.get?_drop, apply, Function.update_apply]
      rfl

theorem get?_after {s : MemStore} (hworks : s.failing = false) (ws : List StoreWrite) :
    (s.after (ws.map perform)).failing = false ∧
      (s.after (ws.map perform)).entries.get? = mapAfter s.entries.get? ws := by
  induction ws generalizing s with
  | nil => exact ⟨hworks, rfl⟩
  | cons w ws ih =>
    obtain ⟨t, hrun, hworks', hmap⟩ := exists_run_perform hworks w
    rw [List.map_cons, MemStore.after, hrun, mapAfter, List.foldl_cons, ← hmap]
    exact ih hworks'

end StoreWrite

/-- A scan lists the bindings whose key begins with the given bytes, in the
order of their keys. -/
theorem MemStore.exists_run_scan {s : MemStore} (hworks : s.failing = false) (front : Bytes) :
    ∃ es, (KvStore.scan front).run s = (.ok es, s) ∧
      es.Pairwise (fun e e' => e.1 < e'.1) ∧
      ∀ key value, (key, value) ∈ es ↔ front <+: key ∧ s.entries.get? key = some value := by
  refine ⟨s.entriesUnder front, run_scan hworks front, ?_, fun key value => ?_⟩
  · apply (s.ascending_entriesUnder front).imp
    intro e e' hlt
    exact compare_eq_lt_iff.1 hlt
  · rw [mem_entriesUnder_iff, and_comm]

/-! ### A collection as a map -/

namespace Collection

variable {α : Type} [Codec α] {c : Collection α} {m : String → Option α} {s t : MemStore}

/-- The bytes under a text's key are the form of the value that the text is
bound to, if it is bound. -/
abbrev Entry (c : Collection α) (k : String) : Option Bytes → Option α → Prop :=
  Option.Rel fun bs v => Stored.encode (c.fullKey k) c.discriminator v = .ok bs

/-- The keys that begin with the collection's bytes have the bindings of `m`,
and nothing else. -/
structure Binds (c : Collection α) (m : String → Option α) (s : MemStore) : Prop where
  works : s.failing = false
  entry : ∀ k, c.Entry k (s.entries.get? (c.fullKey k)) (m k)
  own : ∀ key value, c.base <+: key → s.entries.get? key = some value → ∃ k, key = c.fullKey k

/-- A store without keys of the collection has none of its bindings. -/
theorem binds_none (hworks : s.failing = false)
    (hnone : ∀ key, c.base <+: key → s.entries.get? key = none) : c.Binds (fun _ => none) s where
  works := hworks
  entry k := by
    rw [hnone _ (c.base_prefix_fullKey k)]
    exact .none
  own key value hbegins hkey := by
    rw [hnone key hbegins] at hkey
    cases hkey

namespace Binds

/-- What stands under other keys does not matter. -/
theorem congr (h : c.Binds m s) (hworks : t.failing = false)
    (hsame : ∀ key, c.base <+: key → t.entries.get? key = s.entries.get? key) : c.Binds m t where
  works := hworks
  entry k := by
    rw [hsame _ (c.base_prefix_fullKey k)]
    exact h.entry k
  own key value hbegins hkey := by
    rw [hsame key hbegins] at hkey
    exact h.own key value hbegins hkey

/-- What stands under a text's key becomes its binding, and no other text's. -/
theorem rebind (h : c.Binds m s) {k : String} {stored : Option Bytes} {bound : Option α}
    (hworks : t.failing = false)
    (hget : ∀ key, t.entries.get? key = if key = c.fullKey k then stored else s.entries.get? key)
    (hentry : c.Entry k stored bound) : c.Binds (Function.update m k bound) t where
  works := hworks
  entry k' := by
    rw [hget]
    rcases eq_or_ne k' k with rfl | hother
    · rw [if_pos rfl, Function.update_self]
      exact hentry
    · rw [if_neg fun hkey => hother (c.fullKey_injective hkey), Function.update_of_ne hother]
      exact h.entry k'
  own key value hbegins hkey := by
    rw [hget] at hkey
    split at hkey
    next hself => exact ⟨k, hself⟩
    next => exact h.own key value hbegins hkey

/-- A text is not bound and there is nothing under its key, or the form of what
it is bound to is there. -/
theorem cases (h : c.Binds m s) (k : String) :
    (m k = none ∧ s.entries.get? (c.fullKey k) = none) ∨
    ∃ v bs, m k = some v ∧ s.entries.get? (c.fullKey k) = some bs ∧
      c.StoredAs (k, v) (c.fullKey k, bs) := by
  have hentry := h.entry k
  rcases hget : s.entries.get? (c.fullKey k) with - | bs
  · rcases hbound : m k with - | v
    · exact .inl ⟨rfl, rfl⟩
    · rw [hget, hbound] at hentry
      cases hentry
  · rcases hbound : m k with - | v
    · rw [hget, hbound] at hentry
      cases hentry
    · rw [hget, hbound] at hentry
      cases hentry with
      | some hencode => exact .inr ⟨v, bs, rfl, rfl, rfl, hencode⟩

end Binds

end Collection

/-! ### Calls -/

/-- What may be done to a collection, and to the rest of its store. -/
inductive CollectionCall (α : Type) where
  | save (k : String) (v : α)
  | remove (k : String)
  /-- A write by someone else. -/
  | foreign (w : StoreWrite)

namespace CollectionCall

variable {α : Type} [Codec α] {c : Collection α} {m : String → Option α} {s : MemStore}

/-- Makes the call, in a store of any kind. -/
def perform {σ : Type} [KvStore σ] (c : Collection α) : CollectionCall α → Action σ StoreError Unit
  | save k v => c.save k v
  | remove k => c.remove k
  | foreign w => w.perform

/-- Others do not write under keys that begin with the collection's bytes. -/
def Apart (c : Collection α) : CollectionCall α → Prop
  | save _ _ => True
  | remove _ => True
  | foreign w => ¬ c.base <+: w.key

instance (c : Collection α) : DecidablePred (Apart c)
  | save _ _ => inferInstanceAs (Decidable True)
  | remove _ => inferInstanceAs (Decidable True)
  | foreign w => inferInstanceAs (Decidable (¬ c.base <+: w.key))

/-- What a call does to the map of the collection.  A value without a form is
not saved. -/
def apply (m : String → Option α) : CollectionCall α → String → Option α
  | save k v =>
    match Codec.encode v with
    | .ok _ => Function.update m k (some v)
    | .error _ => m
  | remove k => Function.update m k none
  | foreign _ => m

/-- The map after calls. -/
def mapAfter (m : String → Option α) (calls : List (CollectionCall α)) : String → Option α :=
  calls.foldl apply m

/-- A call does to the store's bindings what it does to the map. -/
theorem binds_perform (h : c.Binds m s) {call : CollectionCall α} (hapart : call.Apart c) :
    c.Binds (call.apply m) ((call.perform c).run s).2 := by
  cases call with
  | save k v =>
    rcases hform : Codec.encode v with e | body
    · -- nothing is written, and the map does not change either
      have hrefused : Stored.encode (c.fullKey k) c.discriminator v
          = .error (.codec (lossyText (c.fullKey k)) e) := by
        rw [Stored.encode, hform]
      rw [perform, Collection.save, Item.run_save_of_refused _ hrefused, apply, hform]
      exact h
    · have hencode : Stored.encode (c.fullKey k) c.discriminator v
          = .ok (c.discriminator :: body) := by
        rw [Stored.encode, hform]
      rw [perform, Collection.save, Item.run_save_of_encode _ hencode, MemStore.run_set, h.works,
        apply, hform]
      exact h.rebind h.works (s.get?_put (c.fullKey k) · _) (.some hencode)
  | remove k =>
    rw [perform, Collection.remove, MemStore.run_delete, h.works]
    exact h.rebind h.works (s.get?_drop (c.fullKey k)) .none
  | foreign w =>
    obtain ⟨t, hrun, hworks, hmap⟩ := w.exists_run_perform h.works
    rw [perform, hrun]
    refine h.congr hworks fun key hbegins => ?_
    have hother : key ≠ w.key := by
      rintro rfl
      exact hapart hbegins
    rw [hmap, StoreWrite.apply, Function.update_of_ne hother]

theorem binds_after (h : c.Binds m s) {calls : List (CollectionCall α)}
    (hapart : ∀ call ∈ calls, call.Apart c) :
    c.Binds (mapAfter m calls) (s.after (calls.map (perform c))) := by
  induction calls generalizing m s with
  | nil => exact h
  | cons call calls ih =>
    obtain ⟨hfirst, hrest⟩ := List.forall_mem_cons.1 hapart
    exact ih (binds_perform h hfirst) hrest

end CollectionCall

/-! ### What is answered -/

namespace Collection

variable {α : Type} [Codec α] {c : Collection α} {m : String → Option α} {s : MemStore}

/-- What a store is asked about the collection it answers from `m`, and is not
changed by it: all bindings in ascending order of their texts' bytes, the value
of any text, and whether it has one. -/
structure Answers (c : Collection α) (m : String → Option α) (s : MemStore) : Prop where
  entries : ∃ bs, c.entries.run s = (.ok bs, s) ∧
    bs.Pairwise (fun b b' => utf8 b.1 < utf8 b'.1) ∧ ∀ k v, (k, v) ∈ bs ↔ m k = some v
  load? : ∀ k, (c.load? k).run s = (.ok (m k), s)
  has : ∀ k, (c.has k).run s = (.ok (m k).isSome, s)

theorem Binds.run_get (h : c.Binds m s) (key : Bytes) :
    (KvStore.get key).run s = (.ok (s.entries.get? key), s) := by
  rw [MemStore.run_get, MemStore.bytesAt_of_working h.works]

theorem Binds.run_has (h : c.Binds m s) (k : String) :
    (c.has k).run s = (.ok (m k).isSome, s) := by
  rw [Collection.has, KvStore.has, Action.run_bind_ok (h.run_get _), Action.run_pure]
  rcases h.cases k with ⟨hbound, hget⟩ | ⟨v, bs, hbound, hget, -⟩
  · rw [hbound, hget]
    rfl
  · rw [hbound, hget]
    rfl

variable [Codec.Lawful α]

theorem Binds.run_load? (h : c.Binds m s) (k : String) :
    (c.load? k).run s = (.ok (m k), s) := by
  rw [Collection.load?, Item.run_load?_of_get ⟨c.fullKey k, c.discriminator⟩ (h.run_get _)]
  rcases h.cases k with ⟨hbound, hget⟩ | ⟨v, bs, hbound, hget, hstored⟩
  · rw [hbound, hget]
    rfl
  · rw [hbound, hget, Item.decoded_of_encode ⟨c.fullKey k, c.discriminator⟩ hstored.2]

/-- The entries of a collection are its bindings, in the order of their texts'
bytes. -/
theorem Binds.exists_run_entries (h : c.Binds m s) :
    ∃ bs, c.entries.run s = (.ok bs, s) ∧
      bs.Pairwise (fun b b' => utf8 b.1 < utf8 b'.1) ∧
      ∀ k v, (k, v) ∈ bs ↔ m k = some v := by
  -- whatever the scan finds is the form of a binding of `m`
  have hbindings : ∀ e ∈ s.entriesUnder c.base, ∃ b, c.StoredAs b e ∧ m b.1 = some b.2 := by
    rintro ⟨key, value⟩ he
    obtain ⟨hget, hbegins⟩ := MemStore.mem_entriesUnder_iff.1 he
    obtain ⟨k, rfl⟩ := h.own key value hbegins hget
    rcases h.cases k with ⟨-, hnone⟩ | ⟨v, bs, hbound, hsome, hstored⟩
    · rw [hnone] at hget
      cases hget
    · rw [hsome] at hget
      cases hget
      exact ⟨(k, v), hstored, hbound⟩
  obtain ⟨bs, hpairs⟩ := exists_partners hbindings
  have hstored : List.Forall₂ c.StoredAs bs (s.entriesUnder c.base) :=
    hpairs.imp fun _ _ hpair => hpair.1
  refine ⟨bs, ?_, ?_, fun k v => ⟨fun hb => ?_, fun hbound => ?_⟩⟩
  · rw [Collection.entries, Action.run_bind_ok (MemStore.run_scan h.works _), Action.run_ofExcept,
      mapM_decodeEntry hstored]
  · apply (ascending_of_storedAs hstored).imp
    intro b b' hlt
    exact compare_eq_lt_iff.1 hlt
  · obtain ⟨e, -, -, hbound⟩ := exists_partner_of_mem hpairs hb
    exact hbound
  · -- and the form of every binding of `m` is found
    rcases h.cases k with ⟨hnone, -⟩ | ⟨w, value, hsome, hget, hentry⟩
    · rw [hnone] at hbound
      cases hbound
    · rw [hsome] at hbound
      cases hbound
      have hlisted := MemStore.mem_entriesUnder_iff.2 ⟨hget, c.base_prefix_fullKey k⟩
      obtain ⟨b, hb, hentry'⟩ := exists_partner_of_mem hstored.flip hlisted
      rw [hentry.unique hentry']
      exact hb

theorem Binds.answers (h : c.Binds m s) : c.Answers m s :=
  ⟨h.exists_run_entries, h.run_load?, h.run_has⟩

/-- **What is listed is what is there.**  After any writes to a store that
works, a scan lists in ascending order the keys that begin with the given
bytes, each with what was last written under it.

A collection that has the keys beginning with its bytes to itself answers from
the map that its saves and removals lead to, whatever others write under other
keys in between. -/
theorem listings_exact (c : Collection α) (s : MemStore) (hworks : s.failing = false) :
    (∀ (ws : List StoreWrite) (front : Bytes), ∃ es,
      (KvStore.scan front).run (s.after (ws.map StoreWrite.perform))
        = (.ok es, s.after (ws.map StoreWrite.perform)) ∧
      es.Pairwise (fun e e' => e.1 < e'.1) ∧
      ∀ key value, (key, value) ∈ es ↔
        front <+: key ∧ StoreWrite.mapAfter s.entries.get? ws key = some value) ∧
    ((∀ key, c.base <+: key → s.entries.get? key = none) →
      ∀ calls : List (CollectionCall α), (∀ call ∈ calls, call.Apart c) →
        c.Answers (CollectionCall.mapAfter (fun _ => none) calls)
          (s.after (calls.map (CollectionCall.perform c)))) := by
  constructor
  · intro ws front
    obtain ⟨hworks', hmap⟩ := StoreWrite.get?_after hworks ws
    rw [← hmap]
    exact MemStore.exists_run_scan hworks' front
  · intro hnone calls hapart
    exact (CollectionCall.binds_after (binds_none hworks hnone) hapart).answers

end Collection

namespace Scenario

/-! ### A collection among others -/

/-- Numbers under names, all keys beginning alike. -/
def counters : Collection UInt64 := ⟨utf8 "counters/", 8⟩

/-- Keys on both sides of the collection's, and the empty one. -/
def neighbours : MemStore :=
  (((MemStore.empty.put [] [1]).put (utf8 "counter") [2]).put (utf8 "counters0") []).put [0xff] [3]

/-- Keys are written again, or written and removed, behind the last one. -/
def rewrites : List StoreWrite := [
  .set [0xff, 0xff] [4],
  .set [0xff, 0x00] [5],
  .delete [],
  .set [0xff] [6],
  .delete [0xff, 0x00]]

/-- Texts of no character and of more than one byte, one saved twice and one
removed, while others come and go beside them. -/
def counting : List (CollectionCall UInt64) := [
  .save "é" 1,
  .save "b" 2,
  .foreign (.set (utf8 "counters") [7]),
  .save "" 3,
  .save "b" 4,
  .remove "é",
  .foreign (.delete (utf8 "counters0")),
  .save "é" 5,
  .save "z" 6,
  .remove "z"]

end Scenario

open Scenario in
/-- What was written last is listed and what was removed is not, in the scan
for a prefix of all ones as well as among keys that begin almost alike. -/
theorem Collection.listings_exact_counters :
    (∃ es, (KvStore.scan [0xff]).run (neighbours.after (rewrites.map StoreWrite.perform))
        = (.ok es, neighbours.after (rewrites.map StoreWrite.perform)) ∧
      ([0xff], [6]) ∈ es ∧ ([0xff, 0xff], [4]) ∈ es ∧ ∀ value, ([0xff, 0x00], value) ∉ es) ∧
    ∃ bs, counters.entries.run (neighbours.after (counting.map (CollectionCall.perform counters)))
        = (.ok bs, neighbours.after (counting.map (CollectionCall.perform counters))) ∧
      ("", 3) ∈ bs ∧ ("b", 4) ∈ bs ∧ ("é", 5) ∈ bs ∧ ∀ v, ("z", v) ∉ bs := by
  have hnone : ∀ key, counters.base <+: key → neighbours.entries.get? key = none := by
    intro key hbegins
    rcases hget : neighbours.entries.get? key with - | value
    · rfl
    · have hthere := Table.mem_entries_iff.2 hget
      have hothers : ∀ e ∈ neighbours.entries.entries, ¬ counters.base <+: e.1 := by
        decide +kernel
      exact absurd hbegins (hothers _ hthere)
  have hapart : ∀ call ∈ counting, call.Apart counters := by
    decide +kernel
  obtain ⟨hscan, hcollection⟩ := listings_exact counters neighbours rfl
  obtain ⟨es, hes, -, hmem⟩ := hscan rewrites [0xff]
  obtain ⟨bs, hbs, -, hbound⟩ := (hcollection hnone counting hapart).entries
  refine ⟨⟨es, hes, (hmem _ _).2 (by decide +kernel), (hmem _ _).2 (by decide +kernel), ?_⟩,
    bs, hbs, (hbound _ _).2 (by decide +kernel), (hbound _ _).2 (by decide +kernel),
    (hbound _ _).2 (by decide +kernel), ?_⟩
  · intro value hlisted
    have hremoved : StoreWrite.mapAfter neighbours.entries.get? rewrites [0xff, 0x00] = none := by
      decide +kernel
    rw [hmem, hremoved] at hlisted
    cases hlisted.2
  · intro v hlisted
    have hremoved : CollectionCall.mapAfter (fun _ => none) counting "z" = none := by
      decide +kernel
    rw [hbound, hremoved] at hlisted
    cases hlisted

end BlockHooks
