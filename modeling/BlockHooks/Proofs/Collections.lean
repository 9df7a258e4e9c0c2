/-
BlockHooks/Proofs/Collections.lean

How the bindings of a collection stand in a store.

A binding of a text to a value is written as one entry: its key is the
collection's own bytes followed by those of the text, and what stands there
is the form of the value (`Collection.StoredAs`).  The text is not lost in its
key, so the entry is read back as the binding that it was written for
(`Collection.decodeEntry_of_storedAs`), and entries in the order of their keys
are bindings in the order of their texts' bytes.
-/
import Mathlib.Data.List.Forall2
import BlockHooks.Proofs.Codec
import BlockHooks.Proofs.PrefixScan
import BlockHooks.Store.Typed

namespace BlockHooks

/-! ### Partners -/

/-- If every member of a list has a partner, there is a list of partners. -/
theorem exists_partners {α β : Type} {R : α → β → Prop} {bs : List β}
    (h : ∀ b ∈ bs, ∃ a, R a b) : ∃ as, List.Forall₂ R as bs := by
  induction bs with
  | nil => exact ⟨[], .nil⟩
  | cons b bs ih =>
    obtain ⟨a, ha⟩ := h b List.mem_cons_self
    obtain ⟨as, has⟩ := ih fun b' hb' => h b' (List.mem_cons_of_mem _ hb')
    exact ⟨a :: as, .cons ha has⟩

theorem exists_partner_of_mem {α β : Type} {R : α → β → Prop} {as : List α} {bs : List β}
    (h : List.Forall₂ R as bs) {a : α} (ha : a ∈ as) : ∃ b ∈ bs, R a b := by
  induction h with
  | nil => cases ha
  | cons hpair _ ih =>
    rcases List.mem_cons.1 ha with rfl | ha
    · exact ⟨_, List.mem_cons_self, hpair⟩
    · obtain ⟨b, hb, hpair⟩ := ih ha
      exact ⟨b, List.mem_cons_of_mem _ hb, hpair⟩

namespace Collection

variable {α : Type} (c : Collection α)

/-! ### Keys -/

theorem fullKey_injective {k k' : String} (h : c.fullKey k = c.fullKey k') : k = k' :=
  utf8_injective (List.append_cancel_left h)

theorem base_prefix_fullKey (k : String) : c.base <+: c.fullKey k := List.prefix_append _ _

/-- What follows the collection's own bytes in a key is the text, and a lossy
reading of it loses nothing. -/
theorem lossyText_drop_fullKey (k : String) :
    lossyText ((c.fullKey k).drop c.base.length) = k := by
  rw [fullKey, List.drop_left' rfl, lossyText_utf8]

/-! ### Bindings as entries -/

variable [Codec α]

/-- The entry that a text and the value it is bound to are written as. -/
def StoredAs (b : String × α) (e : Bytes × Bytes) : Prop :=
  e.1 = c.fullKey b.1 ∧ Stored.encode e.1 c.discriminator b.2 = .ok e.2

variable {c} [Codec.Lawful α] {b : String × α} {e : Bytes × Bytes}
  {bs : List (String × α)} {es : List (Bytes × Bytes)}

theorem decodeEntry_of_storedAs (h : c.StoredAs b e) : c.decodeEntry e = .ok b := by
  obtain ⟨key, data⟩ := e
  obtain ⟨rfl, hencode⟩ := h
  rw [decodeEntry, Stored.decode_of_encode hencode]
  show Except.ok (lossyText _, b.2) = _
  rw [c.lossyText_drop_fullKey]

/-- An entry is the form of one binding only. -/
theorem StoredAs.unique {b' : String × α} (h : c.StoredAs b e) (h' : c.StoredAs b' e) : b = b' := by
  have hread := decodeEntry_of_storedAs h
  rw [decodeEntry_of_storedAs h', Except.ok.injEq] at hread
  exact hread.symm

/-- Entries are read back in their order. -/
theorem mapM_decodeEntry (h : List.Forall₂ c.StoredAs bs es) : es.mapM c.decodeEntry = .ok bs := by
  induction h with
  | nil => rfl
  | cons hb _ ih =>
    rw [List.mapM_cons, decodeEntry_of_storedAs hb, ih]
    rfl

omit [Codec.Lawful α] in
theorem keys_of_storedAs (h : List.Forall₂ c.StoredAs bs es) :
    es.map Prod.fst = (bs.map Prod.fst).map c.fullKey := by
  induction h with
  | nil => rfl
  | cons hb _ ih => rw [List.map_cons, List.map_cons, List.map_cons, ih, hb.1]

omit [Codec.Lawful α] in
/-- A scan of the collection lists its bindings in ascending order of their
texts' bytes. -/
theorem ascending_of_storedAs {s : MemStore}
    (h : List.Forall₂ c.StoredAs bs (s.entriesUnder c.base)) :
    bs.Pairwise fun b b' => compare (utf8 b.1) (utf8 b'.1) = .lt := by
  have hkeys : ((s.entriesUnder c.base).map Prod.fst).Pairwise fun key key' =>
      compare key key' = .lt := List.pairwise_map.2 (s.ascending_entriesUnder c.base)
  rw [keys_of_storedAs h, List.pairwise_map, List.pairwise_map] at hkeys
  apply hkeys.imp
  intro b b' hlt
  rwa [fullKey, fullKey, compare_append_left] at hlt

end Collection

end BlockHooks
