/-
BlockHooks/Proofs/PrefixScan.lean

A scan of a store finds the keys that begin with given bytes.

Such keys stand together in the order of keys, and none of them stands below
those bytes themselves.  So the walk that begins there and stops at the first
key of another kind has seen them all: it is the whole list of entries
without those of other keys (`MemStore.entriesUnder_eq`), in their order.
-/
import BlockHooks.Store.Basic

namespace BlockHooks

/-! ### The order of keys -/

/-- A key does not stand below the bytes that it begins with. -/
theorem compare_append_ne_lt (front rest : Bytes) : compare (front ++ rest) front ≠ .lt := by
  induction front with
  | nil =>
    cases rest with
    | nil => decide
    | cons b rest => exact nofun
  | cons b front ih =>
    have hbyte : compare b b = .eq := Std.ReflCmp.compare_self
    rw [List.cons_append, List.compare_cons_cons, hbyte]
    exact ih

/-- What stands between `front` and a key that begins with it begins with it. -/
theorem prefix_of_between {front key key' : Bytes} (hfront : compare key front ≠ .lt)
    (hkey : compare key key' = .lt) (hbegins : front <+: key') : front <+: key := by
  induction front generalizing key key' with
  | nil => exact List.nil_prefix
  | cons b front ih =>
    obtain ⟨rest, rfl⟩ := hbegins
    cases key with
    | nil => exact absurd rfl hfront
    | cons c key =>
      rw [List.cons_append, List.compare_cons_cons] at hkey
      rw [List.compare_cons_cons] at hfront
      rcases h : compare c b with - | - | -
      · rw [h] at hfront
        exact absurd rfl hfront
      · have hbyte : c = b := Std.LawfulEqOrd.eq_of_compare h
        rw [h] at hfront hkey
        exact List.cons_prefix_cons.2 ⟨hbyte.symm, ih hfront hkey ⟨rest, rfl⟩⟩
      · rw [h] at hkey
        cases hkey

/-- Keys are ordered as lists of bytes are: the first byte that differs decides,
and what breaks off comes first. -/
theorem compare_eq_lt_iff {a b : Bytes} : compare a b = .lt ↔ a < b := by
  induction a generalizing b with
  | nil =>
    cases b with
    | nil => exact iff_of_false (by decide) (List.not_lt_nil [])
    | cons y b => exact iff_of_true rfl (List.nil_lt_cons y b)
  | cons x a ih =>
    cases b with
    | nil => exact iff_of_false (by simp) (List.not_lt_nil _)
    | cons y b =>
      rw [List.compare_cons_cons, List.cons_lt_cons_iff, ← ih]
      -- only where the first bytes are equal does the rest decide
      rcases h : compare x y with - | - | -
      · exact iff_of_true rfl (.inl (Std.compare_eq_lt.1 h))
      · have hbyte : x = y := Std.LawfulEqOrd.eq_of_compare h
        subst hbyte
        simp
      · have hnot : ¬ x < y := by
          rw [← Std.compare_eq_lt, h]
          decide
        have hne : x ≠ y := by
          rintro rfl
          have hself : compare x x = .eq := Std.ReflCmp.compare_self
          rw [hself] at h
          cases h
        refine iff_of_false (fun h' => ?_) (not_or.2 ⟨hnot, fun h' => hne h'.1⟩)
        cases h'

/-- Keys that begin alike are ordered as what follows is. -/
theorem compare_append_left (front : Bytes) (a b : Bytes) :
    compare (front ++ a) (front ++ b) = compare a b := by
  induction front with
  | nil => rfl
  | cons c front ih =>
    have hbyte : compare c c = .eq := Std.ReflCmp.compare_self
    rw [List.cons_append, List.cons_append, List.compare_cons_cons, hbyte]
    exact ih

/-! ### The walk -/

/-- A walk that starts behind what is `below` and stops at what is not to be
kept has seen all that is, if that stands together and above. -/
theorem takeWhile_dropWhile_eq_filter {α : Type} {below keep : α → Bool} {l : List α}
    (habove : ∀ e ∈ l, keep e = true → below e = false)
    (htogether : l.Pairwise fun e e' =>
      below e = false → below e' = false ∧ (keep e' = true → keep e = true)) :
    (l.dropWhile below).takeWhile keep = l.filter keep := by
  induction l with
  | nil => rfl
  | cons e l ih =>
    obtain ⟨hfirst, hrest⟩ := List.pairwise_cons.1 htogether
    have hwalk := ih (fun e' he' => habove e' (List.mem_cons_of_mem _ he')) hrest
    rcases hbelow : below e with - | -
    · -- the walk begins here, and everything else is above as well
      have hstart : l.dropWhile below = l := by
        cases l with
        | nil => rfl
        | cons e' l =>
          have habove' := (hfirst e' List.mem_cons_self hbelow).1
          exact List.dropWhile_cons_of_neg (by simp [habove'])
      rw [hstart] at hwalk
      rw [List.dropWhile_cons_of_neg (by simp [hbelow])]
      rcases hkeep : keep e with - | -
      · have hnone : l.filter keep = [] := by
          rw [List.filter_eq_nil_iff]
          intro e' he' hkeep'
          have hkept := (hfirst e' he' hbelow).2 hkeep'
          rw [hkeep] at hkept
          cases hkept
        rw [List.takeWhile_cons_of_neg (by simp [hkeep]), List.filter_cons_of_neg (by simp [hkeep]),
          hnone]
      · rw [List.takeWhile_cons_of_pos hkeep, List.filter_cons_of_pos hkeep, hwalk]
    · have hdrop : keep e ≠ true := by
        intro hkeep
        have hnot := habove e List.mem_cons_self hkeep
        rw [hbelow] at hnot
        cases hnot
      rw [List.dropWhile_cons_of_pos hbelow, List.filter_cons_of_neg hdrop, hwalk]

/-- A scan answers all entries whose key begins with `front`, and no others. -/
theorem MemStore.entriesUnder_eq (s : MemStore) (front : Bytes) :
    s.entriesUnder front = s.entries.entries.filter fun e => front.isPrefixOf e.1 := by
  apply takeWhile_dropWhile_eq_filter
  · intro e _ hkeep
    obtain ⟨rest, hrest⟩ := List.isPrefixOf_iff_prefix.1 hkeep
    have hnot := compare_append_ne_lt front rest
    rw [hrest] at hnot
    exact decide_eq_false hnot
  · apply s.entries.ascending.imp
    intro e e' hlt hbelow
    have hnot : compare e.1 front ≠ .lt := of_decide_eq_false hbelow
    constructor
    · apply decide_eq_false
      intro hbelow'
      exact hnot (Std.TransCmp.lt_trans hlt hbelow')
    · intro hkeep
      have hbegins := prefix_of_between hnot hlt (List.isPrefixOf_iff_prefix.1 hkeep)
      exact List.isPrefixOf_iff_prefix.2 hbegins

namespace MemStore

/-- The entries of a scan come in ascending order of their keys. -/
theorem ascending_entriesUnder (s : MemStore) (front : Bytes) :
    (s.entriesUnder front).Pairwise fun e e' => compare e.1 e'.1 = .lt := by
  rw [entriesUnder_eq]
  exact s.entries.ascending.filter _

/-- The keys that a scan answers are distinct. -/
theorem nodup_entriesUnder (s : MemStore) (front : Bytes) :
    ((s.entriesUnder front).map Prod.fst).Nodup := by
  rw [List.Nodup, List.pairwise_map]
  apply (s.ascending_entriesUnder front).imp
  intro e e' hlt heq
  have hself : compare e'.1 e'.1 = .eq := Std.ReflCmp.compare_self
  rw [heq, hself] at hlt
  cases hlt

theorem mem_entriesUnder_iff {s : MemStore} {front key value : Bytes} :
    (key, value) ∈ s.entriesUnder front ↔
      s.entries.get? key = some value ∧ front <+: key := by
  rw [entriesUnder_eq, List.mem_filter, Table.mem_entries_iff, List.isPrefixOf_iff_prefix]

end MemStore

end BlockHooks
