/-
BlockHooks/Table.lean

Finite maps kept in key order.

A `Table` is the list of its bindings with strictly ascending keys, so that
each key is bound at most once and every walk over a table visits the
bindings in the one order that all replicas agree on.  Two tables that
answer every look-up alike are equal (`Table.ext_get?`); what a look-up says
after an insertion or a removal is `get?_insert` and `get?_erase`.

`walkFrom start keep` is the ordered walk that begins at the first key not
below `start` and goes on as long as the keys satisfy `keep`.
-/

namespace BlockHooks

/-- A finite map from `κ` to `β`: its bindings in strictly ascending order of the keys. -/
structure Table (κ β : Type) [Ord κ] where
  entries : List (κ × β)
  ascending : entries.Pairwise fun a b => compare a.1 b.1 = .lt

namespace Table

variable {κ β : Type} [Ord κ]

/-! ### Bindings in a list -/

/-- The value that the first binding of `k` gives. -/
def lookup (k : κ) : List (κ × β) → Option β
  | [] => none
  | (k', v) :: rest => if compare k k' = .eq then some v else lookup k rest

/-- Binds `k` to `v` in an ascending list. -/
def bind (k : κ) (v : β) : List (κ × β) → List (κ × β)
  | [] => [(k, v)]
  | (k', v') :: rest =>
    match compare k k' with
    | .lt => (k, v) :: (k', v') :: rest
    | .eq => (k, v) :: rest
    | .gt => (k', v') :: bind k v rest

/-- Drops the bindings of `k`. -/
def unbind (k : κ) : List (κ × β) → List (κ × β) :=
  List.filter fun e => compare k e.1 != .eq

theorem mem_bind {k : κ} {v : β} {e : κ × β} {l : List (κ × β)} (h : e ∈ bind k v l) :
    e = (k, v) ∨ e ∈ l := by
  induction l with
  | nil => simpa [bind] using h
  | cons hd tl ih =>
    obtain ⟨k', v'⟩ := hd
    unfold bind at h
    split at h
    · simpa using h
    · rcases List.mem_cons.1 h with h | h
      · exact Or.inl h
      · exact Or.inr (List.mem_cons_of_mem _ h)
    · rcases List.mem_cons.1 h with h | h
      · exact Or.inr (h ▸ List.mem_cons_self)
      · exact (ih h).imp_right (List.mem_cons_of_mem _)

variable [Std.TransOrd κ] [Std.LawfulEqOrd κ]

theorem ascending_bind (k : κ) (v : β) {l : List (κ × β)}
    (h : l.Pairwise fun a b => compare a.1 b.1 = .lt) :
    (bind k v l).Pairwise fun a b => compare a.1 b.1 = .lt := by
  -- the key goes in front of the first larger one, so all behind it are larger
  induction l with
  | nil => simp [bind]
  | cons hd tl ih =>
    obtain ⟨k', v'⟩ := hd
    have htl := List.pairwise_cons.1 h
    unfold bind
    split
    next hlt =>
      refine List.pairwise_cons.2 ⟨fun e he => ?_, h⟩
      rcases List.mem_cons.1 he with rfl | he
      · exact hlt
      · exact Std.TransCmp.lt_trans hlt (htl.1 e he)
    next heq =>
      have : k = k' := Std.LawfulEqOrd.eq_of_compare heq
      subst this
      exact List.pairwise_cons.2 htl
    next hgt =>
      refine List.pairwise_cons.2 ⟨fun e he => ?_, ih htl.2⟩
      rcases mem_bind he with rfl | he
      · exact Std.OrientedCmp.lt_of_gt hgt
      · exact htl.1 e he

/-! ### Operations -/

/-- No bindings. -/
def empty : Table κ β := ⟨[], List.Pairwise.nil⟩

instance : Inhabited (Table κ β) := ⟨⟨[], List.Pairwise.nil⟩⟩

/-- The value bound to `k`. -/
def get? (t : Table κ β) (k : κ) : Option β := lookup k t.entries

/-- Tells whether `k` is bound. -/
def contains (t : Table κ β) (k : κ) : Bool := (t.get? k).isSome

/-- Binds `k` to `v`, in the place of what it was bound to. -/
def insert (t : Table κ β) (k : κ) (v : β) : Table κ β :=
  ⟨bind k v t.entries, ascending_bind k v t.ascending⟩

/-- Leaves `k` unbound. -/
def erase (t : Table κ β) (k : κ) : Table κ β :=
  ⟨unbind k t.entries, t.ascending.filter _⟩

/-- The number of keys that are bound. -/
def size (t : Table κ β) : Nat := t.entries.length

/-- The bound values in the order of their keys. -/
def values (t : Table κ β) : List β := t.entries.map (·.2)

/-- The bindings from the first key not below `start` on, as long as the
keys satisfy `keep`. -/
def walkFrom (t : Table κ β) (start : κ) (keep : κ → Bool) : List (κ × β) :=
  (t.entries.dropWhile fun e => compare e.1 start = .lt).takeWhile fun e => keep e.1

/-! ### Look-ups -/

omit [Std.TransOrd κ] [Std.LawfulEqOrd κ] in
@[simp] theorem get?_empty (k : κ) : (empty : Table κ β).get? k = none := rfl

omit [Std.TransOrd κ] in
theorem lookup_bind_self (k : κ) (v : β) (l : List (κ × β)) :
    lookup k (bind k v l) = some v := by
  induction l with
  | nil => simp [bind, lookup, Std.ReflCmp.compare_self]
  | cons hd tl ih =>
    obtain ⟨k', v'⟩ := hd
    unfold bind
    split
    · simp [lookup, Std.ReflCmp.compare_self]
    · simp [lookup, Std.ReflCmp.compare_self]
    next h => simp [lookup, h, ih]

omit [Std.TransOrd κ] in
theorem lookup_bind_of_ne {k k' : κ} (v : β) (l : List (κ × β)) (h : k' ≠ k) :
    lookup k' (bind k v l) = lookup k' l := by
  have hne : compare k' k ≠ .eq := fun h' => h (Std.LawfulEqOrd.eq_of_compare h')
  induction l with
  | nil => simp [bind, lookup, hne]
  | cons hd tl ih =>
    obtain ⟨k'', v''⟩ := hd
    unfold bind
    split
    · simp [lookup, hne]
    next h' =>
      have : k = k'' := Std.LawfulEqOrd.eq_of_compare h'
      subst this
      simp [lookup, hne]
    · simp [lookup, ih]

omit [Std.TransOrd κ] [Std.LawfulEqOrd κ] in
theorem lookup_unbind_self (k : κ) (l : List (κ × β)) : lookup k (unbind k l) = none := by
  induction l with
  | nil => rfl
  | cons hd tl ih =>
    obtain ⟨k', v'⟩ := hd
    by_cases h : compare k k' = .eq
    · simpa [unbind, h] using ih
    · simpa [unbind, lookup, h] using ih

omit [Std.TransOrd κ] in
theorem lookup_unbind_of_ne {k k' : κ} (l : List (κ × β)) (h : k' ≠ k) :
    lookup k' (unbind k l) = lookup k' l := by
  have hne : compare k' k ≠ .eq := fun h' => h (Std.LawfulEqOrd.eq_of_compare h')
  induction l with
  | nil => rfl
  | cons hd tl ih =>
    obtain ⟨k'', v''⟩ := hd
    by_cases h' : compare k k'' = .eq
    · have : k = k'' := Std.LawfulEqOrd.eq_of_compare h'
      subst this
      simpa [unbind, lookup, hne, Std.ReflCmp.compare_self] using ih
    · by_cases h'' : compare k' k'' = .eq
      · simp [unbind, lookup, h', h'']
      · simpa [unbind, lookup, h', h''] using ih

theorem get?_insert [DecidableEq κ] (t : Table κ β) (k k' : κ) (v : β) :
    (t.insert k v).get? k' = if k' = k then some v else t.get? k' := by
  split
  next h => subst h; exact lookup_bind_self k' v t.entries
  next h => exact lookup_bind_of_ne v t.entries h

omit [Std.TransOrd κ] in
theorem get?_erase [DecidableEq κ] (t : Table κ β) (k k' : κ) :
    (t.erase k).get? k' = if k' = k then none else t.get? k' := by
  split
  next h => subst h; exact lookup_unbind_self k' t.entries
  next h => exact lookup_unbind_of_ne t.entries h

omit [Std.TransOrd κ] in
/-- A binding is what a look-up finds. -/
theorem mem_entries_iff {t : Table κ β} {k : κ} {v : β} :
    (k, v) ∈ t.entries ↔ t.get? k = some v := by
  obtain ⟨l, hl⟩ := t
  show (k, v) ∈ l ↔ lookup k l = some v
  induction l with
  | nil => simp [lookup]
  | cons hd tl ih =>
    obtain ⟨k', v'⟩ := hd
    have htl := List.pairwise_cons.1 hl
    by_cases h : compare k k' = .eq
    · have : k = k' := Std.LawfulEqOrd.eq_of_compare h
      subst this
      have hout : (k, v) ∉ tl := fun hmem => by
        have := htl.1 _ hmem
        rw [h] at this
        cases this
      simp [lookup, hout, eq_comm]
    · have hk : k ≠ k' := fun h' => h (h' ▸ Std.ReflCmp.compare_self)
      simp [lookup, h, hk, ih htl.2]

/-- Two ascending lists with the same members are the same list. -/
theorem eq_of_ascending {l m : List (κ × β)}
    (hl : l.Pairwise fun a b => compare a.1 b.1 = .lt)
    (hm : m.Pairwise fun a b => compare a.1 b.1 = .lt) (h : ∀ e, e ∈ l ↔ e ∈ m) : l = m := by
  induction l generalizing m with
  | nil =>
    cases m with
    | nil => rfl
    | cons y ys => exact absurd ((h y).2 List.mem_cons_self) (by simp)
  | cons x xs ih =>
    cases m with
    | nil => exact absurd ((h x).1 List.mem_cons_self) (by simp)
    | cons y ys =>
      have hx := List.pairwise_cons.1 hl
      have hy := List.pairwise_cons.1 hm
      have irrefl : ∀ e : κ × β, compare e.1 e.1 ≠ .lt := fun e h' => by
        have : compare e.1 e.1 = .eq := Std.ReflCmp.compare_self
        rw [this] at h'
        cases h'
      -- each of the two first ones is in the other list, where nothing comes before its first
      have hxy : x = y := by
        rcases List.mem_cons.1 ((h x).1 List.mem_cons_self) with h' | h'
        · exact h'
        · rcases List.mem_cons.1 ((h y).2 List.mem_cons_self) with h'' | h''
          · exact h''.symm
          · exact absurd (Std.TransCmp.lt_trans (hx.1 y h'') (hy.1 x h')) (irrefl x)
      subst hxy
      congr 1
      refine ih hx.2 hy.2 fun e => ⟨fun he => ?_, fun he => ?_⟩
      · rcases List.mem_cons.1 ((h e).1 (List.mem_cons_of_mem _ he)) with h' | h'
        · exact absurd (hx.1 e he) (h' ▸ irrefl e)
        · exact h'
      · rcases List.mem_cons.1 ((h e).2 (List.mem_cons_of_mem _ he)) with h' | h'
        · exact absurd (hy.1 e he) (h' ▸ irrefl e)
        · exact h'

/-- A table is determined by its look-ups. -/
theorem ext_get? {t u : Table κ β} (h : ∀ k, t.get? k = u.get? k) : t = u := by
  have : t.entries = u.entries := eq_of_ascending t.ascending u.ascending fun e => by
    rw [show e = (e.1, e.2) from rfl, mem_entries_iff, mem_entries_iff, h]
  cases t; cases u
  cases this
  rfl

end Table

end BlockHooks
