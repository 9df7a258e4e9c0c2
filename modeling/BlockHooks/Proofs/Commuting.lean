/-
BlockHooks/Proofs/Commuting.lean

Computations that do not notice each other.

Two computations over one state commute if neither's answer tells whether the
other was run before it, and both orders end in the same state (`Commutes`).
A computation commutes with a sequence if it commutes with the parts, for
whatever the first part answers; an error ends a sequence early, which is a
shorter sequence of parts that commute.

So if every computation of one family commutes with every one of another, it
does not matter how calls of the two families are interleaved: each family
answers what it answers alone, and the state is the one that the calls of the
first family followed by those of the second lead to (`run_interleaved`).
-/
import BlockHooks.Action

namespace BlockHooks

variable {σ α β γ ε ε' ι κ : Type}

/-- Neither computation notices the other, and their order does not matter. -/
structure Commutes (x : StateM σ α) (y : StateM σ β) : Prop where
  left : ∀ s, (x.run (y.run s).2).1 = (x.run s).1
  right : ∀ s, (y.run (x.run s).2).1 = (y.run s).1
  state : ∀ s, (y.run (x.run s).2).2 = (x.run (y.run s).2).2

namespace Commutes

theorem symm {x : StateM σ α} {y : StateM σ β} (h : Commutes x y) : Commutes y x where
  left := h.right
  right := h.left
  state s := (h.state s).symm

/-- What changes nothing commutes with all that leaves its answer alone. -/
theorem of_reads {x : StateM σ α} {y : StateM σ β} (hx : ∀ s, (x.run s).2 = s)
    (h : ∀ s, (x.run (y.run s).2).1 = (x.run s).1) : Commutes x y where
  left := h
  right s := by rw [hx]
  state s := by rw [hx, hx]

theorem pure (a : α) (y : StateM σ β) : Commutes (Pure.pure a : StateM σ α) y :=
  of_reads (fun _ => rfl) fun _ => rfl

theorem bind {x : StateM σ α} {f : α → StateM σ γ} {y : StateM σ β} (hx : Commutes x y)
    (hf : ∀ a, Commutes (f a) y) : Commutes (x >>= f) y where
  left s := by
    show ((f (x.run (y.run s).2).1).run (x.run (y.run s).2).2).1
      = ((f (x.run s).1).run (x.run s).2).1
    rw [hx.left, ← hx.state, (hf _).left]
  right s := by
    show (y.run ((f (x.run s).1).run (x.run s).2).2).1 = (y.run s).1
    rw [(hf _).right, hx.right]
  state s := by
    show (y.run ((f (x.run s).1).run (x.run s).2).2).2
      = ((f (x.run (y.run s).2).1).run (x.run (y.run s).2).2).2
    rw [(hf _).state, hx.state, hx.left]

theorem mapM {f : ι → StateM σ α} {y : StateM σ β} (h : ∀ i, Commutes (f i) y) (is : List ι) :
    Commutes (is.mapM f) y := by
  induction is with
  | nil =>
    rw [List.mapM_nil]
    exact pure [] y
  | cons i is ih =>
    rw [List.mapM_cons]
    exact bind (h i) fun a => bind ih fun as => pure (a :: as) y

end Commutes

/-! ### Computations that may fail -/

namespace Action

variable {y : StateM σ β}

theorem commutes_pure (a : α) (y : StateM σ β) :
    Commutes (Pure.pure a : Action σ ε α).outcome y :=
  Commutes.pure (Except.ok a) y

theorem commutes_throw (e : ε) (y : StateM σ β) :
    Commutes (throw e : Action σ ε α).outcome y :=
  Commutes.pure (Except.error e) y

theorem commutes_ofExcept (r : Except ε α) (y : StateM σ β) :
    Commutes (ofExcept r).outcome y :=
  Commutes.pure r y

theorem commutes_mapError {x : Action σ ε α} (f : ε → ε') (hx : Commutes x.outcome y) :
    Commutes (mapError f x).outcome y :=
  hx.bind fun r => Commutes.pure (r.mapError f) y

/-- If the first half fails there is no second half. -/
theorem commutes_bind {x : Action σ ε α} {f : α → Action σ ε γ} (hx : Commutes x.outcome y)
    (hf : ∀ a, Commutes (f a).outcome y) : Commutes (x >>= f).outcome y := by
  show Commutes (x.outcome >>= ExceptT.bindCont f) y
  apply hx.bind
  intro r
  cases r with
  | ok a => exact hf a
  | error e => exact Commutes.pure (Except.error e) y

end Action

/-! ### Interleaved calls -/

/-- The left-hand members of a mixed list. -/
def lefts (zs : List (α ⊕ β)) : List α := zs.filterMap Sum.getLeft?

/-- The right-hand members of a mixed list. -/
def rights (zs : List (α ⊕ β)) : List β := zs.filterMap Sum.getRight?

@[simp] theorem lefts_cons_inl (a : α) (zs : List (α ⊕ β)) :
    lefts (.inl a :: zs) = a :: lefts zs := rfl

@[simp] theorem lefts_cons_inr (b : β) (zs : List (α ⊕ β)) : lefts (.inr b :: zs) = lefts zs := rfl

@[simp] theorem rights_cons_inl (a : α) (zs : List (α ⊕ β)) :
    rights (.inl a :: zs) = rights zs := rfl

@[simp] theorem rights_cons_inr (b : β) (zs : List (α ⊕ β)) :
    rights (.inr b :: zs) = b :: rights zs := rfl

/-- Makes calls of two families in the order in which they stand. -/
def interleaved (x : ι → StateM σ α) (y : κ → StateM σ β) (calls : List (ι ⊕ κ)) :
    StateM σ (List (α ⊕ β)) :=
  calls.mapM (Sum.elim (fun i => Sum.inl <$> x i) fun k => Sum.inr <$> y k)

theorem run_mapM_cons (f : ι → StateM σ α) (i : ι) (is : List ι) (s : σ) :
    ((i :: is).mapM f).run s =
      (((f i).run s).1 :: ((is.mapM f).run ((f i).run s).2).1,
        ((is.mapM f).run ((f i).run s).2).2) := by
  rw [List.mapM_cons]
  rfl

/-- Families that commute may be run one after the other. -/
theorem run_interleaved {x : ι → StateM σ α} {y : κ → StateM σ β}
    (h : ∀ i k, Commutes (x i) (y k)) (calls : List (ι ⊕ κ)) (s : σ) :
    lefts ((interleaved x y calls).run s).1 = (((lefts calls).mapM x).run s).1 ∧
      rights ((interleaved x y calls).run s).1 = (((rights calls).mapM y).run s).1 ∧
      ((interleaved x y calls).run s).2
        = (((rights calls).mapM y).run (((lefts calls).mapM x).run s).2).2 := by
  induction calls generalizing s with
  | nil => exact ⟨rfl, rfl, rfl⟩
  | cons call calls ih =>
    rw [interleaved, run_mapM_cons]
    cases call with
    | inl i =>
      -- a call of the first family is not noticed by any later call of the second
      have hlater : Commutes ((rights calls).mapM y) (x i) :=
        Commutes.mapM (fun k => (h i k).symm) _
      obtain ⟨hleft, hright, hstate⟩ := ih ((x i).run s).2
      rw [lefts_cons_inl, rights_cons_inl, run_mapM_cons]
      refine ⟨congrArg _ hleft, ?_, hstate⟩
      exact hright.trans (hlater.left s)
    | inr k =>
      have hlater : Commutes ((lefts calls).mapM x) (y k) := Commutes.mapM (fun i => h i k) _
      obtain ⟨hleft, hright, hstate⟩ := ih ((y k).run s).2
      rw [lefts_cons_inr, rights_cons_inr, run_mapM_cons, run_mapM_cons]
      refine ⟨hleft.trans (hlater.left s), congrArg _ hright, ?_⟩
      rw [hlater.state]
      exact hstate

end BlockHooks
