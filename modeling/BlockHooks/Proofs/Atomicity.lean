/-
BlockHooks/Proofs/Atomicity.lean

Computations that fail before they change anything.

`Atomic p x` says that a run of `x` that starts where `p` holds and ends in
an error leaves the state as it was.  A sequence has that property if its
first half changes nothing at all, or if its second half cannot fail any
more: what may fail has to come before what writes.
-/
import BlockHooks.Proofs.Frame

namespace BlockHooks

namespace Action

variable {σ ε ε' α β : Type} {p q : σ → Prop}

/-- Started where `p` holds, `x` does not fail. -/
def Succeeds (p : σ → Prop) (x : Action σ ε α) : Prop :=
  ∀ s, p s → ∃ a s', x.run s = (.ok a, s')

/-- Started where `p` holds, `x` leaves the state as it was if it fails. -/
def Atomic (p : σ → Prop) (x : Action σ ε α) : Prop :=
  ∀ s, p s → ∀ e s', x.run s = (.error e, s') → s' = s

theorem Succeeds.pure (a : α) : Succeeds p (Pure.pure a : Action σ ε α) :=
  fun s _ => ⟨a, s, rfl⟩

theorem Succeeds.mapError {x : Action σ ε α} (f : ε → ε') (hx : Succeeds p x) :
    Succeeds p (Action.mapError f x) := by
  intro s hs
  obtain ⟨a, s', hrun⟩ := hx s hs
  exact ⟨a, s', run_mapError_eq_ok_iff.2 hrun⟩

theorem Succeeds.atomic {x : Action σ ε α} (hx : Succeeds p x) : Atomic p x := by
  intro s hs e s' hrun
  obtain ⟨a, t, hok⟩ := hx s hs
  rw [hok] at hrun
  cases hrun

/-- What changes nothing changes nothing on failing. -/
theorem Keeps.atomic {x : Action σ ε α} (hx : Keeps id x) : Atomic p x := by
  intro s _ e s' hrun
  have hsame := hx s
  rwa [hrun] at hsame

theorem Atomic.mapError {x : Action σ ε α} (f : ε → ε') (hx : Atomic p x) :
    Atomic p (Action.mapError f x) := by
  intro s hs e s' hrun
  rw [run_mapError] at hrun
  rcases hx' : x.run s with ⟨err | a, t⟩
  · rw [hx'] at hrun
    cases hrun
    exact hx s hs err _ hx'
  · rw [hx'] at hrun
    cases hrun

theorem Atomic.ite {c : Prop} [Decidable c] {x y : Action σ ε α} (hx : Atomic p x)
    (hy : Atomic p y) : Atomic p (if c then x else y) := by
  split
  · exact hx
  · exact hy

/-- A first half that changes nothing does no harm. -/
theorem Atomic.bind_of_keeps {x : Action σ ε α} {f : α → Action σ ε β} (hx : Keeps id x)
    (hf : ∀ a, Atomic p (f a)) : Atomic p (x >>= f) := by
  intro s hs e s' hrun
  have hsame := hx s
  rw [run_bind] at hrun
  rcases hx' : x.run s with ⟨err | a, t⟩
  · rw [hx'] at hrun hsame
    cases hrun
    exact hsame
  · rw [hx'] at hrun hsame
    subst hsame
    exact hf a _ hs e s' hrun

/-- Nor does a second half that does not fail where the first one leads. -/
theorem Atomic.bind_of_succeeds {x : Action σ ε α} {f : α → Action σ ε β} (hx : Atomic p x)
    (hlead : ∀ s, p s → q (x.run s).2) (hf : ∀ a, Succeeds q (f a)) :
    Atomic p (x >>= f) := by
  intro s hs e s' hrun
  rcases hx' : x.run s with ⟨err | a, t⟩
  · rw [run_bind_error hx'] at hrun
    cases hrun
    exact hx s hs _ _ hx'
  · have ht := hlead s hs
    rw [hx'] at ht
    obtain ⟨b, s'', hok⟩ := hf a t ht
    rw [run_bind_ok hx', hok] at hrun
    cases hrun

end Action

end BlockHooks
