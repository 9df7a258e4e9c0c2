/-
BlockHooks/Proofs/Frame.lean

What a computation leaves alone.

`Keeps obs x` says that no run of `x`, however it ends, changes what the
observation `obs` sees of the state.  It holds of a computation if it holds
of its parts, so that a long computation is framed by framing the few
primitives that it is made of.

`Maintains p x` says that `x` changes nothing that would make `p` false.  It
is proved in the same way.
-/
import BlockHooks.Log

namespace BlockHooks

namespace Action

variable {σ ε ε' α β γ : Type} {obs : σ → γ}

/-- Every run of `x` leaves what `obs` sees as it was. -/
def Keeps (obs : σ → γ) (x : Action σ ε α) : Prop := ∀ s, obs (x.run s).2 = obs s

theorem Keeps.pure (a : α) : Keeps obs (Pure.pure a : Action σ ε α) := fun _ => rfl

theorem Keeps.throw (e : ε) : Keeps obs (MonadExcept.throw e : Action σ ε α) := fun _ => rfl

theorem Keeps.ofExcept (r : Except ε α) : Keeps obs (Action.ofExcept r) := fun _ => rfl

theorem Keeps.mapError {x : Action σ ε α} (f : ε → ε') (hx : Keeps obs x) :
    Keeps obs (Action.mapError f x) := fun s => hx s

/-- The second half is framed for whatever the first half answers. -/
theorem Keeps.bind {x : Action σ ε α} {f : α → Action σ ε β} (hx : Keeps obs x)
    (hf : ∀ a, Keeps obs (f a)) : Keeps obs (x >>= f) := by
  intro s
  have h := hx s
  rw [run_bind]
  rcases e : x.run s with ⟨err | a, t⟩
  · rw [e] at h
    exact h
  · rw [e] at h
    exact (hf a t).trans h

theorem Keeps.ite {p : Prop} [Decidable p] {x y : Action σ ε α} (hx : Keeps obs x)
    (hy : Keeps obs y) : Keeps obs (if p then x else y) := by
  split
  · exact hx
  · exact hy

/-! ### Invariants -/

/-- Every run of `x` that starts where `p` holds ends where `p` holds. -/
def Maintains (p : σ → Prop) (x : Action σ ε α) : Prop := ∀ s, p s → p (x.run s).2

variable {p : σ → Prop}

/-- What is not touched stays true. -/
theorem Keeps.maintains {q : γ → Prop} {x : Action σ ε α} (hx : Keeps obs x) :
    Maintains (fun s => q (obs s)) x := by
  intro s hs
  show q (obs (x.run s).2)
  rw [hx s]
  exact hs

theorem Maintains.mapError {x : Action σ ε α} (f : ε → ε') (hx : Maintains p x) :
    Maintains p (Action.mapError f x) := fun s hs => hx s hs

theorem Maintains.bind {x : Action σ ε α} {f : α → Action σ ε β} (hx : Maintains p x)
    (hf : ∀ a, Maintains p (f a)) : Maintains p (x >>= f) := by
  intro s hs
  have ht := hx s hs
  rw [run_bind]
  rcases e : x.run s with ⟨err | a, t⟩
  · rw [e] at ht
    exact ht
  · rw [e] at ht
    exact hf a t ht

/-- What follows a check may rely on what was checked. -/
theorem Maintains.bind_ofExcept {r : Except ε α} {f : α → Action σ ε β}
    (hf : ∀ a, r = .ok a → Maintains p (f a)) : Maintains p (Action.ofExcept r >>= f) := by
  intro s hs
  rw [run_bind, run_ofExcept]
  rcases e : r with err | a
  · exact hs
  · exact hf a e s hs

theorem Maintains.ite {c : Prop} [Decidable c] {x y : Action σ ε α} (hx : Maintains p x)
    (hy : Maintains p y) : Maintains p (if c then x else y) := by
  split
  · exact hx
  · exact hy

end Action

end BlockHooks
