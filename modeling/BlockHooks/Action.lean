/-
BlockHooks/Action.lean

Computations over a state that survives failure.

A hook reads and writes a store, a bank and a group keeper, and it may stop
half way.  What it wrote before it stopped stays written: nothing here rolls
a state back.  `Action σ ε α` is a computation over states `σ` with errors
`ε`; running it gives the outcome *and* the state it left, whichever the
outcome is.  Statements such as "a failed transfer changes no balance" are
then statements about the second component of a run.

The `run_*` lemmas say what each combinator does to outcome and state.
-/

namespace BlockHooks

/-- A computation over states `σ` that ends in a value or in an error `ε`.
The state it reached is kept in both cases. -/
abbrev Action (σ ε : Type) : Type → Type := ExceptT ε (StateM σ)

namespace Action

variable {σ τ ε ε' α β : Type}

/-- Outcome and final state of a computation started in `s`. -/
def run (x : Action σ ε α) (s : σ) : Except ε α × σ :=
  StateT.run (m := Id) (ExceptT.run x) s

/-- The computation with the given outcome and final state for every start. -/
def ofRun (f : σ → Except ε α × σ) : Action σ ε α :=
  ExceptT.mk fun s => f s

/-- Reads the state, changes nothing, cannot fail. -/
def read (f : σ → α) : Action σ ε α :=
  ofRun fun s => (.ok (f s), s)

/-- Replaces the state, cannot fail. -/
def update (f : σ → σ) : Action σ ε Unit :=
  ofRun fun s => (.ok (), f s)

/-- Answers with an outcome that is already known. -/
def ofExcept (r : Except ε α) : Action σ ε α :=
  ofRun fun s => (r, s)

/-- Reports the errors of `x` through `f`; values and states are those of `x`. -/
def mapError (f : ε → ε') (x : Action σ ε α) : Action σ ε' α :=
  ofRun fun s =>
    let r := x.run s
    (r.1.mapError f, r.2)

/-- A computation that cannot fail, as one that could. -/
def ofState (x : StateM σ α) : Action σ ε α :=
  ofRun fun s =>
    let r := x.run s
    (.ok r.1, r.2)

/-- Hands the outcome of `x` over as a value, so that the caller goes on
from the state `x` left. -/
def outcome (x : Action σ ε α) : StateM σ (Except ε α) := fun s => x.run s

/-- Runs `x` on one part of a larger state. -/
def onPart (get : τ → σ) (put : σ → τ → τ) (x : Action σ ε α) : Action τ ε α :=
  ofRun fun t =>
    let r := x.run (get t)
    (r.1, put r.2 t)

/-! ### What a run does -/

@[ext] theorem ext {x y : Action σ ε α} (h : ∀ s, x.run s = y.run s) : x = y :=
  funext h

@[simp] theorem run_ofRun (f : σ → Except ε α × σ) (s : σ) : (ofRun f).run s = f s :=
  rfl

@[simp] theorem run_pure (a : α) (s : σ) : run (pure a : Action σ ε α) s = (.ok a, s) :=
  rfl

@[simp] theorem run_throw (e : ε) (s : σ) :
    run (throw e : Action σ ε α) s = (.error e, s) :=
  rfl

/-- A sequence stops at the first error, in the state that error left. -/
theorem run_bind (x : Action σ ε α) (f : α → Action σ ε β) (s : σ) :
    run (x >>= f) s =
      match x.run s with
      | (.ok a, s') => (f a).run s'
      | (.error e, s') => (.error e, s') := by
  show run (ExceptT.bind x f) s = _
  simp only [run, ExceptT.bind, ExceptT.mk, ExceptT.run, StateT.run, bind, StateT.bind]
  rcases x s with ⟨a | e, s'⟩ <;> rfl

theorem run_bind_ok {x : Action σ ε α} {f : α → Action σ ε β} {s s' : σ} {a : α}
    (h : x.run s = (.ok a, s')) : run (x >>= f) s = (f a).run s' := by
  rw [run_bind, h]

theorem run_bind_error {x : Action σ ε α} {f : α → Action σ ε β} {s s' : σ} {e : ε}
    (h : x.run s = (.error e, s')) : run (x >>= f) s = (.error e, s') := by
  rw [run_bind, h]

@[simp] theorem run_map (f : α → β) (x : Action σ ε α) (s : σ) :
    run (f <$> x) s = ((x.run s).1.map f, (x.run s).2) := by
  show run (ExceptT.map f x) s = _
  simp only [run, ExceptT.map, ExceptT.mk, ExceptT.run, StateT.run, bind, StateT.bind]
  rcases x s with ⟨a | e, s'⟩ <;> rfl

/-- A sequence succeeds exactly if both halves do, the second from where the
first one left off. -/
theorem run_bind_eq_ok_iff {x : Action σ ε α} {f : α → Action σ ε β} {s s' : σ} {b : β} :
    run (x >>= f) s = (.ok b, s') ↔
      ∃ a t, x.run s = (.ok a, t) ∧ (f a).run t = (.ok b, s') := by
  rw [run_bind]
  constructor
  · intro h
    rcases e : x.run s with ⟨err | a, t⟩
    · rw [e] at h
      cases h
    · rw [e] at h
      exact ⟨a, t, rfl, h⟩
  · rintro ⟨a, t, hx, hf⟩
    rw [hx]
    exact hf

@[simp] theorem run_read (f : σ → α) (s : σ) :
    run (read f : Action σ ε α) s = (.ok (f s), s) :=
  rfl

@[simp] theorem run_update (f : σ → σ) (s : σ) :
    run (update f : Action σ ε Unit) s = (.ok (), f s) :=
  rfl

@[simp] theorem run_ofExcept (r : Except ε α) (s : σ) : run (ofExcept r) s = (r, s) :=
  rfl

@[simp] theorem run_mapError (f : ε → ε') (x : Action σ ε α) (s : σ) :
    run (mapError f x) s = ((x.run s).1.mapError f, (x.run s).2) :=
  rfl

theorem run_mapError_eq_ok_iff {f : ε → ε'} {x : Action σ ε α} {s s' : σ} {a : α} :
    run (mapError f x) s = (.ok a, s') ↔ x.run s = (.ok a, s') := by
  rw [run_mapError]
  rcases x.run s with ⟨e | b, t⟩
  · exact ⟨nofun, nofun⟩
  · constructor
    · intro h
      cases h
      rfl
    · intro h
      cases h
      rfl

@[simp] theorem run_ofState (x : StateM σ α) (s : σ) :
    run (ofState x : Action σ ε α) s = (.ok (x.run s).1, (x.run s).2) :=
  rfl

@[simp] theorem run_outcome (x : Action σ ε α) (s : σ) : (outcome x).run s = x.run s :=
  rfl

/-- A computation that cannot fail is followed by the next one. -/
theorem run_state_bind (x : StateM σ α) (f : α → StateM σ β) (s : σ) :
    (x >>= f).run s = (f (x.run s).1).run (x.run s).2 :=
  rfl

@[simp] theorem run_onPart (get : τ → σ) (put : σ → τ → τ) (x : Action σ ε α) (t : τ) :
    run (onPart get put x) t = ((x.run (get t)).1, put (x.run (get t)).2 t) :=
  rfl

end Action

end BlockHooks
