/-!
# Running computations that fail and keep state

Computations that keep a state and may fail, where the state outlives a failure.
`runFrom` runs one from a state, and the lemmas here say what it makes of each way to
build a computation.
-/

namespace Template

variable {σ ε α β : Type}

/-- A run that succeeds has succeeded in its first part. -/
theorem ok_of_bind {first : Except ε α} {others : α → Except ε β} {result : β}
    (succeeds : (first >>= others) = .ok result) :
    ∃ value, first = .ok value ∧ others value = .ok result := by
  cases first with
  | error => cases succeeds
  | ok value => exact ⟨value, rfl, succeeds⟩

/-- Run a computation that keeps a state and may fail. -/
def runFrom (state : σ) (action : ExceptT ε (StateM σ) α) : Except ε α × σ :=
  (action.run.run state).run

theorem runFrom_pure (state : σ) (value : α) :
    runFrom state (pure value : ExceptT ε (StateM σ) α) = (.ok value, state) := rfl

theorem runFrom_lift (state : σ) (action : StateM σ α) :
    runFrom state (ExceptT.lift action : ExceptT ε (StateM σ) α) =
      (.ok (action.run state).1, (action.run state).2) := rfl

theorem mapError_ok {ε' : Type} (rename : ε → ε') (value : α) :
    (Except.ok value : Except ε α).mapError rename = .ok value := rfl

theorem mapError_error {ε' : Type} (rename : ε → ε') (fault : ε) :
    (Except.error fault : Except ε α).mapError rename = .error (rename fault) := rfl

theorem runFrom_bind (state : σ) (first : ExceptT ε (StateM σ) α)
    (next : α → ExceptT ε (StateM σ) β) :
    runFrom state (first >>= next) =
      match runFrom state first with
      | (.ok value, state) => runFrom state (next value)
      | (.error fault, state) => (.error fault, state) := by
  rcases answered : runFrom state first with ⟨fault | value, after⟩
  · simp only [runFrom, ExceptT.run_bind, StateT.run_bind, Id.run_bind] at answered ⊢
    rw [answered]
    rfl
  · simp only [runFrom, ExceptT.run_bind, StateT.run_bind, Id.run_bind] at answered ⊢
    rw [answered]

end Template
