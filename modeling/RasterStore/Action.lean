import RasterStore.RasterError

/-!
# Steps that may fail

An `Action σ α` reads and changes a state `σ` and either answers an `α` or fails with a
`RasterError`. The state that was reached is kept in both cases: a failing step leaves behind what
it did before it failed, as an interrupted transfer does.

* `Action.attempt` turns a failure into an answer.
* `Action.onFirst` and `Action.onSecond` run a step on one half of a pair of states.
-/

namespace RasterStore

/-- A step over a state: an answer or a failure, and the state reached in either case. -/
def Action (σ : Type) (α : Type) : Type :=
  σ → Except RasterError α × σ

namespace Action

variable {σ τ α β : Type}

/-- The outcome of a step from a given state. -/
def run (act : Action σ α) (state : σ) : Except RasterError α × σ :=
  act state

/-- Runs the second step on the state the first one reached, unless the first one failed. -/
protected def bind (act : Action σ α) (next : α → Action σ β) : Action σ β := fun state =>
  match act state with
  | (.ok value, reached) => next value reached
  | (.error error, reached) => (.error error, reached)

instance : Monad (Action σ) where
  pure value := fun state => (.ok value, state)
  bind := Action.bind

instance : MonadStateOf σ (Action σ) where
  get := fun state => (.ok state, state)
  set state := fun _ => (.ok (), state)
  modifyGet f := fun state => match f state with
    | (value, reached) => (.ok value, reached)

instance : MonadExceptOf RasterError (Action σ) where
  throw error := fun state => (.error error, state)
  tryCatch act handle := fun state => match act state with
    | (.ok value, reached) => (.ok value, reached)
    | (.error error, reached) => handle error reached

instance : MonadLift (Except RasterError) (Action σ) where
  monadLift value := fun state => (value, state)

/-- Runs a step and answers with its outcome; a failure no longer stops what follows. -/
def attempt (act : Action σ α) : Action σ (Except RasterError α) := fun state =>
  match act state with
  | (outcome, reached) => (.ok outcome, reached)

/-- Changes the failure of a step. -/
def mapError (f : RasterError → RasterError) (act : Action σ α) : Action σ α := fun state =>
  match act state with
  | (outcome, reached) => (outcome.mapError f, reached)

/-- Runs a step on the first half of a pair. -/
def onFirst (act : Action σ α) : Action (σ × τ) α := fun (first, second) =>
  match act first with
  | (outcome, reached) => (outcome, (reached, second))

/-- Runs a step on the second half of a pair. -/
def onSecond (act : Action τ α) : Action (σ × τ) α := fun (first, second) =>
  match act second with
  | (outcome, reached) => (outcome, (first, reached))

/-! ## Running a step -/

@[simp] theorem run_pure (value : α) (state : σ) :
    (pure value : Action σ α).run state = (.ok value, state) := rfl

@[simp] theorem run_throw (error : RasterError) (state : σ) :
    (throw error : Action σ α).run state = (.error error, state) := rfl

@[simp] theorem run_get (state : σ) :
    (get : Action σ σ).run state = (.ok state, state) := rfl

@[simp] theorem run_set (reached state : σ) :
    (set reached : Action σ PUnit).run state = (.ok ⟨⟩, reached) := rfl

@[simp] theorem run_modify (f : σ → σ) (state : σ) :
    (modify f : Action σ PUnit).run state = (.ok ⟨⟩, f state) := rfl

@[simp] theorem run_lift (value : Except RasterError α) (state : σ) :
    (liftM value : Action σ α).run state = (value, state) := rfl

@[simp] theorem run_attempt (act : Action σ α) (state : σ) :
    act.attempt.run state = (.ok (act.run state).1, (act.run state).2) := rfl

/-- Two steps run one after the other, unless the first fails. -/
theorem run_bind (act : Action σ α) (next : α → Action σ β) (state : σ) :
    (act >>= next).run state = match act.run state with
      | (.ok value, reached) => (next value).run reached
      | (.error error, reached) => (.error error, reached) := rfl

/-- What follows a step that succeeds starts from the state that it reached. -/
theorem run_bind_of_ok {act : Action σ α} {next : α → Action σ β} {state reached : σ} {value : α}
    (h : act.run state = (.ok value, reached)) :
    (act >>= next).run state = (next value).run reached := by
  rw [run_bind, h]

/-- What follows a step that fails does not run. -/
theorem run_bind_of_error {act : Action σ α} {next : α → Action σ β} {state reached : σ}
    {error : RasterError} (h : act.run state = (.error error, reached)) :
    (act >>= next).run state = (.error error, reached) := by
  rw [run_bind, h]

/-- A step followed by one that only answers is the step itself. -/
theorem bind_pure_eq (act : Action σ α) : Action.bind act pure = act := by
  funext state
  unfold Action.bind
  split <;> simp_all [pure]

/-- Three steps in a row may be grouped either way. -/
theorem bind_bind_eq {γ : Type} (act : Action σ α) (first : α → Action σ β)
    (second : β → Action σ γ) :
    Action.bind (Action.bind act first) second =
      Action.bind act (fun value => Action.bind (first value) second) := by
  funext state
  unfold Action.bind
  cases act state with
  | mk outcome reached => cases outcome <;> rfl

instance : LawfulMonad (Action σ) :=
  LawfulMonad.mk' (Action σ) bind_pure_eq (fun _ _ => rfl) bind_bind_eq

end Action

end RasterStore
