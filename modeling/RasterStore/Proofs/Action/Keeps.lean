import RasterStore.Proofs.Action.Ends

/-!
# Invariants of steps

`Keeps inv act` says that a step keeps an invariant of its state, whether it succeeds or fails.
There is one rule for each way of building a step, as for `Action.Ends`, which says more of a
single run. A step that needs more than the invariant of its state starts from `Ends`.
-/

namespace RasterStore.Action

variable {σ τ α β ι : Type}

/-- From every state with the invariant, the step reaches one with the invariant. -/
def Keeps (inv : σ → Prop) (act : Action σ α) : Prop :=
  ∀ state, inv state → act.Ends state (fun _ => inv) (fun _ => inv)

variable {inv : σ → Prop} {act : Action σ α} {next : α → Action σ β}

/-- The state that a run reaches has the invariant if the one before it had, also where the run
    failed. -/
theorem Keeps.reached {state : σ} (h : Keeps inv act) (hstate : inv state) :
    inv (act.run state).2 :=
  (h state hstate).reached

/-- It is enough to look at the state that is reached. -/
theorem keeps_of_reached (h : ∀ state, inv state → inv (act.run state).2) : Keeps inv act := by
  intro state hstate
  have hreached := h state hstate
  unfold Ends
  cases hrun : act.run state with
  | mk outcome reached =>
    rw [hrun] at hreached
    cases outcome with
    | ok value => exact hreached
    | error error => exact hreached

/-- Every step keeps what holds of all states. -/
theorem keeps_true (act : Action σ α) : Keeps (fun _ => True) act :=
  fun _ _ => ends_of_forall (fun _ _ => trivial) fun _ _ => trivial

/-- A step that only answers keeps every invariant. -/
theorem keeps_pure (value : α) : Keeps inv (pure value : Action σ α) :=
  fun _ hstate => ends_pure.mpr hstate

/-- A step that only raises an error keeps every invariant. -/
theorem keeps_throw (error : RasterError) : Keeps inv (throw error : Action σ α) :=
  fun _ hstate => ends_throw.mpr hstate

/-- A value that was computed keeps every invariant. -/
theorem keeps_lift (outcome : Except RasterError α) :
    Keeps inv (liftM outcome : Action σ α) := by
  intro state hstate
  cases outcome with
  | ok value => exact hstate
  | error error => exact hstate

/-- A change of the state keeps an invariant that holds of the changed state. -/
theorem keeps_modify {f : σ → σ} (h : ∀ state, inv state → inv (f state)) :
    Keeps inv (modify f : Action σ PUnit) :=
  fun state hstate => ends_modify.mpr (h state hstate)

/-- Two steps keep what each of them keeps. -/
theorem Keeps.bind (h : Keeps inv act) (hnext : ∀ value, Keeps inv (next value)) :
    Keeps inv (act >>= next) := fun state hstate =>
  Ends.bind ((h state hstate).mono (fun value reached hreached => hnext value reached hreached)
    fun _ _ hfailed => hfailed)

/-- What follows a look at the state may rely on what the invariant says of it. -/
theorem keeps_get_bind {next : σ → Action σ β} (h : ∀ state, inv state → Keeps inv (next state)) :
    Keeps inv (get >>= next) := fun state hstate =>
  Ends.get_bind (h state hstate state hstate)

/-- What follows a check may rely on it. -/
theorem keeps_lift_bind {outcome : Except RasterError α}
    (h : ∀ value, outcome = .ok value → Keeps inv (next value)) :
    Keeps inv ((liftM outcome : Action σ α) >>= next) := by
  intro state hstate
  apply Ends.bind
  cases outcome with
  | ok value => exact h value rfl state hstate
  | error error => exact hstate

/-- A step that depends on a condition keeps what both sides keep. -/
theorem Keeps.ite {act' : Action σ α} {c : Prop} [Decidable c] (hpos : c → Keeps inv act)
    (hneg : ¬c → Keeps inv act') : Keeps inv (if c then act else act') := by
  split
  · exact hpos (by assumption)
  · exact hneg (by assumption)

/-- Catching an error keeps what the step that raised it does. -/
theorem Keeps.attempt (h : Keeps inv act) : Keeps inv act.attempt :=
  fun state hstate => Ends.attempt (h state hstate)

/-- Renaming an error keeps what the step that raised it does. -/
theorem Keeps.mapError (h : Keeps inv act) (f : RasterError → RasterError) :
    Keeps inv (act.mapError f) :=
  fun state hstate => Ends.mapError (h state hstate)

/-- A step on the first part of a state keeps there what it keeps alone. -/
theorem Keeps.onFirst (h : Keeps inv act) :
    Keeps (fun state : σ × τ => inv state.1) act.onFirst :=
  fun state hstate => Ends.onFirst (h state.1 hstate)

/-- A step on the second part of a state keeps all that is known of the first part. -/
theorem keeps_onSecond (act : Action τ α) :
    Keeps (fun state : σ × τ => inv state.1) act.onSecond := by
  rintro ⟨first, second⟩ hstate
  exact Ends.onSecond (ends_of_forall (fun _ _ => hstate) fun _ _ => hstate)

/-! ## Loops -/

/-- A loop keeps what its body keeps for each item. -/
theorem keeps_forM {items : List ι} {body : ι → Action σ PUnit}
    (h : ∀ item ∈ items, Keeps inv (body item)) : Keeps inv (items.forM body) := by
  induction items with
  | nil => exact keeps_pure _
  | cons item rest ih =>
    exact (h item List.mem_cons_self).bind fun _ =>
      ih fun other hmem => h other (List.mem_cons_of_mem _ hmem)

/-- A fold keeps what its body keeps for each item and every value before it. -/
theorem keeps_foldlM {items : List ι} {body : β → ι → Action σ β} {value : β}
    (h : ∀ value, ∀ item ∈ items, Keeps inv (body value item)) :
    Keeps inv (items.foldlM body value) := by
  induction items generalizing value with
  | nil => exact keeps_pure _
  | cons item rest ih =>
    rw [List.foldlM_cons]
    exact (h value item List.mem_cons_self).bind fun _ =>
      ih fun value other hmem => h value other (List.mem_cons_of_mem _ hmem)

end RasterStore.Action
