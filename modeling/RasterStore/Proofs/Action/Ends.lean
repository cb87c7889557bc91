import RasterStore.Action

/-!
# How a step ends

`act.Ends state good bad` says how a step ends from a state: with an answer and a state that
satisfy `good`, or with a failure and a state that satisfy `bad`. A step always ends, so this is
total correctness with two postconditions. There is one rule for each way of building a step;
the rules for loops carry an invariant that speaks of the items that are done:

* `Ends.bind`   one step after another
* `Ends.forM`   a loop over a list, which the first failure ends
* `Ends.foldlM` a loop over a list that passes a value on
-/

namespace RasterStore.Action

variable {σ τ α β ι : Type}

/-- From `state`, the step answers with `good` or fails with `bad`. -/
def Ends (act : Action σ α) (state : σ) (good : α → σ → Prop) (bad : RasterError → σ → Prop) :
    Prop :=
  match act.run state with
  | (.ok value, reached) => good value reached
  | (.error error, reached) => bad error reached

variable {act : Action σ α} {next : α → Action σ β} {state : σ}
variable {good good' : α → σ → Prop} {bad bad' : RasterError → σ → Prop}

/-! ## From a run to its end and back -/

/-- A step that is known to succeed ends in what holds after its success. -/
theorem ends_of_run_ok {value : α} {reached : σ}
    (h : act.run state = (.ok value, reached))
    (hgood : good value reached) : act.Ends state good bad := by
  rw [Ends, h]
  exact hgood

/-- A step that is known to fail ends in what holds after its failure. -/
theorem ends_of_run_error {error : RasterError} {reached : σ}
    (h : act.run state = (.error error, reached))
    (hbad : bad error reached) : act.Ends state good bad := by
  rw [Ends, h]
  exact hbad

/-- A run that succeeded has what the step ends in when it succeeds. -/
theorem Ends.of_ok {value : α} {reached : σ} (h : act.Ends state good bad)
    (hrun : act.run state = (.ok value, reached)) : good value reached := by
  rw [Ends, hrun] at h
  exact h

/-- A run that failed has what the step ends in when it fails. -/
theorem Ends.of_error {error : RasterError} {reached : σ} (h : act.Ends state good bad)
    (hrun : act.run state = (.error error, reached)) : bad error reached := by
  rw [Ends, hrun] at h
  exact h

/-- A step ends as its run does. -/
theorem ends_run : act.Ends state (fun value reached => act.run state = (.ok value, reached))
    (fun error reached => act.run state = (.error error, reached)) := by
  unfold Ends
  split
  · next hrun => exact hrun
  · next hrun => exact hrun

/-- A step that cannot fail answers. -/
theorem Ends.exists_ok (h : act.Ends state good fun _ _ => False) :
    ∃ value reached, act.run state = (.ok value, reached) ∧ good value reached := by
  unfold Ends at h
  split at h
  · exact ⟨_, _, by assumption, h⟩
  · exact h.elim

/-- What a step ends in can be weakened for success and for failure. -/
theorem Ends.mono (h : act.Ends state good bad)
    (hgood : ∀ value reached, good value reached → good' value reached)
    (hbad : ∀ error reached, bad error reached → bad' error reached) :
    act.Ends state good' bad' := by
  unfold Ends at h ⊢
  split at h
  · exact hgood _ _ h
  · exact hbad _ _ h

/-- More follows from a success, and a failure stays what it is. -/
theorem Ends.imp (h : act.Ends state good bad)
    (hgood : ∀ value reached, good value reached → good' value reached) :
    act.Ends state good' bad :=
  h.mono hgood fun _ _ hbad => hbad

/-- More follows of the state that is reached, whether by a success or by a failure. -/
theorem Ends.imp_reached {post post' : σ → Prop}
    (h : act.Ends state (fun _ => post) (fun _ => post))
    (himp : ∀ reached, post reached → post' reached) :
    act.Ends state (fun _ => post') (fun _ => post') :=
  h.mono (fun _ => himp) fun _ => himp

/-- A step ends in some way. -/
theorem ends_of_forall (hgood : ∀ value reached, good value reached)
    (hbad : ∀ error reached, bad error reached) : act.Ends state good bad := by
  unfold Ends
  split
  · exact hgood _ _
  · exact hbad _ _

/-- What holds of the state in both cases holds of the state reached. -/
theorem Ends.reached {post : σ → Prop} (h : act.Ends state (fun _ => post) (fun _ => post)) :
    post (act.run state).2 := by
  unfold Ends at h
  split at h
  · next hrun => rw [hrun]; exact h
  · next hrun => rw [hrun]; exact h

/-- What is said of both ways to end holds of the outcome. -/
theorem Ends.outcome (post : Except RasterError α → σ → Prop)
    (h : act.Ends state (fun value => post (.ok value)) fun error => post (.error error)) :
    post (act.run state).1 (act.run state).2 := by
  unfold Ends at h
  split at h
  · next hrun => rw [hrun]; exact h
  · next hrun => rw [hrun]; exact h

/-- A step that ends in two things ends in both. -/
theorem Ends.and (h : act.Ends state good bad) (h' : act.Ends state good' bad') :
    act.Ends state (fun value reached => good value reached ∧ good' value reached)
      (fun error reached => bad error reached ∧ bad' error reached) := by
  unfold Ends at h h' ⊢
  cases hrun : act.run state with
  | mk outcome reached =>
    rw [hrun] at h h'
    cases outcome with
    | ok value => exact ⟨h, h'⟩
    | error error => exact ⟨h, h'⟩

/-! ## One rule for each kind of step -/

/-- Two steps end as the second does, from wherever the first leaves off; a failure of the first is
    the end. -/
theorem Ends.bind {good : β → σ → Prop}
    (h : act.Ends state (fun value reached => (next value).Ends reached good bad) bad) :
    (act >>= next).Ends state good bad := by
  unfold Ends at h ⊢
  rw [run_bind]
  cases hrun : act.run state with
  | mk outcome reached =>
    rw [hrun] at h
    cases outcome with
    | ok value => exact h
    | error error => exact h

/-- A step that only answers ends where it starts. -/
theorem ends_pure {value : α} :
    (pure value : Action σ α).Ends state good bad ↔ good value state := Iff.rfl

/-- A step that raises an error ends where it starts. -/
theorem ends_throw {error : RasterError} :
    (throw error : Action σ α).Ends state good bad ↔ bad error state := Iff.rfl

/-- A change of the state ends in the changed state. -/
theorem ends_modify {good : PUnit → σ → Prop} {f : σ → σ} :
    (modify f : Action σ PUnit).Ends state good bad ↔ good ⟨⟩ (f state) := Iff.rfl

/-- A step that looks at the state ends as what follows does for that state. -/
theorem Ends.get_bind {next : σ → Action σ β} {good : β → σ → Prop}
    (h : (next state).Ends state good bad) : (get >>= next).Ends state good bad :=
  Ends.bind h

/-- A step that changes the state ends as what follows does from the changed one. -/
theorem Ends.modify_bind {f : σ → σ} {next : PUnit → Action σ β} {good : β → σ → Prop}
    (h : (next ⟨⟩).Ends (f state) good bad) : (modify f >>= next).Ends state good bad :=
  Ends.bind h

/-- A step that depends on a condition ends as the one that is taken. -/
theorem Ends.ite {act' : Action σ α} {c : Prop} [Decidable c]
    (hpos : c → act.Ends state good bad) (hneg : ¬c → act'.Ends state good bad) :
    (if c then act else act').Ends state good bad := by
  split
  · exact hpos (by assumption)
  · exact hneg (by assumption)

/-- A value that was computed leaves the state alone. -/
theorem Ends.lift_ok {value : α} {outcome : Except RasterError α} (h : outcome = .ok value)
    (hgood : good value state) : (liftM outcome : Action σ α).Ends state good bad := by
  subst h
  exact hgood

/-- A step behind a value that was computed ends as it does for that value. -/
theorem Ends.lift_bind {value : α} {outcome : Except RasterError α} {good : β → σ → Prop}
    (h : outcome = .ok value) (hnext : (next value).Ends state good bad) :
    ((liftM outcome : Action σ α) >>= next).Ends state good bad :=
  Ends.bind (Ends.lift_ok h hnext)

/-- What follows a check may rely on it, and a refusal is what the check gives. -/
theorem Ends.of_lift_bind {outcome : Except RasterError α} {good : β → σ → Prop}
    (ok : ∀ value, outcome = .ok value → (next value).Ends state good bad)
    (error : ∀ error, outcome = .error error → bad error state) :
    ((liftM outcome : Action σ α) >>= next).Ends state good bad := by
  apply Ends.bind
  cases outcome with
  | ok value => exact ok value rfl
  | error refused => exact error refused rfl

/-- An attempt never fails; it answers with what became of the step. -/
theorem Ends.attempt {good : Except RasterError α → σ → Prop}
    (h : act.Ends state (fun value => good (.ok value)) (fun error => good (.error error))) :
    act.attempt.Ends state good bad := by
  unfold Ends at h ⊢
  rw [run_attempt]
  cases hrun : act.run state with
  | mk outcome reached =>
    rw [hrun] at h
    cases outcome with
    | ok value => exact h
    | error error => exact h

/-- Renaming an error changes no state and no success. -/
theorem Ends.mapError {f : RasterError → RasterError}
    (h : act.Ends state good (fun error => bad (f error))) :
    (act.mapError f).Ends state good bad := by
  -- only an error comes out as another one
  have hrun : (act.mapError f).run state = ((act.run state).1.mapError f, (act.run state).2) := rfl
  unfold Ends at h ⊢
  rw [hrun]
  cases hact : act.run state with
  | mk outcome reached =>
    rw [hact] at h
    cases outcome with
    | ok value => exact h
    | error error => exact h

/-- A step that runs `act` on a part of its state. -/
theorem Ends.of_part {whole : Action τ α} {start : τ} {good : α → τ → Prop}
    {bad : RasterError → τ → Prop} (wrap : σ → τ)
    (hrun : whole.run start = ((act.run state).1, wrap (act.run state).2))
    (h : act.Ends state (fun value reached => good value (wrap reached))
      (fun error reached => bad error (wrap reached))) :
    whole.Ends start good bad := by
  unfold Ends at h ⊢
  rw [hrun]
  cases hact : act.run state with
  | mk outcome reached =>
    rw [hact] at h
    cases outcome with
    | ok value => exact h
    | error error => exact h

/-- A step on the first part of a state leaves the second part alone. -/
theorem Ends.onFirst {second : τ} {good : α → σ × τ → Prop} {bad : RasterError → σ × τ → Prop}
    (h : act.Ends state (fun value reached => good value (reached, second))
      (fun error reached => bad error (reached, second))) :
    (act.onFirst).Ends (state, second) good bad :=
  h.of_part (fun reached => (reached, second)) rfl

/-- A step on the second part of a state leaves the first part alone. -/
theorem Ends.onSecond {first : τ} {good : α → τ × σ → Prop} {bad : RasterError → τ × σ → Prop}
    (h : act.Ends state (fun value reached => good value (first, reached))
      (fun error reached => bad error (first, reached))) :
    (act.onSecond).Ends (first, state) good bad :=
  h.of_part (fun reached => (first, reached)) rfl

/-! ## Loops -/

/-- A loop that starts with `done` behind it: each item takes the invariant over the items done so
    far to the one that counts it in, and a failure leaves what the failing item makes of it. -/
private theorem forM_ends_of_done {items : List ι} {body : ι → Action σ PUnit}
    {inv : List ι → σ → Prop} {bad : List ι → RasterError → σ → Prop}
    (hstep : ∀ done item rest state, items = done ++ item :: rest → inv done state →
      (body item).Ends state (fun _ => inv (done ++ [item])) (bad done)) :
    ∀ (todo done : List ι) (state : σ), items = done ++ todo → inv done state →
      (todo.forM body).Ends state (fun _ => inv items)
        (fun error reached => ∃ done item rest, items = done ++ item :: rest ∧
          bad done error reached) := by
  intro todo
  induction todo with
  | nil =>
    intro done state hitems hinv
    rw [List.append_nil] at hitems
    rw [hitems]
    exact hinv
  | cons item rest ih =>
    intro done state hitems hinv
    -- the item is done, or the loop stops at it
    refine Ends.bind ((hstep done item rest state hitems hinv).mono ?_ ?_)
    · intro _ reached hreached
      exact ih (done ++ [item]) reached (by simp [hitems]) hreached
    · intro error reached hbad
      exact ⟨done, item, rest, hitems, hbad⟩

/-- A loop over a list, with an invariant over the items that are done. If it fails, it does so at
    some item, with the items before that one done. -/
theorem Ends.forM {items : List ι} {body : ι → Action σ PUnit} (inv : List ι → σ → Prop)
    (bad : List ι → RasterError → σ → Prop) (hstart : inv [] state)
    (hstep : ∀ done item rest state, items = done ++ item :: rest → inv done state →
      (body item).Ends state (fun _ => inv (done ++ [item])) (bad done)) :
    (items.forM body).Ends state (fun _ => inv items)
      (fun error reached => ∃ done item rest, items = done ++ item :: rest ∧
        bad done error reached) :=
  forM_ends_of_done hstep items [] state rfl hstart

/-- A loop that passes a value on, from some items that are done to all of them. -/
private theorem foldlM_ends_of_done {items : List ι} {body : β → ι → Action σ β}
    {inv : List ι → β → σ → Prop} {bad : RasterError → σ → Prop}
    (hstep : ∀ done item rest value state, items = done ++ item :: rest → inv done value state →
      (body value item).Ends state (inv (done ++ [item])) bad) :
    ∀ (todo done : List ι) (value : β) (state : σ), items = done ++ todo → inv done value state →
      (todo.foldlM body value).Ends state (inv items) bad := by
  intro todo
  induction todo with
  | nil =>
    intro done value state hitems hinv
    rw [List.append_nil] at hitems
    rw [hitems]
    exact hinv
  | cons item rest ih =>
    intro done value state hitems hinv
    rw [List.foldlM_cons]
    -- the next item starts from the value that this one leaves
    refine Ends.bind ((hstep done item rest value state hitems hinv).mono ?_ fun _ _ h => h)
    intro next reached hreached
    exact ih (done ++ [item]) next reached (by simp [hitems]) hreached

/-- A loop that passes a value on, with an invariant over the items that are done, this value and
    the state. -/
theorem Ends.foldlM {items : List ι} {body : β → ι → Action σ β} (inv : List ι → β → σ → Prop)
    (bad : RasterError → σ → Prop) {value : β} (hstart : inv [] value state)
    (hstep : ∀ done item rest value state, items = done ++ item :: rest → inv done value state →
      (body value item).Ends state (inv (done ++ [item])) bad) :
    (items.foldlM body value).Ends state (inv items) bad :=
  foldlM_ends_of_done hstep items [] value state rfl hstart

end RasterStore.Action
