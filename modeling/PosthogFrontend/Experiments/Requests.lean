import PosthogFrontend.Experiments.Effects
import PosthogFrontend.Experiments.Validation

/-!
# Requests in Flight

The three loading indicators of `createExperimentLogic` and the requests they wait on.
kea-loaders turns `featureFlagValidationLoading` on when `validateFeatureFlagKey` is
dispatched and `existingFeatureFlagsLoading` on when `loadExistingFeatureFlags` is, and
turns each off at its loader's success or failure; kea-forms turns
`isExperimentFormSubmitting` on at `submitExperimentForm` and off when `submit` returns.
Here a request is in flight from its action to the event that answers it.

`State.Tracked` says that every indicator that is on waits on a request in flight of its
own kind, so once every request has answered no indicator is left on. It is an invariant
of every run (`tracked_run`). The converse does not hold: each loader turns its indicator
off at the first answer, while a later request of the same kind may still be in flight.

The same invariant counts what `submit` does with an answer. It opens the created
experiment's page once when the response has an `id`, and never otherwise, so the pages
opened and the calls still awaited together never outnumber the calls made to
`api.create`: no experiment page is opened but in answer to a call of its own.

## Main definitions

* `Effect.opensExperiment`: The navigation to a created experiment.
* `State.experimentsOpened`: How many times the logic has opened one.
* `State.Tracked`: Every indicator waits on a request, and every page opened answers a call.

## Theorems

* `State.Tracked.step`, `State.Tracked.run`: Every event, and every run, keeps the invariant.
* `tracked_run`: Every run from the mounted logic keeps it.
-/

namespace PosthogFrontend

namespace Experiments

open Js

/-- Whether an effect opens the page of a created experiment, `urls.experiment(id)`. -/
def Effect.opensExperiment : Effect → Bool
  | .push (.experiment _) => true
  | _ => false

namespace State

variable (toLowerCase : String → String) {s : State}

/-- How many times the logic has opened the page of a created experiment. -/
def experimentsOpened (s : State) : Nat := s.effects.countP Effect.opensExperiment

/-- Every loading indicator that is on waits on a request in flight of its own kind, and the
    experiment pages opened and the `api.create` calls awaited together are at most the
    calls made. -/
structure Tracked (s : State) : Prop where
  validation : s.featureFlagValidationLoading = true → s.validationsInFlight ≠ []
  flags : s.existingFeatureFlagsLoading = true → 0 < s.flagLoadsInFlight
  submitting : s.isExperimentFormSubmitting = true → 0 < s.submissionsInFlight
  answered : s.experimentsOpened + s.submissionsInFlight ≤ s.apiCreates.length

theorem tracked_initial : initial.Tracked :=
  ⟨nofun, nofun, nofun, Nat.le_refl _⟩

@[simp] theorem effects_emit (e : Effect) : (s.emit e).effects = s.effects ++ [e] := rfl

@[simp] theorem experimentsOpened_emit (e : Effect) :
    (s.emit e).experimentsOpened = s.experimentsOpened + if e.opensExperiment then 1 else 0 := by
  simp [experimentsOpened, emit, List.countP_append, List.countP_cons]

/-- A toast, or the navigation back to the list, keeps the invariant. -/
theorem Tracked.emit (h : s.Tracked) {e : Effect} (he : ∀ payload, e ≠ .apiCreate payload)
    (ho : e.opensExperiment = false) : (s.emit e).Tracked :=
  ⟨h.validation, h.flags, h.submitting, by
    simpa only [experimentsOpened_emit, ho, apiCreates_emit_of_ne s he] using h.answered⟩

theorem Tracked.validateFeatureFlagKey (h : s.Tracked) (key : String) :
    (s.validateFeatureFlagKey key).Tracked := by
  by_cases hblank : jsTrim key = ""
  · rw [validateFeatureFlagKey_of_blank key s hblank]
    exact ⟨nofun, h.flags, h.submitting, h.answered⟩
  · rw [validateFeatureFlagKey_of_ne_blank key s hblank]
    exact ⟨fun _ => by simp, h.flags, h.submitting, h.answered⟩

theorem Tracked.validationAnswered (h : s.Tracked) (j : Nat) (response : FlagsResponse) :
    (s.validationAnswered j response).Tracked := by
  unfold State.validationAnswered
  split
  · exact h
  · rw [validationSettled_eq]
    exact ⟨nofun, h.flags, h.submitting, h.answered⟩

theorem Tracked.generateFeatureFlagKeyFromName (h : s.Tracked) :
    (s.generateFeatureFlagKeyFromName toLowerCase).Tracked := by
  simp only [State.generateFeatureFlagKeyFromName]
  split
  · exact h
  · refine Tracked.validateFeatureFlagKey ?_ _
    exact ⟨h.1, h.2, h.3, h.4⟩

theorem Tracked.setExperimentFormValue (h : s.Tracked) (v : FormValue) :
    (s.setExperimentFormValue toLowerCase v).Tracked := by
  simp only [State.setExperimentFormValue]
  split
  · split
    · refine Tracked.generateFeatureFlagKeyFromName toLowerCase ?_
      exact ⟨h.1, h.2, h.3, h.4⟩
    · exact ⟨h.1, h.2, h.3, h.4⟩
  · exact ⟨h.1, h.2, h.3, h.4⟩

theorem Tracked.debounceElapsed (h : s.Tracked) : s.debounceElapsed.Tracked := by
  simp only [State.debounceElapsed]
  split
  · exact h
  · split
    · refine Tracked.validateFeatureFlagKey ?_ _
      exact ⟨h.1, h.2, h.3, h.4⟩
    · exact ⟨h.1, h.2, h.3, h.4⟩

theorem Tracked.loadExistingFeatureFlags (h : s.Tracked) : s.loadExistingFeatureFlags.Tracked :=
  ⟨h.validation, fun _ => Nat.succ_pos _, h.submitting, h.answered⟩

theorem Tracked.existingFlagsAnswered (h : s.Tracked) (response : FlagsResponse) :
    (s.existingFlagsAnswered response).Tracked := by
  unfold State.existingFlagsAnswered
  split
  · exact h
  · split <;> exact ⟨h.validation, nofun, h.submitting, h.answered⟩

theorem Tracked.setFeatureFlagMode (h : s.Tracked) (mode : FeatureFlagMode) :
    (s.setFeatureFlagMode toLowerCase mode).Tracked := by
  simp only [State.setFeatureFlagMode]
  split
  · split
    · refine Tracked.generateFeatureFlagKeyFromName toLowerCase ?_
      exact ⟨h.1, h.2, h.3, h.4⟩
    · exact ⟨h.1, h.2, h.3, h.4⟩
  · refine (Tracked.setExperimentFormValue toLowerCase ?_ _).loadExistingFeatureFlags
    exact ⟨h.1, h.2, h.3, h.4⟩

theorem Tracked.setVariants (h : s.Tracked) (variants : List MultivariateFlagVariant) :
    (s.setVariants toLowerCase variants).Tracked :=
  h.setExperimentFormValue toLowerCase _

theorem Tracked.removeVariant (h : s.Tracked) (index : JsNumber) :
    (s.removeVariant toLowerCase index).Tracked := by
  unfold State.removeVariant
  split
  · exact h.emit (by simp) rfl
  · exact h.setVariants toLowerCase _

theorem Tracked.distributeVariantsEqually (h : s.Tracked) :
    (s.distributeVariantsEqually toLowerCase).Tracked := by
  unfold State.distributeVariantsEqually
  split
  · exact h
  · exact h.setVariants toLowerCase _

/-- `submitExperimentForm` turns the indicator on, and off again unless it calls
    `api.create`, which it then awaits. -/
theorem Tracked.submitExperimentForm (h : s.Tracked) : s.submitExperimentForm.Tracked := by
  simp only [State.submitExperimentForm]
  split
  · exact ⟨h.validation, h.flags, nofun, h.answered⟩
  · refine ⟨h.validation, h.flags, fun _ => Nat.succ_pos _, ?_⟩
    have := h.answered
    simp only [submit, experimentsOpened, apiCreates, effects_emit] at this ⊢
    simp [List.countP_append, List.filterMap_append, Effect.opensExperiment]
    omega

/-- An answer opens at most one page, of the experiment it created, and is no longer
    awaited. -/
theorem Tracked.submitAnswered (h : s.Tracked) (response : CreateResponse) :
    (s.submitAnswered response).Tracked := by
  simp only [State.submitAnswered]
  split
  · exact h
  · next hn =>
    have := h.answered
    simp only [experimentsOpened, apiCreates] at this
    repeat' split
    all_goals refine ⟨h.validation, h.flags, nofun, ?_⟩
    all_goals simp [State.emit, experimentsOpened, apiCreates, List.countP_append, List.filterMap_append,
      Effect.opensExperiment]
    all_goals omega

theorem Tracked.saveAsDraftChecks (h : s.Tracked) : (s.saveAsDraftChecks toLowerCase).1.Tracked := by
  simp only [State.saveAsDraftChecks]
  repeat' split
  all_goals first
    | exact ⟨h.1, h.2, h.3, h.4⟩
    | refine Tracked.emit ?_ (by simp) rfl; exact ⟨h.1, h.2, h.3, h.4⟩

theorem Tracked.saveAsDraft (h : s.Tracked) : (s.saveAsDraft toLowerCase).Tracked := by
  simp only [State.saveAsDraft]
  split
  · exact (h.saveAsDraftChecks toLowerCase).submitExperimentForm
  · exact h.saveAsDraftChecks toLowerCase

/-- Every event keeps the invariant. -/
theorem Tracked.step (h : s.Tracked) (e : Event) : (step toLowerCase s e).Tracked := by
  unfold Experiments.step
  cases e with
  | editName _ | editDescription _ | editFeatureFlagKey _ | editVariantKey _ _
    | editVariantName _ _ | editVariantRollout _ _ => exact h.setExperimentFormValue toLowerCase _
  | updateFeatureFlagKey _ | setSelectedFeatureFlag _ => exact ⟨h.1, h.2, h.3, h.4⟩
  | debounceElapsed => exact h.debounceElapsed
  | setFeatureFlagMode mode => exact h.setFeatureFlagMode toLowerCase mode
  | validateFeatureFlagKey key => exact h.validateFeatureFlagKey key
  | generateFeatureFlagKeyFromName => exact h.generateFeatureFlagKeyFromName toLowerCase
  | addVariant => exact h.setVariants toLowerCase _
  | removeVariant index => exact h.removeVariant toLowerCase index
  | distributeVariantsEqually => exact h.distributeVariantsEqually toLowerCase
  | saveAsDraft => exact h.saveAsDraft toLowerCase
  | cancelExperiment => exact h.emit (by simp) rfl
  | validationAnswered j response => exact h.validationAnswered j response
  | existingFlagsAnswered response => exact h.existingFlagsAnswered response
  | submitAnswered response => exact h.submitAnswered response

/-- From every state that keeps the invariant, every run keeps it. -/
theorem Tracked.run (h : s.Tracked) (events : List Event) : (run toLowerCase s events).Tracked := by
  induction events generalizing s with
  | nil => exact h
  | cons e events ih => exact ih (h.step toLowerCase e)

end State

/-- Over every run of the mounted logic, whatever the view dispatches and in whatever order
    the registry and the API answer, no loading indicator is on without a request of its
    kind in flight, and the pages of created experiments opened, with the `api.create`
    calls still awaited, never outnumber the calls made. -/
theorem tracked_run (toLowerCase : String → String) (events : List Event) :
    (run toLowerCase initial events).Tracked :=
  State.tracked_initial.run toLowerCase events

/- The converse fails: the first of two lookups to answer turns the indicator off while the
other is still in flight. -/
example :
    let s := run asciiLowerCase initial
      [.validateFeatureFlagKey "pricing", .validateFeatureFlagKey "pricing-v2", .validationAnswered 0 .failed]
    s.featureFlagValidationLoading = false ∧ s.validationsInFlight = ["pricing-v2"] := by
  decide

end Experiments

end PosthogFrontend
