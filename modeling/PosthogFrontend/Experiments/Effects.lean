import PosthogFrontend.Experiments.Save

/-!
# What the Logic Sends

The calls `createExperimentLogic` makes to `api.create`. Every action appends its toasts,
navigations and calls to `State.effects` and never rewrites what is there, so the forms
sent so far, `State.apiCreates`, only ever grow.

The property they keep is that no form with a blank name or feature flag key is ever
sent. The only call is in the form's `submit`, which kea-forms reaches through
`submitExperimentForm` only when the form's `errors` are empty, and that check reads the
values at the moment of the call: `saveAsDraft` in `'existing'` mode writes the selected
flag's key into the form just before, and the check sees the key it wrote. No other path
leads to `submit`. So over every run, whatever the view dispatches and in whatever order
the registry and the API answer, every form sent has a name (the trimmed one) and a key
that is not blank (`apiCreates_filledIn_run`).

## Main definitions

* `State.apiCreates`: The forms sent to `api.create`, in order.
* `ExperimentForm.FilledIn`: A name, and a key that is not blank.

## Theorems

* `State.apiCreates_submitExperimentForm`: The one action that sends.
* `State.apiCreates_step`: What one event sends.
* `apiCreates_filledIn_run`: Every form sent in a run from the mounted logic is filled in.
-/

namespace PosthogFrontend

namespace Experiments

open Js

/-- The form `api.create` may be sent: a non-empty name, and a feature flag key that is not
    blank. -/
def ExperimentForm.FilledIn (form : ExperimentForm) : Prop :=
  form.name ≠ "" ∧ jsTrim form.feature_flag_key ≠ ""

namespace State

variable (toLowerCase : String → String) (s : State)

/-- The forms the logic has sent to `api.create`, in the order it sent them. -/
def apiCreates (s : State) : List ExperimentForm :=
  s.effects.filterMap fun
    | .apiCreate payload => some payload
    | _ => none

@[simp] theorem effects_setFormValue (v : FormValue) : (s.setFormValue v).effects = s.effects := rfl

@[simp] theorem effects_setSelectedFeatureFlag (flag : Option FeatureFlag) :
    (s.setSelectedFeatureFlag flag).effects = s.effects := rfl

@[simp] theorem effects_validateFeatureFlagKey (key : String) :
    (s.validateFeatureFlagKey key).effects = s.effects := by
  unfold validateFeatureFlagKey
  split <;> rfl

@[simp] theorem effects_validationSettled (key : String) (response : FlagsResponse) :
    (s.validationSettled key response).effects = s.effects := by
  unfold validationSettled
  repeat' split
  all_goals rfl

@[simp] theorem effects_validationAnswered (j : Nat) (response : FlagsResponse) :
    (s.validationAnswered j response).effects = s.effects := by
  unfold validationAnswered
  split
  · rfl
  · exact effects_validationSettled _ _ _

@[simp] theorem effects_generateFeatureFlagKeyFromName :
    (s.generateFeatureFlagKeyFromName toLowerCase).effects = s.effects := by
  simp only [generateFeatureFlagKeyFromName]
  split
  · rfl
  · simp

@[simp] theorem effects_setExperimentFormValue (v : FormValue) :
    (s.setExperimentFormValue toLowerCase v).effects = s.effects := by
  simp only [setExperimentFormValue]
  split
  · split <;> simp
  · rfl

@[simp] theorem effects_loadExistingFeatureFlags :
    s.loadExistingFeatureFlags.effects = s.effects := rfl

@[simp] theorem effects_existingFlagsAnswered (response : FlagsResponse) :
    (s.existingFlagsAnswered response).effects = s.effects := by
  unfold existingFlagsAnswered
  repeat' split
  all_goals rfl

@[simp] theorem effects_setFeatureFlagMode (mode : FeatureFlagMode) :
    (s.setFeatureFlagMode toLowerCase mode).effects = s.effects := by
  simp only [setFeatureFlagMode]
  split
  · split <;> simp
  · simp

@[simp] theorem effects_updateFeatureFlagKey (key : String) :
    (s.updateFeatureFlagKey key).effects = s.effects := rfl

@[simp] theorem effects_debounceElapsed : s.debounceElapsed.effects = s.effects := by
  simp only [debounceElapsed]
  split
  · rfl
  · split <;> simp

@[simp] theorem effects_setVariants (variants : List MultivariateFlagVariant) :
    (s.setVariants toLowerCase variants).effects = s.effects := by
  simp [setVariants]

@[simp] theorem effects_distributeVariantsEqually :
    (s.distributeVariantsEqually toLowerCase).effects = s.effects := by
  unfold distributeVariantsEqually
  split <;> simp

/-- A toast or a navigation sends nothing. -/
theorem apiCreates_emit_of_ne {e : Effect} (he : ∀ payload, e ≠ .apiCreate payload) :
    (s.emit e).apiCreates = s.apiCreates := by
  cases e <;> simp_all [apiCreates, emit]

theorem apiCreates_removeVariant (index : JsNumber) :
    (s.removeVariant toLowerCase index).apiCreates = s.apiCreates := by
  unfold removeVariant
  split
  · exact apiCreates_emit_of_ne _ (by simp)
  · simp [apiCreates]

/-- `submitExperimentForm` sends the form, with its name trimmed, exactly when it has no
    errors. -/
theorem apiCreates_submitExperimentForm :
    s.submitExperimentForm.apiCreates = s.apiCreates ++
      if hasFormErrors (experimentFormValidationErrors s.experimentForm) then []
      else [{ s.experimentForm with name := jsTrim s.experimentForm.name }] := by
  simp only [apiCreates, submitExperimentForm_effects]
  split <;> simp

theorem apiCreates_submitAnswered (response : CreateResponse) :
    (s.submitAnswered response).apiCreates = s.apiCreates := by
  unfold submitAnswered
  split
  · rfl
  · repeat' split
    all_goals simp [apiCreates, emit]

theorem apiCreates_saveAsDraftChecks :
    (s.saveAsDraftChecks toLowerCase).1.apiCreates = s.apiCreates := by
  simp only [saveAsDraftChecks]
  repeat' split
  all_goals simp [apiCreates, emit]

/-- A form `submitExperimentForm` sends is filled in. -/
theorem filledIn_of_mem_apiCreates_submitExperimentForm {form : ExperimentForm}
    (h : form ∈ s.submitExperimentForm.apiCreates) : form ∈ s.apiCreates ∨ form.FilledIn := by
  rw [apiCreates_submitExperimentForm] at h
  rcases List.mem_append.mp h with h | h
  · exact .inl h
  · refine .inr ?_
    split at h
    · cases h
    · next herr =>
      obtain ⟨hname, hkey⟩ : jsTrim s.experimentForm.name ≠ "" ∧
          jsTrim s.experimentForm.feature_flag_key ≠ "" := by
        simpa [hasFormErrors_validationErrors, not_or] using herr
      rw [List.mem_singleton.mp h]
      exact ⟨hname, hkey⟩

/-- What one event sends: nothing, or, through `submitExperimentForm`, a form that is
    filled in. -/
theorem apiCreates_step (e : Event) {form : ExperimentForm}
    (h : form ∈ (step toLowerCase s e).apiCreates) : form ∈ s.apiCreates ∨ form.FilledIn := by
  cases e with
  | removeVariant index => exact .inl (by rwa [step, apiCreates_removeVariant] at h)
  | saveAsDraft =>
    simp only [step, saveAsDraft] at h
    split at h
    · rcases filledIn_of_mem_apiCreates_submitExperimentForm _ h with h | h
      · exact .inl (by rwa [apiCreates_saveAsDraftChecks] at h)
      · exact .inr h
    · exact .inl (by rwa [apiCreates_saveAsDraftChecks] at h)
  | cancelExperiment =>
    exact .inl (by rwa [step, cancelExperiment, apiCreates_emit_of_ne _ (by simp)] at h)
  | submitAnswered response => exact .inl (by rwa [step, apiCreates_submitAnswered] at h)
  | _ =>
    refine .inl ?_
    simpa only [step, apiCreates, addVariant, effects_setExperimentFormValue,
      effects_updateFeatureFlagKey, effects_debounceElapsed, effects_setFeatureFlagMode,
      effects_setSelectedFeatureFlag, effects_validateFeatureFlagKey, effects_setVariants,
      effects_generateFeatureFlagKeyFromName, effects_distributeVariantsEqually,
      effects_validationAnswered, effects_existingFlagsAnswered] using h

end State

/-- Whatever the view dispatches and whatever the registry and the API answer, in every
    order, the mounted logic never sends `api.create` a form with an empty name or a blank
    feature flag key. -/
theorem apiCreates_filledIn_run (toLowerCase : String → String) (events : List Event) :
    ∀ form ∈ (run toLowerCase initial events).apiCreates, form.FilledIn := by
  suffices ∀ s : State, (∀ form ∈ s.apiCreates, form.FilledIn) →
      ∀ form ∈ (run toLowerCase s events).apiCreates, form.FilledIn from
    this initial (by simp [State.apiCreates, initial])
  induction events with
  | nil => exact fun _ h => h
  | cons e events ih =>
    refine fun s h => ih _ fun form hform => ?_
    rcases State.apiCreates_step toLowerCase s e hform with hform | hform
    · exact h form hform
    · exact hform

theorem apiCreates_filledIn_existing_flag :
    let events : List Event := [.editName "Pricing", .setFeatureFlagMode .existing,
      .setSelectedFeatureFlag (some ⟨"checkout"⟩), .saveAsDraft]
    let form : ExperimentForm :=
      { NEW_EXPERIMENT with name := "Pricing", feature_flag_key := "checkout" }
    form ∈ (run asciiLowerCase initial events).apiCreates ∧ form.FilledIn :=
  have h : { NEW_EXPERIMENT with name := "Pricing", feature_flag_key := "checkout" } ∈
      (run asciiLowerCase initial [.editName "Pricing", .setFeatureFlagMode .existing,
        .setSelectedFeatureFlag (some ⟨"checkout"⟩), .saveAsDraft]).apiCreates := by decide
  ⟨h, apiCreates_filledIn_run asciiLowerCase _ _ h⟩

end Experiments

end PosthogFrontend
