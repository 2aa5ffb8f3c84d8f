import PosthogFrontend.Experiments.FlagKey
import PosthogFrontend.Experiments.Form

/-!
# The Experiment Creation Logic

`createExperimentLogic` as a state machine. A kea action runs the logic's reducers and
then its listener, and a listener dispatches further actions one after another, each
seeing the state the one before it left. Each action here is a function on `State` that
does the same: the reducer's update, then the listener's body, calling the functions of
the actions it dispatches.

What is asynchronous is made explicit. A registry lookup started by
`validateFeatureFlagKey`, a load of the existing flags, and an `api.create` call are
requests in flight, and their answers are events of their own that may arrive in any
order (`validationAnswered` names the lookup it answers by its position). The 500 ms
debounce of `updateFeatureFlagKey` keeps the last key it was given until the
`debounceElapsed` event. Toasts, navigation and `api.create` calls are appended to an
`effects` log.

kea-loaders dispatches `validateFeatureFlagKeySuccess` with whatever the loader returns,
after the loader's own `validateFeatureFlagKeyFailure` or `validateFeatureFlagKeySuccess`,
and `validationSettled` dispatches both in that order.

The view's inputs are `Event`s: a field edit is `setExperimentFormValue` on that field,
and the buttons dispatch the logic's actions. `String.prototype.toLowerCase`, which the
key generator calls, is a parameter of everything here.

## Main definitions

* `FeatureFlagMode`, `FeatureFlag`, `FlagsResponse`, `CreateResponse`, `Effect`: The data
  the logic exchanges with its collaborators.
* `State`: The reducers, the form, kea-loaders' values and the requests in flight.
* `initial`: The state the logic is mounted with.
* `State.validateFeatureFlagKey`, `State.validationSettled`: The key validation loader.
* `State.generateFeatureFlagKeyFromName`, `State.setExperimentFormValue`,
  `State.setFeatureFlagMode`: Key generation and the listeners that trigger it.
* `State.addVariant`, `State.removeVariant`, `State.distributeVariantsEqually`: The
  variant listeners.
* `State.saveAsDraftChecks`, `State.saveAsDraft`, `State.submitExperimentForm`: Saving.
* `Event`, `step`, `run`: The logic driven by its view and by its requests' answers.
-/

namespace PosthogFrontend

namespace Experiments

open Js

/-- `featureFlagMode`: a new flag for the experiment, or an existing one. -/
inductive FeatureFlagMode
  | new
  | existing
  deriving DecidableEq, Repr

/-- The part of `FeatureFlagType` the logic reads: the flag's key. -/
structure FeatureFlag where
  key : String
  deriving DecidableEq, Repr

/-- What a request to the feature flag endpoint settles to: the response's `results`, or a
    thrown error. A response without `results` reads as an empty list at both places the
    logic reads one (`response.results || []`, `response.results?.find(...)`). -/
inductive FlagsResponse
  | results (flags : List FeatureFlag)
  | failed
  deriving DecidableEq, Repr

/-- The value of the `featureFlagValidation` loader, `{ available: boolean }`. -/
structure FeatureFlagValidation where
  available : Bool
  deriving DecidableEq, Repr

/-- What `api.create` on the experiments endpoint settles to: the created experiment's
    `id` (an absent or zero id is falsy), or a thrown error with its `detail`. -/
inductive CreateResponse
  | created (id : Option Nat)
  | failed (detail : Option String)
  deriving DecidableEq, Repr

/-- The pages the logic navigates to: `urls.experiments()` and `urls.experiment(id)`. -/
inductive Route
  | experiments
  | experiment (id : Nat)
  deriving DecidableEq, Repr

/-- What the logic does outside its state: toasts, navigation, and `api.create` calls with
    their payload. -/
inductive Effect
  | toastError (message : String)
  | toastSuccess (message : String)
  | push (route : Route)
  | apiCreate (payload : ExperimentForm)
  deriving DecidableEq, Repr

/-- The state of a mounted `createExperimentLogic`: its reducers, the form as kea-forms
    keeps it, the loaders' values, the requests in flight and the effects so far. -/
structure State where
  featureFlagMode : FeatureFlagMode
  selectedFeatureFlag : Option FeatureFlag
  featureFlagKeyValidationError : Option String
  experimentForm : ExperimentForm
  showExperimentFormErrors : Bool
  isExperimentFormSubmitting : Bool
  existingFeatureFlags : List FeatureFlag
  existingFeatureFlagsLoading : Bool
  featureFlagValidation : Option FeatureFlagValidation
  featureFlagValidationLoading : Bool
  validationsInFlight : List String
  flagLoadsInFlight : Nat
  submissionsInFlight : Nat
  debouncedKey : Option String
  effects : List Effect
  deriving DecidableEq, Repr

/-- The reducers' defaults: a `NEW_EXPERIMENT` form in `'new'` mode, nothing in flight. -/
def initial : State where
  featureFlagMode := .new
  selectedFeatureFlag := none
  featureFlagKeyValidationError := none
  experimentForm := NEW_EXPERIMENT
  showExperimentFormErrors := false
  isExperimentFormSubmitting := false
  existingFeatureFlags := []
  existingFeatureFlagsLoading := false
  featureFlagValidation := none
  featureFlagValidationLoading := false
  validationsInFlight := []
  flagLoadsInFlight := 0
  submissionsInFlight := 0
  debouncedKey := none
  effects := []

namespace State

variable (toLowerCase : String → String)

/-- The `variants` selector. -/
def variants (s : State) : List MultivariateFlagVariant := s.experimentForm.variants

/-- The `variantPercentageSum` selector. -/
def variantPercentageSum (s : State) : Int := Experiments.variantPercentageSum s.variants

/-- kea-forms' `experimentFormErrors`. -/
def experimentFormErrors (s : State) : ExperimentFormErrors :=
  shownErrors (experimentFormValidationErrors s.experimentForm) s.showExperimentFormErrors

/-- An effect appended to the log. -/
def emit (e : Effect) (s : State) : State := { s with effects := s.effects ++ [e] }

/-- kea-forms' reducer for `setExperimentFormValue`. -/
def setFormValue (v : FormValue) (s : State) : State :=
  { s with experimentForm := s.experimentForm.setValue v }

/-- `setSelectedFeatureFlag(flag)`. -/
def setSelectedFeatureFlag (flag : Option FeatureFlag) (s : State) : State :=
  { s with selectedFeatureFlag := flag }

/-- `validateFeatureFlagKeySuccess(value)`: the loader's value, and the reducer clearing
    `featureFlagKeyValidationError`. -/
def validateFeatureFlagKeySuccess (value : Option FeatureFlagValidation) (s : State) : State :=
  { s with featureFlagValidation := value, featureFlagValidationLoading := false,
           featureFlagKeyValidationError := none }

/-- `validateFeatureFlagKeyFailure(error)`: the reducer recording the message. -/
def validateFeatureFlagKeyFailure (error : String) (s : State) : State :=
  { s with featureFlagValidationLoading := false, featureFlagKeyValidationError := some error }

/-- `validateFeatureFlagKey(key)` up to the loader's first `await`. A blank key fails at
    once and the loader returns `null`, which kea-loaders passes to
    `validateFeatureFlagKeySuccess`; any other key starts a registry lookup. -/
def validateFeatureFlagKey (key : String) (s : State) : State :=
  let s := { s with featureFlagValidationLoading := true }
  if jsTrim key = "" then
    (s.validateFeatureFlagKeyFailure "Feature flag key is required").validateFeatureFlagKeySuccess
      none
  else { s with validationsInFlight := s.validationsInFlight ++ [key] }

/-- The rest of the `validateFeatureFlagKey` loader once the lookup for `key` settles,
    then the `validateFeatureFlagKeySuccess` kea-loaders dispatches with its return value. -/
def validationSettled (key : String) (response : FlagsResponse) (s : State) : State :=
  match response with
  | .results flags =>
    match flags.find? (fun flag => flag.key == key) with
    | some _ =>
      (s.validateFeatureFlagKeyFailure "This feature flag key is already in use").validateFeatureFlagKeySuccess
        (some ⟨false⟩)
    | none =>
      (s.validateFeatureFlagKeySuccess (some ⟨true⟩)).validateFeatureFlagKeySuccess (some ⟨true⟩)
  | .failed =>
    (s.validateFeatureFlagKeyFailure "Error validating feature flag key").validateFeatureFlagKeySuccess
      none

/-- The `j`-th lookup in flight answers. -/
def validationAnswered (j : Nat) (response : FlagsResponse) (s : State) : State :=
  match s.validationsInFlight[j]? with
  | none => s
  | some key =>
    { s with validationsInFlight := s.validationsInFlight.eraseIdx j }.validationSettled key
      response

/-- `generateFeatureFlagKeyFromName`. The key is written with
    `setExperimentFormValue('feature_flag_key', ...)`, whose listener acts on `name` only,
    so only its reducer runs. -/
def generateFeatureFlagKeyFromName (s : State) : State :=
  let experimentName := s.experimentForm.name
  if jsTrim experimentName = "" then s
  else
    let unavailableKeys := (s.existingFeatureFlags.map (·.key)).toFinset
    let generatedKey := generateFeatureFlagKey toLowerCase (jsTrim experimentName) unavailableKeys
    (s.setFormValue (.feature_flag_key generatedKey)).validateFeatureFlagKey generatedKey

/-- `setExperimentFormValue(name, value)`: the reducer, then the listener that regenerates
    the key when the name changes in `'new'` mode. -/
def setExperimentFormValue (v : FormValue) (s : State) : State :=
  let s := s.setFormValue v
  match v with
  | .name value =>
    if jsTrim value ≠ "" ∧ s.featureFlagMode = .new then
      s.generateFeatureFlagKeyFromName toLowerCase
    else s
  | _ => s

/-- `loadExistingFeatureFlags()`: the loader starts its request. -/
def loadExistingFeatureFlags (s : State) : State :=
  { s with existingFeatureFlagsLoading := true, flagLoadsInFlight := s.flagLoadsInFlight + 1 }

/-- A load of the existing flags answers: `results || []` on success, the value kept on a
    failure. -/
def existingFlagsAnswered (response : FlagsResponse) (s : State) : State :=
  if s.flagLoadsInFlight = 0 then s
  else
    let s := { s with flagLoadsInFlight := s.flagLoadsInFlight - 1 }
    match response with
    | .results flags => { s with existingFeatureFlags := flags, existingFeatureFlagsLoading := false }
    | .failed => { s with existingFeatureFlagsLoading := false }

/-- `setFeatureFlagMode(mode)`. -/
def setFeatureFlagMode (mode : FeatureFlagMode) (s : State) : State :=
  let s := { s with featureFlagMode := mode }
  match mode with
  | .new =>
    let s := s.setSelectedFeatureFlag none
    if jsTrim s.experimentForm.name ≠ "" then s.generateFeatureFlagKeyFromName toLowerCase else s
  | .existing => (s.setExperimentFormValue toLowerCase (.feature_flag_key "")).loadExistingFeatureFlags

/-- `updateFeatureFlagKey(key)`: the debounced listener restarts its 500 ms wait. -/
def updateFeatureFlagKey (key : String) (s : State) : State :=
  { s with debouncedKey := some key }

/-- The debounce's wait ends and the listener runs on the last key it was given. -/
def debounceElapsed (s : State) : State :=
  match s.debouncedKey with
  | none => s
  | some key =>
    let s := { s with debouncedKey := none }
    if jsTrim key ≠ "" then s.validateFeatureFlagKey (jsTrim key) else s

/-- `setExperimentFormValue('parameters', { ...parameters, feature_flag_variants })`. -/
def setVariants (variants : List MultivariateFlagVariant) (s : State) : State :=
  s.setExperimentFormValue toLowerCase
    (.parameters { s.experimentForm.parameters with feature_flag_variants := variants })

/-- `addVariant`. -/
def addVariant (s : State) : State := s.setVariants toLowerCase (withNewVariant s.variants)

/-- `removeVariant(index)`. -/
def removeVariant (index : JsNumber) (s : State) : State :=
  match withoutVariant index s.variants with
  | none => s.emit (.toastError "Experiments must have at least 2 variants")
  | some variants => s.setVariants toLowerCase variants

/-- `distributeVariantsEqually`. -/
def distributeVariantsEqually (s : State) : State :=
  match equalShares s.variants with
  | none => s
  | some variants => s.setVariants toLowerCase variants

/-- The form's `submit`: `api.create` with the trimmed name (and `start_date: null`), whose
    answer is awaited. -/
def submit (formValues : ExperimentForm) (s : State) : State :=
  { s.emit (.apiCreate { formValues with name := jsTrim formValues.name }) with
    submissionsInFlight := s.submissionsInFlight + 1 }

/-- kea-forms' `submitExperimentForm`: errors are shown from now on; a form with errors
    fails at once, and any other is handed to `submit`. -/
def submitExperimentForm (s : State) : State :=
  let s := { s with showExperimentFormErrors := true, isExperimentFormSubmitting := true }
  if hasFormErrors (experimentFormValidationErrors s.experimentForm) then
    { s with isExperimentFormSubmitting := false }
  else s.submit s.experimentForm

/-- An `api.create` call answers: the toasts and navigation of `submit`, then kea-forms'
    `submitExperimentFormSuccess`. -/
def submitAnswered (response : CreateResponse) (s : State) : State :=
  if s.submissionsInFlight = 0 then s
  else
    let s := { s with submissionsInFlight := s.submissionsInFlight - 1 }
    let s := match response with
      | .created (some id) =>
        if id = 0 then s
        else (s.emit (.toastSuccess "Experiment saved as draft")).emit (.push (.experiment id))
      | .created none => s
      | .failed detail =>
        s.emit (.toastError (match detail with
          | some d => if d = "" then "Failed to create experiment" else d
          | none => "Failed to create experiment"))
    { s with isExperimentFormSubmitting := false, showExperimentFormErrors := false }

/-- The body of `saveAsDraft` before its last statement: the state it leaves, and whether
    it goes on to `submitExperimentForm()` (`true`) or has returned. Its calls
    `touchExperimentFormField('name')` and, in `'new'` mode,
    `touchExperimentFormField('feature_flag_key')` write only `experimentFormTouches`, which
    nothing reads: the form declares no `showErrorsOnTouch`, so, the source's comment
    notwithstanding, they show no error, and `experimentFormErrors` is empty until a
    submission has been attempted. -/
def saveAsDraftChecks (s : State) : State × Bool :=
  match s.featureFlagMode, s.selectedFeatureFlag with
  | .existing, none => (s.emit (.toastError "Please select an existing feature flag"), false)
  | mode, flag =>
    if hasFormErrors s.experimentFormErrors then (s, false)
    else
      match mode, flag with
      | .existing, some f => (s.setExperimentFormValue toLowerCase (.feature_flag_key f.key), true)
      | _, _ => (s, true)

/-- `saveAsDraft`. -/
def saveAsDraft (s : State) : State :=
  let r := s.saveAsDraftChecks toLowerCase
  if r.2 then r.1.submitExperimentForm else r.1

/-- `cancelExperiment`. -/
def cancelExperiment (s : State) : State := s.emit (.push .experiments)

section VariantFrame

variable (s : State)

@[simp] theorem variants_emit (e : Effect) : (s.emit e).variants = s.variants := rfl

@[simp] theorem variants_setFormValue (v : FormValue) :
    (s.setFormValue v).variants = (s.experimentForm.setValue v).variants := rfl

@[simp] theorem variants_setSelectedFeatureFlag (flag : Option FeatureFlag) :
    (s.setSelectedFeatureFlag flag).variants = s.variants := rfl

@[simp] theorem variants_validateFeatureFlagKey (key : String) :
    (s.validateFeatureFlagKey key).variants = s.variants := by
  unfold validateFeatureFlagKey
  split <;> rfl

@[simp] theorem variants_validationSettled (key : String) (response : FlagsResponse) :
    (s.validationSettled key response).variants = s.variants := by
  unfold validationSettled
  repeat' split
  all_goals rfl

@[simp] theorem variants_validationAnswered (j : Nat) (response : FlagsResponse) :
    (s.validationAnswered j response).variants = s.variants := by
  unfold validationAnswered
  split
  · rfl
  · exact variants_validationSettled _ _ _

@[simp] theorem variants_generateFeatureFlagKeyFromName :
    (s.generateFeatureFlagKeyFromName toLowerCase).variants = s.variants := by
  simp only [generateFeatureFlagKeyFromName]
  split
  · rfl
  · simp only [variants_validateFeatureFlagKey, variants_setFormValue]
    rfl

@[simp] theorem variants_setExperimentFormValue (v : FormValue) :
    (s.setExperimentFormValue toLowerCase v).variants = (s.experimentForm.setValue v).variants := by
  simp only [setExperimentFormValue]
  split
  · split <;> simp
  · rfl

@[simp] theorem variants_loadExistingFeatureFlags :
    s.loadExistingFeatureFlags.variants = s.variants := rfl

@[simp] theorem variants_existingFlagsAnswered (response : FlagsResponse) :
    (s.existingFlagsAnswered response).variants = s.variants := by
  unfold existingFlagsAnswered
  repeat' split
  all_goals rfl

@[simp] theorem variants_setFeatureFlagMode (mode : FeatureFlagMode) :
    (s.setFeatureFlagMode toLowerCase mode).variants = s.variants := by
  simp only [setFeatureFlagMode]
  split
  · split <;> simp only [variants_generateFeatureFlagKeyFromName, variants_setSelectedFeatureFlag] <;> rfl
  · simp only [variants_loadExistingFeatureFlags, variants_setExperimentFormValue]
    rfl

@[simp] theorem variants_updateFeatureFlagKey (key : String) :
    (s.updateFeatureFlagKey key).variants = s.variants := rfl

@[simp] theorem variants_debounceElapsed : s.debounceElapsed.variants = s.variants := by
  simp only [debounceElapsed]
  split
  · rfl
  · split
    · simp only [variants_validateFeatureFlagKey]
      rfl
    · rfl

@[simp] theorem variants_setVariants (variants : List MultivariateFlagVariant) :
    (s.setVariants toLowerCase variants).variants = variants := by
  simp only [setVariants, variants_setExperimentFormValue]
  rfl

@[simp] theorem variants_addVariant :
    (s.addVariant toLowerCase).variants = withNewVariant s.variants := by
  simp [addVariant]

@[simp] theorem variants_removeVariant (index : JsNumber) :
    (s.removeVariant toLowerCase index).variants =
      (withoutVariant index s.variants).getD s.variants := by
  unfold removeVariant
  split <;> simp_all

@[simp] theorem variants_distributeVariantsEqually :
    (s.distributeVariantsEqually toLowerCase).variants =
      (equalShares s.variants).getD s.variants := by
  unfold distributeVariantsEqually
  split <;> simp_all

@[simp] theorem variants_submitExperimentForm : s.submitExperimentForm.variants = s.variants := by
  simp only [submitExperimentForm]
  split <;> rfl

@[simp] theorem variants_submitAnswered (response : CreateResponse) :
    (s.submitAnswered response).variants = s.variants := by
  unfold submitAnswered
  repeat' split
  all_goals rfl

@[simp] theorem variants_saveAsDraftChecks :
    (s.saveAsDraftChecks toLowerCase).1.variants = s.variants := by
  simp only [saveAsDraftChecks]
  repeat' split
  all_goals simp only [variants_emit, variants_setExperimentFormValue]
  all_goals rfl

@[simp] theorem variants_saveAsDraft : (s.saveAsDraft toLowerCase).variants = s.variants := by
  simp only [saveAsDraft]
  split <;> simp

@[simp] theorem variants_cancelExperiment : s.cancelExperiment.variants = s.variants := rfl

end VariantFrame

end State

/-- What can happen to a mounted logic: an edit of one of the view's fields (which kea-forms
    turns into `setExperimentFormValue`), an action the view or another logic dispatches,
    the debounce's wait ending, or the answer to a request in flight. -/
inductive Event
  | editName (value : String)
  | editDescription (value : String)
  | editFeatureFlagKey (value : String)
  | editVariantKey (index : Nat) (value : String)
  | editVariantName (index : Nat) (value : String)
  | editVariantRollout (index : Nat) (value : Int)
  | updateFeatureFlagKey (key : String)
  | debounceElapsed
  | setFeatureFlagMode (mode : FeatureFlagMode)
  | setSelectedFeatureFlag (flag : Option FeatureFlag)
  | validateFeatureFlagKey (key : String)
  | generateFeatureFlagKeyFromName
  | addVariant
  | removeVariant (index : JsNumber)
  | distributeVariantsEqually
  | saveAsDraft
  | cancelExperiment
  | validationAnswered (j : Nat) (response : FlagsResponse)
  | existingFlagsAnswered (response : FlagsResponse)
  | submitAnswered (response : CreateResponse)
  deriving DecidableEq, Repr

section

variable (toLowerCase : String → String)

/-- One event. -/
def step (s : State) : Event → State
  | .editName value => s.setExperimentFormValue toLowerCase (.name value)
  | .editDescription value => s.setExperimentFormValue toLowerCase (.description value)
  | .editFeatureFlagKey value => s.setExperimentFormValue toLowerCase (.feature_flag_key value)
  | .editVariantKey index value => s.setExperimentFormValue toLowerCase (.variantKey index value)
  | .editVariantName index value => s.setExperimentFormValue toLowerCase (.variantName index value)
  | .editVariantRollout index value =>
    s.setExperimentFormValue toLowerCase (.variantRollout index value)
  | .updateFeatureFlagKey key => s.updateFeatureFlagKey key
  | .debounceElapsed => s.debounceElapsed
  | .setFeatureFlagMode mode => s.setFeatureFlagMode toLowerCase mode
  | .setSelectedFeatureFlag flag => s.setSelectedFeatureFlag flag
  | .validateFeatureFlagKey key => s.validateFeatureFlagKey key
  | .generateFeatureFlagKeyFromName => s.generateFeatureFlagKeyFromName toLowerCase
  | .addVariant => s.addVariant toLowerCase
  | .removeVariant index => s.removeVariant toLowerCase index
  | .distributeVariantsEqually => s.distributeVariantsEqually toLowerCase
  | .saveAsDraft => s.saveAsDraft toLowerCase
  | .cancelExperiment => s.cancelExperiment
  | .validationAnswered j response => s.validationAnswered j response
  | .existingFlagsAnswered response => s.existingFlagsAnswered response
  | .submitAnswered response => s.submitAnswered response

/-- A run of events. -/
def run (s : State) (events : List Event) : State := events.foldl (step toLowerCase) s

@[simp] theorem run_nil (s : State) : run toLowerCase s [] = s := rfl

@[simp] theorem run_cons (s : State) (e : Event) (events : List Event) :
    run toLowerCase s (e :: events) = run toLowerCase (step toLowerCase s e) events := rfl

theorem run_append (s : State) (es fs : List Event) :
    run toLowerCase s (es ++ fs) = run toLowerCase (run toLowerCase s es) fs :=
  List.foldl_append _ _ _ _

end

end Experiments

end PosthogFrontend
