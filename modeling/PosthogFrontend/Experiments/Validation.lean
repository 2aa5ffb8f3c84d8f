import PosthogFrontend.Experiments.Logic

/-!
# Validating the Feature Flag Key

The `validateFeatureFlagKey` loader and the two reducers it feeds:
`featureFlagValidation`, the loader's value, and `featureFlagKeyValidationError`, the
message the view shows under the key.

The loader reports a blank key, a key in use and a failed lookup by dispatching
`validateFeatureFlagKeyFailure` with a message, and then returns. kea-loaders dispatches
`validateFeatureFlagKeySuccess` with whatever a loader returns, and the error reducer
maps that action to `null`. `validationSettled_eq` is the consequence: a settled
validation is indistinguishable from a bare success with the loader's return value, so
`featureFlagKeyValidationError` ends up `null` every time (`validateFeatureFlagKey_settles`)
and only `featureFlagValidation` keeps what the lookup found.

Nothing ties an answer to the key it was requested for. Two validations in flight
settle in the order their answers arrive, and the last answer decides the value
(`overlapping_validations`); when the earlier request answers last, its stale result
replaces the newer one (`stale_validation_overwrites`).

The key that `generateFeatureFlagKeyFromName` writes and validates can itself be blank: a
name whose trim is not empty but which has no letter, digit or `_` normalises to an empty
`baseKey`, and the generator returns it when no flag has the empty key. The form's required
check then rejects the key, and the loader stops at its blank check without a lookup
(`generateFeatureFlagKeyFromName_writes_blank_key`).

## Main definitions

* `lookupResult`: What the loader returns once its lookup settles.

## Theorems

* `validationSettled_eq`: A settled validation is a success with the loader's value.
* `validateFeatureFlagKey_settles`: One validation leaves no error message.
* `generateFeatureFlagKeyFromName_writes_blank_key`: A name of punctuation and spaces gives
  a blank key, which fails the form's required check and the loader's blank check.
* `overlapping_validations`: With two validations in flight, the last answer wins.
* `stale_validation_overwrites`: An older key's answer arriving last replaces the newer
  key's result.
-/

namespace PosthogFrontend

namespace Experiments

open Js

variable (toLowerCase : String → String)

/-- What the `validateFeatureFlagKey` loader returns once the lookup for `key` settles:
    `{ available: false }` when a returned flag has exactly this key, `{ available: true }`
    when none has, and `null` when the lookup threw. -/
def lookupResult (key : String) : FlagsResponse → Option FeatureFlagValidation
  | .results flags =>
    if (flags.find? fun flag => flag.key == key).isSome then some ⟨false⟩ else some ⟨true⟩
  | .failed => none

/-- Whatever the loader dispatches first, kea-loaders' success action comes last: it sets
    the value and clears the message. -/
theorem validationSettled_eq (key : String) (response : FlagsResponse) (s : State) :
    s.validationSettled key response =
      s.validateFeatureFlagKeySuccess (lookupResult key response) := by
  cases response with
  | results flags =>
      simp only [State.validationSettled, lookupResult]
      cases flags.find? (fun flag => flag.key == key) <;> rfl
  | failed => rfl

theorem validateFeatureFlagKey_of_blank (key : String) (s : State) (h : jsTrim key = "") :
    s.validateFeatureFlagKey key = s.validateFeatureFlagKeySuccess none := by
  simp only [State.validateFeatureFlagKey, h, if_true]
  rfl

theorem validateFeatureFlagKey_of_ne_blank (key : String) (s : State) (h : jsTrim key ≠ "") :
    s.validateFeatureFlagKey key =
      { s with featureFlagValidationLoading := true,
               validationsInFlight := s.validationsInFlight ++ [key] } := by
  simp only [State.validateFeatureFlagKey, h, if_false]

theorem validationAnswered_of_getElem? (j : Nat) (key : String) (response : FlagsResponse)
    (s : State) (h : s.validationsInFlight[j]? = some key) :
    s.validationAnswered j response =
      ({ s with validationsInFlight := s.validationsInFlight.eraseIdx j }).validateFeatureFlagKeySuccess
        (lookupResult key response) := by
  simp only [State.validationAnswered, h, validationSettled_eq]

/-- An answer to the `j`-th request in flight, for `key`, sets the value to the lookup's
    result and clears the message. -/
theorem validationAnswered_fields (j : Nat) (key : String) (response : FlagsResponse)
    (s : State) (h : s.validationsInFlight[j]? = some key) :
    (s.validationAnswered j response).featureFlagValidation = lookupResult key response ∧
      (s.validationAnswered j response).featureFlagKeyValidationError = none := by
  rw [validationAnswered_of_getElem? j key response s h]
  exact ⟨rfl, rfl⟩

/-- Answering the request at position `xs.length` of `xs ++ key :: ys` leaves the others
    in flight, in order. -/
theorem validationsInFlight_validationAnswered (s : State) (xs ys : List String) (key : String)
    (response : FlagsResponse) (h : s.validationsInFlight = xs ++ key :: ys) :
    (s.validationAnswered xs.length response).validationsInFlight = xs ++ ys := by
  rw [validationAnswered_of_getElem? xs.length key response s (by
    rw [h, List.getElem?_append_right (Nat.le_refl _), Nat.sub_self, List.getElem?_cons_zero])]
  show s.validationsInFlight.eraseIdx xs.length = _
  rw [h, List.eraseIdx_append_of_length_le (Nat.le_refl _), Nat.sub_self]
  rfl

/-- With no other validation in flight, `validateFeatureFlagKey(key)` and the answer to
    its lookup leave no message in `featureFlagKeyValidationError`, whatever the key and
    the answer; the loader's value is `null` for a blank key and the lookup's result
    otherwise. -/
theorem validateFeatureFlagKey_settles (s : State) (hidle : s.validationsInFlight = [])
    (key : String) (response : FlagsResponse) :
    let s' : State := run toLowerCase s [.validateFeatureFlagKey key, .validationAnswered 0 response]
    s'.featureFlagKeyValidationError = none ∧
      s'.featureFlagValidation = if jsTrim key = "" then none else lookupResult key response := by
  by_cases hblank : jsTrim key = ""
  · simp only [run_cons, run_nil, step, validateFeatureFlagKey_of_blank key s hblank, hblank,
      if_true]
    simp [State.validationAnswered, State.validateFeatureFlagKeySuccess, hidle]
  · simp only [run_cons, run_nil, step, validateFeatureFlagKey_of_ne_blank key s hblank, hblank,
      if_false]
    rw [validationAnswered_of_getElem? 0 key response _ (by simp [hidle])]
    exact ⟨rfl, rfl⟩

/-- The blank key: its `'Feature flag key is required'` is cleared by the success that
    follows it. -/
theorem validateFeatureFlagKey_settles_blank :
    let s' : State := run asciiLowerCase initial [.validateFeatureFlagKey "", .validationAnswered 0 .failed]
    initial.validationsInFlight = [] ∧ s'.featureFlagKeyValidationError = none ∧
      s'.featureFlagValidation = if jsTrim "" = "" then none else lookupResult "" .failed :=
  ⟨rfl, validateFeatureFlagKey_settles asciiLowerCase initial rfl "" .failed⟩

/-- A name that passes the listener's guard but whose lowercased form has no key
    character other than `-` gives the empty key, unless a flag already has it. The listener
    writes that key into the form, whose `feature_flag_key` check reports it, and validates
    it, which takes the loader's blank branch: no lookup is requested and the value is
    `null`. -/
theorem generateFeatureFlagKeyFromName_writes_blank_key (s : State)
    (hname : jsTrim s.experimentForm.name ≠ "")
    (hchars : ∀ c ∈ (toLowerCase (jsTrim s.experimentForm.name)).data, isKeyChar c = true → c = '-')
    (hflags : ∀ flag ∈ s.existingFeatureFlags, flag.key ≠ "") :
    let s' : State := s.generateFeatureFlagKeyFromName toLowerCase
    s'.experimentForm.feature_flag_key = "" ∧
      (experimentFormValidationErrors s'.experimentForm).feature_flag_key =
        some "Please enter a feature flag key" ∧
      s' = (s.setFormValue (.feature_flag_key "")).validateFeatureFlagKeySuccess none := by
  have hR : "" ∉ (s.existingFeatureFlags.map (·.key)).toFinset := by
    simpa using hflags
  have hkey := (generateFeatureFlagKey_eq_empty_iff toLowerCase _ _).mpr
    ⟨(baseKey_eq_empty_iff _ _).mpr hchars, hR⟩
  have hs' : s.generateFeatureFlagKeyFromName toLowerCase =
      (s.setFormValue (.feature_flag_key "")).validateFeatureFlagKeySuccess none := by
    simp only [State.generateFeatureFlagKeyFromName, if_neg hname, hkey]
    exact validateFeatureFlagKey_of_blank "" _ rfl
  intro s'
  rw [show s' = _ from hs']
  exact ⟨rfl, rfl, rfl⟩

theorem generateFeatureFlagKeyFromName_blank_key_of_punctuation :
    let s : State := initial.setFormValue (.name "!!!")
    jsTrim s.experimentForm.name ≠ "" ∧
      (∀ c ∈ (asciiLowerCase (jsTrim s.experimentForm.name)).data, isKeyChar c = true → c = '-') ∧
      (∀ flag ∈ s.existingFeatureFlags, flag.key ≠ "") ∧
      let s' : State := s.generateFeatureFlagKeyFromName asciiLowerCase
      s'.experimentForm.feature_flag_key = "" ∧
        (experimentFormValidationErrors s'.experimentForm).feature_flag_key =
          some "Please enter a feature flag key" ∧
        s' = (s.setFormValue (.feature_flag_key "")).validateFeatureFlagKeySuccess none :=
  ⟨by decide, by decide, by decide,
    generateFeatureFlagKeyFromName_writes_blank_key asciiLowerCase _ (by decide) (by decide)
      (by decide)⟩

example : (run asciiLowerCase initial [.editName "!!!"]).experimentForm.feature_flag_key = "" := by
  decide

/-- Two validations are issued for non-blank keys before either lookup answers, at
    positions `p` and `p + 1` of the requests in flight. Whichever order the answers come
    in, `featureFlagKeyValidationError` ends as it would after `key₂` alone, `null`. The value
    `featureFlagValidation` is `key₂`'s result when `key₂`'s answer arrives last, and
    `key₁`'s result when `key₁`'s answer does. -/
theorem overlapping_validations (s : State) (key₁ key₂ : String)
    (response₁ response₂ : FlagsResponse) (h₁ : jsTrim key₁ ≠ "") (h₂ : jsTrim key₂ ≠ "") :
    let p := s.validationsInFlight.length
    let issued := run toLowerCase s [.validateFeatureFlagKey key₁, .validateFeatureFlagKey key₂]
    let alone := run toLowerCase s [.validateFeatureFlagKey key₂, .validationAnswered p response₂]
    let secondLast :=
      run toLowerCase issued [.validationAnswered p response₁, .validationAnswered p response₂]
    let firstLast :=
      run toLowerCase issued [.validationAnswered (p + 1) response₂, .validationAnswered p response₁]
    alone.featureFlagValidation = lookupResult key₂ response₂ ∧
      alone.featureFlagKeyValidationError = none ∧
      secondLast.featureFlagValidation = alone.featureFlagValidation ∧
      secondLast.featureFlagKeyValidationError = alone.featureFlagKeyValidationError ∧
      firstLast.featureFlagKeyValidationError = alone.featureFlagKeyValidationError ∧
      firstLast.featureFlagValidation = lookupResult key₁ response₁ := by
  intro p issued alone secondLast firstLast
  have hissued : issued.validationsInFlight = s.validationsInFlight ++ [key₁, key₂] := by
    show ((s.validateFeatureFlagKey key₁).validateFeatureFlagKey key₂).validationsInFlight = _
    rw [validateFeatureFlagKey_of_ne_blank key₂ _ h₂, validateFeatureFlagKey_of_ne_blank key₁ _ h₁]
    exact List.append_assoc _ _ _
  have hat : ∀ (rest : List String) (key : String),
      (s.validationsInFlight ++ key :: rest)[p]? = some key := fun rest key => by
    rw [List.getElem?_append_right (Nat.le_refl _), Nat.sub_self, List.getElem?_cons_zero]
  -- each answer settles the request at its position and leaves the other in flight
  have hmid₁ : (issued.validationAnswered p response₁).validationsInFlight =
      s.validationsInFlight ++ [key₂] :=
    validationsInFlight_validationAnswered issued _ _ key₁ response₁ hissued
  have hmid₂ : (issued.validationAnswered (p + 1) response₂).validationsInFlight =
      s.validationsInFlight ++ [key₁] := by
    rw [show p + 1 = (s.validationsInFlight ++ [key₁]).length by simp [p]]
    simpa using validationsInFlight_validationAnswered issued (s.validationsInFlight ++ [key₁]) []
      key₂ response₂ (by simp [hissued])
  simp only [alone, secondLast, firstLast, run_cons, run_nil, step]
  obtain ⟨halone, halone'⟩ := validationAnswered_fields p key₂ response₂
    (s.validateFeatureFlagKey key₂) (by rw [validateFeatureFlagKey_of_ne_blank key₂ s h₂]; exact hat _ _)
  obtain ⟨hsecond, hsecond'⟩ := validationAnswered_fields p key₂ response₂
    (issued.validationAnswered p response₁) (by rw [hmid₁]; exact hat _ _)
  obtain ⟨hfirst, hfirst'⟩ := validationAnswered_fields p key₁ response₁
    (issued.validationAnswered (p + 1) response₂) (by rw [hmid₂]; exact hat _ _)
  exact ⟨halone, halone', hsecond.trans halone.symm, hsecond'.trans halone'.symm,
    hfirst'.trans halone'.symm, hfirst⟩

/-- Keys `a` and then `ab` are validated; the registry answers `ab`'s lookup with a flag
    `ab`, and then `a`'s lookup with nothing. The value ends `{ available: true }`, where
    validating `ab` alone gives `{ available: false }`. -/
theorem stale_validation_overwrites :
    (run asciiLowerCase initial [.validateFeatureFlagKey "a", .validateFeatureFlagKey "ab",
        .validationAnswered 1 (.results [⟨"ab"⟩]), .validationAnswered 0 (.results [])]).featureFlagValidation =
      some ⟨true⟩ ∧
    (run asciiLowerCase initial [.validateFeatureFlagKey "ab",
        .validationAnswered 0 (.results [⟨"ab"⟩])]).featureFlagValidation = some ⟨false⟩ := by
  decide

theorem overlapping_validations_a_ab :
    jsTrim "a" ≠ "" ∧ jsTrim "ab" ≠ "" ∧
    (let p := initial.validationsInFlight.length
    let issued := run asciiLowerCase initial [.validateFeatureFlagKey "a", .validateFeatureFlagKey "ab"]
    let alone := run asciiLowerCase initial [.validateFeatureFlagKey "ab",
      .validationAnswered p (.results [⟨"ab"⟩])]
    let secondLast := run asciiLowerCase issued
      [.validationAnswered p (.results []), .validationAnswered p (.results [⟨"ab"⟩])]
    let firstLast := run asciiLowerCase issued
      [.validationAnswered (p + 1) (.results [⟨"ab"⟩]), .validationAnswered p (.results [])]
    alone.featureFlagValidation = lookupResult "ab" (.results [⟨"ab"⟩]) ∧
      alone.featureFlagKeyValidationError = none ∧
      secondLast.featureFlagValidation = alone.featureFlagValidation ∧
      secondLast.featureFlagKeyValidationError = alone.featureFlagKeyValidationError ∧
      firstLast.featureFlagKeyValidationError = alone.featureFlagKeyValidationError ∧
      firstLast.featureFlagValidation = lookupResult "a" (.results [])) :=
  ⟨by decide, by decide, overlapping_validations asciiLowerCase initial "a" "ab" (.results [])
    (.results [⟨"ab"⟩]) (by decide) (by decide)⟩

end Experiments

end PosthogFrontend
