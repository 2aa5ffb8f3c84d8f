import PosthogFrontend.Experiments.Logic

/-!
# The Variant List over Runs

What the variant listeners do to `parameters.feature_flag_variants` in a running logic.

The list can only change through a variant listener or an edit of one of the variant's
inputs, and the frame lemmas of `Experiments.Logic` say so action by action. The length
invariant is then the usual pair: `two_le_length_step` for one event and
`two_le_length_run` for a run. It holds for every run of every event, not only for runs
of the variant buttons, since edits and all the other actions leave the length alone.

`removeVariant` filters by index with JavaScript's `!==`, so an argument that is not one
of the list's indices (out of range, negative, fractional, `NaN`) removes nothing.

`addVariant` names the new variant after the list's length alone. After a removal the
name can already be taken, and `addVariant_duplicates_key` is that collision for every
state where it can happen.

## Theorems

* `two_le_length_step`: One event keeps at least two variants.
* `two_le_length_run`: So does a run.
* `removeVariant_keeps_two_variants`: Every reachable list has two variants or more, and
  removal erases exactly the element at a valid index.
* `addVariant_duplicates_key`: A list holding `variant-(N+1)` gets it twice.
* `distributeVariantsEqually_sums_to_hundred`: Distribution keeps every variant but its
  percentage, and the percentages then add up to 100.
* `distributeVariantsEqually_eighteen`: With eighteen variants the last share is `-2`.
-/

namespace PosthogFrontend

namespace Experiments

open Js

variable (toLowerCase : String → String)

@[simp] theorem length_variants_setValue (form : ExperimentForm) (v : FormValue)
    (hv : ∀ p, v ≠ .parameters p) : (form.setValue v).variants.length = form.variants.length :=
  form.length_variants_setValue v hv

/-- One event keeps at least two variants: only the variant listeners change the length,
    `addVariant` grows it, and `removeVariant` stops at two. -/
theorem two_le_length_step (s : State) (e : Event) (h : 2 ≤ s.variants.length) :
    2 ≤ (step toLowerCase s e).variants.length := by
  cases e with
  | addVariant => simp [step]; omega
  | removeVariant index =>
      simp only [step, State.variants_removeVariant]
      cases hw : withoutVariant index s.variants with
      | none => exact h
      | some shares => exact two_le_length_withoutVariant hw
  | distributeVariantsEqually =>
      simp only [step, State.variants_distributeVariantsEqually]
      cases hs : equalShares s.variants with
      | none => exact h
      | some shares => simpa [length_equalShares hs] using h
  | _ => simpa [step] using h

theorem two_le_length_run (s : State) (events : List Event) (h : 2 ≤ s.variants.length) :
    2 ≤ (run toLowerCase s events).variants.length := by
  induction events generalizing s with
  | nil => exact h
  | cons e events ih => exact ih _ (two_le_length_step toLowerCase s e h)

/-- Every list reached from `NEW_EXPERIMENT` has at least two variants, and
    `removeVariant(index)` leaves the list as it is when it has two or fewer or when
    `index` is none of its indices, and otherwise erases the element at `index`. -/
theorem removeVariant_keeps_two_variants :
    (∀ events : List Event, 2 ≤ (run toLowerCase initial events).variants.length) ∧
    ∀ (s : State) (index : JsNumber),
      ((s.variants.length ≤ 2 ∨ ∀ n < s.variants.length, index ≠ .finite n) →
        (s.removeVariant toLowerCase index).variants = s.variants) ∧
      (2 < s.variants.length → ∀ n < s.variants.length, index = .finite n →
        (s.removeVariant toLowerCase index).variants = s.variants.eraseIdx n) := by
  refine ⟨fun events => two_le_length_run toLowerCase initial events (by decide),
    fun s index => ⟨fun hkeep => ?_, fun hlen n _ hidx => ?_⟩⟩
  · rw [State.variants_removeVariant]
    by_cases hle : s.variants.length ≤ 2
    · rw [(withoutVariant_eq_none index s.variants).mpr hle]
      rfl
    have hnone := hkeep.resolve_left hle
    by_cases hidx : ∃ n : Nat, index = .finite n
    · obtain ⟨n, rfl⟩ := hidx
      have hn : s.variants.length ≤ n := Nat.le_of_not_lt fun hlt => hnone n hlt rfl
      rw [withoutVariant_of_eq n s.variants (by omega), Option.getD_some,
        List.eraseIdx_of_length_le hn]
    · push_neg at hidx
      rw [withoutVariant_of_ne index s.variants (by omega) hidx, Option.getD_some]
  · rw [State.variants_removeVariant, hidx, withoutVariant_of_eq n s.variants hlen,
      Option.getD_some]

/-- `addVariant` names the new variant `variant-(N+1)` from the length `N` alone, so a
    list that already holds that key ends up holding it twice. -/
theorem addVariant_duplicates_key (s : State)
    (h : "variant-" ++ toString (s.variants.length + 1) ∈ s.variants.map (·.key)) :
    ¬ ((s.addVariant toLowerCase).variants.map (·.key)).Nodup := by
  rw [State.variants_addVariant, withNewVariant, List.map_append, List.nodup_append]
  rintro ⟨-, -, hdisj⟩
  exact hdisj h (List.mem_singleton_self _)

/-- Adding `variant-3` and `variant-4` and removing `variant-3` leaves a list of three
    that holds `variant-4`, and the next `addVariant` adds it again. -/
theorem addVariant_duplicates_key_after_removal :
    let s : State := run asciiLowerCase initial [.addVariant, .addVariant, .removeVariant (.finite 2)]
    "variant-" ++ toString (s.variants.length + 1) ∈ s.variants.map (·.key) ∧
      ¬ ((s.addVariant asciiLowerCase).variants.map (·.key)).Nodup :=
  ⟨by decide, addVariant_duplicates_key asciiLowerCase _ (by decide)⟩

/-- On a non-empty list, `distributeVariantsEqually` keeps the length and every field of
    every variant except `rollout_percentage`, and `variantPercentageSum` is then exactly
    100; on an empty list it changes nothing. -/
theorem distributeVariantsEqually_sums_to_hundred (s : State) :
    (s.variants = [] → (s.distributeVariantsEqually toLowerCase).variants = s.variants) ∧
    (s.variants ≠ [] →
      (s.distributeVariantsEqually toLowerCase).variants.length = s.variants.length ∧
      (s.distributeVariantsEqually toLowerCase).variants.map
          (fun v => { v with rollout_percentage := 0 }) =
        s.variants.map (fun v => { v with rollout_percentage := 0 }) ∧
      (s.distributeVariantsEqually toLowerCase).variantPercentageSum = 100) := by
  rw [State.variantPercentageSum, State.variants_distributeVariantsEqually]
  refine ⟨fun hnil => by rw [(equalShares_eq_none _).mpr hnil]; rfl, fun hne => ?_⟩
  obtain ⟨shares, hs⟩ := Option.ne_none_iff_exists'.mp (mt (equalShares_eq_none _).mp hne)
  rw [hs, Option.getD_some]
  exact ⟨length_equalShares hs, equalShares_map_clear hs, variantPercentageSum_equalShares hs⟩

/-- Any state holding eighteen variants, as sixteen `addVariant`s from `NEW_EXPERIMENT`
    give, is distributed as seventeen shares of 6 and a last share of `-2`. -/
theorem distributeVariantsEqually_eighteen (s : State) (hlen : s.variants.length = 18) :
    (s.distributeVariantsEqually toLowerCase).variants.map (·.rollout_percentage) =
      List.replicate 17 6 ++ [-2] := by
  have hne : s.variants ≠ [] := List.ne_nil_of_length_pos (by omega)
  rw [State.variants_distributeVariantsEqually]
  obtain ⟨shares, hs⟩ := Option.ne_none_iff_exists'.mp (mt (equalShares_eq_none _).mp hne)
  rw [hs, Option.getD_some, equalShares_eighteen hlen hs]

theorem distributeVariantsEqually_eighteen_reached :
    (run asciiLowerCase initial (List.replicate 16 .addVariant)).variants.length = 18 ∧
      ((run asciiLowerCase initial (List.replicate 16 .addVariant)).distributeVariantsEqually
          asciiLowerCase).variants.map (·.rollout_percentage) = List.replicate 17 6 ++ [-2] :=
  ⟨by decide, distributeVariantsEqually_eighteen asciiLowerCase _ (by decide)⟩

end Experiments

end PosthogFrontend
