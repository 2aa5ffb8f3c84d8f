import PosthogFrontend.Js.Runtime
import Mathlib.Algebra.BigOperators.Group.List

/-!
# Experiment Variants

The three listeners of `createExperimentLogic` that rewrite the variant list:
`addVariant`, `removeVariant` and `distributeVariantsEqually`. Each reads
`parameters.feature_flag_variants`, computes a new list and writes it back with
`setExperimentFormValue('parameters', ...)`, or stops early. This file holds the list each
one computes, with `none` for the early stop; `Experiments.Logic` threads them through
the form.

`distributeVariantsEqually` gives every variant `Math.round(100 / N)` and hands the
rounding error to the last one. `equalShares_rollouts` is the shape of its output, a run
of `N - 1` equal shares and a last share of `100 - r (N - 1)`, and everything said about
the distribution is read off that shape: the shares add up to 100 for every `N`
(`variantPercentageSum_equalShares`), and the last share is negative once the rounding
error of the equal shares adds up past 100 (`equalShares_eighteen`).

## Main definitions

* `MultivariateFlagVariant`: A variant: key, display name and rollout percentage.
* `defaultVariants`: The `control`/`test` pair of `NEW_EXPERIMENT`.
* `withNewVariant`: The list `addVariant` writes.
* `withoutVariant`: The list `removeVariant` writes, if any.
* `equalShares`: The list `distributeVariantsEqually` writes, if any.
* `variantPercentageSum`: The selector summing the rollout percentages.

## Theorems

* `variantPercentageSum_eq_sum`: The selector's `reduce` is the sum of the percentages.
* `withoutVariant_eq_none`: Removal stops exactly at two variants or fewer.
* `withoutVariant_of_eq`: An index of the list is erased, and only it.
* `withoutVariant_of_ne`: Any other argument leaves the list as it was.
* `two_le_length_withoutVariant`: Removal leaves at least two variants.
* `equalShares_eq_none`: Distribution stops exactly on the empty list.
* `equalShares_map_clear`: Distribution changes nothing but the percentages.
* `equalShares_rollouts`: The shares written, in order.
* `variantPercentageSum_equalShares`: The shares written add up to 100.
* `equalShares_eighteen`: With eighteen variants the last share is `-2`.
-/

namespace PosthogFrontend

namespace Experiments

open Js

/-- `MultivariateFlagVariant`: the variant's key, its optional display name, and its
    percentage of the rollout. -/
structure MultivariateFlagVariant where
  key : String
  name : Option String
  rollout_percentage : Int
  deriving DecidableEq, Repr

/-- `NEW_EXPERIMENT.parameters.feature_flag_variants`. -/
def defaultVariants : List MultivariateFlagVariant :=
  [⟨"control", none, 50⟩, ⟨"test", none, 50⟩]

/-- The `newVariant` that `addVariant` appends to a list of `count` variants. -/
def newVariant (count : Nat) : MultivariateFlagVariant :=
  ⟨"variant-" ++ toString (count + 1), some "", 0⟩

/-- The list `addVariant` writes back: `[...variants, newVariant]`. -/
def withNewVariant (variants : List MultivariateFlagVariant) : List MultivariateFlagVariant :=
  variants ++ [newVariant variants.length]

/-- The list `removeVariant(index)` writes back,
    `variants.filter((_, i) => i !== index)`, or `none` when the guard
    `variants.length <= 2` stops it. -/
def withoutVariant (index : JsNumber) (variants : List MultivariateFlagVariant) :
    Option (List MultivariateFlagVariant) :=
  if variants.length ≤ 2 then none
  else some (filterIdx (fun i _ => index != .finite i) variants)

/-- The list `distributeVariantsEqually` writes back, or `none` when it returns early on
    an empty list. -/
def equalShares (variants : List MultivariateFlagVariant) :
    Option (List MultivariateFlagVariant) :=
  let numVariants := variants.length
  if numVariants = 0 then none
  else
    let percentageRounded : Int := roundDiv 100 numVariants
    let totalRounded := percentageRounded * numVariants
    let delta := totalRounded - 100
    some (variants.mapIdx fun index variant =>
      { variant with
        rollout_percentage :=
          if index = numVariants - 1 then percentageRounded - delta else percentageRounded })

/-- The `variantPercentageSum` selector,
    `variants.reduce((sum, variant) => sum + (variant.rollout_percentage || 0), 0)`.
    Every percentage the logic writes is an integer, on which `x || 0` is `x`. -/
def variantPercentageSum (variants : List MultivariateFlagVariant) : Int :=
  variants.foldl (fun sum variant => sum + variant.rollout_percentage) 0

theorem variantPercentageSum_eq_sum (variants : List MultivariateFlagVariant) :
    variantPercentageSum variants = (variants.map (·.rollout_percentage)).sum := by
  suffices h : ∀ a : Int, variants.foldl (fun sum variant => sum + variant.rollout_percentage) a
      = a + (variants.map (·.rollout_percentage)).sum from (h 0).trans (Int.zero_add _)
  induction variants with
  | nil => intro a; simp
  | cons v vs ih => intro a; simp [ih, Int.add_assoc]

@[simp] theorem length_withNewVariant (variants : List MultivariateFlagVariant) :
    (withNewVariant variants).length = variants.length + 1 := by
  simp [withNewVariant]

theorem withoutVariant_eq_none (index : JsNumber) (variants : List MultivariateFlagVariant) :
    withoutVariant index variants = none ↔ variants.length ≤ 2 := by
  unfold withoutVariant
  split <;> simp_all

/-- An argument equal to a natural `n` erases the element at `n`, which leaves the list as
    it was when `n` is past its end. -/
theorem withoutVariant_of_eq (n : Nat) (variants : List MultivariateFlagVariant)
    (hlen : 2 < variants.length) :
    withoutVariant (.finite n) variants = some (variants.eraseIdx n) := by
  have hkeep : (fun (i : Nat) (_ : MultivariateFlagVariant) =>
      (JsNumber.finite n != .finite i)) = fun i _ => i != n := by
    funext i _
    rw [Bool.eq_iff_iff, bne_iff_ne, bne_iff_ne]
    simp [eq_comm]
  rw [withoutVariant, if_neg (by omega), filterIdx, hkeep, filterIdxFrom_ne]
  simp

/-- An argument that is no natural number (a negative or fractional value, `NaN`, an
    infinity) matches no index, and the filter keeps every element. -/
theorem withoutVariant_of_ne (index : JsNumber) (variants : List MultivariateFlagVariant)
    (hlen : 2 < variants.length) (hne : ∀ n : Nat, index ≠ .finite n) :
    withoutVariant index variants = some variants := by
  have hkeep : (fun (i : Nat) (_ : MultivariateFlagVariant) => (index != .finite i)) =
      fun _ _ => true := by
    funext i _
    simp [hne i]
  rw [withoutVariant, if_neg (by omega), filterIdx, hkeep, filterIdxFrom_true]

theorem two_le_length_withoutVariant {index : JsNumber} {variants shares : List MultivariateFlagVariant}
    (h : withoutVariant index variants = some shares) : 2 ≤ shares.length := by
  have hlen : 2 < variants.length :=
    Nat.lt_of_not_le (mt (withoutVariant_eq_none index variants).mpr (by simp [h]))
  by_cases hidx : ∃ n : Nat, index = .finite n
  · obtain ⟨n, rfl⟩ := hidx
    rw [withoutVariant_of_eq n variants hlen, Option.some.injEq] at h
    subst h
    have := List.length_eraseIdx variants n
    split at this <;> omega
  · push_neg at hidx
    rw [withoutVariant_of_ne index variants hlen hidx, Option.some.injEq] at h
    subst h
    omega

/-- What `distributeVariantsEqually` does once past its guard: the list is non-empty and
    each variant gets its share by index. -/
theorem equalShares_eq_some {variants shares : List MultivariateFlagVariant}
    (h : equalShares variants = some shares) :
    variants ≠ [] ∧ shares = variants.mapIdx fun index variant =>
      { variant with
        rollout_percentage :=
          if index = variants.length - 1 then
            (roundDiv 100 variants.length : Int) -
              ((roundDiv 100 variants.length : Int) * variants.length - 100)
          else roundDiv 100 variants.length } := by
  simp only [equalShares] at h
  split at h
  · cases h
  · cases h
    exact ⟨fun hnil => by simp_all, rfl⟩

theorem equalShares_eq_none (variants : List MultivariateFlagVariant) :
    equalShares variants = none ↔ variants = [] := by
  simp only [equalShares]
  split <;> simp_all

theorem length_equalShares {variants shares : List MultivariateFlagVariant}
    (h : equalShares variants = some shares) : shares.length = variants.length := by
  simp [(equalShares_eq_some h).2]

/-- Distribution rewrites each variant's percentage and nothing else of it. -/
theorem equalShares_map_clear {variants shares : List MultivariateFlagVariant}
    (h : equalShares variants = some shares) :
    shares.map (fun v => { v with rollout_percentage := 0 }) =
      variants.map (fun v => { v with rollout_percentage := 0 }) := by
  obtain ⟨-, rfl⟩ := equalShares_eq_some h
  apply List.ext_getElem (by simp)
  intro i h1 h2
  simp

/-- The shares distribution writes: `N - 1` copies of `Math.round(100 / N)`, then the
    remainder `100 - Math.round(100 / N) * (N - 1)`. -/
theorem equalShares_rollouts {variants shares : List MultivariateFlagVariant}
    (h : equalShares variants = some shares) :
    shares.map (·.rollout_percentage) =
      List.replicate (variants.length - 1) (roundDiv 100 variants.length : Int) ++
        [(100 : Int) - roundDiv 100 variants.length * (variants.length - 1 : Nat)] := by
  obtain ⟨hne, rfl⟩ := equalShares_eq_some h
  have hpos : 0 < variants.length := List.length_pos.mpr hne
  apply List.ext_getElem (by simp; omega)
  intro i h1 h2
  simp only [List.getElem_map, List.getElem_mapIdx, List.getElem_append, List.length_replicate,
    List.getElem_replicate]
  rcases Nat.lt_or_ge i (variants.length - 1) with hlt | hge
  · simp [hlt, Nat.ne_of_lt hlt]
  · have hi : i = variants.length - 1 := by simp at h1; omega
    subst hi
    simp only [if_true, lt_irrefl, dite_false, Nat.sub_self, List.getElem_cons_zero]
    rw [Nat.cast_sub hpos]
    push_cast
    ring

/-- For every non-empty list the shares written add up to exactly 100: the remainder
    handed to the last variant absorbs the rounding error of all the others. -/
theorem variantPercentageSum_equalShares {variants shares : List MultivariateFlagVariant}
    (h : equalShares variants = some shares) : variantPercentageSum shares = 100 := by
  rw [variantPercentageSum_eq_sum, equalShares_rollouts h]
  simp
  ring

/-- With eighteen variants, `Math.round(100 / 18) = 6`, the seventeen equal shares take
    102, and the last variant is written `-2`. -/
theorem equalShares_eighteen {variants shares : List MultivariateFlagVariant}
    (hlen : variants.length = 18) (h : equalShares variants = some shares) :
    shares.map (·.rollout_percentage) = List.replicate 17 6 ++ [-2] := by
  rw [equalShares_rollouts h, hlen]
  rfl

end Experiments

end PosthogFrontend
