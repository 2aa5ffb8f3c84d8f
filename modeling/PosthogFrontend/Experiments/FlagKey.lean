import PosthogFrontend.Js.Runtime
import Mathlib.Data.Finset.Card
import Mathlib.Data.Nat.Find
import Mathlib.Data.List.DropRight

/-!
# Feature Flag Keys

`generateFeatureFlagKey` turns an experiment's name into a flag key that avoids a set of
unavailable keys. It normalises the name into a `baseKey` and then runs a `while` loop
that tries `baseKey`, `baseKey-1`, `baseKey-2`, ... until one is free.

The loop has no syntactic bound, so `keyLoop` runs it with fuel and answers `none` when
the fuel is spent. The fuel `generateFeatureFlagKey` gives it is one more than the number
of unavailable keys, and the argument that this suffices is the pigeonhole principle: the
candidates are pairwise distinct strings (`candidate_injective`, which rests on the
decimal rendering of a counter being injective, `Js.toDigits_ten_injective`), so at most `card R` of them can be in
`R`, and one of the first `card R + 1` is free. `generateFeatureFlagKey` therefore
returns a `String`, as the source does, and the proof that the loop finishes is part of
its definition.

`String.prototype.toLowerCase` maps all of Unicode, which is not modelled here: it is a
parameter. Only the character class of the result depends on it, and only through whether
it leaves an upper-case ASCII letter in the name.

The key is `baseKey` or `baseKey-n`, so its shape follows from that of `baseKey`: its
characters come from the lowercased name or are `-`, the two strips leave no `-` at either
end, and it is empty exactly when the name has no key character other than `-`. Then the
loop stops at once unless `""` is unavailable, and the generator returns the empty key.

## Main definitions

* `isKeyChar`: The class `[A-Za-z0-9-_]`.
* `isLowerKeyChar`: The class `[a-z0-9_-]`.
* `dashRuns`: The global replacement of runs of other characters by `-`.
* `baseKey`: The normalised name the loop starts from.
* `candidate`: The keys the loop tries, in order.
* `keyLoop`: The `while` loop, run with fuel.
* `generateFeatureFlagKey`: The generator, with the fuel that always suffices.

## Theorems

* `mem_dashRuns`: A character of `dashRuns` is a key character of its input, or `-`.
* `baseKey_eq_empty_iff`: `baseKey` is empty exactly when every key character of the
  lowercased name is `-`.
* `head?_baseKey`, `getLast?_baseKey`: `baseKey` neither starts nor ends with `-`.
* `toDigits_ten`: The decimal digits of a number, split at the last one.

* `toDigits_ten_injective`: Distinct numbers have distinct decimal renderings.
* `candidate_injective`: The loop never tries the same key twice.
* `exists_first_free`: Some candidate within `card R` is free, and a first one exists.
* `keyLoop_eq`: With enough fuel the loop returns the first free candidate.
* `generateFeatureFlagKey_first_free`: The generator returns the first free candidate.
* `generateFeatureFlagKey_eq_empty_iff`: The key is empty exactly when `baseKey` is and
  the empty key is available.
* `generateFeatureFlagKey_lower_key_chars`: With no upper-case letter left by
  `toLowerCase`, the key is in `[a-z0-9_-]*`, and from a non-empty `baseKey` it neither
  starts nor ends with `-`.
-/

namespace PosthogFrontend

namespace Experiments

open Js

/-- The class `[A-Za-z0-9-_]` of characters the key keeps. -/
def isKeyChar (c : Char) : Bool := c.isAlphanum || c == '-' || c == '_'

/-- The class `[a-z0-9_-]` of characters of a key from a lowercased name. -/
def isLowerKeyChar (c : Char) : Bool := c.isLower || c.isDigit || c == '_' || c == '-'

/-- `.replace(/[^A-Za-z0-9-_]+/g, '-')` on a character list: every maximal run of other
    characters becomes one `-`. `inRun` records that the previous character was one. -/
def dashRuns : Bool → List Char → List Char
  | _, [] => []
  | inRun, c :: cs =>
    if isKeyChar c then c :: dashRuns false cs
    else if inRun then dashRuns true cs else '-' :: dashRuns true cs

/-- The `baseKey` of `generateFeatureFlagKey`: the lowercased name with runs of other
    characters turned into `-`, then the matches of `-+$` and of `^-+` replaced by `''`. -/
def baseKey (toLowerCase : String → String) (name : String) : String :=
  ⟨((dashRuns false (toLowerCase name).data).reverse.dropWhile (· == '-')).reverse.dropWhile
    (· == '-')⟩

/-- The key the loop tests after `n` turns: `baseKey`, then `${baseKey}-${n}`. -/
def candidate (baseKey : String) : Nat → String
  | 0 => baseKey
  | n + 1 => baseKey ++ "-" ++ toString (n + 1)

/-- `while (unavailableKeys.has(key)) { key = ...; counter++ }` from `key` and `counter`,
    with at most `fuel` tests of the condition; `none` once they are spent. -/
def keyLoop (unavailableKeys : Finset String) (baseKey : String) :
    Nat → String → Nat → Option String
  | 0, _, _ => none
  | fuel + 1, key, counter =>
    if key ∈ unavailableKeys then
      keyLoop unavailableKeys baseKey fuel (baseKey ++ "-" ++ toString counter) (counter + 1)
    else some key

theorem mem_dashRuns {c : Char} : ∀ {inRun : Bool} {cs : List Char}, c ∈ dashRuns inRun cs →
    (c ∈ cs ∧ isKeyChar c = true) ∨ c = '-'
  | _, [], h => by simp [dashRuns] at h
  | inRun, d :: cs, h => by
    have tail {b : Bool} (h : c ∈ dashRuns b cs) : (c ∈ d :: cs ∧ isKeyChar c = true) ∨ c = '-' :=
      (mem_dashRuns h).imp_left fun ⟨hc, hk⟩ => ⟨List.mem_cons_of_mem _ hc, hk⟩
    simp only [dashRuns] at h
    split_ifs at h with hd hrun
    · rcases List.mem_cons.mp h with rfl | h
      exacts [.inl ⟨List.mem_cons_self _ _, hd⟩, tail h]
    · exact tail h
    · rcases List.mem_cons.mp h with rfl | h
      exacts [.inr rfl, tail h]

theorem dashRuns_all_dash_iff : ∀ (inRun : Bool) (cs : List Char),
    (∀ c ∈ dashRuns inRun cs, c = '-') ↔ ∀ c ∈ cs, isKeyChar c = true → c = '-'
  | _, [] => by simp [dashRuns]
  | inRun, d :: cs => by
    simp only [dashRuns]
    split_ifs with hd <;> simp [dashRuns_all_dash_iff _ cs, hd]

/-- The strip of `-+$` is `rdropWhile`, that of `^-+` is `dropWhile`. -/
theorem baseKey_data (toLowerCase : String → String) (name : String) :
    (baseKey toLowerCase name).data =
      ((dashRuns false (toLowerCase name).data).rdropWhile (· == '-')).dropWhile (· == '-') :=
  rfl

theorem mem_baseKey {toLowerCase : String → String} {name : String} {c : Char}
    (h : c ∈ (baseKey toLowerCase name).data) : c ∈ dashRuns false (toLowerCase name).data := by
  rw [baseKey_data] at h
  exact (List.rdropWhile_prefix _ _).subset ((List.dropWhile_suffix _).subset h)

theorem baseKey_eq_empty_iff (toLowerCase : String → String) (name : String) :
    baseKey toLowerCase name = "" ↔ ∀ c ∈ (toLowerCase name).data, isKeyChar c = true → c = '-' := by
  rw [← dashRuns_all_dash_iff false, String.ext_iff, baseKey_data, List.dropWhile_eq_nil_iff,
    ← List.rdropWhile_eq_nil_iff, List.rdropWhile_idempotent, List.rdropWhile_eq_nil_iff]
  simp

theorem head?_baseKey (toLowerCase : String → String) (name : String) :
    (baseKey toLowerCase name).data.head? ≠ some '-' := by
  rw [baseKey_data]
  intro h
  have hne : _ ≠ [] := List.ne_nil_of_mem (List.mem_of_mem_head? h)
  have hhead := List.head_dropWhile_not (· == '-') _ hne
  rw [List.head?_eq_head hne, Option.some_inj] at h
  simp [h] at hhead

/-- The strip of `^-+` keeps the last character that the strip of `-+$` left. -/
theorem getLast?_baseKey (toLowerCase : String → String) (name : String) :
    (baseKey toLowerCase name).data.getLast? ≠ some '-' := by
  rw [baseKey_data]
  set M := List.rdropWhile (· == '-') (dashRuns false (toLowerCase name).data)
  intro h
  have hne : M.dropWhile (· == '-') ≠ [] := List.ne_nil_of_mem (List.mem_of_mem_getLast? h)
  have hM : M ≠ [] := fun hM => by simp [hM] at hne
  have hlast := List.rdropWhile_last_not _ _ hM
  rw [List.getLast?_eq_getLast _ hne, Option.some_inj, (List.dropWhile_suffix _).getLast hne] at h
  simp [h] at hlast

theorem isLowerKeyChar_of_isKeyChar {c : Char} (hkey : isKeyChar c = true)
    (hupper : c.isUpper = false) : isLowerKeyChar c = true := by
  simp only [isKeyChar, Char.isAlphanum, Char.isAlpha, hupper, Bool.false_or, Bool.or_eq_true] at hkey
  simp only [isLowerKeyChar, Bool.or_eq_true]
  tauto

theorem candidate_succ_data (baseKey : String) (n : Nat) :
    (candidate baseKey (n + 1)).data = baseKey.data ++ '-' :: Nat.toDigits 10 (n + 1) := by
  simp [candidate, String.data_append, toString, Nat.repr, List.asString]

theorem mem_candidate {b : String} {c : Char} : ∀ {m : Nat}, c ∈ (candidate b m).data →
    c ∈ b.data ∨ c = '-' ∨ c.isDigit = true
  | 0, h => .inl h
  | n + 1, h => by
    rw [candidate_succ_data, List.mem_append, List.mem_cons] at h
    rcases h with h | rfl | h
    exacts [.inl h, .inr (.inl rfl), .inr (.inr (isDigit_of_mem_toDigits _ c h))]

theorem getLast?_candidate_succ (b : String) (n : Nat) :
    (candidate b (n + 1)).data.getLast? = (Nat.toDigits 10 (n + 1)).getLast? := by
  rw [candidate_succ_data, ← List.singleton_append, ← List.append_assoc,
    List.getLast?_append_of_ne_nil _ (toDigits_ten_ne_nil _)]

theorem candidate_succ_ne_empty (b : String) (n : Nat) : candidate b (n + 1) ≠ "" := fun h => by
  simpa [candidate_succ_data] using congrArg String.data h

theorem candidate_injective (baseKey : String) : Function.Injective (candidate baseKey) := by
  intro a b h
  have hdata := congrArg String.data h
  cases a <;> cases b <;> simp only [candidate.eq_1, candidate_succ_data] at hdata
  · rfl
  · simp at hdata
  · simp at hdata
  · simpa using toDigits_ten_injective (List.cons.inj (List.append_cancel_left hdata)).2

/-- Pigeonhole: the first `card R + 1` candidates are distinct, so one of them is free. -/
theorem exists_candidate_not_mem (R : Finset String) (baseKey : String) :
    ∃ n ≤ R.card, candidate baseKey n ∉ R := by
  by_contra h
  push_neg at h
  have hsub : (Finset.range (R.card + 1)).image (candidate baseKey) ⊆ R := by
    intro x hx
    obtain ⟨n, hn, rfl⟩ := Finset.mem_image.mp hx
    exact h n (Nat.lt_succ_iff.mp (Finset.mem_range.mp hn))
  have hcard := Finset.card_le_card hsub
  rw [Finset.card_image_of_injective _ (candidate_injective baseKey), Finset.card_range] at hcard
  omega

/-- The first free candidate: it lies within `card R`, and every earlier one is taken. -/
theorem exists_first_free (R : Finset String) (baseKey : String) :
    ∃ m ≤ R.card, candidate baseKey m ∉ R ∧ ∀ j < m, candidate baseKey j ∈ R := by
  classical
  obtain ⟨n, hn, hfree⟩ := exists_candidate_not_mem R baseKey
  have h : ∃ m, candidate baseKey m ∉ R := ⟨n, hfree⟩
  exact ⟨Nat.find h, (Nat.find_min' h hfree).trans hn, Nat.find_spec h,
    fun j hj => not_not.mp (Nat.find_min h hj)⟩

/-- Started at the `k`-th candidate, the loop walks the taken candidates up to the first
    free one `m`, provided its fuel covers the `m - k` turns and the final test. -/
theorem keyLoop_eq (R : Finset String) (baseKey : String) (m : Nat)
    (hm : candidate baseKey m ∉ R) (hbefore : ∀ j < m, candidate baseKey j ∈ R) :
    ∀ fuel k, k ≤ m → m - k < fuel →
      keyLoop R baseKey fuel (candidate baseKey k) (k + 1) = some (candidate baseKey m) := by
  intro fuel
  induction fuel with
  | zero => intro k _ h; omega
  | succ fuel ih =>
      intro k hk hfuel
      rcases Nat.lt_or_eq_of_le hk with hlt | rfl
      · rw [keyLoop, if_pos (hbefore k hlt)]
        exact ih (k + 1) hlt (by omega)
      · rw [keyLoop, if_neg hm]

theorem keyLoop_isSome (R : Finset String) (baseKey : String) :
    (keyLoop R baseKey (R.card + 1) baseKey 1).isSome := by
  obtain ⟨m, hle, hm, hbefore⟩ := exists_first_free R baseKey
  exact Option.isSome_iff_exists.mpr
    ⟨_, keyLoop_eq R baseKey m hm hbefore (R.card + 1) 0 (Nat.zero_le m) (by omega)⟩

/-- `generateFeatureFlagKey(name, unavailableKeys)`. The loop gets one test more than
    there are unavailable keys, which `keyLoop_isSome` shows is always enough. -/
def generateFeatureFlagKey (toLowerCase : String → String) (name : String)
    (unavailableKeys : Finset String) : String :=
  (keyLoop unavailableKeys (baseKey toLowerCase name) (unavailableKeys.card + 1)
    (baseKey toLowerCase name) 1).get (keyLoop_isSome _ _)

/-- The loop ends after testing the first free candidate, whatever fuel beyond that it is
    given, and the generator returns that candidate: it is not unavailable, and every
    candidate before it is. -/
theorem generateFeatureFlagKey_first_free (toLowerCase : String → String) (name : String)
    (R : Finset String) :
    ∃ m, (∀ fuel, m < fuel → keyLoop R (baseKey toLowerCase name) fuel
        (baseKey toLowerCase name) 1 = some (candidate (baseKey toLowerCase name) m)) ∧
      generateFeatureFlagKey toLowerCase name R = candidate (baseKey toLowerCase name) m ∧
      candidate (baseKey toLowerCase name) m ∉ R ∧
      ∀ j < m, candidate (baseKey toLowerCase name) j ∈ R := by
  obtain ⟨m, hle, hm, hbefore⟩ := exists_first_free R (baseKey toLowerCase name)
  have hloop := keyLoop_eq R (baseKey toLowerCase name) m hm hbefore
  refine ⟨m, fun fuel hfuel => hloop fuel 0 (Nat.zero_le m) (by omega), ?_, hm, hbefore⟩
  exact Option.get_of_mem _ (hloop (R.card + 1) 0 (Nat.zero_le m) (by omega))

/-- The generator's key as the first free candidate, without the loop. -/
theorem generateFeatureFlagKey_eq_candidate (toLowerCase : String → String) (name : String)
    (R : Finset String) :
    ∃ m ≤ R.card, generateFeatureFlagKey toLowerCase name R = candidate (baseKey toLowerCase name) m ∧
      candidate (baseKey toLowerCase name) m ∉ R ∧
      ∀ j < m, candidate (baseKey toLowerCase name) j ∈ R := by
  obtain ⟨m, hle, hm, hbefore⟩ := exists_first_free R (baseKey toLowerCase name)
  exact ⟨m, hle, Option.get_of_mem _
    (keyLoop_eq R _ m hm hbefore (R.card + 1) 0 (Nat.zero_le m) (by omega)), hm, hbefore⟩

/-- Every candidate after the first is non-empty, so the key is empty only when the loop
    stops at its first test, on an empty `baseKey`. -/
theorem generateFeatureFlagKey_eq_empty_iff (toLowerCase : String → String) (name : String)
    (R : Finset String) :
    generateFeatureFlagKey toLowerCase name R = "" ↔ baseKey toLowerCase name = "" ∧ "" ∉ R := by
  obtain ⟨m, -, hgen, hm, hbefore⟩ := generateFeatureFlagKey_eq_candidate toLowerCase name R
  rw [hgen]
  cases m with
  | zero => exact ⟨fun h => ⟨h, h ▸ hm⟩, And.left⟩
  | succ n =>
      have hbase : baseKey toLowerCase name ∈ R := hbefore 0 (Nat.succ_pos n)
      exact ⟨fun h => absurd h (candidate_succ_ne_empty _ _), fun ⟨h, hR⟩ => (hR (h ▸ hbase)).elim⟩

/-- The hypothesis is on the lowercased name only: a `toLowerCase` that leaves an upper-case
    letter would put it in the key. The ends are those of `baseKey`, or of a counter. -/
theorem generateFeatureFlagKey_lower_key_chars (toLowerCase : String → String) (name : String)
    (R : Finset String) (hlower : ∀ c ∈ (toLowerCase name).data, c.isUpper = false) :
    (∀ c ∈ (generateFeatureFlagKey toLowerCase name R).data, isLowerKeyChar c = true) ∧
      (baseKey toLowerCase name ≠ "" →
        (generateFeatureFlagKey toLowerCase name R).data.head? ≠ some '-' ∧
          (generateFeatureFlagKey toLowerCase name R).data.getLast? ≠ some '-') := by
  obtain ⟨m, -, hgen, -⟩ := generateFeatureFlagKey_eq_candidate toLowerCase name R
  rw [hgen]
  refine ⟨fun c hc => ?_, fun hbase => ?_⟩
  · rcases mem_candidate hc with hc | rfl | hdigit
    · rcases mem_dashRuns (mem_baseKey hc) with ⟨hc, hkey⟩ | rfl
      · exact isLowerKeyChar_of_isKeyChar hkey (hlower c hc)
      · rfl
    · rfl
    · simp [isLowerKeyChar, hdigit]
  · cases m with
    | zero => exact ⟨head?_baseKey _ _, getLast?_baseKey _ _⟩
    | succ n =>
        have hne : (baseKey toLowerCase name).data ≠ [] := fun h => hbase (String.ext h)
        refine ⟨?_, fun h => ?_⟩
        · rw [candidate_succ_data, List.head?_append_of_ne_nil _ hne]
          exact head?_baseKey _ _
        · rw [getLast?_candidate_succ] at h
          have := isDigit_of_mem_toDigits _ _ (List.mem_of_mem_getLast? h)
          contradiction

theorem generateFeatureFlagKey_lower_key_chars_pricing :
    (∀ c ∈ (asciiLowerCase "Pricing Page!!").data, c.isUpper = false) ∧
      (∀ c ∈ (generateFeatureFlagKey asciiLowerCase "Pricing Page!!" {"pricing-page"}).data,
          isLowerKeyChar c = true) ∧
        (baseKey asciiLowerCase "Pricing Page!!" ≠ "" →
          (generateFeatureFlagKey asciiLowerCase "Pricing Page!!" {"pricing-page"}).data.head? ≠
              some '-' ∧
            (generateFeatureFlagKey asciiLowerCase "Pricing Page!!" {"pricing-page"}).data.getLast? ≠
              some '-') :=
  ⟨by decide, generateFeatureFlagKey_lower_key_chars asciiLowerCase _ _ (by decide)⟩

example : generateFeatureFlagKey asciiLowerCase "Pricing Page!!" ∅ = "pricing-page" := by
  decide

example : generateFeatureFlagKey asciiLowerCase "test" {"test", "test-1"} = "test-2" := by
  decide

end Experiments

end PosthogFrontend
