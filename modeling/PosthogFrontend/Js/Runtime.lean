import Mathlib.Data.Rat.Floor
import Mathlib.Data.Nat.Digits
import Mathlib.Data.List.Infix

/-!
# JavaScript Runtime Pieces

The built-ins of the JavaScript runtime that the frontend logics call, written over
Lean's types so that the logics above them read like their source.

Three of them need care. `String.prototype.trim` strips the ECMAScript white space and
line terminators, which is a wider set than `Char.isWhitespace`; `jsTrim` uses the
standard's list. `Array.prototype.filter` hands its callback the index as well as the
element, and `removeVariant` keeps an element by its index alone; `filterIdx` passes the
index along. `Math.round` rounds halves up, towards positive infinity; the logics only
ever round a non-negative ratio of naturals, so `roundDiv` computes it on naturals and
`roundDiv_eq_floor` says that this is `⌊p / q + 1/2⌋` over the rationals.

A number in a template literal or a `toString()` is its decimal rendering, which is
`Nat.toDigits 10` for a natural; `toDigits_ten` takes off its last digit, and from it
`toString_injective` says that distinct naturals render distinctly. The keys and ids
the logics build from a counter or a clock rely on that.

A JavaScript number that reaches an index comparison may be any double, NaN and the
infinities included. `JsNumber` keeps the finite ones as rationals, which is a superset
of the doubles, so a statement over every `JsNumber` covers every argument the code can
receive.

## Main definitions

* `JsNumber`: A JavaScript number, as an argument compared against array indices.
* `isJsWhitespace`: The characters `trim` removes.
* `jsTrim`: `String.prototype.trim`.
* `filterIdx`: `Array.prototype.filter` with a callback reading the index.
* `roundDiv`: `Math.round(p / q)` for naturals.
* `asciiLowerCase`: `String.prototype.toLowerCase` on ASCII text.
* `includes`: `String.prototype.includes`.
* `jsLength`: The `length` of a string, in UTF-16 code units.

## Theorems

* `filterIdxFrom_true`: A filter keeping every index keeps the list.
* `filterIdxFrom_ne`: Dropping one index is `List.eraseIdx`.
* `roundDiv_eq_floor`: `roundDiv` is the rational rounded half up.
* `toDigits_ten`: The decimal digits of a number, split at the last one.
* `toDigits_ten_injective`, `toString_injective`: Distinct numbers render distinctly.
* `isDigit_of_mem_toDigits`: The decimal rendering is made of digits.
-/

namespace PosthogFrontend

namespace Js

/-- A JavaScript number as it reaches an equality test against an array index: a finite
    value (every double is a rational), `NaN`, or an infinity. -/
inductive JsNumber
  | finite (q : ℚ)
  | nan
  | infinity (negative : Bool)
  deriving DecidableEq, Repr

/-- The characters ECMAScript's `trim` removes: `WhiteSpace` (tab, vertical tab, form
    feed, the byte order mark and the `Zs` space separators) and `LineTerminator`. -/
def isJsWhitespace (c : Char) : Bool :=
  let n := c.toNat
  n == 0x09 || n == 0x0A || n == 0x0B || n == 0x0C || n == 0x0D || n == 0x20 ||
    n == 0xA0 || n == 0x1680 || (0x2000 ≤ n && n ≤ 0x200A) || n == 0x2028 ||
    n == 0x2029 || n == 0x202F || n == 0x205F || n == 0x3000 || n == 0xFEFF

/-- `String.prototype.trim`: white space removed from both ends. -/
def jsTrim (s : String) : String :=
  ⟨((s.data.dropWhile isJsWhitespace).reverse.dropWhile isJsWhitespace).reverse⟩

/-- `String.prototype.toLowerCase` as it acts on ASCII text. The built-in also maps the
    rest of Unicode, so the logics take `toLowerCase` as a parameter; this is the instance
    their concrete runs use, on names that are ASCII. -/
def asciiLowerCase (s : String) : String := ⟨s.data.map Char.toLower⟩

/-- `s.includes(t)`: `t` occurs in `s` as a contiguous run of characters. -/
def includes (s t : String) : Bool := decide (t.data <:+: s.data)

/-- `s.length`: JavaScript counts UTF-16 code units, so a character outside the basic
    multilingual plane counts twice. -/
def jsLength (s : String) : Nat := (s.data.map fun c => if c.toNat < 0x10000 then 1 else 2).sum

/-- `xs.filter((x, i) => keep(i, x))`, with indices counted from `i`. -/
def filterIdxFrom {α : Type} (keep : Nat → α → Bool) : Nat → List α → List α
  | _, [] => []
  | i, x :: xs =>
    if keep i x then x :: filterIdxFrom keep (i + 1) xs else filterIdxFrom keep (i + 1) xs

/-- `xs.filter((x, i) => keep(i, x))`. -/
def filterIdx {α : Type} (keep : Nat → α → Bool) (xs : List α) : List α :=
  filterIdxFrom keep 0 xs

theorem filterIdxFrom_true {α : Type} (i : Nat) (xs : List α) :
    filterIdxFrom (fun _ _ => true) i xs = xs := by
  induction xs generalizing i with
  | nil => rfl
  | cons x xs ih => simp only [filterIdxFrom, if_true, ih]

/-- Keeping every index but `n` erases the element at `n`, counted from the start `i`;
    an `n` before the start erases nothing. -/
theorem filterIdxFrom_ne {α : Type} (n i : Nat) (xs : List α) :
    filterIdxFrom (fun j _ => j != n) i xs = if i ≤ n then xs.eraseIdx (n - i) else xs := by
  induction xs generalizing i with
  | nil => split <;> simp [filterIdxFrom]
  | cons x xs ih =>
      simp only [filterIdxFrom, ih]
      rcases Nat.lt_trichotomy i n with hlt | rfl | hgt
      · have hk : n - i = (n - (i + 1)) + 1 := by omega
        simp [hlt.ne, hlt.le, Nat.succ_le_of_lt hlt, hk]
      · simp
      · simp [hgt.ne', Nat.not_le.mpr hgt, Nat.not_le.mpr (Nat.lt_succ_of_lt hgt)]

/-- `Math.round(p / q)` for naturals `p` and `q > 0`: JavaScript rounds halves up, so this
    is `⌊p / q + 1/2⌋ = ⌊(2p + q) / 2q⌋`. -/
def roundDiv (p q : Nat) : Nat := (2 * p + q) / (2 * q)

theorem roundDiv_eq_floor (p q : Nat) (hq : 0 < q) :
    (roundDiv p q : ℤ) = ⌊(p : ℚ) / q + 1 / 2⌋ := by
  have hq' : (q : ℚ) ≠ 0 := by exact_mod_cast hq.ne'
  have hsplit : (p : ℚ) / q + 1 / 2 = ((2 * p + q : ℕ) : ℚ) / ((2 * q : ℕ) : ℚ) := by
    push_cast
    field_simp
    ring
  rw [hsplit, Rat.floor_natCast_div_natCast, roundDiv]
  push_cast
  rfl

theorem toDigitsCore_append (fuel n : Nat) (ds : List Char) :
    Nat.toDigitsCore 10 fuel n ds = Nat.toDigitsCore 10 fuel n [] ++ ds := by
  induction fuel generalizing n ds with
  | zero => rfl
  | succ fuel ih =>
      simp only [Nat.toDigitsCore]
      split
      · rfl
      · rw [ih _ (_ :: ds), ih _ [_], List.append_assoc, List.singleton_append]

/-- The rendering does not depend on the fuel, once there is enough of it. -/
theorem toDigitsCore_fuel (fuel fuel' n : Nat) (ds : List Char) (h : n < fuel)
    (h' : n < fuel') : Nat.toDigitsCore 10 fuel n ds = Nat.toDigitsCore 10 fuel' n ds := by
  induction fuel generalizing fuel' n ds with
  | zero => omega
  | succ fuel ih =>
      obtain ⟨fuel', rfl⟩ : ∃ k, fuel' = k + 1 := ⟨fuel' - 1, by omega⟩
      simp only [Nat.toDigitsCore]
      split
      · rfl
      · exact ih fuel' _ _ (by omega) (by omega)

theorem toDigits_ten (n : Nat) : Nat.toDigits 10 n =
    if n / 10 = 0 then [Nat.digitChar (n % 10)]
    else Nat.toDigits 10 (n / 10) ++ [Nat.digitChar (n % 10)] := by
  conv_lhs => rw [Nat.toDigits, Nat.toDigitsCore]
  split
  · rfl
  · rw [toDigitsCore_append, Nat.toDigits, toDigitsCore_fuel n (n / 10 + 1) _ _ (by omega)
      (by omega)]

theorem digitChar_injOn : ∀ a < 10, ∀ b < 10, Nat.digitChar a = Nat.digitChar b → a = b := by
  decide

theorem toDigits_ten_ne_nil (n : Nat) : Nat.toDigits 10 n ≠ [] := by
  rw [toDigits_ten]
  split <;> simp

theorem toDigits_ten_injective : Function.Injective (Nat.toDigits 10) := by
  intro a
  induction a using Nat.strong_induction_on with
  | _ a ih =>
      intro b h
      rw [toDigits_ten a, toDigits_ten b] at h
      have digit (hd : Nat.digitChar (a % 10) = Nat.digitChar (b % 10)) : a % 10 = b % 10 :=
        digitChar_injOn _ (Nat.mod_lt _ (by omega)) _ (Nat.mod_lt _ (by omega)) hd
      split at h <;> split at h
      · have := digit (List.singleton_inj.mp h)
        omega
      · exact absurd (congrArg List.length h) (by simp [toDigits_ten_ne_nil])
      · exact absurd (congrArg List.length h) (by simp [toDigits_ten_ne_nil])
      · obtain ⟨hhigh, hlow⟩ := List.append_inj' h rfl
        have := ih (a / 10) (by omega) hhigh
        have := digit (List.singleton_inj.mp hlow)
        omega

theorem digitChar_isDigit : ∀ d < 10, (Nat.digitChar d).isDigit = true := by
  decide

theorem isDigit_of_mem_toDigits (n : Nat) : ∀ c ∈ Nat.toDigits 10 n, c.isDigit = true := by
  induction n using Nat.strong_induction_on with
  | _ n ih =>
      have hlow := digitChar_isDigit (n % 10) (Nat.mod_lt _ (by omega))
      rw [toDigits_ten]
      split
      · simpa using hlow
      · simp only [List.mem_append, List.mem_singleton]
        rintro c (hc | rfl)
        exacts [ih _ (by omega) c hc, hlow]

theorem toString_injective : Function.Injective (toString : Nat → String) := fun _ _ h =>
  toDigits_ten_injective (congrArg String.data h)

end Js

end PosthogFrontend
