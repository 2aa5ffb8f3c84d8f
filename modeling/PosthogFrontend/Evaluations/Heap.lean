import Mathlib.Data.List.Nodup

/-!
# The evaluations heap

`llmEvaluationsLogic` keeps its evaluations in two places: the `evaluations`
reducer and the prototype's stand-in backend, `window.mockEvaluations`. Both
are JavaScript arrays of `EvaluationConfig` objects, and the code shares them.
The reducer's default is the module constant `MOCK_EVALUATIONS` itself; the
store is the shallow copy `[...MOCK_EVALUATIONS]`, whose elements are the same
objects; and `loadEvaluationsSuccess` hands the reducer the store's array.
Listeners then change the store in place (`push`, an index assignment, a field
assignment on an element), so what one copy lists depends on what the other
did to the objects they share.

A model that keeps either copy as a list of values cannot see any of this, so
the logic is modelled over a heap. Records and arrays live at addresses, an
array holds record addresses, and each object operation of the source is one
heap operation: an object literal or a spread allocates (`allocRecord`), an
array literal, `filter` or `map` allocates an array (`allocArray`,
`mapRecords`), `push` and `a[i] = …` overwrite an array (`setArray`), and a
field assignment overwrites a record (`setRecord`).

A record is an object whose keys may be absent. The `Partial<EvaluationConfig>`
that `createEvaluation` and `updateEvaluation` receive reaches the store
through a spread, so every field is an `Option`, and `{ ...a, ...b }` takes a
field from `b` wherever `b` has it. The record's `last_run_at`, which no
operation reads or writes, is left out.

## Main definitions

* `EvaluationConfig`, with `spread` (object spread) and `listed` (the fields
  the list compares: everything but the counter and the timestamps).
* `Heap`, with the reads `record`, `array`, `contents` and the writes
  `allocRecord`, `allocArray`, `setRecord`, `setArray`, `mapRecords`.
* `Heap.Closed`: every array holds allocated records only.
* `Heap.Grows`: one heap is another after allocations only.

## Theorems

* `contents_of_grows`: allocation leaves every allocated array's contents alone.
* `map_record_setRecord`: a field assignment changes every array that holds
  the record.
* `contents_setArray_allocRecord`: an index assignment of a new object changes
  the one array assigned.
* `map_record_mapRecords`: the reducer's `state.map(...)` shows the mapped list.
-/

namespace PosthogFrontend

namespace Evaluations

/-- One property filter of a trigger condition. -/
structure PropertyFilter where
  key : String
  operator : String
  value : String
  type : String
deriving DecidableEq, Repr

/-- `EvaluationConditionSet`: a rollout percentage and the properties it applies to. -/
structure EvaluationConditionSet where
  id : String
  rollout_percentage : Nat
  properties : List PropertyFilter
deriving DecidableEq, Repr

/-- An `EvaluationConfig` object. `none` is a key the object does not have: the
    partial objects the logic receives are spread into stored ones, so any key
    may be missing from a record of the store. -/
structure EvaluationConfig where
  id : Option String := none
  name : Option String := none
  description : Option String := none
  enabled : Option Bool := none
  prompt : Option String := none
  conditions : Option (List EvaluationConditionSet) := none
  total_runs : Option Nat := none
  created_at : Option String := none
  updated_at : Option String := none
deriving DecidableEq, Repr

namespace EvaluationConfig

/-- Object spread `{ ...a, ...b }`: every key `b` has overrides the same key of `a`. -/
def spread (a b : EvaluationConfig) : EvaluationConfig where
  id := b.id.or a.id
  name := b.name.or a.name
  description := b.description.or a.description
  enabled := b.enabled.or a.enabled
  prompt := b.prompt.or a.prompt
  conditions := b.conditions.or a.conditions
  total_runs := b.total_runs.or a.total_runs
  created_at := b.created_at.or a.created_at
  updated_at := b.updated_at.or a.updated_at

/-- What a listing of evaluations compares: the id, `enabled`, name,
    description, prompt and conditions. The run counter and the two
    timestamps are erased. -/
def listed (e : EvaluationConfig) : EvaluationConfig :=
  { e with total_runs := none, created_at := none, updated_at := none }

@[simp] theorem id_listed (e : EvaluationConfig) : e.listed.id = e.id := rfl

@[simp] theorem enabled_listed (e : EvaluationConfig) : e.listed.enabled = e.enabled := rfl

end EvaluationConfig

/-- The objects of the logic: records and arrays at addresses. An array holds
    the addresses of its elements. -/
structure Heap where
  records : List EvaluationConfig
  arrays : List (List Nat)
deriving DecidableEq, Repr

namespace Heap

variable (h : Heap)

/-- The record at address `r`. -/
def record (r : Nat) : EvaluationConfig := h.records.getD r {}

/-- The element addresses of the array at address `a`. -/
def array (a : Nat) : List Nat := h.arrays.getD a []

/-- The records the array at `a` lists, in order. -/
def contents (a : Nat) : List EvaluationConfig := (h.array a).map h.record

/-- A new object: it goes at the first free address. -/
def allocRecord (e : EvaluationConfig) : Heap × Nat :=
  (⟨h.records ++ [e], h.arrays⟩, h.records.length)

/-- A new array. -/
def allocArray (xs : List Nat) : Heap × Nat :=
  (⟨h.records, h.arrays ++ [xs]⟩, h.arrays.length)

/-- Overwrite the record at `r`: every array holding `r` sees the change. -/
def setRecord (r : Nat) (e : EvaluationConfig) : Heap := ⟨h.records.set r e, h.arrays⟩

/-- Overwrite the array at `a`: every holder of `a` sees the change. -/
def setArray (a : Nat) (xs : List Nat) : Heap := ⟨h.records, h.arrays.set a xs⟩

/-- `xs.map(e => cond ? { ... } : e)`: an element `f` rewrites becomes a new
    object, the others are kept as they are. The new objects are allocated
    left to right. -/
def mapRecords (f : EvaluationConfig → Option EvaluationConfig) : Heap → List Nat → Heap × List Nat
  | h, [] => (h, [])
  | h, r :: rs =>
    match f (h.record r) with
    | none =>
      let p := mapRecords f h rs
      (p.1, r :: p.2)
    | some e =>
      let p := mapRecords f (h.allocRecord e).1 rs
      (p.1, h.records.length :: p.2)

/-- No dangling element: every array holds allocated records only. -/
def Closed : Prop := ∀ xs ∈ h.arrays, ∀ r ∈ xs, r < h.records.length

/-- `h'` is `h` after allocations: both tables only grew at their ends. -/
def Grows (h' : Heap) : Prop := h.records <+: h'.records ∧ h.arrays <+: h'.arrays

variable {h}

@[simp] theorem record_allocRecord_self (e : EvaluationConfig) :
    (h.allocRecord e).1.record (h.allocRecord e).2 = e := by
  simp [record, allocRecord]

@[simp] theorem array_allocArray_self (xs : List Nat) :
    (h.allocArray xs).1.array (h.allocArray xs).2 = xs := by
  simp [array, allocArray]

@[simp] theorem record_allocArray (xs : List Nat) (r : Nat) :
    (h.allocArray xs).1.record r = h.record r := rfl

@[simp] theorem record_setArray (a : Nat) (xs : List Nat) (r : Nat) :
    (h.setArray a xs).record r = h.record r := rfl

@[simp] theorem array_setRecord (r : Nat) (e : EvaluationConfig) (a : Nat) :
    (h.setRecord r e).array a = h.array a := rfl

@[simp] theorem records_setArray (a : Nat) (xs : List Nat) :
    (h.setArray a xs).records = h.records := rfl

@[simp] theorem arrays_setRecord (r : Nat) (e : EvaluationConfig) :
    (h.setRecord r e).arrays = h.arrays := rfl

@[simp] theorem length_arrays_setArray (a : Nat) (xs : List Nat) :
    (h.setArray a xs).arrays.length = h.arrays.length := List.length_set ..

@[simp] theorem length_records_setRecord (r : Nat) (e : EvaluationConfig) :
    (h.setRecord r e).records.length = h.records.length := List.length_set ..

@[simp] theorem length_arrays_allocArray (xs : List Nat) :
    (h.allocArray xs).1.arrays.length = h.arrays.length + 1 := by
  simp [allocArray]

@[simp] theorem contents_allocArray_self (xs : List Nat) :
    (h.allocArray xs).1.contents (h.allocArray xs).2 = xs.map h.record := by
  simp only [contents, array_allocArray_self]
  rfl

theorem array_setArray {a : Nat} (ha : a < h.arrays.length) (xs : List Nat) (b : Nat) :
    (h.setArray a xs).array b = if b = a then xs else h.array b := by
  by_cases hb : b = a
  · simp [array, setArray, List.getD_eq_getElem?_getD, List.getElem?_set, hb, ha]
  · simp [array, setArray, List.getD_eq_getElem?_getD, List.getElem?_set, hb, Ne.symm hb]

theorem record_setRecord {p : Nat} (hp : p < h.records.length) (e : EvaluationConfig) (q : Nat) :
    (h.setRecord p e).record q = if q = p then e else h.record q := by
  by_cases hq : q = p
  · simp [record, setRecord, List.getD_eq_getElem?_getD, List.getElem?_set, hq, hp]
  · simp [record, setRecord, List.getD_eq_getElem?_getD, List.getElem?_set, hq, Ne.symm hq]

/-- Overwriting a record is seen through every address list that holds it. -/
theorem map_record_setRecord {p : Nat} (hp : p < h.records.length) (e : EvaluationConfig)
    (xs : List Nat) :
    xs.map (h.setRecord p e).record = xs.map fun q => if q = p then e else h.record q :=
  List.map_congr_left fun q _ => record_setRecord hp e q

theorem Grows.refl (h : Heap) : h.Grows h := ⟨List.prefix_refl _, List.prefix_refl _⟩

theorem Grows.trans {h₁ h₂ h₃ : Heap} (h₁₂ : h₁.Grows h₂) (h₂₃ : h₂.Grows h₃) : h₁.Grows h₃ :=
  ⟨h₁₂.1.trans h₂₃.1, h₁₂.2.trans h₂₃.2⟩

theorem grows_allocRecord (e : EvaluationConfig) : h.Grows (h.allocRecord e).1 :=
  ⟨List.prefix_append _ _, List.prefix_refl _⟩

theorem grows_allocArray (xs : List Nat) : h.Grows (h.allocArray xs).1 :=
  ⟨List.prefix_refl _, List.prefix_append _ _⟩

theorem Grows.record_eq {h' : Heap} (hg : h.Grows h') {r : Nat} (hr : r < h.records.length) :
    h'.record r = h.record r := by
  obtain ⟨t, ht⟩ := hg.1
  simp only [record, List.getD_eq_getElem?_getD, ← ht, List.getElem?_append_left hr]

theorem Grows.array_eq {h' : Heap} (hg : h.Grows h') {a : Nat} (ha : a < h.arrays.length) :
    h'.array a = h.array a := by
  obtain ⟨t, ht⟩ := hg.2
  simp only [array, List.getD_eq_getElem?_getD, ← ht, List.getElem?_append_left ha]

theorem Grows.length_records_le {h' : Heap} (hg : h.Grows h') :
    h.records.length ≤ h'.records.length := hg.1.length_le

theorem Grows.length_arrays_le {h' : Heap} (hg : h.Grows h') :
    h.arrays.length ≤ h'.arrays.length := hg.2.length_le

/-- An element of any array of a closed heap is allocated. -/
theorem Closed.lt_of_mem_array (hc : h.Closed) {a r : Nat} (hr : r ∈ h.array a) :
    r < h.records.length := by
  simp only [array, List.getD_eq_getElem?_getD] at hr
  cases hget : h.arrays[a]? with
  | none => simp [hget] at hr
  | some xs => exact hc xs (List.getElem?_mem hget) r (by simpa [hget] using hr)

/-- Allocation changes no allocated array's contents. -/
theorem contents_of_grows {h' : Heap} (hg : h.Grows h') (hc : h.Closed) {a : Nat}
    (ha : a < h.arrays.length) : h'.contents a = h.contents a := by
  simp only [contents, hg.array_eq ha]
  exact List.map_congr_left fun r hr => hg.record_eq (hc.lt_of_mem_array hr)

/-- `a[i] = { ... }`: a new object put at index `i` of the array at `a` is seen
    through `a` only. -/
theorem contents_setArray_allocRecord (hc : h.Closed) {a : Nat} (ha : a < h.arrays.length)
    (i : Nat) (e : EvaluationConfig) (b : Nat) :
    ((h.allocRecord e).1.setArray a ((h.array a).set i (h.allocRecord e).2)).contents b
      = if b = a then (h.contents a).set i e else h.contents b := by
  have hg := grows_allocRecord (h := h) e
  have hold : ∀ c, (h.array c).map (h.allocRecord e).1.record = h.contents c := fun c =>
    List.map_congr_left fun r hr => hg.record_eq (hc.lt_of_mem_array hr)
  rw [contents, array_setArray (by simpa [allocRecord] using ha)]
  split_ifs
  · rw [List.map_set, record_setArray, record_allocRecord_self]
    exact congrArg (List.set · i e) (hold a)
  · exact hold b

theorem arrays_mapRecords (f : EvaluationConfig → Option EvaluationConfig) (h : Heap)
    (rs : List Nat) : (mapRecords f h rs).1.arrays = h.arrays := by
  induction rs generalizing h with
  | nil => rfl
  | cons r rs ih =>
    simp only [mapRecords]
    split <;> exact ih _

theorem grows_mapRecords (f : EvaluationConfig → Option EvaluationConfig) (h : Heap)
    (rs : List Nat) : h.Grows (mapRecords f h rs).1 := by
  induction rs generalizing h with
  | nil => exact Grows.refl h
  | cons r rs ih =>
    simp only [mapRecords]
    split
    · exact ih h
    · exact (grows_allocRecord _).trans (ih _)

/-- The addresses the map returns are allocated in the heap it returns. -/
theorem lt_of_mem_mapRecords (f : EvaluationConfig → Option EvaluationConfig) (h : Heap)
    (rs : List Nat) (hrs : ∀ r ∈ rs, r < h.records.length) :
    ∀ r ∈ (mapRecords f h rs).2, r < (mapRecords f h rs).1.records.length := by
  induction rs generalizing h with
  | nil => simp [mapRecords]
  | cons r rs ih =>
    simp only [List.mem_cons, forall_eq_or_imp] at hrs
    simp only [mapRecords]
    split <;> simp only [List.mem_cons, forall_eq_or_imp]
    · exact ⟨Nat.lt_of_lt_of_le hrs.1 (grows_mapRecords f h rs).length_records_le, ih h hrs.2⟩
    · have hg := grows_allocRecord (h := h) ‹_›
      refine ⟨Nat.lt_of_lt_of_le ?_ (grows_mapRecords f _ rs).length_records_le,
        ih _ fun r hr => Nat.lt_of_lt_of_le (hrs.2 r hr) hg.length_records_le⟩
      simp [allocRecord]

/-- The reducer's `map` lists each record as `f` rewrites it. -/
theorem map_record_mapRecords (f : EvaluationConfig → Option EvaluationConfig) (h : Heap)
    (rs : List Nat) (hrs : ∀ r ∈ rs, r < h.records.length) :
    (mapRecords f h rs).2.map (mapRecords f h rs).1.record
      = (rs.map h.record).map fun e => (f e).getD e := by
  induction rs generalizing h with
  | nil => rfl
  | cons r rs ih =>
    simp only [List.mem_cons, forall_eq_or_imp] at hrs
    simp only [mapRecords]
    split
    · next hf =>
      simp only [List.map_cons, ih h hrs.2, hf, Option.getD_none,
        (grows_mapRecords f h rs).record_eq hrs.1]
    · next e hf =>
      have hg := grows_allocRecord (h := h) e
      have hrs' : ∀ r ∈ rs, r < (h.allocRecord e).1.records.length :=
        fun r hr => Nat.lt_of_lt_of_le (hrs.2 r hr) hg.length_records_le
      have hnew : (mapRecords f (h.allocRecord e).1 rs).1.record h.records.length = e :=
        ((grows_mapRecords f _ rs).record_eq (by simp [allocRecord])).trans
          (record_allocRecord_self e)
      simp only [List.map_cons, hnew, ih _ hrs', hf, Option.getD_some,
        List.map_congr_left fun r hr => hg.record_eq (hrs.2 r hr)]

theorem closed_allocRecord (hc : h.Closed) (e : EvaluationConfig) : (h.allocRecord e).1.Closed :=
  fun xs hxs r hr => Nat.lt_of_lt_of_le (hc xs hxs r hr) (grows_allocRecord e).length_records_le

theorem closed_allocArray (hc : h.Closed) {xs : List Nat} (hxs : ∀ r ∈ xs, r < h.records.length) :
    (h.allocArray xs).1.Closed := by
  intro ys hys
  simp only [allocArray, List.mem_append, List.mem_singleton] at hys
  rcases hys with hys | rfl
  · exact hc ys hys
  · exact hxs

theorem closed_setArray (hc : h.Closed) (a : Nat) {xs : List Nat}
    (hxs : ∀ r ∈ xs, r < h.records.length) : (h.setArray a xs).Closed := by
  intro ys hys
  rcases List.mem_or_eq_of_mem_set hys with hys | rfl
  · exact hc ys hys
  · exact hxs

theorem closed_setRecord (hc : h.Closed) (r : Nat) (e : EvaluationConfig) :
    (h.setRecord r e).Closed := by
  simpa [Closed] using hc

theorem closed_mapRecords (f : EvaluationConfig → Option EvaluationConfig) (hc : h.Closed)
    (rs : List Nat) : (mapRecords f h rs).1.Closed := by
  intro xs hxs r hr
  rw [arrays_mapRecords] at hxs
  exact Nat.lt_of_lt_of_le (hc xs hxs r hr) (grows_mapRecords f h rs).length_records_le

end Heap

end Evaluations

end PosthogFrontend
