import PosthogFrontend.Evaluations.Heap
import PosthogFrontend.Js.Runtime

/-!
# `llmEvaluationsLogic`

The evaluations list logic, over the heap of `Evaluations.Heap`. A `World` is
the heap with the two roots that point into it: `window.mockEvaluations`, the
store's array (undefined until the logic first mounts), and the state of the
`evaluations` reducer, the array it holds. The `evaluationsLoading` reducer
rides along.

Every listener of the logic is synchronous except `loadEvaluations`, which
waits 500 ms before it dispatches `loadEvaluationsSuccess`. Its wait is an event
of its own, `loadTimerFired`, which may come after anything else, an unmount and
a remount of the list included; the success then reads the store as it is at that
moment. Every other listener is modelled as run to completion: the action's
reducers, then the listener's store writes, then the reducers of the action it
dispatches. `Date.now()` is the event's `now`, read once per
listener, and `new Date().toISOString()` is `toISOString now`, a parameter of
the model.

Where the listeners and the reducers do the same thing, one definition does it
for both: `without` is the `filter` of `deleteEvaluation` in the store and in
the reducer, `toggled` and `updated` the record rewrites of the toggle and the
update, `appendEvaluation` the reducer of both `createEvaluationSuccess` and
`duplicateEvaluationSuccess`, and `mapMatching` the reducer `map` of both
`updateEvaluationSuccess` and `toggleEvaluationEnabledSuccess`.

A search with a filter reads a record's name, then its description, then its prompt,
and stops at the first that holds the filter, so a record without a name makes it throw,
and one without a prompt does once neither its name nor its description matches. When it
returns, it returns the records that match (`filterEvaluations_eq`), and a filter that
narrows another returns no record the other did not (`filteredEvaluations_narrowing`).
Whether it throws is not monotone: the narrower filter may reach a missing prompt the
other never read.

## Main definitions

* `World`, `MOCK_EVALUATIONS`, `initial`: the heap as the module leaves it.
* The actions `loadEvaluations`, `createEvaluation`, `updateEvaluation`,
  `deleteEvaluation`, `duplicateEvaluation`, `toggleEvaluationEnabled`,
  their reducers, and `afterMount`; `loadTimerFired`, the end of a load's wait.
* `Event`, `step`, `run`.
* `World.WellFormed`: no root and no array element dangles.
* `filteredEvaluations`: the search selector, `none` where it throws.

## Theorems

* `wellFormed_step`, `wellFormed_run`: every operation keeps the heap well
  formed, so every run from a mount does.
* `filterEvaluations_eq`, `matchesFilter_eq_some_true_iff`: what the search keeps.
* `filteredEvaluations_narrowing`: a narrower filter keeps a sublist.
-/

namespace PosthogFrontend

namespace Evaluations

open Heap

/-- The logic's state: the heap, `window.mockEvaluations` (`none` while
    undefined), the address of the array the `evaluations` reducer holds,
    `evaluationsLoading`, and how many `loadEvaluations` listeners are still waiting
    out their 500 ms. -/
structure World where
  heap : Heap
  mockEvaluations : Option Nat
  evaluations : Nat
  evaluationsLoading : Bool
  pendingLoads : Nat
deriving DecidableEq, Repr

/-- The records of the module constant `MOCK_EVALUATIONS`. -/
def MOCK_EVALUATIONS : List EvaluationConfig :=
  [{ id := some "eval-1"
     name := some "Helpfulness Check"
     description := some "Evaluates if responses are helpful to users"
     enabled := some true
     prompt := some "Is this response helpful and accurate? Return true if yes, false if no."
     conditions := some [⟨"cond-1", 10, [⟨"model", "exact", "gpt-4", "event"⟩]⟩]
     total_runs := some 47
     created_at := some "2024-01-10T09:00:00Z"
     updated_at := some "2024-01-15T10:30:00Z" },
   { id := some "eval-2"
     name := some "Safety Check"
     description := some "Ensures responses are safe and appropriate"
     enabled := some false
     prompt := some "Is this response safe and appropriate? Return true if safe, false if not."
     conditions := some [⟨"cond-2", 5, [⟨"topic", "exact", "medical", "event"⟩]⟩]
     total_runs := some 12
     created_at := some "2024-01-08T14:30:00Z"
     updated_at := some "2024-01-12T15:20:00Z" }]

/-- The address of the `MOCK_EVALUATIONS` array on the initial heap. -/
def mockEvaluationsArray : Nat := 0

/-- The world as the module leaves it: the `MOCK_EVALUATIONS` array and its
    records on the heap, the store undefined, and the reducer at its default,
    the `MOCK_EVALUATIONS` array itself. -/
def initial : World where
  heap := ⟨MOCK_EVALUATIONS, [[0, 1]]⟩
  mockEvaluations := none
  evaluations := mockEvaluationsArray
  evaluationsLoading := false
  pendingLoads := 0

/-- A new id: `` `eval-${Date.now()}` ``. -/
def newId (now : Nat) : String := "eval-" ++ toString now

section

variable (toISOString : Nat → String)

/-- `{ ...evaluation, id, total_runs: 0, created_at, updated_at }`: the record
    `createEvaluation` builds. -/
def newEvaluation (evaluation : EvaluationConfig) (now : Nat) : EvaluationConfig :=
  { evaluation with
    id := some (newId now), total_runs := some 0,
    created_at := some (toISOString now), updated_at := some (toISOString now) }

/-- The copy `duplicateEvaluation` builds: a new id, the name with
    `" (Copy)"` appended (`` `${original.name} (Copy)` ``, so a missing name
    reads `undefined`), no runs and new timestamps. -/
def duplicateOf (original : EvaluationConfig) (now : Nat) : EvaluationConfig :=
  { original with
    id := some (newId now), name := some (original.name.getD "undefined" ++ " (Copy)"),
    total_runs := some 0,
    created_at := some (toISOString now), updated_at := some (toISOString now) }

/-- `{ ...e, ...evaluation, updated_at }`: an updated record, in the store and
    in the reducer alike. -/
def updated (evaluation : EvaluationConfig) (now : Nat) (e : EvaluationConfig) :
    EvaluationConfig :=
  { e.spread evaluation with updated_at := some (toISOString now) }

/-- `enabled` negated (`!undefined` is `true`) and `updated_at` renewed: the
    toggle, as the store's field assignments and as the reducer's spread. -/
def toggled (now : Nat) (e : EvaluationConfig) : EvaluationConfig :=
  { e with enabled := some !(e.enabled.getD false), updated_at := some (toISOString now) }

end

namespace World

variable (w : World) (toISOString : Nat → String)

/-- A new object on the world's heap, and its address. -/
def alloc (e : EvaluationConfig) : World × Nat :=
  ({ w with heap := (w.heap.allocRecord e).1 }, (w.heap.allocRecord e).2)

/-- `xs.filter((e) => e.id !== id)`, as a new array. -/
def without (xs : List Nat) (id : String) : Heap × Nat :=
  w.heap.allocArray (xs.filter fun r => (w.heap.record r).id != some id)

/-- `window.mockEvaluations.findIndex((e) => e.id === id)`, when the store is
    defined: the store's address and the index found. -/
def storeIndex (id : String) : Option (Nat × Nat) :=
  w.mockEvaluations.bind fun a =>
    ((w.heap.contents a).findIdx? fun e => e.id == some id).map fun i => (a, i)

/-- `loadEvaluationsSuccess`: the reducer takes the array it is handed. -/
def loadEvaluationsSuccess (evaluations : Nat) : World :=
  { w with evaluations := evaluations, evaluationsLoading := false }

/-- `[...state, evaluation]`, a new array. -/
def appendEvaluation (evaluation : Nat) : World :=
  let p := w.heap.allocArray (w.heap.array w.evaluations ++ [evaluation])
  { w with heap := p.1, evaluations := p.2 }

/-- `createEvaluationSuccess`. -/
def createEvaluationSuccess (evaluation : Nat) : World := w.appendEvaluation evaluation

/-- `duplicateEvaluationSuccess`. -/
def duplicateEvaluationSuccess (evaluation : Nat) : World := w.appendEvaluation evaluation

/-- `state.map((e) => (e.id === id ? g(e) : e))`, a new array of which the
    rewritten elements are new objects. -/
def mapMatching (id : String) (g : EvaluationConfig → EvaluationConfig) : World :=
  let p := mapRecords (fun e => if e.id = some id then some (g e) else none) w.heap
    (w.heap.array w.evaluations)
  let q := p.1.allocArray p.2
  { w with heap := q.1, evaluations := q.2 }

/-- `updateEvaluationSuccess`. -/
def updateEvaluationSuccess (id : String) (evaluation : EvaluationConfig) (now : Nat) : World :=
  w.mapMatching id (updated toISOString evaluation now)

/-- `deleteEvaluationSuccess`: `state.filter((e) => e.id !== id)`. -/
def deleteEvaluationSuccess (id : String) : World :=
  let p := w.without (w.heap.array w.evaluations) id
  { w with heap := p.1, evaluations := p.2 }

/-- `toggleEvaluationEnabledSuccess`. -/
def toggleEvaluationEnabledSuccess (id : String) (now : Nat) : World :=
  w.mapMatching id (toggled toISOString now)

/-- `if (window.mockEvaluations) window.mockEvaluations.push(evaluation)`. -/
def pushToStore (evaluation : Nat) : World :=
  match w.mockEvaluations with
  | some a => { w with heap := w.heap.setArray a (w.heap.array a ++ [evaluation]) }
  | none => w

/-- The store half of `updateEvaluation`: the store's first record with the id
    is replaced by a new, updated object. -/
def replaceInStore (id : String) (evaluation : EvaluationConfig) (now : Nat) : World :=
  match w.storeIndex id with
  | some (a, index) =>
    let p := w.alloc (updated toISOString evaluation now ((w.heap.contents a).getD index {}))
    { p.1 with heap := p.1.heap.setArray a ((w.heap.array a).set index p.2) }
  | none => w

/-- The store half of `deleteEvaluation`: the store becomes a new, filtered array. -/
def deleteFromStore (id : String) : World :=
  match w.mockEvaluations with
  | some a => { w with heap := (w.without (w.heap.array a) id).1,
                       mockEvaluations := some (w.without (w.heap.array a) id).2 }
  | none => w

/-- The record `toggleEvaluationEnabled` writes: `window.mockEvaluations[index]`
    for the index `findIndex` returns. -/
def storeTarget (id : String) : Option Nat :=
  (w.storeIndex id).map fun p => (w.heap.array p.1).getD p.2 0

/-- The store half of `toggleEvaluationEnabled`: the store's first record with
    the id is changed in place, by assignments to its `enabled` and
    `updated_at` fields. -/
def toggleInStore (id : String) (now : Nat) : World :=
  match w.storeTarget id with
  | some r => { w with heap := w.heap.setRecord r (toggled toISOString now (w.heap.record r)) }
  | none => w

/-- `window.mockEvaluations?.find((e) => e.id === id)`. -/
def storeFind (id : String) : Option EvaluationConfig :=
  w.mockEvaluations.bind fun a => (w.heap.contents a).find? fun e => e.id == some id

/-- The store half of `afterMount`: on the first mount the store becomes
    `[...MOCK_EVALUATIONS]`, a new array of the same objects. -/
def initializeStore : World :=
  match w.mockEvaluations with
  | some _ => w
  | none =>
    let p := w.heap.allocArray (w.heap.array mockEvaluationsArray)
    { w with heap := p.1, mockEvaluations := some p.2 }

/-- `loadEvaluations`: its reducer sets `evaluationsLoading`, and its listener
    starts waiting out its 500 ms. -/
def loadEvaluations : World :=
  { w with evaluationsLoading := true, pendingLoads := w.pendingLoads + 1 }

/-- One waiting `loadEvaluations` listener goes on: it dispatches
    `loadEvaluationsSuccess(window.mockEvaluations || [])`, the store's array of
    that moment itself, or a new empty array while the store is undefined. Nothing
    happens when none is waiting. -/
def loadTimerFired : World :=
  match w.pendingLoads with
  | 0 => w
  | n + 1 =>
    match w.mockEvaluations with
    | some a => { w with pendingLoads := n }.loadEvaluationsSuccess a
    | none =>
      let p := w.heap.allocArray []
      { w with heap := p.1, pendingLoads := n }.loadEvaluationsSuccess p.2

/-- `createEvaluation`: build the record, push it to the store, dispatch
    `createEvaluationSuccess` with the same object. -/
def createEvaluation (evaluation : EvaluationConfig) (now : Nat) : World :=
  let p := w.alloc (newEvaluation toISOString evaluation now)
  (p.1.pushToStore p.2).createEvaluationSuccess p.2

/-- `updateEvaluation`. -/
def updateEvaluation (id : String) (evaluation : EvaluationConfig) (now : Nat) : World :=
  (w.replaceInStore toISOString id evaluation now).updateEvaluationSuccess toISOString id evaluation now

/-- `deleteEvaluation`. -/
def deleteEvaluation (id : String) : World :=
  (w.deleteFromStore id).deleteEvaluationSuccess id

/-- `duplicateEvaluation`: the store's first record with the id is copied, the
    copy pushed to the store and handed to `duplicateEvaluationSuccess`;
    nothing happens when there is none. -/
def duplicateEvaluation (id : String) (now : Nat) : World :=
  match w.storeFind id with
  | some original =>
    let p := w.alloc (duplicateOf toISOString original now)
    (p.1.pushToStore p.2).duplicateEvaluationSuccess p.2
  | none => w

/-- `toggleEvaluationEnabled`. -/
def toggleEvaluationEnabled (id : String) (now : Nat) : World :=
  (w.toggleInStore toISOString id now).toggleEvaluationEnabledSuccess toISOString id now

/-- `afterMount`. -/
def afterMount : World := w.initializeStore.loadEvaluations

end World

/-- The operations a user (or the list view) can start, and the end of a load's
    wait. -/
inductive Event where
  | loadEvaluations
  | loadTimerFired
  | createEvaluation (evaluation : EvaluationConfig) (now : Nat)
  | updateEvaluation (id : String) (evaluation : EvaluationConfig) (now : Nat)
  | deleteEvaluation (id : String)
  | duplicateEvaluation (id : String) (now : Nat)
  | toggleEvaluationEnabled (id : String) (now : Nat)
deriving DecidableEq, Repr

section

variable (toISOString : Nat → String)

/-- One operation, its listener run to completion, or a waiting load going on. -/
def step (w : World) : Event → World
  | .loadEvaluations => w.loadEvaluations
  | .loadTimerFired => w.loadTimerFired
  | .createEvaluation evaluation now => w.createEvaluation toISOString evaluation now
  | .updateEvaluation id evaluation now => w.updateEvaluation toISOString id evaluation now
  | .deleteEvaluation id => w.deleteEvaluation id
  | .duplicateEvaluation id now => w.duplicateEvaluation toISOString id now
  | .toggleEvaluationEnabled id now => w.toggleEvaluationEnabled toISOString id now

/-- A run of operations. -/
def run (w : World) (events : List Event) : World := events.foldl (step toISOString) w

@[simp] theorem run_nil (w : World) : run toISOString w [] = w := rfl

@[simp] theorem run_cons (w : World) (e : Event) (events : List Event) :
    run toISOString w (e :: events) = run toISOString (step toISOString w e) events := rfl

end

/-- No dangling pointer: the heap is closed, and both roots are allocated arrays. -/
structure World.WellFormed (w : World) : Prop where
  closed : w.heap.Closed
  evaluations_lt : w.evaluations < w.heap.arrays.length
  mockEvaluations_lt : ∀ a, w.mockEvaluations = some a → a < w.heap.arrays.length

namespace World

variable {w : World} (toISOString : Nat → String)

theorem wellFormed_initial : initial.WellFormed where
  closed := by simp [Heap.Closed, initial, MOCK_EVALUATIONS]
  evaluations_lt := by decide
  mockEvaluations_lt := by simp [initial]

theorem WellFormed.lt_of_mem_array (hw : w.WellFormed) {a r : Nat} (hr : r ∈ w.heap.array a) :
    r < w.heap.records.length :=
  hw.closed.lt_of_mem_array hr

/-- A root allocated in `w` stays allocated in any closed heap grown from `w`'s. -/
theorem WellFormed.grow (hw : w.WellFormed) {h' : Heap} (hg : w.heap.Grows h') (hc : h'.Closed) :
    ({ w with heap := h' } : World).WellFormed where
  closed := hc
  evaluations_lt := Nat.lt_of_lt_of_le hw.evaluations_lt hg.length_arrays_le
  mockEvaluations_lt a ha := Nat.lt_of_lt_of_le (hw.mockEvaluations_lt a ha) hg.length_arrays_le

/-- Overwriting an allocated array with allocated elements keeps the world well formed. -/
theorem WellFormed.setArray (hw : w.WellFormed) (a : Nat) {xs : List Nat}
    (hxs : ∀ r ∈ xs, r < w.heap.records.length) :
    ({ w with heap := w.heap.setArray a xs } : World).WellFormed where
  closed := closed_setArray hw.closed a hxs
  evaluations_lt := by simpa using hw.evaluations_lt
  mockEvaluations_lt b hb := by simpa using hw.mockEvaluations_lt b hb

theorem WellFormed.alloc (hw : w.WellFormed) (e : EvaluationConfig) : (w.alloc e).1.WellFormed :=
  hw.grow (grows_allocRecord e) (closed_allocRecord hw.closed e)

theorem lt_alloc (e : EvaluationConfig) : (w.alloc e).2 < (w.alloc e).1.heap.records.length := by
  simp [alloc, allocRecord]

theorem closed_without (hw : w.WellFormed) (xs : List Nat)
    (hxs : ∀ r ∈ xs, r < w.heap.records.length) (id : String) : (w.without xs id).1.Closed :=
  closed_allocArray hw.closed fun r hr => hxs r (List.mem_filter.mp hr).1

theorem WellFormed.appendEvaluation (hw : w.WellFormed) {r : Nat}
    (hr : r < w.heap.records.length) : (w.appendEvaluation r).WellFormed where
  closed := closed_allocArray hw.closed fun q hq => by
    rcases List.mem_append.mp hq with hq | hq
    · exact hw.lt_of_mem_array hq
    · rw [List.mem_singleton.mp hq]; exact hr
  evaluations_lt := by simp [World.appendEvaluation, allocArray]
  mockEvaluations_lt a ha :=
    Nat.lt_of_lt_of_le (hw.mockEvaluations_lt a ha) (grows_allocArray _).length_arrays_le

theorem WellFormed.mapMatching (hw : w.WellFormed) (id : String)
    (g : EvaluationConfig → EvaluationConfig) : (w.mapMatching id g).WellFormed := by
  let f := fun e : EvaluationConfig => if e.id = some id then some (g e) else none
  have hg : w.heap.Grows (w.mapMatching id g).heap :=
    (grows_mapRecords f w.heap _).trans (grows_allocArray _)
  exact
    { closed := closed_allocArray (closed_mapRecords f hw.closed _)
        (lt_of_mem_mapRecords f w.heap _ fun r hr => hw.lt_of_mem_array hr)
      evaluations_lt := by simp [World.mapMatching, allocArray]
      mockEvaluations_lt := fun a ha =>
        Nat.lt_of_lt_of_le (hw.mockEvaluations_lt a ha) hg.length_arrays_le }

theorem WellFormed.pushToStore (hw : w.WellFormed) {r : Nat} (hr : r < w.heap.records.length) :
    (w.pushToStore r).WellFormed := by
  unfold World.pushToStore
  split
  · refine hw.setArray _ fun q hq => ?_
    rcases List.mem_append.mp hq with hq | hq
    · exact hw.lt_of_mem_array hq
    · rw [List.mem_singleton.mp hq]; exact hr
  · exact hw

/-- The element pushed, allocated before, stays allocated. -/
theorem lt_pushToStore_alloc (e : EvaluationConfig) :
    (w.alloc e).2 < ((w.alloc e).1.pushToStore (w.alloc e).2).heap.records.length := by
  unfold World.pushToStore
  split <;> exact lt_alloc _

theorem WellFormed.replaceInStore (hw : w.WellFormed) (id : String)
    (evaluation : EvaluationConfig) (now : Nat) :
    (w.replaceInStore toISOString id evaluation now).WellFormed := by
  unfold World.replaceInStore
  split
  · refine (hw.alloc _).setArray _ fun q hq => ?_
    rcases List.mem_or_eq_of_mem_set hq with hq | rfl
    · exact Nat.lt_of_lt_of_le (hw.lt_of_mem_array hq) (grows_allocRecord _).length_records_le
    · exact lt_alloc _
  · exact hw

theorem WellFormed.deleteFromStore (hw : w.WellFormed) (id : String) :
    (w.deleteFromStore id).WellFormed := by
  unfold World.deleteFromStore
  split
  · exact
      { closed := closed_without hw _ (fun r hr => hw.lt_of_mem_array hr) id
        evaluations_lt := Nat.lt_of_lt_of_le hw.evaluations_lt (grows_allocArray _).length_arrays_le
        mockEvaluations_lt := fun b hb => by
          cases hb
          simp [World.without, allocArray] }
  · exact hw

theorem WellFormed.deleteEvaluationSuccess (hw : w.WellFormed) (id : String) :
    (w.deleteEvaluationSuccess id).WellFormed where
  closed := closed_without hw _ (fun r hr => hw.lt_of_mem_array hr) id
  evaluations_lt := by simp [World.deleteEvaluationSuccess, World.without, allocArray]
  mockEvaluations_lt a ha :=
    Nat.lt_of_lt_of_le (hw.mockEvaluations_lt a ha) (grows_allocArray _).length_arrays_le

theorem WellFormed.toggleInStore (hw : w.WellFormed) (id : String) (now : Nat) :
    (w.toggleInStore toISOString id now).WellFormed := by
  unfold World.toggleInStore
  split
  · exact
      { closed := closed_setRecord hw.closed _ _
        evaluations_lt := by simpa using hw.evaluations_lt
        mockEvaluations_lt := fun a ha => by simpa using hw.mockEvaluations_lt a ha }
  · exact hw

theorem WellFormed.initializeStore (hw : w.WellFormed) : w.initializeStore.WellFormed := by
  unfold World.initializeStore
  split
  · exact hw
  · exact
      { closed := closed_allocArray hw.closed fun r hr => hw.lt_of_mem_array hr
        evaluations_lt := Nat.lt_of_lt_of_le hw.evaluations_lt (grows_allocArray _).length_arrays_le
        mockEvaluations_lt := fun a ha => by
          cases ha
          simp [allocArray] }

theorem WellFormed.loadEvaluations (hw : w.WellFormed) : w.loadEvaluations.WellFormed :=
  ⟨hw.closed, hw.evaluations_lt, hw.mockEvaluations_lt⟩

/-- A completing load leaves the store where it is. -/
@[simp] theorem mockEvaluations_loadTimerFired : w.loadTimerFired.mockEvaluations = w.mockEvaluations := by
  unfold World.loadTimerFired
  split
  · rfl
  · split <;> rfl

/-- A completing load allocates at most the empty array `window.mockEvaluations || []`
    builds while the store is undefined. -/
theorem grows_loadTimerFired : w.heap.Grows w.loadTimerFired.heap := by
  unfold World.loadTimerFired
  split
  · exact .refl _
  · split
    · exact .refl _
    · exact grows_allocArray _

theorem WellFormed.loadTimerFired (hw : w.WellFormed) : w.loadTimerFired.WellFormed := by
  unfold World.loadTimerFired
  split
  · exact hw
  · split
    · next a ha => exact ⟨hw.closed, hw.mockEvaluations_lt a ha, hw.mockEvaluations_lt⟩
    · next hnone =>
      exact
        { closed := closed_allocArray hw.closed (by simp)
          evaluations_lt := by simp [allocArray, loadEvaluationsSuccess]
          mockEvaluations_lt := fun a ha => by simp [loadEvaluationsSuccess, hnone] at ha }

theorem WellFormed.createEvaluation (hw : w.WellFormed) (evaluation : EvaluationConfig)
    (now : Nat) : (w.createEvaluation toISOString evaluation now).WellFormed :=
  ((hw.alloc _).pushToStore (lt_alloc _)).appendEvaluation (lt_pushToStore_alloc _)

theorem WellFormed.duplicateEvaluation (hw : w.WellFormed) (id : String) (now : Nat) :
    (w.duplicateEvaluation toISOString id now).WellFormed := by
  unfold World.duplicateEvaluation
  split
  · exact ((hw.alloc _).pushToStore (lt_alloc _)).appendEvaluation (lt_pushToStore_alloc _)
  · exact hw

end World

/-- Every operation keeps the world well formed. -/
theorem wellFormed_step (toISOString : Nat → String) {w : World} (hw : w.WellFormed) (e : Event) :
    (step toISOString w e).WellFormed := by
  cases e with
  | loadEvaluations => exact hw.loadEvaluations
  | loadTimerFired => exact hw.loadTimerFired
  | createEvaluation evaluation now => exact hw.createEvaluation _ evaluation now
  | updateEvaluation id evaluation now =>
    exact (hw.replaceInStore _ id evaluation now).mapMatching _ _
  | deleteEvaluation id => exact (hw.deleteFromStore id).deleteEvaluationSuccess id
  | duplicateEvaluation id now => exact hw.duplicateEvaluation _ id now
  | toggleEvaluationEnabled id now => exact (hw.toggleInStore _ id now).mapMatching _ _

/-- Every run keeps the world well formed. -/
theorem wellFormed_run (toISOString : Nat → String) {w : World} (hw : w.WellFormed)
    (events : List Event) : (run toISOString w events).WellFormed := by
  induction events generalizing w with
  | nil => exact hw
  | cons e events ih => exact ih (wellFormed_step toISOString hw e)

section Search

open Js

variable (toLowerCase : String → String) (filter : String)

/-- The test the `filteredEvaluations` selector applies to one evaluation, or `none`
    where it throws: `e.name.toLowerCase().includes(f) ||
    e.description?.toLowerCase().includes(f) || e.prompt.toLowerCase().includes(f)` for
    `f = filter.toLowerCase()`. A missing `name` throws at once, a missing `description`
    is skipped by `?.`, and a missing `prompt` throws once it is reached. -/
def matchesFilter (e : EvaluationConfig) : Option Bool :=
  match e.name with
  | none => none
  | some name =>
    if includes (toLowerCase name) (toLowerCase filter) then some true
    else if e.description.any fun d => includes (toLowerCase d) (toLowerCase filter) then
      some true
    else e.prompt.map fun prompt => includes (toLowerCase prompt) (toLowerCase filter)

/-- `evaluations.filter(test)`, which throws as soon as a test does. -/
def filterEvaluations : List EvaluationConfig → Option (List EvaluationConfig)
  | [] => some []
  | e :: es => do
    let keep ← matchesFilter toLowerCase filter e
    let rest ← filterEvaluations es
    pure (if keep then e :: rest else rest)

/-- The `filteredEvaluations` selector: the list itself for an empty filter, and the
    filtered list otherwise. -/
def filteredEvaluations (evaluations : List EvaluationConfig) : Option (List EvaluationConfig) :=
  if filter = "" then some evaluations else filterEvaluations toLowerCase filter evaluations

/-- The search returns the evaluations whose test returns `true`, in their order, unless a
    test throws. -/
theorem filterEvaluations_eq (es : List EvaluationConfig) :
    filterEvaluations toLowerCase filter es =
      if es.all fun e => (matchesFilter toLowerCase filter e).isSome then
        some (es.filter fun e => matchesFilter toLowerCase filter e = some true)
      else none := by
  induction es with
  | nil => rfl
  | cons e es ih =>
    cases hm : matchesFilter toLowerCase filter e with
    | none => simp [filterEvaluations, hm]
    | some keep =>
      simp only [filterEvaluations, hm, ih, List.all_cons, Option.isSome_some, Bool.true_and]
      split <;> cases keep <;> simp [List.filter_cons, hm]

variable {toLowerCase}

/-- The test keeps an evaluation exactly when it has a name and the filter occurs in the
    name, the description or the prompt. -/
theorem matchesFilter_eq_some_true_iff (f : String) (e : EvaluationConfig) :
    matchesFilter toLowerCase f e = some true ↔
      e.name.isSome ∧ ∃ field ∈ [e.name, e.description, e.prompt],
        field.any fun text => includes (toLowerCase text) (toLowerCase f) := by
  unfold matchesFilter
  cases e.name with
  | none => simp
  | some name =>
    by_cases hn : includes (toLowerCase name) (toLowerCase f)
    · simp [hn]
    · cases e.prompt <;> split_ifs <;> simp_all

/-- A test that keeps an evaluation for a filter keeps it for every filter whose lowercase
    form occurs in that one's. -/
theorem matchesFilter_of_infix {f f' : String}
    (hinf : (toLowerCase f).data <:+: (toLowerCase f').data) {e : EvaluationConfig}
    (h : matchesFilter toLowerCase f' e = some true) : matchesFilter toLowerCase f e = some true := by
  have hinc : ∀ s, includes s (toLowerCase f') = true → includes s (toLowerCase f) = true :=
    fun s hs => by simpa [includes] using hinf.trans (by simpa [includes] using hs)
  obtain ⟨hname, field, hfield, hany⟩ := (matchesFilter_eq_some_true_iff f' e).mp h
  refine (matchesFilter_eq_some_true_iff f e).mpr ⟨hname, field, hfield, ?_⟩
  cases field with
  | none => cases hany
  | some text => exact hinc _ hany

/-- Narrowing the search never brings an evaluation back: for a non-empty filter whose
    lowercase form holds the lowercase form of another, whenever both searches return, what
    the first returns is a sublist of what the second does. -/
theorem filteredEvaluations_narrowing {f f' : String} (hf' : f' ≠ "")
    (hinf : (toLowerCase f).data <:+: (toLowerCase f').data) {es r r' : List EvaluationConfig}
    (h : filteredEvaluations toLowerCase f es = some r)
    (h' : filteredEvaluations toLowerCase f' es = some r') : List.Sublist r' r := by
  simp only [filteredEvaluations, if_neg hf', filterEvaluations_eq] at h'
  split at h'
  · cases h'
    unfold filteredEvaluations at h
    split at h
    · cases h
      exact List.filter_sublist _
    · rw [filterEvaluations_eq] at h
      split at h
      · cases h
        exact List.monotone_filter_right _ fun e he => by
          simpa using matchesFilter_of_infix hinf (by simpa using he)
      · cases h
  · cases h'

/- The converse fails for the search's failures: a longer filter can throw where a shorter
one returns, since the test reads the prompt only when the name does not match. -/
example :
    let e : EvaluationConfig := { name := some "Tone" }
    filteredEvaluations asciiLowerCase "t" [e] = some [e] ∧
      filteredEvaluations asciiLowerCase "tx" [e] = none := by
  decide

set_option maxRecDepth 4000 in
theorem filteredEvaluations_narrowing_safety :
    filteredEvaluations asciiLowerCase "check" MOCK_EVALUATIONS = some MOCK_EVALUATIONS ∧
      filteredEvaluations asciiLowerCase "safety check" MOCK_EVALUATIONS =
        some (MOCK_EVALUATIONS.drop 1) ∧
      List.Sublist (MOCK_EVALUATIONS.drop 1) MOCK_EVALUATIONS :=
  have h : filteredEvaluations asciiLowerCase "check" MOCK_EVALUATIONS = some MOCK_EVALUATIONS := by
    decide
  have h' : filteredEvaluations asciiLowerCase "safety check" MOCK_EVALUATIONS =
      some (MOCK_EVALUATIONS.drop 1) := by
    decide
  ⟨h, h', filteredEvaluations_narrowing (by decide) (by decide) h h'⟩

end Search

end Evaluations

end PosthogFrontend
