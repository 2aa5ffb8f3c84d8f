import PosthogFrontend.Evaluations.Editor
import PosthogFrontend.Evaluations.Agreement

/-!
# The Evaluation Pages Together

The list logic and every editor, over one heap and one `window.mockEvaluations`. A user
moves between the list and the editors at will, so the operations of the logics
interleave in any order, and a save may wait out its delay while anything else happens.
`System.step` takes one event of any of them; the list's events reach it only while it is
mounted. Mounting the list dispatches `loadEvaluations`, whose wait ends at the list's own
`loadTimerFired` event, so between a mount and that event anything else may happen.

The invariant here holds over every run: no root dangles, since the store, the list's
reducer and every editor's evaluation are allocated (`System.Invariant`), and every editor
of a stored evaluation holds that evaluation or nothing, so its save can only write the
record it loaded (`System.editors_hold_own_evaluation`). Every operation keeps each allocated record, with its id
(`World.Evolves`): records are allocated, or written in place by the toggle, never
freed.

## Main definitions

* `System`, `System.initial`, `SystemEvent`, `System.step`, `System.run`.
* `World.Evolves`: What every operation does to the records already allocated.
* `Editor.Sound`: An editor's evaluation is allocated and carries the editor's id.
* `System.Invariant`: No dangling root, and every editor holds its own evaluation.

## Theorems

* `World.evolves_step`: Records stay allocated and keep their ids.
* `Editor.result_step`: An editor's step keeps the world well formed and itself sound.
* `System.invariant_run`: Every run from the initial pages keeps the invariant.
* `System.editors_hold_own_evaluation`: After every run, the editor of a stored evaluation
  holds an object with that evaluation's id.
-/

namespace PosthogFrontend

namespace Evaluations

open Heap

/-- The list logic's state, whether it is mounted, the `evaluationsFilter` reducer, and
    the editor of every id. -/
structure System where
  world : World
  listMounted : Bool
  evaluationsFilter : String
  editors : String → Editor

/-- The pages before anything is shown: the module constants on the heap and nothing
    mounted. -/
def System.initial : System where
  world := Evaluations.initial
  listMounted := false
  evaluationsFilter := ""
  editors := fun _ => {}

/-- An event of the list logic or of the editor of `evaluationId`. -/
inductive SystemEvent where
  | mountList
  | unmountList
  | setEvaluationsFilter (filter : String)
  | list (e : Event)
  | editor (evaluationId : String) (e : EditorEvent)
deriving DecidableEq, Repr

namespace System

variable (toISOString : Nat → String)

/-- One event. Mounting the list starts its reducers from their defaults, the
    `MOCK_EVALUATIONS` array among them, and runs its `afterMount`; unmounting drops its
    state, and the store outlives it. -/
def step (s : System) : SystemEvent → System
  | .mountList =>
    if s.listMounted then s
    else { s with
      world := { s.world with evaluations := mockEvaluationsArray, evaluationsLoading := false }.afterMount
      listMounted := true, evaluationsFilter := "" }
  | .unmountList => { s with listMounted := false }
  | .setEvaluationsFilter filter => if s.listMounted then { s with evaluationsFilter := filter } else s
  | .list e => if s.listMounted then { s with world := Evaluations.step toISOString s.world e } else s
  | .editor k e =>
    let p := (s.editors k).step k s.world toISOString e
    { s with world := p.1, editors := Function.update s.editors k p.2 }

/-- A run of events. -/
def run (s : System) (events : List SystemEvent) : System := events.foldl (step toISOString) s

@[simp] theorem run_nil (s : System) : run toISOString s [] = s := rfl

@[simp] theorem run_cons (s : System) (e : SystemEvent) (events : List SystemEvent) :
    run toISOString s (e :: events) = run toISOString (step toISOString s e) events := rfl

@[simp] theorem run_append (s : System) (events events' : List SystemEvent) :
    s.run toISOString (events ++ events') = (s.run toISOString events).run toISOString events' :=
  List.foldl_append _ _ _ _

end System


namespace World

/-- `w'` keeps every record of `w` allocated, with its id. Records are only ever
    allocated, or written in place by the toggle, which leaves the id alone. -/
structure Evolves (w w' : World) : Prop where
  length_le : w.heap.records.length ≤ w'.heap.records.length
  id_eq : ∀ r < w.heap.records.length, (w'.heap.record r).id = (w.heap.record r).id

variable {w w' w₁ w₂ w₃ : World} (toISOString : Nat → String)

theorem Evolves.refl (w : World) : w.Evolves w := ⟨le_rfl, fun _ _ => rfl⟩

theorem Evolves.trans (h₁ : w₁.Evolves w₂) (h₂ : w₂.Evolves w₃) : w₁.Evolves w₃ :=
  ⟨h₁.length_le.trans h₂.length_le, fun r hr =>
    (h₂.id_eq r (Nat.lt_of_lt_of_le hr h₁.length_le)).trans (h₁.id_eq r hr)⟩

theorem Evolves.of_grows (hg : w.heap.Grows w'.heap) : w.Evolves w' :=
  ⟨hg.length_records_le, fun _ hr => by rw [hg.record_eq hr]⟩

theorem Evolves.of_records_eq (h : w'.heap.records = w.heap.records) : w.Evolves w' :=
  ⟨h ▸ le_rfl, fun r _ => by simp only [Heap.record, h]⟩

theorem Evolves.lt {r : Nat} (h : w.Evolves w') (hr : r < w.heap.records.length) :
    r < w'.heap.records.length :=
  Nat.lt_of_lt_of_le hr h.length_le

theorem evolves_alloc (e : EvaluationConfig) : w.Evolves (w.alloc e).1 :=
  .of_grows (grows_allocRecord e)

theorem evolves_pushToStore (r : Nat) : w.Evolves (w.pushToStore r) := by
  unfold pushToStore
  split <;> exact .of_records_eq rfl

theorem evolves_appendEvaluation (r : Nat) : w.Evolves (w.appendEvaluation r) :=
  .of_grows (grows_allocArray _)

theorem evolves_mapMatching (id : String) (g : EvaluationConfig → EvaluationConfig) :
    w.Evolves (w.mapMatching id g) :=
  .of_grows ((grows_mapRecords _ _ _).trans (grows_allocArray _))

theorem evolves_replaceInStore (id : String) (evaluation : EvaluationConfig) (now : Nat) :
    w.Evolves (w.replaceInStore toISOString id evaluation now) := by
  unfold replaceInStore
  split
  · exact (evolves_alloc _).trans (.of_records_eq rfl)
  · exact .refl w

theorem evolves_deleteFromStore (id : String) : w.Evolves (w.deleteFromStore id) := by
  unfold deleteFromStore
  split
  · exact .of_grows (grows_allocArray _)
  · exact .refl w

theorem evolves_toggleInStore (hw : w.WellFormed) (id : String) (now : Nat) :
    w.Evolves (w.toggleInStore toISOString id now) := by
  unfold toggleInStore
  split
  · next r ht =>
    obtain ⟨a, -, hr⟩ := storeTarget_mem ht
    have hlt := hw.lt_of_mem_array hr
    refine ⟨by simp, fun q _ => ?_⟩
    rw [record_setRecord hlt]
    split_ifs with hq
    · subst hq; rfl
    · rfl
  · exact .refl w

theorem evolves_initializeStore : w.Evolves w.initializeStore := by
  unfold initializeStore
  split
  · exact .refl w
  · exact .of_grows (grows_allocArray _)

theorem evolves_loadEvaluations : w.Evolves w.loadEvaluations := .of_records_eq rfl

theorem evolves_loadTimerFired : w.Evolves w.loadTimerFired := .of_grows grows_loadTimerFired

/-- Every operation of the list keeps the allocated records and their ids. -/
theorem evolves_step (hw : w.WellFormed) (e : Event) : w.Evolves (step toISOString w e) := by
  cases e with
  | loadEvaluations => exact evolves_loadEvaluations
  | loadTimerFired => exact evolves_loadTimerFired
  | createEvaluation evaluation now =>
    exact (evolves_alloc _).trans ((evolves_pushToStore _).trans (evolves_appendEvaluation _))
  | updateEvaluation id evaluation now =>
    exact (evolves_replaceInStore toISOString id evaluation now).trans (evolves_mapMatching _ _)
  | deleteEvaluation id =>
    exact (evolves_deleteFromStore id).trans (.of_grows (grows_allocArray _))
  | duplicateEvaluation id now =>
    simp only [step, duplicateEvaluation]
    split
    · exact (evolves_alloc _).trans ((evolves_pushToStore _).trans (evolves_appendEvaluation _))
    · exact .refl w
  | toggleEvaluationEnabled id now =>
    exact (evolves_toggleInStore toISOString hw id now).trans (evolves_mapMatching _ _)

/-- The object `find` returns carries the id it was found by. -/
theorem id_storeTarget {k : String} {r : Nat} (h : w.storeTarget k = some r) :
    (w.heap.record r).id = some k := by
  obtain ⟨a, i, hidx, -, rfl⟩ := storeTarget_spec h
  obtain ⟨-, _, hid⟩ := storeIndex_spec hidx
  simpa [contents] using hid

/-- The list's reducers at their defaults: the `MOCK_EVALUATIONS` array is allocated in
    every well-formed world, since the reducer's array is. -/
theorem WellFormed.resetReducers (hw : w.WellFormed) :
    ({ w with evaluations := mockEvaluationsArray, evaluationsLoading := false } : World).WellFormed :=
  ⟨hw.closed, Nat.lt_of_le_of_lt (Nat.zero_le _) hw.evaluations_lt, hw.mockEvaluations_lt⟩

end World


namespace Editor

variable {k : String} {w w' : World} {ed : Editor} (toISOString : Nat → String)

/-- What the invariant asks of an editor's evaluation: it is allocated, and the editor of
    a stored evaluation holds an object with that evaluation's id. -/
def Sound (k : String) (w : World) (evaluation : Option Nat) : Prop :=
  ∀ r, evaluation = some r → r < w.heap.records.length ∧ (k ≠ "new" → (w.heap.record r).id = some k)

theorem Sound.none (k : String) (w : World) : Sound k w none := fun _ h => nomatch h

theorem Sound.evolve {evaluation : Option Nat} (h : Sound k w evaluation) (hev : w.Evolves w') :
    Sound k w' evaluation := fun r hr =>
  have ⟨hlt, hid⟩ := h r hr
  ⟨hev.lt hlt, fun hk => (hev.id_eq r hlt).trans (hid hk)⟩

/-- What an editor's step leaves: a well-formed world that keeps every record of the one
    before, and a sound evaluation. -/
structure Result (k : String) (w : World) (p : World × Editor) : Prop where
  wellFormed : p.1.WellFormed
  evolves : w.Evolves p.1
  sound : Sound k p.1 p.2.evaluation

theorem Result.same (hw : w.WellFormed) {ed' : Editor} (hs : Sound k w ed'.evaluation) :
    Result k w (w, ed') :=
  ⟨hw, .refl w, hs⟩

/-- A setter allocates a copy with the same id, or does nothing to the heap. -/
theorem result_setEvaluation (hw : w.WellFormed) (hs : Sound k w ed.evaluation)
    (f : EvaluationConfig → EvaluationConfig) (hf : ∀ e, (f e).id = e.id) :
    Result k w (ed.setEvaluation w f) := by
  unfold setEvaluation
  split
  · next r hr =>
    refine ⟨hw.alloc _, World.evolves_alloc _, fun q hq => ?_⟩
    cases hq
    exact ⟨World.lt_alloc _, fun hk => by rw [World.record_alloc, hf, (hs r hr).2 hk]⟩
  · exact .same hw hs

/-- The loaded evaluation is the store's object with the id, or a new draft for `'new'`. -/
theorem result_loadEvaluation (hw : w.WellFormed) (hs : Sound k w ed.evaluation) (now : Nat) :
    Result k w (ed.loadEvaluation k w now) := by
  unfold loadEvaluation
  split_ifs with hstored hnew
  · refine .same hw fun r (hr : w.storeTarget k = some r) => ?_
    obtain ⟨a, -, hmem⟩ := World.storeTarget_mem hr
    exact ⟨hw.lt_of_mem_array hmem, fun _ => World.id_storeTarget hr⟩
  · refine ⟨hw.alloc _, World.evolves_alloc _, fun r hr => ?_⟩
    cases hr
    exact ⟨World.lt_alloc _, fun hk => absurd hnew hk⟩
  · exact .same hw hs

/-- A save pushes a new object for `'new'`, and otherwise replaces a store element and
    keeps the evaluation the editor holds. -/
theorem result_saveListener (hw : w.WellFormed) (hs : Sound k w ed.evaluation) (now : Nat) :
    Result k w (ed.saveListener k w toISOString now) := by
  unfold saveListener
  split_ifs with hnew
  · refine ⟨(hw.alloc _).pushToStore (World.lt_alloc _),
      (World.evolves_alloc _).trans (World.evolves_pushToStore _), fun r hr => ?_⟩
    cases hr
    exact ⟨World.lt_pushToStore_alloc _, fun hk => absurd hnew hk⟩
  · have hev : w.Evolves (w.replaceInStore toISOString k (ed.current w) now) :=
      World.evolves_replaceInStore toISOString k _ now
    exact ⟨hw.replaceInStore _ _ _ _, hev, hs.evolve hev⟩

theorem result_saveTimerFired (hw : w.WellFormed) (hs : Sound k w ed.evaluation) (now : Nat) :
    Result k w (ed.saveTimerFired k w toISOString now) := by
  unfold saveTimerFired
  split
  · exact .same hw hs
  · next n _ =>
    exact result_saveListener toISOString hw
      (show Sound k w ({ ed with pendingSaves := n } : Editor).evaluation from hs) now

theorem result_afterMount (hw : w.WellFormed) (hs : Sound k w ed.evaluation) (now : Nat) :
    Result k w (ed.afterMount k w now) := by
  have h := result_loadEvaluation hw hs now
  unfold afterMount
  split_ifs
  · exact ⟨h.wellFormed, h.evolves, by simpa using h.sound⟩
  · exact h

/-- Every editor event keeps the world well formed and the editor sound. -/
theorem result_step (hw : w.WellFormed) (hs : Sound k w ed.evaluation) (e : EditorEvent) :
    Result k w (ed.step k w toISOString e) := by
  unfold step
  split
  · cases e with
    | mount _ => exact .same hw hs
    | setEvaluationName _ => exact result_setEvaluation hw hs _ fun _ => rfl
    | setEvaluationDescription _ => exact result_setEvaluation hw hs _ fun _ => rfl
    | setEvaluationPrompt _ => exact result_setEvaluation hw hs _ fun _ => rfl
    | setEvaluationEnabled _ => exact result_setEvaluation hw hs _ fun _ => rfl
    | setTriggerConditions _ => exact result_setEvaluation hw hs _ fun _ => rfl
    | loadEvaluation now => exact result_loadEvaluation hw hs now
    | loadEvaluationRuns => exact .same hw (by simpa using hs)
    | refreshEvaluationRuns => exact .same hw (by simpa using hs)
    | saveEvaluation => exact .same hw hs
    | saveTimerFired now => exact result_saveTimerFired toISOString hw hs now
    | resetEvaluation => exact .same hw (Sound.none k w)
  · cases e with
    | mount now => exact result_afterMount hw (Sound.none k w) now
    | _ => exact .same hw hs

end Editor


namespace System

variable {s : System} (toISOString : Nat → String)

/-- No root dangles: the heap is closed, the store and the list's reducer are allocated
    arrays, and every editor's evaluation is an allocated object; and every editor of a
    stored evaluation holds an object with that evaluation's id. -/
structure Invariant (s : System) : Prop where
  wellFormed : s.world.WellFormed
  sound : ∀ k, Editor.Sound k s.world (s.editors k).evaluation

theorem invariant_initial : initial.Invariant :=
  ⟨World.wellFormed_initial, fun k => Editor.Sound.none k _⟩

/-- A step that changes only the world, to one that keeps every record, keeps every
    editor sound. -/
theorem Invariant.evolve (h : s.Invariant) {w : World} (hw : w.WellFormed) (hev : s.world.Evolves w)
    {s' : System} (hworld : s'.world = w) (heditors : s'.editors = s.editors) : s'.Invariant :=
  ⟨hworld ▸ hw, fun k => by rw [hworld, heditors]; exact (h.sound k).evolve hev⟩

theorem Invariant.next (h : s.Invariant) (e : SystemEvent) : (s.step toISOString e).Invariant := by
  cases e with
  | mountList =>
    simp only [step]
    split
    · exact h
    · let w₀ : World := { s.world with evaluations := mockEvaluationsArray, evaluationsLoading := false }
      have hev : s.world.Evolves w₀.afterMount :=
        (show s.world.Evolves w₀ from .of_records_eq rfl).trans
          ((World.evolves_initializeStore (w := w₀)).trans World.evolves_loadEvaluations)
      exact h.evolve h.wellFormed.resetReducers.initializeStore.loadEvaluations hev rfl rfl
  | unmountList => exact ⟨h.wellFormed, h.sound⟩
  | setEvaluationsFilter filter =>
    simp only [step]
    split
    · exact ⟨h.wellFormed, h.sound⟩
    · exact h
  | list e =>
    simp only [step]
    split
    · exact h.evolve (wellFormed_step toISOString h.wellFormed e)
        (World.evolves_step toISOString h.wellFormed e) rfl rfl
    · exact h
  | editor k e =>
    have hr := Editor.result_step toISOString h.wellFormed (h.sound k) e
    refine ⟨hr.wellFormed, fun k' => ?_⟩
    by_cases hk : k' = k
    · subst hk
      simpa [step] using hr.sound
    · simpa [step, Function.update_noteq hk] using (h.sound k').evolve hr.evolves

theorem Invariant.run (h : s.Invariant) (events : List SystemEvent) :
    (s.run toISOString events).Invariant := by
  induction events generalizing s with
  | nil => exact h
  | cons e events ih => exact ih (h.next toISOString e)

/-- Every run from the initial pages, in any interleaving of the list's and the editors'
    events, leaves no dangling root, and leaves every editor of a stored evaluation
    holding an object with that evaluation's id or nothing. -/
theorem invariant_run (events : List SystemEvent) : (initial.run toISOString events).Invariant :=
  invariant_initial.run toISOString events

/-- After every run from the initial pages, in any interleaving of the list's and the
    editors' events, the editor of a stored evaluation holds an object with that
    evaluation's id, so its save can only write the record it loaded. -/
theorem editors_hold_own_evaluation (events : List SystemEvent) {k : String} (hk : k ≠ "new")
    {r : Nat} (hr : ((initial.run toISOString events).editors k).evaluation = some r) :
    ((initial.run toISOString events).world.heap.record r).id = some k :=
  ((invariant_run toISOString events).sound k r hr).2 hk

theorem editors_hold_own_evaluation_after_mount :
    let s := initial.run toString [.mountList, .editor "eval-1" (.mount 3)]
    (s.editors "eval-1").evaluation = some 0 ∧ (s.world.heap.record 0).id = some "eval-1" :=
  ⟨rfl, editors_hold_own_evaluation toString _ (by decide) rfl⟩

end System

end Evaluations

end PosthogFrontend
