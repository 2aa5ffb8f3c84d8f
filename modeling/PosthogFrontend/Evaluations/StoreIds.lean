import PosthogFrontend.Evaluations.System

/-!
# The Store's Ids

Three places mint an id, all as `` `eval-${Date.now()}` ``: the list's `createEvaluation`
and `duplicateEvaluation`, and the save of the new evaluation's editor. Nothing checks
the store for the id first, so what keeps the store's ids apart is the clock alone.

What a step can do to the store's ids is small (`IdsStep`): keep a sublist of them, or
push the id minted from the step's `Date.now()`. The list's delete filters, the updates
and the toggle rewrite a record under its own id, every other operation only allocates,
and the first mount copies the `MOCK_EVALUATIONS` array, whose ids `storeIds` lists
already while the store is undefined. From that, over any interleaving of the list and
the editors, every id the store lists was listed at the start or minted by the run, in
the order of the mints (`System.Invariant.storeIds_run`). Two consequences:

* The store's ids stay distinct while the clock moves forward between mints and is past
  the mock ids, and no update writes an id over another (`storeIdsDistinct_run`).
* A save from the new editor while `window.mockEvaluations` is undefined, that is before
  the list was ever mounted, skips the push and still reports success: the editor holds
  the new evaluation, and no store of any later run lists its id
  (`saveEvaluation_without_store_is_lost`).

## Main definitions

* `Event.mintTime`, `EditorEvent.mintTime`, `SystemEvent.mintTime`: The `Date.now()` an
  event mints an id from.
* `Event.renames`, `SystemEvent.renames`: An update that carries an id of its own.
* `IdsStep`: What one step may do to a list of ids.
* `World.storeIds`: The store's ids.

## Theorems

* `idsStep_step`, `Editor.idsStep_step`, `System.Invariant.idsStep`: What one operation
  does to the store's ids.
* `System.Invariant.storeIds_run`: Where the store's ids come from, over a run.
* `storeIdsDistinct_run`: Ids stay distinct under a forward clock.
* `saveEvaluation_without_store_is_lost`: The new editor's save before the store exists
  reaches no store.
-/

namespace PosthogFrontend

namespace Evaluations

open Heap

theorem newId_injective : Function.Injective newId := fun a b h =>
  Js.toString_injective (String.ext (by simpa [newId] using congrArg String.data h))

/-- The time of the `Date.now()` a list operation mints an id from. -/
def Event.mintTime : Event → Option Nat
  | .createEvaluation _ now => some now
  | .duplicateEvaluation _ now => some now
  | _ => none

/-- An update whose values carry an id other than the one it targets: the spread writes
    that id over the stored record's. -/
def Event.renames : Event → Bool
  | .updateEvaluation id evaluation _ => evaluation.id.any (· != id)
  | _ => false

/-- The time a save of the editor of `evaluationId` mints an id from: only the new
    editor's save mints one. -/
def EditorEvent.mintTime (evaluationId : String) : EditorEvent → Option Nat
  | .saveTimerFired now => if evaluationId = "new" then some now else none
  | _ => none

/-- The time an event of the pages mints an id from. -/
def SystemEvent.mintTime : SystemEvent → Option Nat
  | .list e => e.mintTime
  | .editor k e => e.mintTime k
  | _ => none

/-- An update of the list that carries an id of its own. -/
def SystemEvent.renames : SystemEvent → Bool
  | .list e => e.renames
  | _ => false

/-- What a step minting at `m`, if at all, may do to a list of ids: keep a sublist of them,
    or push the id minted at `m`. -/
inductive IdsStep : Option Nat → List (Option String) → List (Option String) → Prop
  | sublist {m : Option Nat} {ids ids' : List (Option String)} (h : List.Sublist ids' ids) : IdsStep m ids ids'
  | push {ids : List (Option String)} (n : Nat) : IdsStep (some n) ids (ids ++ [some (newId n)])

theorem IdsStep.of_eq {m : Option Nat} {ids ids' : List (Option String)} (h : ids' = ids) :
    IdsStep m ids ids' :=
  .sublist (h ▸ List.Sublist.refl ids)

/-- Setting an element changes a map of the list exactly when it changes the element's
    image. -/
theorem map_set_eq_map_iff {α β : Type} (f : α → β) {l : List α} {i : Nat} (hi : i < l.length)
    (x : α) : (l.set i x).map f = l.map f ↔ f x = f l[i] := by
  rw [List.map_set]
  constructor
  · intro h
    simpa [hi] using congrArg (·[i]?) h
  · intro h
    refine List.ext_getElem (by simp) fun j _ _ => ?_
    by_cases hj : i = j
    · subst hj; simp [h]
    · simp [List.getElem_set, hj]

namespace World

variable {w : World} (toISOString : Nat → String)

/-- The ids `window.mockEvaluations` lists; while it is undefined, those of the
    `MOCK_EVALUATIONS` array that the first mount copies into it. -/
def storeIds (w : World) : List (Option String) :=
  (w.heap.contents (w.mockEvaluations.getD mockEvaluationsArray)).map (·.id)

theorem WellFormed.storeAddress_lt (hw : w.WellFormed) :
    w.mockEvaluations.getD mockEvaluationsArray < w.heap.arrays.length := by
  cases ha : w.mockEvaluations with
  | none => exact Nat.lt_of_le_of_lt (Nat.zero_le _) hw.evaluations_lt
  | some a => exact hw.mockEvaluations_lt a ha

theorem storeIds_of_some {a : Nat} (ha : w.mockEvaluations = some a) :
    w.storeIds = (w.heap.contents a).map (·.id) := by
  simp [storeIds, ha]

theorem storeIds_of_storeList {S : List EvaluationConfig} (h : w.storeList = some S) :
    w.storeIds = S.map (·.id) := by
  obtain ⟨a, ha, rfl⟩ := Option.map_eq_some'.mp h
  exact storeIds_of_some ha

/-- Store ids that are distinct make the store's ids distinct. -/
theorem storeIdsDistinct_of_nodup (h : w.storeIds.Nodup) : w.StoreIdsDistinct := by
  cases hs : w.storeList with
  | none => simp [StoreIdsDistinct, hs]
  | some S => simpa [StoreIdsDistinct, hs, storeIds_of_storeList hs] using h

/-- Allocation moves no id: the same store over a grown heap lists the same ids. -/
theorem WellFormed.storeIds_eq {w' : World} (hw : w.WellFormed)
    (hs : w'.mockEvaluations = w.mockEvaluations) (hg : w.heap.Grows w'.heap) :
    w'.storeIds = w.storeIds := by
  simp only [storeIds, hs, contents_of_grows hg hw.closed hw.storeAddress_lt]

theorem WellFormed.storeIds_appendEvaluation (hw : w.WellFormed) (r : Nat) :
    (w.appendEvaluation r).storeIds = w.storeIds :=
  hw.storeIds_eq rfl (grows_allocArray _)

theorem WellFormed.storeIds_mapMatching (hw : w.WellFormed) (id : String)
    (g : EvaluationConfig → EvaluationConfig) : (w.mapMatching id g).storeIds = w.storeIds :=
  hw.storeIds_eq rfl ((grows_mapRecords _ _ _).trans (grows_allocArray _))

theorem WellFormed.storeIds_deleteEvaluationSuccess (hw : w.WellFormed) (id : String) :
    (w.deleteEvaluationSuccess id).storeIds = w.storeIds :=
  hw.storeIds_eq rfl (grows_allocArray _)

/-- Pushing a new object lists its id last, once the store is defined. -/
theorem WellFormed.storeIds_pushToStore_alloc (hw : w.WellFormed) (e : EvaluationConfig) :
    ((w.alloc e).1.pushToStore (w.alloc e).2).storeIds
      = if w.mockEvaluations = none then w.storeIds else w.storeIds ++ [e.id] := by
  cases ha : w.mockEvaluations with
  | none =>
    have hpush : (w.alloc e).1.pushToStore (w.alloc e).2 = (w.alloc e).1 := by
      simp [World.pushToStore, World.alloc, ha]
    rw [hpush, if_pos rfl]
    exact hw.storeIds_eq rfl (grows_allocRecord e)
  | some a =>
    rw [storeIds_of_storeList (storeList_pushToStore (hw.alloc e) ha _), storeIds_of_some ha,
      contents_of_grows (show w.heap.Grows (w.alloc e).1.heap from grows_allocRecord e) hw.closed
        (hw.mockEvaluations_lt a ha)]
    simp

theorem WellFormed.idsStep_pushToStore_alloc (hw : w.WellFormed) {e : EvaluationConfig} {n : Nat}
    (hid : e.id = some (newId n)) :
    IdsStep (some n) w.storeIds ((w.alloc e).1.pushToStore (w.alloc e).2).storeIds := by
  rw [hw.storeIds_pushToStore_alloc e, hid]
  split
  · exact .of_eq rfl
  · exact .push n

theorem storeIds_deleteFromStore_sublist (id : String) :
    List.Sublist (w.deleteFromStore id).storeIds w.storeIds := by
  cases ha : w.mockEvaluations with
  | none => simp [deleteFromStore, ha]
  | some a =>
    rw [storeIds_of_storeList (storeList_deleteFromStore ha id), storeIds_of_some ha]
    exact (List.filter_sublist _).map _

theorem storeIds_toggleInStore (hw : w.WellFormed) (id : String) (now : Nat) :
    (w.toggleInStore toISOString id now).storeIds = w.storeIds := by
  cases ht : w.storeTarget id with
  | none => simp [toggleInStore, ht]
  | some r =>
    obtain ⟨a, ha, -⟩ := storeTarget_mem ht
    rw [storeIds_of_some ((mockEvaluations_toggleInStore toISOString id now).trans ha),
      contents_toggleInStore toISOString hw ht, storeIds_of_some ha, contents, List.map_map,
      List.map_map]
    exact List.map_congr_left fun q _ => by by_cases hq : q = r <;> simp [hq, toggled]

/-- Replacing a record by an update that carries its id, or none, lists the same ids. -/
theorem storeIds_replaceInStore (hw : w.WellFormed) {id : String} {evaluation : EvaluationConfig}
    (hid : evaluation.id = none ∨ evaluation.id = some id) (now : Nat) :
    (w.replaceInStore toISOString id evaluation now).storeIds = w.storeIds := by
  cases hidx : w.storeIndex id with
  | none => simp [replaceInStore, hidx]
  | some p =>
    obtain ⟨a, i⟩ := p
    obtain ⟨ha, hi, hfound⟩ := storeIndex_spec hidx
    have hkeep : (updated toISOString evaluation now (w.heap.contents a)[i]).id
        = (w.heap.contents a)[i].id := by
      rcases hid with h | h <;> simp [updated, EvaluationConfig.spread, h, hfound]
    rw [storeIds_of_storeList (lists_replaceInStore toISOString hw hidx hi evaluation now).1,
      storeIds_of_some ha]
    exact (map_set_eq_map_iff _ hi _).mpr hkeep

theorem storeIds_initializeStore (w : World) : w.initializeStore.storeIds = w.storeIds := by
  cases ha : w.mockEvaluations with
  | none => simp [initializeStore, ha, storeIds, contents]
  | some a => simp [initializeStore, ha]

theorem storeIds_loadEvaluations (w : World) : w.loadEvaluations.storeIds = w.storeIds := rfl

theorem WellFormed.storeIds_loadTimerFired (hw : w.WellFormed) :
    w.loadTimerFired.storeIds = w.storeIds :=
  hw.storeIds_eq mockEvaluations_loadTimerFired grows_loadTimerFired

/-- An id a store lists, of ids minted at `ns`, was minted at one of them. -/
theorem exists_mint_of_mem_storeList {ns : List Nat}
    (hids : w.storeIds = ns.map fun n => some (newId n)) {e : EvaluationConfig}
    (he : e ∈ w.storeList.getD []) {x : String} (hid : e.id = some x) : ∃ n ∈ ns, newId n = x := by
  cases hS : w.storeList with
  | none => simp [hS] at he
  | some S =>
    rw [hS, Option.getD_some] at he
    have hmem : some x ∈ ns.map fun n => some (newId n) := by
      rw [← hids, storeIds_of_storeList hS, ← hid]
      exact List.mem_map_of_mem _ he
    obtain ⟨n, hn, hnx⟩ := List.mem_map.mp hmem
    exact ⟨n, hn, Option.some.inj hnx⟩

/-- The list's delete, once the store is defined, drops every id equal to the one deleted. -/
theorem WellFormed.storeIds_deleteEvaluation (hw : w.WellFormed) {a : Nat}
    (ha : w.mockEvaluations = some a) (k : String) :
    (step toISOString w (.deleteEvaluation k)).storeIds = w.storeIds.filter (· != some k) := by
  simp only [step, World.deleteEvaluation]
  rw [(hw.deleteFromStore k).storeIds_deleteEvaluationSuccess,
    storeIds_of_storeList (storeList_deleteFromStore ha k), storeIds_of_some ha,
    List.filter_map]
  rfl

end World

/-- What one operation of the list does to the store's ids. -/
theorem idsStep_step (toISOString : Nat → String) {w : World} (hw : w.WellFormed) (e : Event)
    (hren : e.renames = false) : IdsStep e.mintTime w.storeIds (step toISOString w e).storeIds := by
  cases e with
  | loadEvaluations => exact .of_eq (World.storeIds_loadEvaluations w)
  | loadTimerFired => exact .of_eq hw.storeIds_loadTimerFired
  | createEvaluation evaluation now =>
    simp only [step, World.createEvaluation, World.createEvaluationSuccess]
    rw [((hw.alloc _).pushToStore (World.lt_alloc _)).storeIds_appendEvaluation]
    exact hw.idsStep_pushToStore_alloc rfl
  | updateEvaluation id evaluation now =>
    have hid : evaluation.id = none ∨ evaluation.id = some id := by
      cases h : evaluation.id <;> simp_all [Event.renames]
    simp only [step, World.updateEvaluation, World.updateEvaluationSuccess]
    rw [(hw.replaceInStore toISOString id evaluation now).storeIds_mapMatching]
    exact .of_eq (World.storeIds_replaceInStore toISOString hw hid now)
  | deleteEvaluation id =>
    simp only [step, World.deleteEvaluation]
    rw [(hw.deleteFromStore id).storeIds_deleteEvaluationSuccess]
    exact .sublist (World.storeIds_deleteFromStore_sublist id)
  | duplicateEvaluation id now =>
    simp only [step, World.duplicateEvaluation, World.duplicateEvaluationSuccess]
    split
    · rw [((hw.alloc _).pushToStore (World.lt_alloc _)).storeIds_appendEvaluation]
      exact hw.idsStep_pushToStore_alloc rfl
    · exact .of_eq rfl
  | toggleEvaluationEnabled id now =>
    simp only [step, World.toggleEvaluationEnabled, World.toggleEvaluationEnabledSuccess]
    rw [(hw.toggleInStore toISOString id now).storeIds_mapMatching]
    exact .of_eq (World.storeIds_toggleInStore toISOString hw id now)

namespace Editor

variable {k : String} {w : World} {ed : Editor} (toISOString : Nat → String)

theorem storeIds_setEvaluation (hw : w.WellFormed) (f : EvaluationConfig → EvaluationConfig) :
    (ed.setEvaluation w f).1.storeIds = w.storeIds := by
  unfold setEvaluation
  split
  · exact hw.storeIds_eq rfl (grows_allocRecord _)
  · rfl

theorem storeIds_loadEvaluation (hw : w.WellFormed) (now : Nat) :
    (ed.loadEvaluation k w now).1.storeIds = w.storeIds := by
  unfold loadEvaluation
  split_ifs
  · rfl
  · exact hw.storeIds_eq rfl (grows_allocRecord _)
  · rfl

/-- What a sound editor of a stored evaluation saves carries that evaluation's id, or none. -/
theorem id_current (hs : Sound k w ed.evaluation) (hk : k ≠ "new") :
    (ed.current w).id = none ∨ (ed.current w).id = some k := by
  cases he : ed.evaluation with
  | none => simp [current, he]
  | some r => exact .inr (by simpa [current, he] using (hs r he).2 hk)

theorem idsStep_saveTimerFired (hw : w.WellFormed) (hs : Sound k w ed.evaluation) (now : Nat) :
    IdsStep (if k = "new" then some now else none) w.storeIds
      (ed.saveTimerFired k w toISOString now).1.storeIds := by
  cases hp : ed.pendingSaves with
  | zero =>
    simp only [saveTimerFired, hp]
    exact .of_eq rfl
  | succ n =>
    simp only [saveTimerFired, hp, saveListener]
    by_cases hnew : k = "new"
    · simp only [if_pos hnew]
      exact hw.idsStep_pushToStore_alloc rfl
    · simp only [if_neg hnew]
      have hs' : Sound k w ({ ed with pendingSaves := n } : Editor).evaluation := hs
      exact .of_eq (World.storeIds_replaceInStore toISOString hw (id_current hs' hnew) now)

/-- What one event of an editor does to the store's ids. -/
theorem idsStep_step (hw : w.WellFormed) (hs : Sound k w ed.evaluation) (e : EditorEvent) :
    IdsStep (e.mintTime k) w.storeIds (ed.step k w toISOString e).1.storeIds := by
  unfold step
  split
  · cases e with
    | setEvaluationName _ | setEvaluationDescription _ | setEvaluationPrompt _
      | setEvaluationEnabled _ | setTriggerConditions _ => exact .of_eq (storeIds_setEvaluation hw _)
    | loadEvaluation now => exact .of_eq (storeIds_loadEvaluation hw now)
    | saveTimerFired now => exact idsStep_saveTimerFired toISOString hw hs now
    | _ => exact .of_eq rfl
  · cases e with
    | mount now =>
      unfold afterMount
      split_ifs <;> exact .of_eq (storeIds_loadEvaluation hw now)
    | _ => exact .of_eq rfl

end Editor

namespace System

variable {s : System} (toISOString : Nat → String)

/-- Before any mount the store's ids are those of `MOCK_EVALUATIONS`, minted at `1` and `2`. -/
theorem storeIds_initial : initial.world.storeIds = [1, 2].map fun n => some (newId n) := rfl

/-- What one event of the pages does to the store's ids. -/
theorem Invariant.idsStep (h : s.Invariant) (e : SystemEvent) (hren : e.renames = false) :
    IdsStep e.mintTime s.world.storeIds (s.step toISOString e).world.storeIds := by
  cases e with
  | mountList =>
    simp only [step]
    split
    · exact .of_eq rfl
    · exact .of_eq ((World.storeIds_loadEvaluations _).trans (World.storeIds_initializeStore _))
  | unmountList => exact .of_eq rfl
  | setEvaluationsFilter filter =>
    simp only [step]
    split <;> exact .of_eq rfl
  | list e =>
    simp only [step]
    split
    · exact idsStep_step toISOString h.wellFormed e hren
    · exact .of_eq rfl
  | editor k e => exact Editor.idsStep_step toISOString h.wellFormed (h.sound k) e

/-- Where the store's ids come from: every id listed after a run is one listed before it
    or one minted by the run, and those listed keep the order of their mints. -/
theorem Invariant.storeIds_run (h : s.Invariant) {ns : List Nat}
    (hids : s.world.storeIds = ns.map fun n => some (newId n)) (events : List SystemEvent)
    (hren : ∀ e ∈ events, e.renames = false) :
    ∃ ns', (s.run toISOString events).world.storeIds = ns'.map (fun n => some (newId n)) ∧
      List.Sublist ns' (ns ++ events.filterMap SystemEvent.mintTime) := by
  induction events generalizing s ns with
  | nil => exact ⟨ns, hids, by simp⟩
  | cons e events ih =>
    have hstep := h.idsStep toISOString e (hren e (List.mem_cons_self _ _))
    have hren' := fun e' he' => hren e' (List.mem_cons_of_mem _ he')
    rw [hids] at hstep
    generalize hm : e.mintTime = m at hstep
    generalize hids' : (s.step toISOString e).world.storeIds = ids' at hstep
    cases hstep with
    | sublist hsub =>
      obtain ⟨ms, hms, rfl⟩ := List.sublist_map_iff.mp hsub
      obtain ⟨ns', hrun, hns'⟩ := ih (h.next toISOString e) hids' hren'
      refine ⟨ns', hrun, hns'.trans (hms.append ?_)⟩
      cases m with
      | none => rw [List.filterMap_cons_none hm]
      | some n => rw [List.filterMap_cons_some hm]; exact List.sublist_cons_self _ _
    | push n =>
      have hpush : (s.step toISOString e).world.storeIds = (ns ++ [n]).map fun n => some (newId n) :=
        by simp [hids']
      obtain ⟨ns', hrun, hns'⟩ := ih (h.next toISOString e) hpush hren'
      exact ⟨ns', hrun, by simpa [List.filterMap_cons_some hm] using hns'⟩

end System

/-- The store's ids stay distinct over every run of the pages, as long as the clock moves
    forward between the ids it mints and is past the mock ids' `1` and `2`, and no update
    writes another id over a stored one. -/
theorem storeIdsDistinct_run (toISOString : Nat → String) (events : List SystemEvent)
    (hren : ∀ e ∈ events, e.renames = false)
    (hclock : (events.filterMap SystemEvent.mintTime).Pairwise (· < ·))
    (hpast : ∀ n ∈ events.filterMap SystemEvent.mintTime, 2 < n) :
    (System.initial.run toISOString events).world.StoreIdsDistinct := by
  obtain ⟨ns, hids, hsub⟩ :=
    System.invariant_initial.storeIds_run toISOString System.storeIds_initial events hren
  have hp : ns.Pairwise (· < ·) := by
    refine List.Pairwise.sublist hsub (List.pairwise_append.mpr ⟨by decide, hclock, ?_⟩)
    simp only [List.mem_cons, List.not_mem_nil, or_false]
    rintro a (rfl | rfl) b hb <;> have := hpast b hb <;> omega
  refine World.storeIdsDistinct_of_nodup (hids ▸ List.Nodup.map ?_ (hp.imp ne_of_lt))
  exact fun a b hab => newId_injective (Option.some.inj hab)

theorem storeIdsDistinct_run_list_and_new_editor :
    let events : List SystemEvent := [.mountList, .list (.createEvaluation {} 3),
      .editor "new" (.mount 4), .editor "new" .saveEvaluation, .editor "new" (.saveTimerFired 5),
      .list (.duplicateEvaluation "eval-1" 6), .list (.deleteEvaluation "eval-2")]
    (events.filterMap SystemEvent.mintTime).Pairwise (· < ·) ∧
      (System.initial.run toString events).world.StoreIdsDistinct :=
  ⟨by decide, storeIdsDistinct_run toString _ (by decide) (by decide) (by decide)⟩

namespace System

variable {s : System} (toISOString : Nat → String)

/-- The new editor's save, while the store is undefined: the new object is allocated and
    handed to `saveEvaluationSuccess`, and the push is skipped. -/
theorem step_saveTimerFired_new_of_none {n now : Nat} (hm : (s.editors "new").mounted = true)
    (hp : (s.editors "new").pendingSaves = n + 1) (hstore : s.world.mockEvaluations = none) :
    let ed : Editor := { s.editors "new" with pendingSaves := n }
    let p := s.world.alloc (newEvaluation toISOString (ed.current s.world) now)
    s.step toISOString (.editor "new" (.saveTimerFired now))
      = { s with world := p.1, editors := Function.update s.editors "new" (ed.saveEvaluationSuccess (some p.2)) } := by
  simp [step, Editor.step, hm, Editor.saveTimerFired, hp, Editor.saveListener, World.pushToStore,
    World.alloc, hstore]

end System

/-- A save from the new editor while `window.mockEvaluations` is undefined is lost: the
    editor holds the new evaluation and reports no unsaved changes, but no store of any
    later run lists its id, under the clock of `storeIdsDistinct_run`. -/
theorem saveEvaluation_without_store_is_lost (toISOString : Nat → String)
    (pre post : List SystemEvent) (now : Nat) (hren : ∀ e ∈ pre ++ post, e.renames = false)
    (hclock : ((pre ++ .editor "new" (.saveTimerFired now) :: post).filterMap
      SystemEvent.mintTime).Pairwise (· < ·))
    (hpast : ∀ n ∈ (pre ++ .editor "new" (.saveTimerFired now) :: post).filterMap
      SystemEvent.mintTime, 2 < n)
    (hmounted : ((System.initial.run toISOString pre).editors "new").mounted = true)
    (hwaiting : 0 < ((System.initial.run toISOString pre).editors "new").pendingSaves)
    (hstore : (System.initial.run toISOString pre).world.mockEvaluations = none) :
    let s : System := System.initial.run toISOString (pre ++ [.editor "new" (.saveTimerFired now)])
    (∃ r, (s.editors "new").evaluation = some r ∧ (s.world.heap.record r).id = some (newId now)) ∧
      (s.editors "new").hasUnsavedChanges = false ∧
      ∀ e ∈ (s.run toISOString post).world.storeList.getD [], e.id ≠ some (newId now) := by
  intro s
  set s₀ := System.initial.run toISOString pre
  have h₀ : s₀.Invariant := System.invariant_initial.run toISOString pre
  obtain ⟨n, hn⟩ : ∃ n, (s₀.editors "new").pendingSaves = n + 1 :=
    ⟨_, (Nat.succ_pred_eq_of_pos hwaiting).symm⟩
  have hstep : s = s₀.step toISOString (.editor "new" (.saveTimerFired now)) := by simp [s, s₀]
  have h₁ : s.Invariant := hstep ▸ h₀.next toISOString _
  set ed : Editor := { s₀.editors "new" with pendingSaves := n }
  set p := s₀.world.alloc (newEvaluation toISOString (ed.current s₀.world) now)
  have hs : s = { s₀ with
      world := p.1
      editors := Function.update s₀.editors "new" (ed.saveEvaluationSuccess (some p.2)) } :=
    hstep.trans (System.step_saveTimerFired_new_of_none toISOString hmounted hn hstore)
  -- the clock: every mint of `pre` is before `now`, every mint of `post` after it
  have hmints : (pre ++ .editor "new" (.saveTimerFired now) :: post).filterMap SystemEvent.mintTime
      = pre.filterMap SystemEvent.mintTime ++ now :: post.filterMap SystemEvent.mintTime := by
    simp [List.filterMap_append, SystemEvent.mintTime, EditorEvent.mintTime]
  rw [hmints] at hclock hpast
  obtain ⟨-, hnow, hbefore⟩ := List.pairwise_append.mp hclock
  have hafter := (List.pairwise_cons.mp hnow).1
  obtain ⟨ns, hids₀, hsub₀⟩ :=
    System.invariant_initial.storeIds_run toISOString System.storeIds_initial pre
      fun e he => hren e (List.mem_append_left _ he)
  have hids₁ : s.world.storeIds = ns.map fun n => some (newId n) := by
    rw [← hids₀, hs]
    exact h₀.wellFormed.storeIds_eq rfl (grows_allocRecord _)
  obtain ⟨ns', hids₂, hsub₂⟩ := h₁.storeIds_run toISOString hids₁ post
    fun e he => hren e (List.mem_append_right _ he)
  refine ⟨⟨p.2, by simp [hs, Editor.saveEvaluationSuccess], by simp [hs, p, newEvaluation]⟩,
    by simp [hs, Editor.saveEvaluationSuccess], fun e he hid => ?_⟩
  -- the id listed would be minted at `now`, by `pre` or by `post`
  obtain ⟨m, hm, hmn⟩ := World.exists_mint_of_mem_storeList hids₂ he hid
  rw [newId_injective hmn] at hm
  rcases List.mem_append.mp (hsub₂.subset hm) with h | h
  · rcases List.mem_append.mp (hsub₀.subset h) with h | h
    · have := hpast now (List.mem_append_right _ (List.mem_cons_self _ _))
      simp only [List.mem_cons, List.not_mem_nil, or_false] at h
      omega
    · exact lt_irrefl _ (hbefore now h now (List.mem_cons_self _ _))
  · exact lt_irrefl _ (hafter now h)

theorem saveEvaluation_before_list_mount_is_lost :
    let pre : List SystemEvent := [.editor "new" (.mount 3), .editor "new" .saveEvaluation]
    let s : System := System.initial.run toString (pre ++ [.editor "new" (.saveTimerFired 4)])
    (System.initial.run toString pre).world.mockEvaluations = none ∧
      (s.editors "new").hasUnsavedChanges = false ∧
      ∀ e ∈ (s.run toString [.mountList, .list (.createEvaluation {} 5)]).world.storeList.getD [],
        e.id ≠ some (newId 4) :=
  have h := saveEvaluation_without_store_is_lost toString
    [.editor "new" (.mount 3), .editor "new" .saveEvaluation] [.mountList, .list (.createEvaluation {} 5)] 4
    (by decide) (by decide) (by decide) rfl (by decide) rfl
  ⟨rfl, h.2⟩

/-- A deleted evaluation stays deleted: whatever the list and the editors do afterwards,
    the editor that still holds it and saves it included, no store lists its id again,
    unless a later mint makes the same id anew. -/
theorem deleteEvaluation_is_final (toISOString : Nat → String) (pre post : List SystemEvent)
    (k : String) (hren : ∀ e ∈ pre ++ post, e.renames = false)
    (hfresh : ∀ n ∈ post.filterMap SystemEvent.mintTime, newId n ≠ k)
    (hmounted : (System.initial.run toISOString pre).listMounted = true)
    (hstore : (System.initial.run toISOString pre).world.mockEvaluations ≠ none) :
    ∀ e ∈ (System.initial.run toISOString (pre ++ .list (.deleteEvaluation k) :: post)).world.storeList.getD [],
      e.id ≠ some k := by
  set s₀ := System.initial.run toISOString pre
  have h₀ : s₀.Invariant := System.invariant_initial.run toISOString pre
  obtain ⟨a, ha⟩ := Option.ne_none_iff_exists'.mp hstore
  obtain ⟨ns, hids₀, -⟩ :=
    System.invariant_initial.storeIds_run toISOString System.storeIds_initial pre
      fun e he => hren e (List.mem_append_left _ he)
  set s₁ := s₀.step toISOString (.list (.deleteEvaluation k))
  have hids₁ : s₁.world.storeIds = (ns.filter fun n => newId n != k).map fun n => some (newId n) := by
    simp only [s₁, System.step, hmounted, if_true]
    rw [h₀.wellFormed.storeIds_deleteEvaluation toISOString ha, hids₀, List.filter_map]
    rfl
  obtain ⟨ns', hids₂, hsub₂⟩ := (h₀.next toISOString _).storeIds_run toISOString hids₁ post
    fun e he => hren e (List.mem_append_right _ he)
  have hrun : System.initial.run toISOString (pre ++ .list (.deleteEvaluation k) :: post)
      = s₁.run toISOString post := by simp [s₁, s₀]
  intro e he hid
  rw [hrun] at he
  obtain ⟨n, hn, rfl⟩ := World.exists_mint_of_mem_storeList hids₂ he hid
  rcases List.mem_append.mp (hsub₂.subset hn) with h | h
  · simp at h
  · exact hfresh n h rfl

theorem deleteEvaluation_is_final_past_editor_save :
    let pre : List SystemEvent := [.mountList, .editor "eval-1" (.mount 3)]
    let post : List SystemEvent := [.editor "eval-1" (.setEvaluationName "Helpfulness"),
      .editor "eval-1" .saveEvaluation, .editor "eval-1" (.saveTimerFired 5),
      .list (.duplicateEvaluation "eval-1" 6), .list .loadEvaluations, .list .loadTimerFired]
    (System.initial.run toString pre).world.mockEvaluations ≠ none ∧
      ∀ e ∈ (System.initial.run toString (pre ++ .list (.deleteEvaluation "eval-1") :: post)).world.storeList.getD [],
        e.id ≠ some "eval-1" :=
  ⟨by decide, deleteEvaluation_is_final toString _ _ "eval-1" (by decide) (by decide) rfl (by decide)⟩

end Evaluations

end PosthogFrontend
