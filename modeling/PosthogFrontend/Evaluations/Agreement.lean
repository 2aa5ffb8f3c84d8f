import PosthogFrontend.Evaluations.Logic

/-!
# Do the store and the reducer agree?

`window.mockEvaluations` stands in for a backend, and the `evaluations`
reducer is meant to mirror it: each listener writes the store and then
dispatches the success action whose reducer makes the same change to the
state. `World.Agree` says the two list the same evaluations, by id, enabled,
name, description, prompt and conditions.

They do not stay in agreement, because they share objects. Once the first
mount's load has completed, the reducer holds the store's array itself, so a
`push` to the store is already in the state when `createEvaluationSuccess`
appends the same object again (`createEvaluation_after_mount_lists_twice`).
And the records are shared from the start, so when the toggle listener has
negated a record's `enabled` in place, the reducer's `map` reads the negated
value and negates it back (`not_agree_toggleEvaluationEnabled_of_alias`).

The operations are characterised one by one, from every well-formed world in
which the two agree (and, where a record is looked up by id, the store's ids
are distinct):

* A load that completes once the store is defined (`loadTimerFired`) always
  ends in agreement, since the reducer then holds the store's array.
* `deleteEvaluation` and `updateEvaluation` keep agreement: the store and the
  state each build a new array, or a new object, from values that agree.
* `appended`, the push and append that `createEvaluation` and a
  `duplicateEvaluation` that finds its id both make, keeps it exactly when the
  reducer does not hold the store's array.
* `toggleEvaluationEnabled` keeps it exactly when the record it writes is not
  also an element of the reducer's array.

## Main definitions

* `World.reducerList`, `World.storeList`, `World.Agree`.

## Theorems

* `agree_loadTimerFired`, `agree_deleteEvaluation`, `agree_updateEvaluation`:
  operations after which the two agree.
* `agree_appended_iff`, `agree_toggleEvaluationEnabled_iff`: exactly when the
  others keep agreement.
* `not_agree_toggleEvaluationEnabled_of_alias`: while the reducer holds the
  store's array, every toggle of a listed id breaks agreement.
* `createEvaluation_after_mount_lists_twice`: the first create after the first
  mount's load already breaks it.
-/

namespace PosthogFrontend

namespace Evaluations

open EvaluationConfig (listed)

open Heap

/-- In a list with distinct keys, two elements with the same key are one. -/
theorem eq_of_key_eq {α β : Type} {xs : List α} {k : α → β} (hnd : (xs.map k).Nodup) {m n : Nat}
    (hm : m < xs.length) (hn : n < xs.length) (h : k xs[m] = k xs[n]) : m = n :=
  (@List.Nodup.getElem_inj_iff _ _ hnd m (by simpa using hm) n (by simpa using hn)).mp
    (by simpa using h)

/-- With distinct keys, rewriting every element whose key is that of element
    `i` rewrites element `i` only. -/
theorem map_ite_eq_set {α β γ : Type} [DecidableEq β] {xs : List α} (k : α → β)
    (hnd : (xs.map k).Nodup) {i : Nat} (hi : i < xs.length) (f g : α → γ) :
    xs.map (fun x => if k x = k xs[i] then g x else f x) = (xs.map f).set i (g xs[i]) := by
  refine List.ext_getElem (by simp) fun n h₁ _ => ?_
  have hn : n < xs.length := by simpa using h₁
  have key : k xs[n] = k xs[i] ↔ i = n := by
    constructor
    · exact fun h => (eq_of_key_eq hnd hn hi h).symm
    · rintro rfl; rfl
  simp only [List.getElem_map, List.getElem_set]
  by_cases hin : i = n
  · subst hin; simp
  · simp [hin, key.not.mpr hin]

/-- With distinct ids, rewriting the elements with the id of element `i`
    rewrites element `i` only. -/
theorem map_ite_id_eq_set {xs : List EvaluationConfig} (hnd : (xs.map (·.id)).Nodup) {i : Nat}
    (hi : i < xs.length) (g : EvaluationConfig → EvaluationConfig) :
    xs.map (fun e => if e.id = xs[i].id then g e else e) = xs.set i (g xs[i]) := by
  simpa using map_ite_eq_set (·.id) hnd hi (fun e => e) g

/-- Rewriting the elements with an id none has changes nothing. -/
theorem map_ite_id_of_not_mem {xs : List EvaluationConfig} {c : Option String}
    (hc : ∀ e ∈ xs, e.id ≠ c) (g : EvaluationConfig → EvaluationConfig) :
    xs.map (fun e => if e.id = c then g e else e) = xs := by
  conv_rhs => rw [← List.map_id xs]
  exact List.map_congr_left fun e he => if_neg (hc e he)

/-- A rewrite that sees only what a listing shows maps agreeing lists to agreeing lists. -/
theorem map_listed_map_of_map_listed {R S : List EvaluationConfig}
    (h : R.map listed = S.map listed) {f : EvaluationConfig → EvaluationConfig}
    (hf : ∀ e, (f e).listed = (f e.listed).listed) :
    (R.map f).map listed = (S.map f).map listed := by
  have key : ∀ xs : List EvaluationConfig, (xs.map f).map listed = (xs.map listed).map (listed ∘ f) :=
    fun xs => by simp only [List.map_map]; exact List.map_congr_left fun e _ => hf e
  rw [key, key, h]

/-- Lists that agree have the same ids. -/
theorem map_id_of_map_listed {R S : List EvaluationConfig} (h : R.map listed = S.map listed) :
    R.map (·.id) = S.map (·.id) := by
  have key : ∀ xs : List EvaluationConfig, xs.map (·.id) = (xs.map listed).map (·.id) :=
    fun xs => by simp only [List.map_map]; rfl
  rw [key, h, ← key]

/-- An id no element of `S` has is the id of no element of a list that agrees with `S`. -/
theorem id_ne_of_map_listed {R S : List EvaluationConfig} (h : R.map listed = S.map listed)
    {c : Option String} (hS : ∀ e ∈ S, e.id ≠ c) : ∀ e ∈ R, e.id ≠ c := by
  intro e he hid
  have : c ∈ S.map (·.id) := by
    rw [← map_id_of_map_listed h]; exact List.mem_map.mpr ⟨e, he, hid⟩
  obtain ⟨x, hx, hxid⟩ := List.mem_map.mp this
  exact hS x hx hxid

theorem map_listed_filter (xs : List EvaluationConfig) (id : String) :
    (xs.filter fun e => e.id != some id).map listed
      = (xs.map listed).filter fun e => e.id != some id := by
  rw [List.filter_map]
  rfl

namespace World

variable (w : World)

/-- The evaluations the `evaluations` reducer lists. -/
def reducerList : List EvaluationConfig := w.heap.contents w.evaluations

/-- The evaluations `window.mockEvaluations` lists, while it is defined. -/
def storeList : Option (List EvaluationConfig) := w.mockEvaluations.map w.heap.contents

/-- The store is defined and lists the same evaluations as the reducer: the
    same ids, `enabled` values, names, descriptions, prompts and conditions, in
    the same order. -/
def Agree : Prop := w.storeList.map (List.map listed) = some (w.reducerList.map listed)

instance : DecidablePred Agree := fun _ => inferInstanceAs (Decidable (_ = _))

/-- The store's ids are pairwise distinct. -/
def StoreIdsDistinct : Prop := ((w.storeList.getD []).map (·.id)).Nodup

variable {w} (toISOString : Nat → String)

theorem storeList_of_eq {a : Nat} (ha : w.mockEvaluations = some a) :
    w.storeList = some (w.heap.contents a) := by
  simp [storeList, ha]

theorem agree_iff {a : Nat} (ha : w.mockEvaluations = some a) :
    w.Agree ↔ (w.heap.contents a).map listed = w.reducerList.map listed := by
  simp [Agree, storeList_of_eq ha]

theorem Agree.exists_store (h : w.Agree) : ∃ a, w.mockEvaluations = some a := by
  cases ha : w.mockEvaluations with
  | none => simp [Agree, storeList, ha] at h
  | some a => exact ⟨a, rfl⟩

/-- Allocation moves neither list. -/
theorem WellFormed.storeList_eq {w' : World} (hw : w.WellFormed)
    (hs : w'.mockEvaluations = w.mockEvaluations) (hg : w.heap.Grows w'.heap) :
    w'.storeList = w.storeList := by
  cases ha : w.mockEvaluations with
  | none => simp [storeList, ha, hs]
  | some a => simp [storeList, ha, hs, contents_of_grows hg hw.closed (hw.mockEvaluations_lt a ha)]

theorem WellFormed.reducerList_eq {w' : World} (hw : w.WellFormed)
    (hr : w'.evaluations = w.evaluations) (hg : w.heap.Grows w'.heap) :
    w'.reducerList = w.reducerList := by
  simp only [reducerList, hr, contents_of_grows hg hw.closed hw.evaluations_lt]

@[simp] theorem record_alloc (e : EvaluationConfig) : (w.alloc e).1.heap.record (w.alloc e).2 = e :=
  record_allocRecord_self e

@[simp] theorem record_pushToStore (r q : Nat) : (w.pushToStore r).heap.record q = w.heap.record q := by
  unfold pushToStore
  split <;> rfl

theorem storeList_pushToStore (hw : w.WellFormed) {a : Nat} (ha : w.mockEvaluations = some a)
    (r : Nat) : (w.pushToStore r).storeList = some (w.heap.contents a ++ [w.heap.record r]) := by
  simp [pushToStore, ha, storeList, contents, array_setArray (hw.mockEvaluations_lt a ha)]

theorem reducerList_pushToStore (hw : w.WellFormed) {a : Nat} (ha : w.mockEvaluations = some a)
    (r : Nat) :
    (w.pushToStore r).reducerList
      = if w.evaluations = a then w.heap.contents a ++ [w.heap.record r] else w.reducerList := by
  simp only [pushToStore, ha, reducerList, contents, array_setArray (hw.mockEvaluations_lt a ha),
    record_setArray]
  split_ifs with hb
  · simp [hb]
  · rfl

theorem reducerList_appendEvaluation (r : Nat) :
    (w.appendEvaluation r).reducerList = w.reducerList ++ [w.heap.record r] := by
  simp [appendEvaluation, reducerList, contents]

theorem reducerList_mapMatching (hw : w.WellFormed) (id : String)
    (g : EvaluationConfig → EvaluationConfig) :
    (w.mapMatching id g).reducerList = w.reducerList.map fun e => if e.id = some id then g e else e := by
  simp only [reducerList, mapMatching, contents_allocArray_self]
  rw [map_record_mapRecords _ _ _ fun r hr => hw.lt_of_mem_array hr, contents]
  exact List.map_congr_left fun e _ => by split <;> rfl

theorem storeList_mapMatching (hw : w.WellFormed) (id : String)
    (g : EvaluationConfig → EvaluationConfig) : (w.mapMatching id g).storeList = w.storeList :=
  hw.storeList_eq rfl ((grows_mapRecords _ _ _).trans (grows_allocArray _))

theorem contents_without (xs : List Nat) (id : String) :
    (w.without xs id).1.contents (w.without xs id).2
      = (xs.map w.heap.record).filter fun e => e.id != some id := by
  simp only [without, contents_allocArray_self, List.filter_map]
  rfl

theorem storeList_deleteFromStore {a : Nat} (ha : w.mockEvaluations = some a) (id : String) :
    (w.deleteFromStore id).storeList
      = some ((w.heap.contents a).filter fun e => e.id != some id) := by
  simp only [deleteFromStore, ha, storeList, Option.map_some']
  rw [contents_without]
  rfl

theorem reducerList_deleteFromStore (hw : w.WellFormed) (id : String) :
    (w.deleteFromStore id).reducerList = w.reducerList := by
  unfold deleteFromStore
  split
  · exact hw.reducerList_eq rfl (grows_allocArray _)
  · rfl

theorem reducerList_deleteEvaluationSuccess (id : String) :
    (w.deleteEvaluationSuccess id).reducerList = w.reducerList.filter fun e => e.id != some id :=
  contents_without _ _

theorem storeList_deleteEvaluationSuccess (hw : w.WellFormed) (id : String) :
    (w.deleteEvaluationSuccess id).storeList = w.storeList :=
  hw.storeList_eq rfl (grows_allocArray _)

/-- A completing load, `loadEvaluationsSuccess(window.mockEvaluations)`, hands
    the reducer the store's own array. -/
theorem agree_loadTimerFired {a : Nat} (ha : w.mockEvaluations = some a)
    (hp : 0 < w.pendingLoads) : w.loadTimerFired.Agree := by
  obtain ⟨n, hn⟩ := Nat.exists_eq_add_of_lt hp
  simp [loadTimerFired, hn, ha, Agree, storeList, reducerList, loadEvaluationsSuccess]

/-- `deleteEvaluation` filters the store and the state by the same test on ids. -/
theorem agree_deleteEvaluation (hw : w.WellFormed) (h : w.Agree) (id : String) :
    (w.deleteEvaluation id).Agree := by
  obtain ⟨a, ha⟩ := h.exists_store
  rw [agree_iff ha] at h
  simp only [deleteEvaluation, Agree, storeList_deleteEvaluationSuccess (hw.deleteFromStore id),
    storeList_deleteFromStore ha, reducerList_deleteEvaluationSuccess,
    reducerList_deleteFromStore hw, Option.map_some', map_listed_filter, h]

section Append

variable (e : EvaluationConfig)

/-- The world `createEvaluation` and `duplicateEvaluation` leave: the new
    object `e` allocated, pushed to the store, and appended to the state. -/
def appended (w : World) : World :=
  ((w.alloc e).1.pushToStore (w.alloc e).2).appendEvaluation (w.alloc e).2

/-- The new object `e` allocated and pushed to the store: the store lists it last. -/
theorem storeList_pushToStore_alloc (hw : w.WellFormed) {a : Nat} (ha : w.mockEvaluations = some a) :
    ((w.alloc e).1.pushToStore (w.alloc e).2).storeList = some (w.heap.contents a ++ [e]) := by
  have h₂ : (w.alloc e).1.heap.contents a = w.heap.contents a :=
    contents_of_grows (grows_allocRecord e) hw.closed (hw.mockEvaluations_lt a ha)
  rw [storeList_pushToStore (hw.alloc e) ha, h₂, record_alloc]

/-- The reducer lists the pushed object exactly when it holds the store's array. -/
theorem reducerList_pushToStore_alloc (hw : w.WellFormed) {a : Nat}
    (ha : w.mockEvaluations = some a) :
    ((w.alloc e).1.pushToStore (w.alloc e).2).reducerList
      = if w.evaluations = a then w.heap.contents a ++ [e] else w.reducerList := by
  have h₂ : (w.alloc e).1.heap.contents a = w.heap.contents a :=
    contents_of_grows (grows_allocRecord e) hw.closed (hw.mockEvaluations_lt a ha)
  have h₃ : (w.alloc e).1.reducerList = w.reducerList :=
    hw.reducerList_eq rfl (grows_allocRecord e)
  rw [reducerList_pushToStore (hw.alloc e) ha, h₂, h₃, record_alloc]
  rfl

theorem storeList_appended (hw : w.WellFormed) {a : Nat} (ha : w.mockEvaluations = some a) :
    (appended e w).storeList = some (w.heap.contents a ++ [e]) := by
  have h₁ : (appended e w).storeList = ((w.alloc e).1.pushToStore (w.alloc e).2).storeList :=
    ((hw.alloc e).pushToStore (lt_alloc e)).storeList_eq rfl (grows_allocArray _)
  rw [h₁, storeList_pushToStore_alloc e hw ha]

theorem reducerList_appended (hw : w.WellFormed) {a : Nat} (ha : w.mockEvaluations = some a) :
    (appended e w).reducerList
      = (if w.evaluations = a then w.heap.contents a ++ [e] else w.reducerList) ++ [e] := by
  rw [appended, reducerList_appendEvaluation, reducerList_pushToStore_alloc e hw ha,
    record_pushToStore, record_alloc]

/-- Appending keeps agreement exactly when the reducer does not hold the
    store's array: when it does, the object `push`ed to the store is already in
    the state, and the reducer appends it a second time. -/
theorem agree_appended_iff (hw : w.WellFormed) (h : w.Agree) :
    (appended e w).Agree ↔ w.mockEvaluations ≠ some w.evaluations := by
  obtain ⟨a, ha⟩ := h.exists_store
  rw [agree_iff ha] at h
  simp only [Agree, storeList_appended e hw ha, reducerList_appended e hw ha, ha, ne_eq,
    Option.some.injEq, Option.map_some']
  split_ifs with hb
  · subst hb
    simp only [not_true_eq_false, iff_false]
    intro heq
    have := congrArg List.length heq
    simp at this
  · simp [h, Ne.symm hb]

end Append

theorem storeIndex_spec {id : String} {a i : Nat} (h : w.storeIndex id = some (a, i)) :
    w.mockEvaluations = some a ∧
      ∃ hi : i < (w.heap.contents a).length, (w.heap.contents a)[i].id = some id := by
  simp only [storeIndex, Option.bind_eq_some, Option.map_eq_some', Prod.mk.injEq] at h
  obtain ⟨a', ha', i', hfind, rfl, rfl⟩ := h
  obtain ⟨hi, hp, -⟩ := List.findIdx?_eq_some_iff_getElem.mp hfind
  exact ⟨ha', hi, by simpa using hp⟩

theorem storeIndex_eq_none {id : String} {a : Nat} (ha : w.mockEvaluations = some a)
    (h : w.storeIndex id = none) : ∀ e ∈ w.heap.contents a, e.id ≠ some id := by
  simp only [storeIndex, ha, Option.some_bind, Option.map_eq_none', List.findIdx?_eq_none_iff,
    beq_eq_false_iff_ne] at h
  exact h

theorem StoreIdsDistinct.nodup (hids : w.StoreIdsDistinct) {a : Nat}
    (ha : w.mockEvaluations = some a) : ((w.heap.contents a).map (·.id)).Nodup := by
  simpa [StoreIdsDistinct, storeList_of_eq ha] using hids

theorem getD_contents {a i : Nat} (hi : i < (w.heap.contents a).length) :
    (w.heap.contents a).getD i {} = (w.heap.contents a)[i] := by
  rw [List.getD_eq_getElem?_getD, List.getElem?_eq_getElem hi, Option.getD_some]

/-- The store half of `updateEvaluation` replaces element `i` of the store by
    a new object, which the reducer sees only if it holds the store's array. -/
theorem lists_replaceInStore (hw : w.WellFormed) {id : String} {a i : Nat}
    (hidx : w.storeIndex id = some (a, i)) (hi : i < (w.heap.contents a).length)
    (evaluation : EvaluationConfig) (now : Nat) :
    let S' := (w.heap.contents a).set i
      (updated toISOString evaluation now (w.heap.contents a)[i])
    (w.replaceInStore toISOString id evaluation now).storeList = some S' ∧
      (w.replaceInStore toISOString id evaluation now).reducerList
        = if w.evaluations = a then S' else w.reducerList := by
  have ha := (storeIndex_spec hidx).1
  have hc := contents_setArray_allocRecord hw.closed (hw.mockEvaluations_lt a ha) i
    (updated toISOString evaluation now (w.heap.contents a)[i])
  simp only [replaceInStore, hidx, getD_contents hi]
  simp [storeList, reducerList, alloc, ha, hc]

/-- `updateEvaluation` keeps the two in agreement when the store's ids are
    distinct: the store replaces the record with the id by an updated copy, and
    the reducer's `map` makes the same copy of the same values, or, when it holds
    the store's array, of the copy itself, which spreading once more leaves as it is. -/
theorem agree_updateEvaluation (hw : w.WellFormed) (h : w.Agree) (hids : w.StoreIdsDistinct)
    (id : String) (evaluation : EvaluationConfig) (now : Nat) :
    (w.updateEvaluation toISOString id evaluation now).Agree := by
  obtain ⟨a, ha⟩ := h.exists_store
  rw [agree_iff ha] at h
  have hS := hids.nodup ha
  have hw₁ := hw.replaceInStore toISOString id evaluation now
  have hu : ∀ e, updated toISOString evaluation now (updated toISOString evaluation now e)
      = updated toISOString evaluation now e := fun e => by
    simp only [updated, EvaluationConfig.spread, ← Option.or_assoc, Option.or_self]
  simp only [updateEvaluation, updateEvaluationSuccess, Agree, storeList_mapMatching hw₁,
    reducerList_mapMatching hw₁]
  cases hidx : w.storeIndex id with
  | none =>
    have hw' : w.replaceInStore toISOString id evaluation now = w := by
      simp [replaceInStore, hidx]
    rw [hw', storeList_of_eq ha,
      map_ite_id_of_not_mem (id_ne_of_map_listed h.symm (storeIndex_eq_none ha hidx))]
    simp [h]
  | some p =>
    obtain ⟨a', i⟩ := p
    obtain ⟨ha', hi, hid⟩ := storeIndex_spec hidx
    obtain rfl : a = a' := Option.some.inj (ha.symm.trans ha')
    obtain ⟨hst, hrd⟩ := lists_replaceInStore toISOString hw hidx hi evaluation now
    set u := updated toISOString evaluation now
    set S := w.heap.contents a
    have hset : S.map (fun e => if e.id = some id then u e else e) = S.set i (u S[i]) := by
      rw [← hid]; exact map_ite_id_eq_set hS hi u
    rw [hst, hrd]
    simp only [Option.map_some', Option.some.injEq]
    split_ifs with hb
    · have hfix : (S.set i (u S[i])).map (fun e => if e.id = some id then u e else e)
          = S.set i (u S[i]) := by
        rw [List.map_set, hset, List.set_set]
        congr 1
        split_ifs <;> simp [hu]
      rw [hfix]
    · rw [map_listed_map_of_map_listed h.symm fun e => by
        simp only [EvaluationConfig.id_listed]; split_ifs <;> rfl, hset]

theorem storeTarget_spec {id : String} {r : Nat} (h : w.storeTarget id = some r) :
    ∃ a i, w.storeIndex id = some (a, i) ∧ ∃ hi : i < (w.heap.array a).length, (w.heap.array a)[i] = r := by
  simp only [storeTarget, Option.map_eq_some'] at h
  obtain ⟨⟨a, i⟩, hidx, rfl⟩ := h
  obtain ⟨-, hi, -⟩ := storeIndex_spec hidx
  have hi' : i < (w.heap.array a).length := by simpa [contents] using hi
  exact ⟨a, i, hidx, hi', by rw [List.getD_eq_getElem?_getD, List.getElem?_eq_getElem hi',
    Option.getD_some]⟩

/-- The store half of the toggle writes the record in place: every array that
    holds it, the reducer's included, lists the toggled record. -/
theorem contents_toggleInStore (hw : w.WellFormed) {id : String} {r : Nat}
    (ht : w.storeTarget id = some r) (now : Nat) (c : Nat) :
    (w.toggleInStore toISOString id now).heap.contents c
      = (w.heap.array c).map fun q =>
          if q = r then toggled toISOString now (w.heap.record r) else w.heap.record q := by
  obtain ⟨a, i, -, hi, rfl⟩ := storeTarget_spec ht
  simp only [toggleInStore, ht, contents, array_setRecord]
  exact map_record_setRecord (hw.lt_of_mem_array (List.getElem_mem hi)) _ _

theorem mockEvaluations_toggleInStore (id : String) (now : Nat) :
    (w.toggleInStore toISOString id now).mockEvaluations = w.mockEvaluations := by
  unfold toggleInStore
  split <;> rfl

theorem evaluations_toggleInStore (id : String) (now : Nat) :
    (w.toggleInStore toISOString id now).evaluations = w.evaluations := by
  unfold toggleInStore
  split <;> rfl

/-- An array whose records have distinct ids holds the written record at most
    once: at index `j`, its contents change there only. -/
theorem contents_toggleInStore_of_getElem (hw : w.WellFormed) {id : String} {r : Nat}
    (ht : w.storeTarget id = some r) (now : Nat) {c j : Nat}
    (hnd : ((w.heap.contents c).map (·.id)).Nodup) (hj : j < (w.heap.array c).length)
    (hjr : (w.heap.array c)[j] = r) :
    (w.toggleInStore toISOString id now).heap.contents c
      = (w.heap.contents c).set j (toggled toISOString now (w.heap.record r)) := by
  have hA : (w.heap.array c).Nodup :=
    List.Nodup.of_map (fun q => (w.heap.record q).id) (by simpa [contents] using hnd)
  rw [contents_toggleInStore toISOString hw ht, ← hjr]
  exact map_ite_eq_set (fun q => q) (by simpa using hA) hj w.heap.record _

theorem reducerList_toggleInStore (id : String) (now : Nat) :
    (w.toggleInStore toISOString id now).reducerList
      = (w.toggleInStore toISOString id now).heap.contents w.evaluations := by
  rw [reducerList, evaluations_toggleInStore]

/-- An array that does not hold the written record lists what it listed. -/
theorem contents_toggleInStore_of_not_mem (hw : w.WellFormed) {id : String} {r : Nat}
    (ht : w.storeTarget id = some r) (now : Nat) {c : Nat} (hc : r ∉ w.heap.array c) :
    (w.toggleInStore toISOString id now).heap.contents c = w.heap.contents c := by
  rw [contents_toggleInStore toISOString hw ht]
  exact List.map_congr_left fun q hq => if_neg fun (hqr : q = r) => hc (hqr ▸ hq)

@[simp] theorem id_toggled (now : Nat) (e : EvaluationConfig) :
    (toggled toISOString now e).id = e.id := rfl

theorem enabled_toggled (now : Nat) (e : EvaluationConfig) :
    (toggled toISOString now e).enabled = some !(e.enabled.getD false) := rfl

/-- Toggling twice gives `enabled` back (`!!b = b`), which differs from
    toggling once. -/
theorem enabled_toggled_toggled_ne (now : Nat) (e : EvaluationConfig) :
    (toggled toISOString now (toggled toISOString now e)).enabled
      ≠ (toggled toISOString now e).enabled := by
  simp only [enabled_toggled, Option.getD_some, Bool.not_not, ne_eq, Option.some.injEq]
  cases e.enabled.getD false <;> decide

/-- `toggleEvaluationEnabled` keeps the two in agreement exactly when the
    record its listener writes is not an element of the reducer's array. When
    it is, the reducer's `map` reads the record the listener has just negated,
    and negates it back. -/
theorem agree_toggleEvaluationEnabled_iff (hw : w.WellFormed) (h : w.Agree)
    (hids : w.StoreIdsDistinct) (id : String) (now : Nat) :
    (w.toggleEvaluationEnabled toISOString id now).Agree
      ↔ ∀ r, w.storeTarget id = some r → r ∉ w.heap.array w.evaluations := by
  obtain ⟨a, ha⟩ := h.exists_store
  rw [agree_iff ha] at h
  have hS := hids.nodup ha
  have hw₁ := hw.toggleInStore toISOString id now
  simp only [toggleEvaluationEnabled, toggleEvaluationEnabledSuccess, Agree,
    storeList_mapMatching hw₁, reducerList_mapMatching hw₁]
  have hf : ∀ e, (if e.id = some id then toggled toISOString now e else e).listed
      = (if e.listed.id = some id then toggled toISOString now e.listed else e.listed).listed :=
    fun e => by simp only [EvaluationConfig.id_listed]; split_ifs <;> rfl
  cases ht : w.storeTarget id with
  | none =>
    have hidx : w.storeIndex id = none := by simpa [storeTarget] using ht
    have hw' : w.toggleInStore toISOString id now = w := by simp [toggleInStore, ht]
    rw [hw', storeList_of_eq ha,
      map_ite_id_of_not_mem (id_ne_of_map_listed h.symm (storeIndex_eq_none ha hidx))]
    simp [h]
  | some r =>
    obtain ⟨a', i, hidx, hi, hr⟩ := storeTarget_spec ht
    obtain ⟨ha', hiS, hid⟩ := storeIndex_spec hidx
    obtain rfl : a = a' := Option.some.inj (ha.symm.trans ha')
    set t := toggled toISOString now
    set S := w.heap.contents a
    set R := w.reducerList
    have hSi : S[i] = w.heap.record r := by simp [S, contents, ← hr]
    have hstore : (w.toggleInStore toISOString id now).storeList = some (S.set i (t S[i])) := by
      rw [storeList_of_eq ((mockEvaluations_toggleInStore toISOString id now).trans ha),
        contents_toggleInStore_of_getElem toISOString hw ht now hS hi hr, hSi]
    have hset : S.map (fun e => if e.id = some id then t e else e) = S.set i (t S[i]) := by
      rw [← hid]; exact map_ite_id_eq_set hS hiS t
    simp only [hstore, Option.map_some', Option.some.injEq, reducerList_toggleInStore]
    constructor
    · -- The record is shared: at index `i` the reducer lists it toggled twice.
      intro hagree r' hr' hmem
      subst hr'
      have hR : (R.map (·.id)).Nodup := by rwa [map_id_of_map_listed h.symm]
      obtain ⟨j, hj, hjr⟩ := List.getElem_of_mem hmem
      have hjR : j < R.length := by simpa [R, reducerList, contents] using hj
      have hiR : i < R.length := by
        rw [← List.length_map R listed, ← h]; simpa using hiS
      have hRi : R[i].id = S[i].id := by
        have := congrArg (fun l : List EvaluationConfig => l[i]?.map (·.id)) h
        simpa [List.getElem?_eq_getElem hiS, List.getElem?_eq_getElem hiR] using this.symm
      obtain rfl : j = i :=
        eq_of_key_eq hR hjR hiR (by rw [hRi, hSi]; simp [R, reducerList, contents, hjr])
      have hjR' : j < (w.heap.contents w.evaluations).length := hjR
      rw [contents_toggleInStore_of_getElem toISOString hw ht now hR hj hjr, ← hSi] at hagree
      have := congrArg (fun l : List EvaluationConfig => l[j]?.map (·.enabled)) hagree
      simp [hiS, hjR', hid, t] at this
      exact enabled_toggled_toggled_ne toISOString now S[j] this.symm
    · intro hnot
      rw [contents_toggleInStore_of_not_mem toISOString hw ht now (hnot r rfl), ← hset]
      exact (map_listed_map_of_map_listed h.symm hf).symm

theorem storeTarget_mem {id : String} {r : Nat} (ht : w.storeTarget id = some r) :
    ∃ a, w.mockEvaluations = some a ∧ r ∈ w.heap.array a := by
  obtain ⟨a, i, hidx, hi, rfl⟩ := storeTarget_spec ht
  exact ⟨a, (storeIndex_spec hidx).1, List.getElem_mem hi⟩

theorem storeTarget_isSome {id : String} {a : Nat} (ha : w.mockEvaluations = some a)
    (hid : ∃ e ∈ w.heap.contents a, e.id = some id) : (w.storeTarget id).isSome := by
  obtain ⟨e, he, hid⟩ := hid
  have : ((w.heap.contents a).findIdx? fun e => e.id == some id).isSome := by
    rw [List.findIdx?_isSome, List.any_eq_true]
    exact ⟨e, he, by simpa using hid⟩
  simpa [storeTarget, storeIndex, ha, Option.isSome_map] using this

/-- While the reducer holds the store's array, toggling any id the store lists
    breaks agreement: the record written is an element of both. -/
theorem not_agree_toggleEvaluationEnabled_of_alias (hw : w.WellFormed) (h : w.Agree)
    (hids : w.StoreIdsDistinct) (halias : w.mockEvaluations = some w.evaluations) {id : String}
    (hid : ∃ e ∈ w.reducerList, e.id = some id) (now : Nat) :
    ¬ (w.toggleEvaluationEnabled toISOString id now).Agree := by
  rw [agree_toggleEvaluationEnabled_iff toISOString hw h hids]
  obtain ⟨r, ht⟩ := Option.isSome_iff_exists.mp (storeTarget_isSome halias hid)
  obtain ⟨a, ha, hr⟩ := storeTarget_mem ht
  obtain rfl : w.evaluations = a := Option.some.inj (halias.symm.trans ha)
  exact fun hnot => hnot r ht hr

end World

open World

/-- The first mount's load, completed: the store is a new array of the two
    `MOCK_EVALUATIONS` records, and the reducer holds that same array. -/
theorem loaded_initial :
    initial.afterMount.loadTimerFired = ⟨⟨MOCK_EVALUATIONS, [[0, 1], [0, 1]]⟩, some 1, 1, false, 0⟩ :=
  rfl

theorem wellFormed_loaded_initial : initial.afterMount.loadTimerFired.WellFormed :=
  wellFormed_initial.initializeStore.loadEvaluations.loadTimerFired

theorem createEvaluation_eq_appended (w : World) (toISOString : Nat → String)
    (evaluation : EvaluationConfig) (now : Nat) :
    w.createEvaluation toISOString evaluation now
      = appended (newEvaluation toISOString evaluation now) w := rfl

/-- Once the first mount's load has completed, `createEvaluation` leaves the new
    evaluation in the store once and in the reducer twice, whatever the
    evaluation and the time. -/
theorem createEvaluation_after_mount_lists_twice (toISOString : Nat → String)
    (evaluation : EvaluationConfig) (now : Nat) :
    let w : World :=
      run toISOString initial.afterMount [.loadTimerFired, .createEvaluation evaluation now]
    w.storeList = some (MOCK_EVALUATIONS ++ [newEvaluation toISOString evaluation now]) ∧
      w.reducerList = MOCK_EVALUATIONS ++ [newEvaluation toISOString evaluation now,
        newEvaluation toISOString evaluation now] ∧
      ¬ w.Agree := by
  have hw := wellFormed_loaded_initial
  have ha : initial.afterMount.loadTimerFired.mockEvaluations = some 1 := by rw [loaded_initial]
  have hS : initial.afterMount.loadTimerFired.heap.contents 1 = MOCK_EVALUATIONS := by
    rw [loaded_initial]; rfl
  have hagree : initial.afterMount.loadTimerFired.Agree := agree_loadTimerFired ha (by decide)
  simp only [run_cons, run_nil, step, createEvaluation_eq_appended]
  refine ⟨by rw [storeList_appended _ hw ha, hS], ?_, ?_⟩
  · rw [reducerList_appended _ hw ha, if_pos (by rw [loaded_initial]), hS]
    simp
  · rw [agree_appended_iff _ hw hagree, loaded_initial]
    simp

/-- Once the first mount's load has completed, toggling a mock evaluation
    breaks agreement. -/
theorem toggleEvaluationEnabled_after_load_diverges :
    let w : World := run toString initial.afterMount [.loadTimerFired]
    w.mockEvaluations = some w.evaluations ∧ ¬ (w.toggleEvaluationEnabled toString "eval-1" 0).Agree :=
  have ha : initial.afterMount.loadTimerFired.mockEvaluations = some 1 := by rw [loaded_initial]
  ⟨by rw [run_cons, run_nil, step, loaded_initial],
    not_agree_toggleEvaluationEnabled_of_alias toString wellFormed_loaded_initial
      (agree_loadTimerFired ha (by decide)) (by rw [loaded_initial]; unfold StoreIdsDistinct; decide)
      (by rw [loaded_initial]) (by rw [loaded_initial]; decide) 0⟩

end Evaluations

end PosthogFrontend
