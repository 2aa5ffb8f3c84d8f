import PosthogFrontend.Evaluations.Logic
import PosthogFrontend.Js.Runtime

/-!
# `llmEvaluationLogic`

The editor of a single evaluation. kea keys the logic by the `evaluationId` of its
props, so there is one editor per evaluation, and one more for `'new'`, the form of an
evaluation not created yet. Every editor works on the heap of `Evaluations.Heap`, next to
the list logic of `Evaluations.Logic`, and reads and writes the same
`window.mockEvaluations`.

What an editor shares with the list is decided by object identity. `loadEvaluation`
looks the evaluation up with `find`, which returns the store's own object, and the
`evaluation` reducer holds that object, so the list's toggle, which assigns to the
object's fields, changes what the editor shows. A setter builds a new object
(`{ ...state, name }`), so after its first edit the editor holds a copy of its own. A
save writes the editor's evaluation back: a new one is built as the list's
`createEvaluation` builds one and pushed to the store, and an existing one replaces the
store's element as the list's `updateEvaluation` does. Neither write happens while the
store is undefined.

The save listener first waits 300 ms and only then reads the form, so a save is two
events: `saveEvaluation`, whose reducer marks the form as submitting, and
`saveTimerFired`, when one waiting listener goes on with the values of that moment. Any
number of saves may be waiting. The other listeners reach their dispatches without
waiting and run to completion.

## Main definitions

* `EvaluationRun`, `MOCK_RUNS`: The runs the mock backend lists.
* `Editor`: The logic's reducers, and the saves waiting out their delay.
* `draftEvaluation`: The evaluation `loadEvaluation` prepares for `'new'`.
* `Editor.loadEvaluation`, `Editor.loadEvaluationRuns`, `Editor.refreshEvaluationRuns`,
  `Editor.setEvaluation` and its five setters, `Editor.resetEvaluation`,
  `Editor.saveEvaluation`, `Editor.saveTimerFired`, `Editor.afterMount`.
* `EditorEvent`, `Editor.step`: One event for one editor.
* `formValid`: The selector, `none` where it throws.
-/

namespace PosthogFrontend

namespace Evaluations

open Js

/-- An `EvaluationRun`, with the ids it is listed by. Its verdict and status are read by
    the `runsSummary` selector only. -/
structure EvaluationRun where
  id : String
  evaluation_id : String
deriving DecidableEq, Repr

/-- The module constant `MOCK_RUNS`: the runs of `eval-1` and of `eval-2`. -/
def MOCK_RUNS : List (String × List EvaluationRun) :=
  [("eval-1", [⟨"run-1", "eval-1"⟩, ⟨"run-2", "eval-1"⟩, ⟨"run-3", "eval-1"⟩]),
   ("eval-2", [⟨"run-4", "eval-2"⟩])]

/-- The state of one editor: whether kea has mounted it, its reducers, and how many
    `saveEvaluation` listeners are still waiting out their 300 ms. `evaluation` is the
    address of the object the reducer holds. -/
structure Editor where
  mounted : Bool := false
  evaluation : Option Nat := none
  evaluationRuns : List EvaluationRun := []
  evaluationLoading : Bool := false
  evaluationFormSubmitting : Bool := false
  runsLoading : Bool := false
  hasUnsavedChanges : Bool := false
  pendingSaves : Nat := 0
deriving DecidableEq, Repr

/-- The evaluation `loadEvaluation` prepares for `'new'`, with a condition id read from
    `Date.now()`. -/
def draftEvaluation (now : Nat) : EvaluationConfig where
  name := some ""
  description := some ""
  enabled := some true
  prompt := some ""
  conditions := some [⟨"cond-" ++ toString now, 10, []⟩]

namespace Editor

variable (ed : Editor) (evaluationId : String) (w : World) (toISOString : Nat → String)

/-- `loadEvaluationSuccess(evaluation)`. -/
def loadEvaluationSuccess (evaluation : Option Nat) : Editor :=
  { ed with evaluation := evaluation, evaluationLoading := false, hasUnsavedChanges := false }

/-- `saveEvaluationSuccess(evaluation)`. -/
def saveEvaluationSuccess (evaluation : Option Nat) : Editor :=
  { ed with evaluation := evaluation, evaluationFormSubmitting := false,
            hasUnsavedChanges := false }

/-- `loadEvaluationRunsSuccess(runs)`. -/
def loadEvaluationRunsSuccess (runs : List EvaluationRun) : Editor :=
  { ed with evaluationRuns := runs, runsLoading := false }

/-- `resetEvaluation`. -/
def resetEvaluation : Editor := { ed with evaluation := none, hasUnsavedChanges := false }

/-- `saveEvaluation`: the reducer, and one more listener waiting out its delay. -/
def saveEvaluation : Editor :=
  { ed with evaluationFormSubmitting := true, pendingSaves := ed.pendingSaves + 1 }

/-- A setter's reducer, `state ? { ...state, field } : null`: a new object when there is
    an evaluation. `hasUnsavedChanges` is set either way. -/
def setEvaluation (f : EvaluationConfig → EvaluationConfig) : World × Editor :=
  match ed.evaluation with
  | some r =>
    let p := w.alloc (f (w.heap.record r))
    (p.1, { ed with evaluation := some p.2, hasUnsavedChanges := true })
  | none => (w, { ed with hasUnsavedChanges := true })

/-- `setEvaluationName(name)`. -/
def setEvaluationName (name : String) : World × Editor :=
  ed.setEvaluation w fun e => { e with name := some name }

/-- `setEvaluationDescription(description)`. -/
def setEvaluationDescription (description : String) : World × Editor :=
  ed.setEvaluation w fun e => { e with description := some description }

/-- `setEvaluationPrompt(prompt)`. -/
def setEvaluationPrompt (prompt : String) : World × Editor :=
  ed.setEvaluation w fun e => { e with prompt := some prompt }

/-- `setEvaluationEnabled(enabled)`. -/
def setEvaluationEnabled (enabled : Bool) : World × Editor :=
  ed.setEvaluation w fun e => { e with enabled := some enabled }

/-- `setTriggerConditions(conditions)`. -/
def setTriggerConditions (conditions : List EvaluationConditionSet) : World × Editor :=
  ed.setEvaluation w fun e => { e with conditions := some conditions }

/-- `values.evaluation!` as a spread reads it: `null` spreads as `{}`. -/
def current : EvaluationConfig := (ed.evaluation.map w.heap.record).getD {}

/-- `loadEvaluation`: its reducer sets `evaluationLoading`, and its listener hands
    `loadEvaluationSuccess` the store's own object with the id (`null` if there is none),
    or a new draft for `'new'`. An empty id does neither. -/
def loadEvaluation (now : Nat) : World × Editor :=
  let ed := { ed with evaluationLoading := true }
  if evaluationId ≠ "" ∧ evaluationId ≠ "new" then
    (w, ed.loadEvaluationSuccess (w.storeTarget evaluationId))
  else if evaluationId = "new" then
    let p := w.alloc (draftEvaluation now)
    (p.1, ed.loadEvaluationSuccess (some p.2))
  else (w, ed)

/-- `loadEvaluationRuns`: `MOCK_RUNS[evaluationId] || []`, for a stored evaluation only. -/
def loadEvaluationRuns : Editor :=
  let ed := { ed with runsLoading := true }
  if evaluationId ≠ "" ∧ evaluationId ≠ "new" then
    ed.loadEvaluationRunsSuccess ((MOCK_RUNS.lookup evaluationId).getD [])
  else ed

/-- `refreshEvaluationRuns`: its reducer sets `runsLoading`, and its listener dispatches
    `loadEvaluationRuns`. -/
def refreshEvaluationRuns : Editor :=
  { ed with runsLoading := true }.loadEvaluationRuns evaluationId

/-- The `saveEvaluation` listener after its delay. For `'new'` it builds the evaluation
    as `createEvaluation` does and pushes it to the store; otherwise it replaces the
    store's element with the id by `{ ...element, ...values.evaluation!, updated_at }` and
    hands `saveEvaluationSuccess` the evaluation it holds. -/
def saveListener (now : Nat) : World × Editor :=
  if evaluationId = "new" then
    let p := w.alloc (newEvaluation toISOString (ed.current w) now)
    (p.1.pushToStore p.2, ed.saveEvaluationSuccess (some p.2))
  else
    (w.replaceInStore toISOString evaluationId (ed.current w) now,
      ed.saveEvaluationSuccess ed.evaluation)

/-- One waiting save goes on; nothing happens when none is waiting. -/
def saveTimerFired (now : Nat) : World × Editor :=
  match ed.pendingSaves with
  | 0 => (w, ed)
  | n + 1 => { ed with pendingSaves := n }.saveListener evaluationId w toISOString now

/-- `afterMount`: `loadEvaluation`, then `loadEvaluationRuns` unless the id is `'new'`. -/
def afterMount (now : Nat) : World × Editor :=
  let p := ed.loadEvaluation evaluationId w now
  if evaluationId ≠ "new" then (p.1, p.2.loadEvaluationRuns evaluationId) else p

@[simp] theorem evaluation_loadEvaluationRuns :
    (ed.loadEvaluationRuns evaluationId).evaluation = ed.evaluation := by
  unfold loadEvaluationRuns
  split <;> rfl

@[simp] theorem evaluation_refreshEvaluationRuns :
    (ed.refreshEvaluationRuns evaluationId).evaluation = ed.evaluation :=
  evaluation_loadEvaluationRuns _ _

@[simp] theorem mounted_loadEvaluationRuns :
    (ed.loadEvaluationRuns evaluationId).mounted = ed.mounted := by
  unfold loadEvaluationRuns
  split <;> rfl

@[simp] theorem pendingSaves_loadEvaluationRuns :
    (ed.loadEvaluationRuns evaluationId).pendingSaves = ed.pendingSaves := by
  unfold loadEvaluationRuns
  split <;> rfl

end Editor

/-- What the editor's view does to it. `mount` and `loadEvaluation` carry the
    `Date.now()` that `loadEvaluation` reads, `saveTimerFired` the one the save reads. -/
inductive EditorEvent where
  | mount (now : Nat)
  | setEvaluationName (name : String)
  | setEvaluationDescription (description : String)
  | setEvaluationPrompt (prompt : String)
  | setEvaluationEnabled (enabled : Bool)
  | setTriggerConditions (conditions : List EvaluationConditionSet)
  | loadEvaluation (now : Nat)
  | loadEvaluationRuns
  | refreshEvaluationRuns
  | saveEvaluation
  | saveTimerFired (now : Nat)
  | resetEvaluation
deriving DecidableEq, Repr

namespace Editor

variable (ed : Editor) (evaluationId : String) (w : World) (toISOString : Nat → String)

/-- One event for the editor of `evaluationId`. kea mounts a keyed logic once, with its
    reducers at their defaults, and an action of a logic that is not mounted reaches no
    reducer and no listener. -/
def step (e : EditorEvent) : World × Editor :=
  if ed.mounted then
    match e with
    | .mount _ => (w, ed)
    | .setEvaluationName name => ed.setEvaluationName w name
    | .setEvaluationDescription description => ed.setEvaluationDescription w description
    | .setEvaluationPrompt prompt => ed.setEvaluationPrompt w prompt
    | .setEvaluationEnabled enabled => ed.setEvaluationEnabled w enabled
    | .setTriggerConditions conditions => ed.setTriggerConditions w conditions
    | .loadEvaluation now => ed.loadEvaluation evaluationId w now
    | .loadEvaluationRuns => (w, ed.loadEvaluationRuns evaluationId)
    | .refreshEvaluationRuns => (w, ed.refreshEvaluationRuns evaluationId)
    | .saveEvaluation => (w, ed.saveEvaluation)
    | .saveTimerFired now => ed.saveTimerFired evaluationId w toISOString now
    | .resetEvaluation => (w, ed.resetEvaluation)
  else
    match e with
    | .mount now => ({ mounted := true } : Editor).afterMount evaluationId w now
    | _ => (w, ed)

end Editor

/-- The `formValid` selector, `none` where it throws. It reads `name.length`, then
    `prompt.length`, then the conditions, each only once the test before it has passed,
    and reading the `length` of a key the object lacks throws a `TypeError`. -/
def formValid : Option EvaluationConfig → Option Bool
  | none => some false
  | some e => do
    let name ← e.name
    if jsLength name < 3 then return false
    let prompt ← e.prompt
    if jsLength prompt < 10 then return false
    let conditions ← e.conditions
    return 0 < conditions.length &&
      conditions.all fun c => 0 < c.rollout_percentage && c.rollout_percentage ≤ 100

end Evaluations

end PosthogFrontend
