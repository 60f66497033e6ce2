import HumanGate.Model.Data

set_option autoImplicit false

/-! # Workflow definitions: routing, retries, priorities

The pure part of the controller: which stage a run starts in, which transition a trigger
takes, and the retry policy (`app/orchestration/controller.py`, `retry.py`, `priority.py`).
A list of rows stands for the order in which the query returns rows that tie.
-/

namespace HumanGate

open Lib.Calendar

/-! ## Stages and transitions -/

namespace WorkflowDefinition

/-- The stages in the order of `ORDER BY ordinal`. -/
def stagesByOrdinal (d : WorkflowDefinition) : List WorkflowStage :=
  d.stages.insertionSort fun a b => a.ordinal ≤ b.ordinal

/-- The stage `start_run` enqueues. -/
def firstStage (d : WorkflowDefinition) : Option WorkflowStage := d.stagesByOrdinal.head?

/-- The row of a stage; at most one, by the unique index. -/
def stageRow (d : WorkflowDefinition) (stage : ContentStage) : Option WorkflowStage :=
  d.stages.find? fun s => s.stageKey == stage

/-- The transitions `_find_transition` looks at, in its order. -/
def transitionsFrom (d : WorkflowDefinition) (stage : ContentStage)
    (trigger : WorkflowTransitionTrigger) : List WorkflowTransition :=
  (d.transitions.filter fun t => t.fromStage == stage && t.trigger == trigger).insertionSort
    fun a b => a.priority ≤ b.priority

end WorkflowDefinition

/-- The first transition whose condition holds. A condition that raises ends the search. -/
def firstMatching (context : JsonObject) : List WorkflowTransition →
    Except Err (Option WorkflowTransition)
  | [] => .ok none
  | t :: rest =>
      match evaluateCondition t.condition context with
      | .error e => .error (.condition e)
      | .ok true => .ok (some t)
      | .ok false => firstMatching context rest

def findTransition (d : WorkflowDefinition) (fromStage : ContentStage)
    (trigger : WorkflowTransitionTrigger) (context : JsonObject) :
    Except Err (Option WorkflowTransition) :=
  firstMatching context (d.transitionsFrom fromStage trigger)

/-- `_get_stage_def`. -/
def getStageDef (d : WorkflowDefinition) (stage : ContentStage) : Except Err WorkflowStage :=
  match d.stageRow stage with
  | some row => .ok row
  | none => .error (.noStageRow stage.value)

/-- `_definition_id`, and the row it points to. -/
def definitionOf (cfg : Config) (rid : RunId) (run : PipelineRun) :
    Except Err WorkflowDefinition :=
  match run.definitionId.bind cfg.definition with
  | some d => .ok d
  | none => .error (.noDefinition rid)

/-! ## Retry policy -/

/-- `compute_backoff_seconds`, in the unit of instants. `jitter` is the random draw. -/
def computeBackoff (attempt base multiplier maxSeconds jitter : Nat) : Nat :=
  min jitter (seconds (min (base * multiplier ^ (max attempt 1 - 1)) maxSeconds))

def retryableMarkers : List String :=
  ["timeout", "timed out", "connection reset", "connection refused",
    "temporarily unavailable", "lease lost", "rate limit", "503", "429"]

/-- `marker in text`. -/
def containsText (marker text : List Char) : Bool := text.tails.any fun t => marker.isPrefixOf t

/-- The markers are ASCII, and no other character lower-cases into one of their letters alone
(`İ` becomes `i` and a combining dot, the Kelvin sign a `k`, which no marker has). -/
def isRetryable (errorMessage : String) : Bool :=
  let lowered := errorMessage.toList.map Char.toLower
  retryableMarkers.any fun marker => containsText marker.toList lowered

/-! ## Priorities -/

def basePriorityForTier (cfg : Config) (tier : Nat) : Int :=
  tier * cfg.settings.workspaceTierPriorityWeight

/-- The base priority of a workspace. -/
def workspacePriority (cfg : Config) (ws : WorkspaceId) : Int :=
  basePriorityForTier cfg ((cfg.priorityTier ws).getD 0)

def computeAgeBoost (cfg : Config) (createdAt now : Instant) : Nat :=
  if cfg.settings.assignmentAgeBoostIntervalSeconds = 0 then 0
  else min ((now - createdAt) / seconds cfg.settings.assignmentAgeBoostIntervalSeconds
      * cfg.settings.assignmentAgeBoostPerInterval) cfg.settings.assignmentAgeBoostMax

def effectivePriority (cfg : Config) (priority : Int) (createdAt now : Instant) : Int :=
  priority + computeAgeBoost cfg createdAt now

/-! ## What the lookups return -/

theorem firstMatching_mem {context : JsonObject} {t : WorkflowTransition} :
    ∀ {ts : List WorkflowTransition}, firstMatching context ts = .ok (some t) → t ∈ ts := by
  intro ts
  induction ts with
  | nil => intro h; cases h
  | cons u rest ih =>
      intro h
      unfold firstMatching at h
      split at h
      · cases h
      · cases h
        exact List.mem_cons_self
      · exact List.mem_cons_of_mem _ (ih h)

/-- A transition that is taken is one of the definition's, from the given stage and with the
given trigger. -/
theorem findTransition_spec {d : WorkflowDefinition} {stage : ContentStage}
    {trigger : WorkflowTransitionTrigger} {context : JsonObject} {t : WorkflowTransition}
    (h : findTransition d stage trigger context = .ok (some t)) :
    t ∈ d.transitions ∧ t.fromStage = stage ∧ t.trigger = trigger := by
  have hm := firstMatching_mem h
  unfold WorkflowDefinition.transitionsFrom at hm
  rw [List.mem_insertionSort, List.mem_filter] at hm
  obtain ⟨hmem, hp⟩ := hm
  simp only [Bool.and_eq_true, beq_iff_eq] at hp
  exact ⟨hmem, hp.1, hp.2⟩

theorem stageRow_key {d : WorkflowDefinition} {stage : ContentStage} {row : WorkflowStage}
    (h : d.stageRow stage = some row) : row.stageKey = stage := by
  have := List.find?_some h
  simpa using this

/-- The unique index: a stage row is the row of its key. -/
theorem stageRow_of_mem {d : WorkflowDefinition} {row : WorkflowStage} (h : row ∈ d.stages) :
    d.stageRow row.stageKey = some row := by
  have hu := d.stages_unique
  unfold WorkflowDefinition.stageRow
  generalize d.stages = stages at h hu
  induction stages with
  | nil => cases h
  | cons r rest ih =>
      rw [List.map_cons, List.nodup_cons] at hu
      rw [List.find?_cons]
      rcases List.mem_cons.mp h with rfl | hrest
      · simp
      · have hne : (r.stageKey == row.stageKey) = false := by
          rw [beq_eq_false_iff_ne]
          intro heq
          exact hu.1 (heq ▸ List.mem_map_of_mem hrest)
        rw [hne]
        exact ih hrest hu.2

theorem firstStage_mem {d : WorkflowDefinition} {row : WorkflowStage}
    (h : d.firstStage = some row) : row ∈ d.stages := by
  have := List.mem_of_mem_head? h
  unfold WorkflowDefinition.stagesByOrdinal at this
  rwa [List.mem_insertionSort] at this

theorem getStageDef_ok {d : WorkflowDefinition} {stage : ContentStage} {row : WorkflowStage}
    (h : getStageDef d stage = .ok row) : d.stageRow stage = some row := by
  unfold getStageDef at h
  split at h
  · cases h; assumption
  · cases h

theorem definitionOf_ok {cfg : Config} {rid : RunId} {run : PipelineRun} {d : WorkflowDefinition}
    (h : definitionOf cfg rid run = .ok d) : run.definitionId.bind cfg.definition = some d := by
  unfold definitionOf at h
  split at h
  · cases h; assumption
  · cases h

end HumanGate
