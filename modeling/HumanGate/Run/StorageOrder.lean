import Mathlib
import HumanGate.Lib.Ties
import HumanGate.Model.Desk
import HumanGate.Run.Routing

set_option autoImplicit false

/-! # Routing and the order of storage

`_find_transition` orders the transitions by priority and takes the first whose condition holds. The
query leaves open in which order transitions of one priority come. The choice does not depend on it
exactly if the transitions of the smallest priority at which the search could stop lead to one stage
(`OrderFree`). If that holds of every result and every decision that a run hears, the stages that
the run visits are a function of its definition and of what it hears (`routing_order_iff`).
-/

namespace HumanGate

open Lib Lib.Calendar

/-! ## What a search answers -/

/-- What a search does at a transition: stop with its stage or with an exception, or go on. -/
def WorkflowTransition.leads (context : JsonObject) (t : WorkflowTransition) :
    Option (Except Err ContentStage) :=
  match evaluateCondition t.condition context with
  | .error e => some (.error (.condition e))
  | .ok true => some (.ok t.toStage)
  | .ok false => none

/-- The stage that a search through the rows of a query leads to. -/
def chosenStage (context : JsonObject) (rows : List WorkflowTransition) :
    Except Err (Option ContentStage) :=
  (firstMatching context rows).map (Option.map WorkflowTransition.toStage)

/-- The rows that the query of `_find_transition` selects. -/
def WorkflowDefinition.edges (d : WorkflowDefinition) (fromStage : ContentStage)
    (trigger : WorkflowTransitionTrigger) : List WorkflowTransition :=
  d.transitions.filter fun t => t.fromStage == fromStage && t.trigger == trigger

/-- An order in which the query may return its rows. -/
abbrev WorkflowDefinition.Answers (d : WorkflowDefinition) (fromStage : ContentStage)
    (trigger : WorkflowTransitionTrigger) (rows : List WorkflowTransition) : Prop :=
  Ties.Answer WorkflowTransition.priority (d.edges fromStage trigger) rows

/-- The transitions at which the search could stop lead to one stage, or all raise. -/
abbrev WorkflowDefinition.OrderFree (d : WorkflowDefinition) (fromStage : ContentStage)
    (trigger : WorkflowTransitionTrigger) (context : JsonObject) : Prop :=
  Ties.Settled WorkflowTransition.priority (WorkflowTransition.leads context)
    (d.edges fromStage trigger)

/-- The outcome of a search, as `_find_transition` returns it. -/
def searchOutcome : Option (Except Err ContentStage) → Except Err (Option ContentStage)
  | none => .ok none
  | some (.error e) => .error e
  | some (.ok stage) => .ok (some stage)

theorem searchOutcome_injective : Function.Injective searchOutcome := by
  intro x y h
  match x, y, h with
  | none, none, _ => rfl
  | some (.error _), some (.error _), h => rw [Except.error.inj h]
  | some (.ok _), some (.ok _), h => rw [Option.some.inj (Except.ok.inj h)]

theorem chosenStage_eq (context : JsonObject) (rows : List WorkflowTransition) :
    chosenStage context rows
      = searchOutcome (rows.findSome? (WorkflowTransition.leads context)) := by
  induction rows with
  | nil => rfl
  | cons t rest ih =>
      unfold chosenStage at ih ⊢
      rw [List.findSome?_cons, firstMatching]
      unfold WorkflowTransition.leads at ih ⊢
      cases evaluateCondition t.condition context with
      | error e => rfl
      | ok holds =>
          cases holds with
          | true => rfl
          | false => exact ih

/-- **When the order of storage does not matter.** -/
theorem orderFree_iff (d : WorkflowDefinition) (fromStage : ContentStage)
    (trigger : WorkflowTransitionTrigger) (context : JsonObject) :
    (∀ l l', d.Answers fromStage trigger l → d.Answers fromStage trigger l' →
      chosenStage context l = chosenStage context l') ↔ d.OrderFree fromStage trigger context := by
  unfold WorkflowDefinition.OrderFree
  rw [← Ties.settled_iff]
  constructor
  · intro h l l' hl hl'
    have hchosen := h l l' hl hl'
    rw [chosenStage_eq, chosenStage_eq] at hchosen
    exact searchOutcome_injective hchosen
  · intro h l l' hl hl'
    rw [chosenStage_eq, chosenStage_eq, h l l' hl hl']

/-- The model's own order is one of them. -/
theorem transitionsFrom_answers (d : WorkflowDefinition) (fromStage : ContentStage)
    (trigger : WorkflowTransitionTrigger) :
    d.Answers fromStage trigger (d.transitionsFrom fromStage trigger) where
  perm := List.perm_insertionSort _ _
  ordered := List.pairwise_insertionSort _ _

/-! ## One definition in two orders of storage -/

/-- One definition, its transitions stored in another order. -/
structure WorkflowDefinition.SameContent (d d' : WorkflowDefinition) : Prop where
  stages : d'.stages = d.stages
  transitions : d'.transitions.Perm d.transitions

namespace WorkflowDefinition.SameContent

variable {d d' : WorkflowDefinition} {fromStage : ContentStage}
    {trigger : WorkflowTransitionTrigger}

theorem answers {rows : List WorkflowTransition} (h : d.SameContent d')
    (hrows : d'.Answers fromStage trigger rows) : d.Answers fromStage trigger rows :=
  ⟨hrows.perm.trans (h.transitions.filter _), hrows.ordered⟩

/-- Every answer is the order of the rows in some storage. -/
theorem of_answers {rows : List WorkflowTransition} (h : d.Answers fromStage trigger rows) :
    ∃ d', d.SameContent d' ∧ d'.transitionsFrom fromStage trigger = rows := by
  let p : WorkflowTransition → Bool := fun t => t.fromStage == fromStage && t.trigger == trigger
  have hall : ∀ t ∈ rows, p t = true := fun t ht =>
    (List.mem_filter.mp (h.perm.mem_iff.mp ht)).2
  refine ⟨⟨d.stages, rows ++ d.transitions.filter fun t => ! p t, d.stages_unique⟩, ⟨rfl, ?_⟩, ?_⟩
  · exact (h.perm.append_right _).trans (List.filter_append_perm p d.transitions)
  · show ((rows ++ d.transitions.filter fun t => ! p t).filter p).insertionSort _ = rows
    have hothers : (d.transitions.filter fun t => ! p t).filter p = [] := by
      rw [List.filter_eq_nil_iff]
      intro t ht
      have hnot := (List.mem_filter.mp ht).2
      simpa using hnot
    rw [List.filter_append, hothers, List.append_nil, List.filter_eq_self.mpr hall]
    exact h.ordered.insertionSort_eq

theorem firstStage (h : d.SameContent d') : d'.firstStage = d.firstStage := by
  unfold WorkflowDefinition.firstStage WorkflowDefinition.stagesByOrdinal
  rw [h.stages]

/-- Where the order does not matter, both are routed alike. -/
theorem chosenStage {context : JsonObject} (h : d.SameContent d')
    (hfree : d.OrderFree fromStage trigger context) :
    HumanGate.chosenStage context (d'.transitionsFrom fromStage trigger)
      = HumanGate.chosenStage context (d.transitionsFrom fromStage trigger) :=
  (orderFree_iff d fromStage trigger context).mpr hfree _ _
    (h.answers (transitionsFrom_answers d' fromStage trigger))
    (transitionsFrom_answers d fromStage trigger)

end WorkflowDefinition.SameContent

/-- The same definitions, in some order of storage. Nothing else of the configuration matters. -/
def Config.Reorders (cfg cfg' : Config) : Prop :=
  ∀ i, Option.Rel WorkflowDefinition.SameContent (cfg.definition i) (cfg'.definition i)

theorem Config.Reorders.get {cfg cfg' : Config} (h : cfg.Reorders cfg') {i : DefinitionId}
    {d' : WorkflowDefinition} (hd' : cfg'.definition i = some d') :
    ∃ d, cfg.definition i = some d ∧ d.SameContent d' := by
  have hrel := h i
  rw [hd'] at hrel
  cases hd : cfg.definition i with
  | none =>
      rw [hd] at hrel
      exact nomatch hrel
  | some d =>
      rw [hd] at hrel
      cases hrel with
      | some hsame => exact ⟨d, rfl, hsame⟩

/-! ## What a run hears and visits -/

/-- A result or a decision, as it reaches the routing of a run. -/
structure Message where
  fromStage : ContentStage
  trigger : WorkflowTransitionTrigger
  context : JsonObject

/-- The message that an operation brings, and the run it is for. -/
def Op.message (s : Db) (o : Op) : Option (RunId × Message) :=
  match o.reports, o.delivers s with
  | some (aid, result), _ =>
      (s.assignments[aid]?).map fun a => (a.pipelineRunId, ⟨a.stage, .onSuccess, result⟩)
  | none, some (gid, approved) =>
      (s.gates[gid]?).map fun g => (g.pipelineRunId, ⟨g.stage, reviewTrigger approved, []⟩)
  | none, none => none

/-- The stage that a message leads to: the one chosen, or the stage itself, to end there. -/
def WorkflowDefinition.nextStage (d : WorkflowDefinition) (m : Message) : Option ContentStage :=
  match chosenStage m.context (d.transitionsFrom m.fromStage m.trigger) with
  | .ok (some stage) => some stage
  | .ok none => some m.fromStage
  | .error _ => none

theorem WorkflowDefinition.SameContent.nextStage {d d' : WorkflowDefinition} {m : Message}
    (h : d.SameContent d') (hfree : d.OrderFree m.fromStage m.trigger m.context) :
    d'.nextStage m = d.nextStage m := by
  unfold WorkflowDefinition.nextStage
  rw [h.chosenStage hfree]

/-- The stage of the run that an operation enters, if it is not rolled back. -/
def Op.visit (cfg : Config) (s : Db) (o : Op) (rid : RunId) : Option ContentStage :=
  match (o.call cfg s).raised, (o.call cfg s).entered with
  | none, some (r, stage) => if r = rid then some stage else none
  | _, _ => none

variable {cfg : Config} {s : Db} {o : Op} {rid : RunId}

theorem visit_some {stage : ContentStage} (h : o.visit cfg s rid = some stage) :
    (o.call cfg s).raised = none ∧ (o.call cfg s).entered = some (rid, stage) := by
  unfold Op.visit at h
  split at h
  · rename_i r st hraised hentered
    split at h
    · rename_i hr
      cases h
      rw [hraised, hentered, hr]
      exact ⟨rfl, rfl⟩
    · exact nomatch h
  · exact nomatch h

/-- What an operation of the log did for a run: the message it brought, and the stage entered. -/
structure Visit where
  message : Option Message
  stage : ContentStage

/-- The visits of a run. Each operation finds the definitions in an order of its own. -/
def trail (rid : RunId) : Db → List (Config × Op) → List Visit
  | _, [] => []
  | s, (cfg, o) :: rest =>
      match o.visit cfg s rid with
      | none => trail rid (exec cfg s o) rest
      | some stage => ⟨(o.message s).map Prod.snd, stage⟩ :: trail rid (exec cfg s o) rest

def afterSteps (s : Db) (steps : List (Config × Op)) : Db :=
  steps.foldl (fun t step => exec step.1 t step.2) s

/-- The results and decisions that moved the run. -/
def heard (rid : RunId) (s : Db) (steps : List (Config × Op)) : List Message :=
  (trail rid s steps).filterMap Visit.message

def visits (rid : RunId) (s : Db) (steps : List (Config × Op)) : List ContentStage :=
  (trail rid s steps).map Visit.stage

/-! ## One step -/

/-- Routing enters the stage that the message leads to. -/
theorem advanceOrFinish_next {now : Instant} {m : Message} {entered : RunId × ContentStage}
    (h : (advanceOrFinish cfg s now rid m.fromStage m.trigger m.context).entered = some entered) :
    entered.1 = rid ∧
      ∃ d, s.board.definition cfg rid = some d ∧ d.nextStage m = some entered.2 := by
  unfold advanceOrFinish at h
  split at h
  · exact nomatch h
  · rename_i run hrun
    split at h
    · exact nomatch h
    · rename_i d hd
      have hdef : s.board.definition cfg rid = some d := by
        unfold Board.definition
        rw [show s.board.runs[rid]? = some run from hrun]
        exact definitionOf_ok hd
      unfold findTransition at h
      split at h
      · exact nomatch h
      · rename_i hfind
        split at h
        · exact nomatch h
        · split at h
          · cases h
            refine ⟨rfl, d, hdef, ?_⟩
            unfold WorkflowDefinition.nextStage chosenStage
            rw [hfind]
            rfl
          · exact nomatch h
      · rename_i t hfind
        split at h
        · exact nomatch h
        · rename_i row hrow
          rw [enterStage_entered] at h
          cases h
          refine ⟨rfl, d, hdef, ?_⟩
          unfold WorkflowDefinition.nextStage chosenStage
          rw [hfind, stageRow_key (getStageDef_ok hrow)]
          rfl

theorem resumeFromReview_next {now : Instant} {gid : GateId} {approved : Bool}
    {entered : RunId × ContentStage}
    (h : (resumeFromReview cfg s now gid approved).entered = some entered) :
    ∃ g d, s.gates[gid]? = some g ∧ entered.1 = g.pipelineRunId ∧
      s.board.definition cfg g.pipelineRunId = some d ∧
      d.nextStage ⟨g.stage, reviewTrigger approved, []⟩ = some entered.2 := by
  have hresumed := resumeFromReview_resumed cfg s now gid approved
  generalize resumeFromReview cfg s now gid approved = c at h hresumed
  cases hresumed with
  | still hnone _ _ _ =>
      rw [hnone] at h
      exact nomatch h
  | failed _ hnone _ =>
      rw [hnone] at h
      exact nomatch h
  | @routed g s2 hg _ hs2 =>
      have hdef : s2.board.definition cfg g.pipelineRunId
          = s.board.definition cfg g.pipelineRunId := by
        rw [hs2, board_updateRun, Board.definition_updateRun (f := PipelineRun.resume) fun _ => rfl]
        rfl
      obtain ⟨hrid, d, hd, hnext⟩ :=
        advanceOrFinish_next (m := ⟨g.stage, reviewTrigger approved, []⟩) h
      exact ⟨g, d, hg, hrid, hdef ▸ hd, hnext⟩

/-- What starts a run enters its first stage. -/
structure StartsRun (cfg : Config) (s : Db) (o : Op) (rid : RunId) (stage : ContentStage) :
    Prop where
  new : rid = s.runs.length
  silent : o.message s = none
  first : ∃ i d first, cfg.definition i = some d ∧ d.firstStage = some first ∧
    stage = first.stageKey ∧ ∃ run, (exec cfg s o).runs[rid]? = some run ∧ run.definitionId = some i

/-- What moves a run is a message, and it enters the stage that the message leads to. -/
def MovesRun (cfg : Config) (s : Db) (o : Op) (rid : RunId) (stage : ContentStage) : Prop :=
  ∃ m d, o.message s = some (rid, m) ∧ s.board.definition cfg rid = some d ∧
    d.nextStage m = some stage

theorem startRun_visit {now : Instant} {ws : WorkspaceId} {item : ItemId}
    {definition : DefinitionId}
    {stage : ContentStage}
    (h : Op.visit cfg s ⟨now, .startRun ws item definition⟩ rid = some stage) :
    StartsRun cfg s ⟨now, .startRun ws item definition⟩ rid stage := by
  obtain ⟨hraised, hentered⟩ := visit_some h
  have hexec : exec cfg s ⟨now, .startRun ws item definition⟩
      = (startRun cfg s now ws item definition).db.flush := by
    unfold exec Call.commit
    rw [hraised]
    rfl
  change (startRun cfg s now ws item definition).entered = _ at hentered
  refine (?_ : _ → _) hexec
  unfold startRun at hentered ⊢
  split at hentered
  · rename_i d _ hd _
    split at hentered
    · exact nomatch hentered
    · rename_i first hfirst
      cases hentered
      intro hexec
      refine ⟨rfl, rfl, definition, d, first, hd, hfirst, rfl, ?_⟩
      rw [hexec]
      exact ⟨_, Table.get_push_new _ _, rfl⟩
  · exact nomatch hentered

/-- **Every entry** of a run is its start, or answers a message. -/
theorem visit_spec {stage : ContentStage} (h : o.visit cfg s rid = some stage) :
    StartsRun cfg s o rid stage ∨ MovesRun cfg s o rid stage := by
  obtain ⟨hraised, hentered⟩ := visit_some h
  obtain ⟨now, action⟩ := o
  -- a delivered decision moves the run of its gate, from the stage of the gate
  have hdelivered : ∀ {gid approved}, Op.reports ⟨now, action⟩ = none →
      Op.delivers s ⟨now, action⟩ = some (gid, approved) →
      MovesRun cfg s ⟨now, action⟩ rid stage := by
    intro gid approved hreports hdelivers
    obtain ⟨s1, hs1⟩ := call_delivered cfg hdelivers
    rcases hs1.applied with ⟨_, hnone⟩ | ⟨_, heq⟩
    · exact absurd (hentered.symm.trans hnone) (Option.some_ne_none _)
    · obtain ⟨g1, d, hg1, hrid, hd, hnext⟩ := resumeFromReview_next (heq.symm.trans hentered)
      obtain ⟨g, hg, hrun, hstage⟩ := hs1.gate g1 hg1
      rw [hrun] at hrid hd
      rw [hstage] at hnext
      have hmessage : Op.message s ⟨now, action⟩
          = some (rid, ⟨g.stage, reviewTrigger approved, []⟩) := by
        unfold Op.message
        rw [hreports, hdelivers]
        show (s.gates[gid]?).map _ = _
        rw [hg, show rid = g.pipelineRunId from hrid]
        rfl
      refine ⟨_, d, hmessage, ?_, hnext⟩
      rw [show rid = g.pipelineRunId from hrid, ← Db.definition_congr cfg hs1.runs]
      exact hd
  cases action with
  | startRun ws item definition => exact .inl (startRun_visit h)
  | submitResult aid success result errorMessage worker jitter =>
      cases success with
      | false =>
          have hnone := (submitResult_failure hraised).1
          exact absurd (hentered.symm.trans hnone) (Option.some_ne_none _)
      | true =>
          obtain ⟨a, ha, ⟨hnone, _⟩ | ⟨s2, hruns, _, _, hcall⟩⟩ := submitResult_success hraised
          · exact absurd (hentered.symm.trans hnone) (Option.some_ne_none _)
          · have hrouted := (congrArg Call.entered hcall).symm.trans hentered
            obtain ⟨hrid, d, hd, hnext⟩ :=
              advanceOrFinish_next (m := ⟨a.stage, .onSuccess, result.getD []⟩) hrouted
            refine .inr ⟨_, d, ?_, ?_, hnext⟩
            · show (s.assignments[aid]?).map _ = _
              rw [ha, show rid = a.pipelineRunId from hrid]
              rfl
            · rw [show rid = a.pipelineRunId from hrid, ← Db.definition_congr cfg hruns]
              exact hd
  | dispatchOne eid =>
      cases hv : deliveredVerdict s eid with
      | none => exact absurd (hentered.symm.trans (dispatchOne_stale hv).2) (Option.some_ne_none _)
      | some v => exact .inr (hdelivered rfl hv)
  | submitAndDeliver gid reviewer approved notes => exact .inr (hdelivered rfl rfl)
  | decideReviewGate ws gid reviewer approved expected notes => exact .inr (hdelivered rfl rfl)
  -- a pause enters no stage
  | pauseForReview rid' stage' timeoutSeconds =>
      have hnone : (pauseForReview s now rid' stage' timeoutSeconds).entered = none := by
        unfold pauseForReview
        split
        · rfl
        · split
          · rfl
          · split
            · rfl
            · rfl
            · split <;> rfl
      exact absurd (hentered.symm.trans hnone) (Option.some_ne_none _)
  | processLeasedJob | dispatchStage | claimAssignment | acknowledge | renewLease
  | recoverAssignment | reapExpiredLeases | reapWorkerAssignments | submitReviewDecision
  | editReviewGateContent | handleStageTimeout =>
      exact absurd (hentered.symm.trans (ofExcept_entered ..)) (Option.some_ne_none _)
  | pollAndLease | reapExpiredJobLeases | handleReviewTimeout | reserveSpend | cancelRun
  | retryFailedJobs => exact nomatch hentered

/-! ## Whole runs -/

/-- The run follows the definition. -/
def Db.Follows (s : Db) (rid : RunId) (i : DefinitionId) : Prop :=
  ∃ run, s.runs[rid]? = some run ∧ run.definitionId = some i

theorem exec_follows {i : DefinitionId} (hsane : s.board.Sane) (h : s.Follows rid i) :
    (exec cfg s o).Follows rid i := by
  have hwrites := exec_writes cfg o fun _ => hsane
  refine hwrites.invariant (I := fun b => ∃ run, b.runs[rid]? = some run ∧
    run.definitionId = some i)
    ?_ h
  rintro b b' hw ⟨run, hrun, hdef⟩
  obtain ⟨run', hrun', hkept, _⟩ := hw.keepsRun hrun
  exact ⟨run', hrun', hkept.trans hdef⟩

/-- Only a start adds runs. -/
theorem exec_runs_length (hsane : s.board.Sane) (h : o.starts = none) :
    (exec cfg s o).runs.length = s.runs.length := by
  have hwrites := exec_writes cfg o fun _ => hsane
  refine hwrites.invariant (I := fun b => b.runs.length = s.runs.length) ?_ rfl
  intro b b' hw hb
  cases hw with
  | startRun hstart _ _ =>
      have hnone : _ ∈ o.starts := hstart
      rw [h] at hnone
      exact nomatch hnone
  | run hf => exact (List.length_modify _ _ _).trans hb
  | newJob | job | newAssignment | assignment | worker | newGate | gate | decision => exact hb

/-- A run that is not there is not there after an operation either, unless it was started. -/
theorem exec_absent (hsane : s.board.Sane) (habsent : s.runs.length ≤ rid)
    (h : o.visit cfg s rid = none) : (exec cfg s o).runs.length ≤ rid := by
  cases hstarts : o.starts with
  | none =>
      rw [exec_runs_length hsane hstarts]
      exact habsent
  | some i =>
      obtain ⟨now, action⟩ := o
      cases action with
      | startRun ws item definition =>
          unfold exec Call.commit
          split
          · exact habsent
          · rename_i hraised
            have hentered : ∀ stage, (startRun cfg s now ws item definition).entered
                ≠ some (rid, stage) := by
              intro stage hentered
              unfold Op.visit at h
              simp only [hraised] at h
              change (startRun cfg s now ws item definition).entered = _ at hentered
              simp only [Op.call, hentered, if_true] at h
              exact nomatch h
            show (startRun cfg s now ws item definition).db.runs.length ≤ rid
            unfold startRun at hentered ⊢
            revert hentered
            split
            · split
              · exact fun _ => habsent
              · -- the new run is another one
                rename_i first _
                intro hentered
                have hother : s.runs.length ≠ rid := fun heq =>
                  hentered first.stageKey (by rw [heq])
                show (s.runs ++ [_]).length ≤ rid
                rw [List.length_append, List.length_singleton]
                exact lt_of_le_of_ne habsent hother
            · exact fun _ => habsent
      | _ => exact nomatch hstarts

variable {i : DefinitionId} {d : WorkflowDefinition} {steps : List (Config × Op)}

/-- A visit that answers a message: if the order of storage does not matter for it, the definition
leads there. -/
def Visit.Answered (d : WorkflowDefinition) (v : Visit) : Prop :=
  ∃ m, v.message = some m ∧
    (d.OrderFree m.fromStage m.trigger m.context → d.nextStage m = some v.stage)

theorem MovesRun.answered {cfg' : Config} {stage : ContentStage} (h : MovesRun cfg' s o rid stage)
    (hcfg : cfg.Reorders cfg') (hfollows : s.Follows rid i) :
    ∃ d, cfg.definition i = some d ∧
      Visit.Answered d ⟨(o.message s).map Prod.snd, stage⟩ := by
  obtain ⟨m, d', hmessage, hd', hnext⟩ := h
  obtain ⟨run, hrun, hdef⟩ := hfollows
  have hd' : cfg'.definition i = some d' := by
    unfold Board.definition at hd'
    rw [show s.board.runs[rid]? = some run from hrun] at hd'
    change run.definitionId.bind cfg'.definition = some d' at hd'
    rw [hdef] at hd'
    exact hd'
  obtain ⟨d, hd, hsame⟩ := hcfg.get hd'
  refine ⟨d, hd, m, by rw [hmessage]; rfl, fun hfree => ?_⟩
  rw [← hsame.nextStage hfree]
  exact hnext

/-- A run that has been started answers messages. -/
theorem trail_follows (hd : cfg.definition i = some d)
    (hsteps : ∀ step ∈ steps, cfg.Reorders step.1)
    (hsane : s.board.Sane) (hfollows : s.Follows rid i) :
    ∀ v ∈ trail rid s steps, v.Answered d := by
  induction steps generalizing s with
  | nil => exact fun v hv => nomatch hv
  | cons step rest ih =>
      obtain ⟨cfg', o⟩ := step
      obtain ⟨hstep, hrest⟩ := List.forall_mem_cons.mp hsteps
      have hlater := ih hrest (exec_sane cfg' o hsane) (exec_follows hsane hfollows)
      unfold trail
      cases hvisit : o.visit cfg' s rid with
      | none => exact hlater
      | some stage =>
          refine List.forall_mem_cons.mpr ⟨?_, hlater⟩
          rcases visit_spec hvisit with hstart | hmove
          · -- it is there already
            obtain ⟨run, hrun, _⟩ := hfollows
            have hlt := (List.getElem?_eq_some_iff.mp hrun).1
            exact absurd hstart.new (Nat.ne_of_lt hlt)
          · obtain ⟨d', hd', hanswered⟩ := hmove.answered hstep hfollows
            rw [hd] at hd'
            cases hd'
            exact hanswered

theorem afterSteps_follows (steps : List (Config × Op)) (hsane : s.board.Sane)
    (h : s.Follows rid i) :
    (afterSteps s steps).Follows rid i := by
  induction steps generalizing s with
  | nil => exact h
  | cons step rest ih => exact ih (exec_sane step.1 step.2 hsane) (exec_follows hsane h)

/-- **The trail of a run**: its start in the first stage, and then answers to messages. -/
theorem trail_spec (hsteps : ∀ step ∈ steps, cfg.Reorders step.1) (hsane : s.board.Sane)
    (habsent : s.runs.length ≤ rid) (hfollows : (afterSteps s steps).Follows rid i) :
    ∃ d first rest, cfg.definition i = some d ∧ d.firstStage = some first ∧
      trail rid s steps = ⟨none, first.stageKey⟩ :: rest ∧ ∀ v ∈ rest, v.Answered d := by
  induction steps generalizing s with
  | nil =>
      obtain ⟨run, hrun, _⟩ := hfollows
      have hlt := (List.getElem?_eq_some_iff.mp hrun).1
      exact absurd habsent (not_le.mpr hlt)
  | cons step steps ih =>
      obtain ⟨cfg', o⟩ := step
      obtain ⟨hstep, hrest⟩ := List.forall_mem_cons.mp hsteps
      have hsane' := exec_sane cfg' o hsane
      unfold trail
      cases hvisit : o.visit cfg' s rid with
      | none => exact ih hrest hsane' (exec_absent hsane habsent hvisit) hfollows
      | some stage =>
          rcases visit_spec hvisit with hstart | ⟨m, d', _, hd', _⟩
          · obtain ⟨j, d', first, hd', hfirst, hstage, hpinned⟩ := hstart.first
            have hj : j = i := by
              obtain ⟨run, hrun, hdef⟩ := hfollows
              obtain ⟨run', hrun', hdef'⟩ := afterSteps_follows steps hsane' hpinned
              have hsame : run = run' := Option.some.inj (hrun.symm.trans hrun')
              rw [← hsame, hdef] at hdef'
              exact (Option.some.inj hdef').symm
            subst hj
            obtain ⟨d, hd, hsame⟩ := hstep.get hd'
            refine ⟨d, first, _, hd, hsame.firstStage ▸ hfirst, ?_,
              trail_follows hd hrest hsane' hpinned⟩
            rw [hstart.silent, hstage]
            rfl
          · -- what is routed is there
            obtain ⟨run, hrun, _⟩ := Option.bind_eq_some_iff.mp hd'
            have hlt := (List.getElem?_eq_some_iff.mp hrun).1
            exact absurd habsent (not_le.mpr hlt)

/-- Where the order of storage does not matter, the stages are those that the messages lead to. -/
theorem answered_stages {vs : List Visit} (hvs : ∀ v ∈ vs, v.Answered d)
    (hfree : ∀ m ∈ vs.filterMap Visit.message, d.OrderFree m.fromStage m.trigger m.context) :
    (vs.map Visit.stage).map some = (vs.filterMap Visit.message).map d.nextStage := by
  induction vs with
  | nil => rfl
  | cons v vs ih =>
      obtain ⟨⟨m, hm, hnext⟩, hvs⟩ := List.forall_mem_cons.mp hvs
      rw [List.filterMap_cons_some hm] at hfree ⊢
      obtain ⟨hfirst, hfree⟩ := List.forall_mem_cons.mp hfree
      rw [List.map_cons, List.map_cons, List.map_cons, ih hvs hfree, hnext hfirst]

/-- A run, and what it visits: its first stage, and where the messages lead. -/
theorem visits_eq (hsteps : ∀ step ∈ steps, cfg.Reorders step.1) (hs : Fresh s)
    (hfollows : (afterSteps s steps).Follows rid i)
    (hfree : ∀ d ∈ cfg.definition i, ∀ m ∈ heard rid s steps,
      d.OrderFree m.fromStage m.trigger m.context) :
    ∃ d first, cfg.definition i = some d ∧ d.firstStage = some first ∧
      (visits rid s steps).map some
        = some first.stageKey :: (heard rid s steps).map d.nextStage := by
  have habsent : s.runs.length ≤ rid := by
    rw [hs.runs]
    exact Nat.zero_le _
  obtain ⟨d, first, rest, hd, hfirst, htrail, hrest⟩ := trail_spec hsteps hs.sane habsent hfollows
  refine ⟨d, first, hd, hfirst, ?_⟩
  have hfree := hfree d hd
  unfold heard visits at *
  rw [htrail] at hfree ⊢
  change ∀ m ∈ rest.filterMap Visit.message, _ at hfree
  show some first.stageKey :: (rest.map Visit.stage).map some = _
  rw [answered_stages hrest hfree]
  rfl

/-- **Routing and the order of storage.** For a stage, a trigger and a context, all orders that a
query by priority may return lead to one stage exactly if the transitions at which the search could
stop do. Two runs of one definition whose messages all meet this, and that hear the same messages,
visit the same stages, in whatever order the transitions are stored at each operation. -/
theorem routing_order_iff (d : WorkflowDefinition) (fromStage : ContentStage)
    (trigger : WorkflowTransitionTrigger) (context : JsonObject) :
    ((∀ l l', d.Answers fromStage trigger l → d.Answers fromStage trigger l' →
        chosenStage context l = chosenStage context l') ↔ d.OrderFree fromStage trigger context) ∧
    ∀ (cfg : Config) (s s' : Db) (steps steps' : List (Config × Op)) (rid rid' : RunId)
      (i : DefinitionId), Fresh s → Fresh s' →
      (∀ step ∈ steps, cfg.Reorders step.1) → (∀ step ∈ steps', cfg.Reorders step.1) →
      (afterSteps s steps).Follows rid i → (afterSteps s' steps').Follows rid' i →
      (∀ d ∈ cfg.definition i, ∀ m ∈ heard rid s steps,
        d.OrderFree m.fromStage m.trigger m.context) →
      heard rid s steps = heard rid' s' steps' → visits rid s steps = visits rid' s' steps' := by
  refine ⟨orderFree_iff d fromStage trigger context, ?_⟩
  intro cfg s s' steps steps' rid rid' i hs hs' hsteps hsteps' hfollows hfollows' hfree hheard
  -- the other run hears the same messages
  have hfree' := hfree
  rw [hheard] at hfree'
  obtain ⟨d, first, hd, hfirst, hvisits⟩ := visits_eq hsteps hs hfollows hfree
  obtain ⟨d', first', hd', hfirst', hvisits'⟩ := visits_eq hsteps' hs' hfollows' hfree'
  -- one definition, so one first stage and one walk
  rw [hd] at hd'
  cases hd'
  rw [hfirst] at hfirst'
  cases hfirst'
  have hsome : (visits rid s steps).map some = (visits rid' s' steps').map some := by
    rw [hvisits, hvisits', hheard]
  exact List.map_injective_iff.mpr (Option.some_injective _) hsome

/-! ## A tie on the desk -/

def toReviewEdge : WorkflowTransition :=
  { fromStage := .scripting, toStage := .review, trigger := .onSuccess, priority := 100 }

def toPublishedEdge : WorkflowTransition := { toReviewEdge with toStage := .published }

/-- The desk's workflow with a second edge out of the script's stage, of the same priority. -/
def tiedWorkflow : WorkflowDefinition := deskWorkflowWith [toPublishedEdge]

/-- The same, with the second edge stored first. -/
def tiedWorkflowReversed : WorkflowDefinition :=
  ⟨deskStages, toPublishedEdge :: deskTransitions, deskWorkflow.stages_unique⟩

theorem tiedWorkflow_sameContent : tiedWorkflow.SameContent tiedWorkflowReversed :=
  ⟨rfl, (List.perm_append_singleton toPublishedEdge deskTransitions).symm⟩

/-- All steps of a list of operations find the same order. -/
def under (d : WorkflowDefinition) (ops : List Op) : List (Config × Op) :=
  ops.map fun o => (configOf d, o)

/-- Two unconditional edges of one priority: by the order of storage, the same report sends the run
to its review or ends it. -/
theorem tie_skips_review :
    (∃ l l', tiedWorkflow.Answers .scripting .onSuccess l ∧
      tiedWorkflow.Answers .scripting .onSuccess l' ∧ chosenStage [] l ≠ chosenStage [] l') ∧
      heard 0 deskDb (under tiedWorkflow draftedOps)
        = heard 0 deskDb (under tiedWorkflowReversed draftedOps) ∧
      visits 0 deskDb (under tiedWorkflow draftedOps) = [.scripting, .review] ∧
      visits 0 deskDb (under tiedWorkflowReversed draftedOps) = [.scripting, .published] := by
  have hfirst : tiedWorkflow.Answers .scripting .onSuccess [toReviewEdge, toPublishedEdge] :=
    transitionsFrom_answers tiedWorkflow .scripting .onSuccess
  have hsecond : tiedWorkflow.Answers .scripting .onSuccess [toPublishedEdge, toReviewEdge] :=
    tiedWorkflow_sameContent.answers
      (transitionsFrom_answers tiedWorkflowReversed .scripting .onSuccess)
  refine ⟨⟨_, _, hfirst, hsecond, fun h => ?_⟩, ?_, by decide +kernel, by decide +kernel⟩
  · cases h
  · with_unfolding_all rfl

/-- The desk has one edge out of each stage. -/
theorem desk_one_edge {t u : WorkflowTransition} (ht : t ∈ deskTransitions)
    (hu : u ∈ deskTransitions) (h : t.fromStage = u.fromStage) : t = u := by
  unfold deskTransitions at ht hu
  rcases List.mem_pair.mp ht with rfl | rfl <;> rcases List.mem_pair.mp hu with rfl | rfl
  · rfl
  · exact nomatch h
  · exact nomatch h
  · rfl

/-- On the desk nothing ties: whatever the storage, two runs with one report visit the same
stages. -/
theorem desk_visits_agree :
    visits 0 deskDb (under deskWorkflow draftedOps)
      = visits 0 deskDb (under ⟨deskStages, deskTransitions.reverse, by decide⟩ draftedOps) := by
  have hreorders : ∀ d, deskWorkflow.SameContent d → deskConfig.Reorders (configOf d) := by
    intro d hd i
    show Option.Rel _ (if i = 0 then some deskWorkflow else none) (if i = 0 then some d else none)
    split
    · exact .some hd
    · exact .none
  have hsteps : ∀ d, deskWorkflow.SameContent d → ∀ step ∈ under d draftedOps,
      deskConfig.Reorders step.1 := by
    intro d hd step hstep
    obtain ⟨o, _, rfl⟩ := List.mem_map.mp hstep
    exact hreorders d hd
  have hself : deskWorkflow.SameContent deskWorkflow := ⟨rfl, .refl _⟩
  have hback : deskWorkflow.SameContent ⟨deskStages, deskTransitions.reverse, by decide⟩ :=
    ⟨rfl, List.reverse_perm _⟩
  have hfollows : ∀ {s : Db}, s.runs[0]?.map PipelineRun.definitionId = some (some 0) →
      s.Follows 0 0 := fun h => Option.map_eq_some_iff.mp h
  refine (routing_order_iff deskWorkflow .scripting .onSuccess []).2 deskConfig deskDb deskDb _ _ 0
    0 0 deskDb_fresh deskDb_fresh
    (hsteps _ hself) (hsteps _ hback) (hfollows (by decide +kernel)) (hfollows (by decide +kernel))
    ?_ (by with_unfolding_all rfl)
  intro d hd m _
  cases hd
  refine Ties.Settled.of_nodup fun t ht u hu _ => ?_
  obtain ⟨ht, hfrom⟩ := List.mem_filter.mp ht
  obtain ⟨hu, hfrom'⟩ := List.mem_filter.mp hu
  rw [Bool.and_eq_true, beq_iff_eq] at hfrom hfrom'
  exact desk_one_edge ht hu (hfrom.1.trans hfrom'.1.symm)

end HumanGate
