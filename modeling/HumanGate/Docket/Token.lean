import HumanGate.Docket.Operations

set_option autoImplicit false

/-! # The single token of progress

A run has at most one work item, and the item is for the current stage of the run. A result is
routed from the stage of its assignment, so this is what makes every change of the stage follow
an edge that leaves the stage before (`single_token`).
-/

namespace HumanGate

open Lib Lib.Calendar Relation

variable {cfg : Config} {s t : Db} {now : Instant} {rid : RunId} {d d' : Docket}

/-! ## The stage of the work item -/

/-- Every work item is for the stage. -/
structure Docket.At (d : Docket) (stage : ContentStage) : Prop where
  jobs : ∀ j ∈ d.jobs, j.refTable = stage.value
  rows : ∀ a ∈ d.rows, a.stage = stage
  gates : ∀ g ∈ d.gates, g.stage = stage

section At

variable {run : Option PipelineRun} {reserved : ContentStage → Nat} {stage : ContentStage}

theorem Docket.At.idle : (Docket.idle run reserved).At stage := by
  constructor <;> simp [Docket.idle]

theorem Docket.At.queued {j : JobSchedule} (h : j.refTable = stage.value) :
    (Docket.queued run j reserved).At stage := by
  constructor <;> simp [Docket.queued, h]

theorem Docket.At.assigned {a : StageAssignment} (h : a.stage = stage) :
    (Docket.assigned run a reserved).At stage := by
  constructor <;> simp [Docket.assigned, h]

theorem Docket.At.gated {g : ReviewGate} (h : g.stage = stage) :
    (Docket.gated run g reserved).At stage := by
  constructor <;> simp [Docket.gated, h]

theorem Docket.At.job {j : JobSchedule} (h : (Docket.queued run j reserved).At stage) :
    j.refTable = stage.value := h.jobs j (List.mem_singleton_self j)

theorem Docket.At.row {a : StageAssignment} (h : (Docket.assigned run a reserved).At stage) :
    a.stage = stage := h.rows a (List.mem_singleton_self a)

theorem Docket.At.gate {g : ReviewGate} (h : (Docket.gated run g reserved).At stage) :
    g.stage = stage := h.gates g (List.mem_singleton_self g)

end At

/-- The work item is for the current stage of the run. -/
def Docket.OnStage (d : Docket) : Prop := ∀ run, d.run = some run → d.At run.currentStage

theorem Docket.onStage_of {run : PipelineRun} (hrun : d.run = some run)
    (h : d.At run.currentStage) : d.OnStage := by
  intro run' hrun'
  rw [hrun] at hrun'
  cases hrun'
  exact h

/-- Routing leads to a stage that an edge leads to, or leaves the run where it is. -/
theorem Docket.Route.entered {run : PipelineRun} {fromStage : ContentStage}
    {reserved : ContentStage → Nat} (h : Docket.Route cfg now rid run fromStage reserved d) :
    d.OnStage ∧ ∃ run', d.run = some run' ∧ (run'.currentStage = fromStage ∨
      ∃ row, Edge cfg run fromStage row ∧ run'.currentStage = row.stageKey) := by
  cases h with
  | ended => exact ⟨Docket.onStage_of rfl .idle, _, rfl, .inl rfl⟩
  | finished hedge => exact ⟨Docket.onStage_of rfl .idle, _, rfl, .inr ⟨_, hedge, rfl⟩⟩
  | paused hedge _ _ hstage =>
      exact ⟨Docket.onStage_of rfl (.gated hstage), _, rfl, .inr ⟨_, hedge, rfl⟩⟩
  | stuck hedge => exact ⟨Docket.onStage_of rfl .idle, _, rfl, .inr ⟨_, hedge, rfl⟩⟩
  | enqueued hedge =>
      exact ⟨Docket.onStage_of rfl (.queued rfl), _, rfl, .inr ⟨_, hedge, rfl⟩⟩

/-- Where a turn leads the run: nowhere, or along an edge that leaves its stage. -/
def Docket.Follows (cfg : Config) (d d' : Docket) : Prop :=
  ∀ run, d.run = some run → ∃ run', d'.run = some run' ∧
    (run'.currentStage = run.currentStage ∨
      ∃ row, Edge cfg run run.currentStage row ∧ run'.currentStage = row.stageKey)

theorem Docket.Follows.still {run run' : PipelineRun} (hrun : d.run = some run)
    (hrun' : d'.run = some run') (h : run'.currentStage = run.currentStage) :
    Docket.Follows cfg d d' := by
  intro run₀ hrun₀
  rw [hrun] at hrun₀
  cases hrun₀
  exact ⟨run', hrun', .inl h⟩

/-- A route from the stage of the work item. -/
theorem Docket.Route.follows {run : PipelineRun} {reserved : ContentStage → Nat}
    {fromStage : ContentStage} (hroute : Docket.Route cfg now rid run fromStage reserved d')
    (hfrom : fromStage = run.currentStage) (hdef : d.run.map PipelineRun.definitionId
      = some run.definitionId)
    (hstage : d.run.map PipelineRun.currentStage = some run.currentStage) :
    d'.OnStage ∧ Docket.Follows cfg d d' := by
  obtain ⟨hon, run', hrun', hmoved⟩ := hroute.entered
  refine ⟨hon, fun run₀ hrun₀ => ⟨run', hrun', ?_⟩⟩
  rw [hrun₀, Option.map_some, Option.some.injEq] at hdef hstage
  subst hfrom
  rw [hstage]
  rcases hmoved with hstill | ⟨row, ⟨wd, w, hpinned, hw⟩, hrow⟩
  · exact .inl hstill
  · refine .inr ⟨row, ⟨wd, w, ?_, hw⟩, hrow⟩
    unfold PipelineRun.pinned
    rw [hdef]
    exact hpinned

/-- **Every turn** keeps the work item on the stage of the run, and moves the run along an edge
that leaves its stage. -/
theorem Docket.Turn.onStage (h : Docket.Turn cfg now rid d d') (hsound : d.Sound)
    (hd : d.OnStage) : d'.OnStage ∧ Docket.Follows cfg d d' := by
  cases h with
  | start _ _ _ hstage =>
      refine ⟨Docket.onStage_of rfl (.queued ?_), fun run hrun => nomatch hrun⟩
      rw [hstage]
      rfl
  | wait hsame | defer hsame =>
      obtain ⟨run, rfl⟩ := hsound.run_queued
      refine ⟨Docket.onStage_of rfl (.queued ?_), .still rfl rfl rfl⟩
      rw [hsame.refTable]
      exact (hd run rfl).job
  | hold _ _ hsame =>
      refine ⟨Docket.onStage_of rfl (.queued ?_), .still rfl rfl rfl⟩
      rw [hsame.refTable]
      exact (hd _ rfl).job
  | drop | giveUp =>
      obtain ⟨run, rfl⟩ := hsound.run_queued
      exact ⟨Docket.onStage_of rfl .idle, .still rfl rfl rfl⟩
  | queue _ hstage | assign _ hstage =>
      refine ⟨Docket.onStage_of rfl (.assigned ?_), .still rfl rfl rfl⟩
      exact ContentStage.value_injective (hstage.trans (hd _ rfl).job)
  | claim _ hsame | touch hsame =>
      obtain ⟨run, rfl⟩ := hsound.run_assigned
      refine ⟨Docket.onStage_of rfl (.assigned ?_), .still rfl rfl rfl⟩
      exact hsame.stage.trans (hd run rfl).row
  | claimHold => exact ⟨Docket.onStage_of rfl (.assigned (hd _ rfl).row), .still rfl rfl rfl⟩
  | requeue _ hsame =>
      exact ⟨Docket.onStage_of rfl (.assigned (hsame.stage.trans (hd _ rfl).row)),
        .still rfl rfl rfl⟩
  | exhaust | close => exact ⟨Docket.onStage_of rfl .idle, .still rfl rfl rfl⟩
  | advance _ _ hroute => exact hroute.follows (hd _ rfl).row rfl rfl
  | retry =>
      refine ⟨Docket.onStage_of rfl (.queued ?_), .still rfl rfl rfl⟩
      exact congrArg ContentStage.value (hd _ rfl).row
  | fail _ hrun =>
      rcases hrun with rfl | rfl
      · exact ⟨Docket.onStage_of rfl .idle, .still rfl rfl rfl⟩
      · exact ⟨Docket.onStage_of rfl .idle, .still rfl rfl rfl⟩
  | decide hdecided =>
      cases hdecided with
      | routed hroute => exact hroute.follows (hd _ rfl).gate rfl rfl
      | settled hrun | rejected hrun =>
          rcases hrun with rfl | rfl
          · exact ⟨Docket.onStage_of rfl .idle, .still rfl rfl rfl⟩
          · exact ⟨Docket.onStage_of rfl .idle, .still rfl rfl rfl⟩
  | revise hstage =>
      obtain ⟨run, rfl⟩ := hsound.run_gated
      refine ⟨Docket.onStage_of rfl (.gated ?_), .still rfl rfl rfl⟩
      exact hstage.trans (hd run rfl).gate
  | cancel =>
      have hat := hd _ rfl
      refine ⟨Docket.onStage_of rfl ⟨hat.jobs, ?_, hat.gates⟩, .still rfl rfl rfl⟩
      intro a ha
      cases ha

/-! ## The system -/

/-- The work items of a run: its `STAGE` and `RETRY` jobs that are pending or leased, its open
assignments and its awaiting gates. -/
def Db.workItems (s : Db) (rid : RunId) : Nat :=
  s.jobs.countP (JobSchedule.waitsFor rid) + s.assignments.countP (StageAssignment.openFor rid)
    + s.gates.countP (ReviewGate.awaitedBy rid)

/-- The work items of a run are for the stage. -/
structure Db.WorksAt (s : Db) (rid : RunId) (stage : ContentStage) : Prop where
  jobs : ∀ j ∈ s.jobs, j.waitsFor rid = true → j.refTable = stage.value
  rows : ∀ a ∈ s.assignments, a.openFor rid = true → a.stage = stage
  gates : ∀ g ∈ s.gates, g.awaitedBy rid = true → g.stage = stage

theorem Db.workItems_eq (s : Db) (rid : RunId) : s.workItems rid = (s.docket rid).items := by
  unfold Db.workItems Docket.items Db.docket
  simp only [List.countP_eq_length_filter]

theorem Db.worksAt_of {stage : ContentStage} (h : (s.docket rid).At stage) :
    s.WorksAt rid stage where
  jobs j hj hw := h.jobs j (List.mem_filter.mpr ⟨hj, hw⟩)
  rows a ha hw := h.rows a (List.mem_filter.mpr ⟨ha, hw⟩)
  gates g hg hw := h.gates g (List.mem_filter.mpr ⟨hg, hw⟩)

/-- Every docket of a reachable state is sound, and its work item on the stage of the run. -/
theorem routine_onStage (h : (routine cfg).Reachable s) (r : RunId) :
    (s.docket r).Sound ∧ (s.docket r).OnStage := by
  refine routine_invariant (I := fun _ d => d.OnStage) ?_ ?_ h r
  · intro r run hrun
    cases hrun
  · intro now r d d' hturn hsound hd
    exact (hturn.onStage hsound hd).1

theorem Quieted.stage (h : Quieted cfg now s t) (r : RunId) :
    (t.docket r).run.map PipelineRun.currentStage
      = (s.docket r).run.map PipelineRun.currentStage := by
  refine h.invariant (I := fun r d => d.run.map PipelineRun.currentStage
    = (s.docket r).run.map PipelineRun.currentStage) ?_ (fun _ => rfl) r
  intro r d d' hquiet hd
  exact hquiet.stage.trans hd

/-- An operation moves a run along an edge that leaves its stage, if it moves it at all. -/
theorem Proceeds.follows (h : Proceeds cfg now s t) (hs : ∀ r, (s.docket r).Sound)
    (hon : ∀ r, (s.docket r).OnStage) (r : RunId) :
    Docket.Follows cfg (s.docket r) (t.docket r) := by
  rcases h with hquiet | hturn
  · intro run hrun
    have hstage := hquiet.stage r
    rw [hrun, Option.map_some, Option.map_eq_some_iff] at hstage
    obtain ⟨run', hrun', heq⟩ := hstage
    exact ⟨run', hrun', .inl heq⟩
  · rcases hturn.member r with hsame | hmove
    · rw [hsame]
      exact fun run hrun => ⟨run, hrun, .inl rfl⟩
    · exact (hmove.onStage (hs r) (hon r)).2

/-- **A single token of progress**: in every reachable state a run has at most one work item,
which is for its current stage, and an operation leaves the current stage as it is or moves it
along a transition of the pinned definition that leaves it. -/
theorem single_token (cfg : Config) {s : Db} (h : (routine cfg).Reachable s) {rid : RunId}
    {run : PipelineRun} (hrun : s.runs[rid]? = some run) :
    s.workItems rid ≤ 1 ∧ s.WorksAt rid run.currentStage ∧
    ∀ o, (routine cfg).allowed s o → ∃ run', (exec cfg s o).runs[rid]? = some run' ∧
      (run'.currentStage = run.currentStage ∨ ∃ d, ∃ w ∈ d.transitions,
        run.definitionId.bind cfg.definition = some d ∧ w.fromStage = run.currentStage ∧
          w.toStage = run'.currentStage) := by
  have hs := routine_onStage h
  refine ⟨?_, Db.worksAt_of ((hs rid).2 run hrun), fun o ho => ?_⟩
  · rw [Db.workItems_eq]
    exact (hs rid).1.single
  · -- a turn of the docket leaves the stage alone or follows an edge
    have hfollows := (exec_turns cfg (fun r => (hs r).1) ho).follows (fun r => (hs r).1)
      (fun r => (hs r).2) rid
    obtain ⟨run', hrun', hmoved⟩ := hfollows run hrun
    refine ⟨run', hrun', ?_⟩
    rcases hmoved with hstill | ⟨row, ⟨wd, w, hpinned, hw, hfrom, hto, _⟩, hrow⟩
    · exact .inl hstill
    · exact .inr ⟨wd, w, hw, hpinned, hfrom, hto.trans hrow.symm⟩

/-- The script is being written: the assignment is the one work item of its run, and the result
moves the run along the edge to the review. -/
theorem drafting_run_token :
    (runOps deskConfig deskDb (draftedOps.take 3)).workItems 0 = 1 ∧
    ((runOps deskConfig deskDb draftedOps).runs[0]?).map PipelineRun.currentStage
      = some .review ∧
    ∃ run, (runOps deskConfig deskDb (draftedOps.take 3)).runs[0]? = some run ∧
      (runOps deskConfig deskDb (draftedOps.take 3)).WorksAt 0 run.currentStage ∧
      ∃ run', (runOps deskConfig deskDb draftedOps).runs[0]? = some run' ∧
        (run'.currentStage = run.currentStage ∨ ∃ d, ∃ w ∈ d.transitions,
          run.definitionId.bind deskConfig.definition = some d ∧
            w.fromStage = run.currentStage ∧ w.toStage = run'.currentStage) := by
  refine ⟨by decide +kernel, by decide +kernel, ?_⟩
  have hreach : (routine deskConfig).Reachable (runOps deskConfig deskDb (draftedOps.take 3)) :=
    System.Reachable.of_legal (draftedOps.take 3) (.init deskDb_fresh) (by decide +kernel)
  have hrun : (runOps deskConfig deskDb (draftedOps.take 3)).runs[0]? = some
      { workspaceId := 0, contentItemId := 0, currentStage := .scripting, status := .running,
        definitionId := some 0, startedAt := some 0 } := by
    decide +kernel
  obtain ⟨_, hat, hmoves⟩ := single_token deskConfig hreach hrun
  exact ⟨_, hrun, hat, hmoves ⟨3, .submitResult 0 true none "" none 0⟩ (by decide +kernel)⟩

end HumanGate
