import HumanGate.Docket.Starts
import HumanGate.Docket.Token
import HumanGate.Lib.Itinerary

set_option autoImplicit false

/-! # The attempts of a run

The attempts that are started for a run, in their order, are the records of a walk through its
workflow definition, from the first stage to the current one (`tracked_touring`). At a stage the
attempt numbers climb, and only the last attempt may have a number that the stage does not let be
followed by another: that is the invariant of one stay (`Stay`).

The number of the next attempt is on the work item of the run: a job has counted up to the number
before it, a pending assignment has the number itself, and an assignment that a worker has is the
last one of the stay (`Docket.Awaits`).
-/

namespace HumanGate

open Lib Lib.Calendar Relation

variable {cfg : Config} {s t : Db} {now : Instant} {rid : RunId} {d d' : Docket}

/-! ## Stays and tours -/

/-- The definition of the run has a transition from one stage to the other. -/
def PipelineRun.Leads (cfg : Config) (run : PipelineRun) (fromStage toStage : ContentStage) :
    Prop :=
  ∃ wd, run.pinned cfg = some wd ∧
    ∃ w ∈ wd.transitions, w.fromStage = fromStage ∧ w.toStage = toStage

/-- What may be started while the run stays at a stage. -/
structure Stay (cfg : Config) (run : PipelineRun) (stage : ContentStage)
    (starts : List StageAssignment) : Prop where
  here : ∀ a ∈ starts, a.stage = stage
  numbers : Climbs (run.maxAttempts cfg stage) (starts.map StageAssignment.attemptNumber)

/-- The walk of a run: it begins at the first stage of the definition. -/
structure Tours (cfg : Config) (run : PipelineRun)
    (stays : List (ContentStage × List StageAssignment)) : Prop where
  walk : Itinerary (run.Leads cfg) (Stay cfg run) stays
  first : ∃ wd first, run.pinned cfg = some wd ∧ wd.firstStage = some first ∧
    (stays.map Prod.fst).head? = some first.stageKey

/-- The starts of a run so far, those of the current stay being `starts`. -/
def Touring (cfg : Config) (run : PipelineRun) (starts log : List StageAssignment) : Prop :=
  ∃ before, log = records (before ++ [(run.currentStage, starts)]) ∧
    Tours cfg run (before ++ [(run.currentStage, starts)])

theorem Stay.nil (cfg : Config) (run : PipelineRun) (stage : ContentStage) :
    Stay cfg run stage [] where
  here := by simp
  numbers := .nil _

theorem pinned_congr {run run' : PipelineRun} (h : run'.definitionId = run.definitionId) :
    run'.pinned cfg = run.pinned cfg := by
  unfold PipelineRun.pinned
  rw [h]

theorem maxAttempts_congr {run run' : PipelineRun} (h : run'.definitionId = run.definitionId) :
    run'.maxAttempts cfg = run.maxAttempts cfg := by
  funext stage
  unfold PipelineRun.maxAttempts
  rw [pinned_congr h]

/-- A walk is about the definition of the run. -/
theorem Tours.congr {run run' : PipelineRun} {stays : List (ContentStage × List StageAssignment)}
    (h : Tours cfg run stays) (hdef : run'.definitionId = run.definitionId) :
    Tours cfg run' stays := by
  have hleads : run'.Leads cfg = run.Leads cfg := by
    unfold PipelineRun.Leads
    rw [pinned_congr hdef]
  have hstay : Stay cfg run' = Stay cfg run := by
    funext stage starts
    refine propext ⟨fun h => ⟨h.here, ?_⟩, fun h => ⟨h.here, ?_⟩⟩
    · rw [← maxAttempts_congr hdef]
      exact h.numbers
    · rw [maxAttempts_congr hdef]
      exact h.numbers
  constructor
  · rw [hleads, hstay]
    exact h.walk
  · rw [pinned_congr hdef]
    exact h.first

/-- The run stays at its stage. -/
theorem Touring.still {run run' : PipelineRun} {starts log : List StageAssignment}
    (h : Touring cfg run starts log) (hdef : run'.definitionId = run.definitionId)
    (hstage : run'.currentStage = run.currentStage) : Touring cfg run' starts log := by
  obtain ⟨before, hlog, htour⟩ := h
  refine ⟨before, ?_, ?_⟩
  · rw [hstage]
    exact hlog
  · rw [hstage]
    exact htour.congr hdef

/-- Another attempt is started at the stage. -/
theorem Touring.push {run : PipelineRun} {starts log : List StageAssignment} {a : StageAssignment}
    (h : Touring cfg run starts log) (hstage : a.stage = run.currentStage)
    (hpos : 0 < a.attemptNumber)
    (hlast : ∀ b ∈ starts, b.attemptNumber < a.attemptNumber ∧
      b.attemptNumber < run.maxAttempts cfg run.currentStage) :
    Touring cfg run (starts ++ [a]) (log ++ [a]) := by
  obtain ⟨before, hlog, htour⟩ := h
  have hstay := htour.walk.last
  refine ⟨before, ?_, ?_, ?_⟩
  · rw [hlog]
    simp
  · refine htour.walk.stay ⟨fun b hb => ?_, ?_⟩
    · rcases List.mem_append.mp hb with hb | hb
      · exact hstay.here b hb
      · rw [List.mem_singleton.mp hb]
        exact hstage
    · rw [List.map_append]
      refine hstay.numbers.push hpos fun m hm => ?_
      obtain ⟨b, hb, rfl⟩ := List.mem_map.mp hm
      exact hlast b hb
  · obtain ⟨wd, first, hpinned, hfirst, hhead⟩ := htour.first
    refine ⟨wd, first, hpinned, hfirst, ?_⟩
    rw [List.map_append] at hhead ⊢
    exact hhead

/-- The run moves along a transition. -/
theorem Touring.move {run run' : PipelineRun} {starts log : List StageAssignment}
    (h : Touring cfg run starts log) (hdef : run'.definitionId = run.definitionId)
    (hleads : run.Leads cfg run.currentStage run'.currentStage) : Touring cfg run' [] log := by
  obtain ⟨before, hlog, htour⟩ := h
  refine ⟨before ++ [(run.currentStage, starts)], ?_, Tours.congr ⟨?_, ?_⟩ hdef⟩
  · rw [hlog, records_append _ [(run'.currentStage, [])], records_singleton, List.append_nil]
  · exact htour.walk.move hleads (.nil ..)
  · obtain ⟨wd, first, hpinned, hfirst, hhead⟩ := htour.first
    refine ⟨wd, first, hpinned, hfirst, ?_⟩
    rw [List.map_append, List.head?_append, hhead]
    rfl

/-! ## The next attempt -/

/-- What the work item of the run says about the attempts that its stay has seen. -/
structure Docket.Awaits (cfg : Config) (d : Docket) (run : PipelineRun)
    (starts : List StageAssignment) : Prop where
  jobs : ∀ j ∈ d.jobs, ∀ a ∈ starts, a.attemptNumber ≤ j.attempt ∧
    a.attemptNumber < run.maxAttempts cfg run.currentStage
  waiting : ∀ b ∈ d.rows, b.status.inFlight = false → 0 < b.attemptNumber ∧
    ∀ a ∈ starts, a.attemptNumber < b.attemptNumber ∧
      a.attemptNumber < run.maxAttempts cfg run.currentStage
  flying : ∀ b ∈ d.rows, b.status.inFlight = true →
    ∃ before a, starts = before ++ [a] ∧ a.attemptNumber = b.attemptNumber

/-- The starts of a run, and what it waits for. -/
structure Docket.Accounted (cfg : Config) (d : Docket) (log : List StageAssignment) : Prop where
  unborn : d.run = none → log = []
  tour : ∀ run, d.run = some run → ∃ starts, Touring cfg run starts log ∧ d.Awaits cfg run starts

section Awaits

variable {run : PipelineRun} {orun : Option PipelineRun} {starts : List StageAssignment}
  {reserved : ContentStage → Nat}

theorem Docket.Awaits.idle : (Docket.idle orun reserved).Awaits cfg run starts := by
  constructor <;> simp [Docket.idle]

theorem Docket.Awaits.gated {g : ReviewGate} :
    (Docket.gated orun g reserved).Awaits cfg run starts := by
  constructor <;> simp [Docket.gated]

theorem Docket.Awaits.queued {j : JobSchedule} (h : ∀ a ∈ starts, a.attemptNumber ≤ j.attempt ∧
    a.attemptNumber < run.maxAttempts cfg run.currentStage) :
    (Docket.queued orun j reserved).Awaits cfg run starts := by
  constructor
  · intro i hi
    rw [List.mem_singleton.mp hi]
    exact h
  · intro b hb
    cases hb
  · intro b hb
    cases hb

theorem Docket.Awaits.waits {a : StageAssignment} (hst : a.status.inFlight = false)
    (hpos : 0 < a.attemptNumber) (h : ∀ b ∈ starts, b.attemptNumber < a.attemptNumber ∧
      b.attemptNumber < run.maxAttempts cfg run.currentStage) :
    (Docket.assigned orun a reserved).Awaits cfg run starts := by
  constructor
  · intro j hj
    cases hj
  · intro b hb _
    rw [List.mem_singleton.mp hb]
    exact ⟨hpos, h⟩
  · intro b hb hfly
    rw [List.mem_singleton.mp hb, hst] at hfly
    cases hfly

theorem Docket.Awaits.flies {a : StageAssignment} (hst : a.status.inFlight = true)
    (h : ∃ before b, starts = before ++ [b] ∧ b.attemptNumber = a.attemptNumber) :
    (Docket.assigned orun a reserved).Awaits cfg run starts := by
  constructor
  · intro j hj
    cases hj
  · intro b hb hwait
    rw [List.mem_singleton.mp hb, hst] at hwait
    cases hwait
  · intro b hb _
    rw [List.mem_singleton.mp hb]
    exact h

theorem Docket.Awaits.job {j : JobSchedule}
    (h : (Docket.queued orun j reserved).Awaits cfg run starts) :
    ∀ a ∈ starts, a.attemptNumber ≤ j.attempt ∧
      a.attemptNumber < run.maxAttempts cfg run.currentStage :=
  h.jobs j (List.mem_singleton_self j)

theorem Docket.Awaits.row {a : StageAssignment}
    (h : (Docket.assigned orun a reserved).Awaits cfg run starts)
    (hst : a.status.inFlight = false) :
    0 < a.attemptNumber ∧ ∀ b ∈ starts, b.attemptNumber < a.attemptNumber ∧
      b.attemptNumber < run.maxAttempts cfg run.currentStage :=
  h.waiting a (List.mem_singleton_self a) hst

/-- The attempts before the one that is in flight, and the number of this one. -/
theorem Docket.Awaits.flight {a : StageAssignment} {log : List StageAssignment}
    (h : (Docket.assigned orun a reserved).Awaits cfg run starts)
    (htour : Touring cfg run starts log)
    (hst : a.status.inFlight = true) :
    ∀ b ∈ starts, b.attemptNumber = a.attemptNumber ∨ b.attemptNumber < a.attemptNumber ∧
      b.attemptNumber < run.maxAttempts cfg run.currentStage := by
  obtain ⟨prior, last, rfl, hlast⟩ := h.flying a (List.mem_singleton_self a) hst
  obtain ⟨before, _, htour⟩ := htour
  have hclimbs := htour.walk.last.numbers
  rw [List.map_append, List.map_singleton, hlast] at hclimbs
  intro b hb
  rcases List.mem_append.mp hb with hb | hb
  · exact .inr (hclimbs.before_last _ (List.mem_map_of_mem hb))
  · rw [List.mem_singleton.mp hb]
    exact .inl hlast

end Awaits

/-! ## Turns -/

theorem Docket.Awaits.congr {run run' : PipelineRun} {starts : List StageAssignment}
    (h : d.Awaits cfg run starts) (hdef : run'.definitionId = run.definitionId)
    (hstage : run'.currentStage = run.currentStage) : d.Awaits cfg run' starts := by
  have hmax : run'.maxAttempts cfg = run.maxAttempts cfg := maxAttempts_congr hdef
  constructor
  · rw [hmax, hstage]
    exact h.jobs
  · rw [hmax, hstage]
    exact h.waiting
  · exact h.flying

theorem fresh_nil (h : d'.started = true → d.started = true) : Docket.fresh d d' = [] := by
  unfold Docket.fresh
  split
  · rfl
  · rename_i hidle
    have hnone := mt h hidle
    unfold Docket.started at hnone
    rw [List.any_eq_true] at hnone
    rw [List.filter_eq_nil_iff]
    exact fun a ha hst => hnone ⟨a, ha, hst⟩

section Steps

variable {run run' : PipelineRun} {log : List StageAssignment}

/-- Nothing is started, and the run stays at its stage. -/
theorem Docket.Accounted.still (h : d.Accounted cfg log) (hrun : d.run = some run)
    (hrun' : d'.run = some run') (hdef : run'.definitionId = run.definitionId)
    (hstage : run'.currentStage = run.currentStage)
    (hstarted : d'.started = true → d.started = true)
    (hawaits : ∀ starts, Touring cfg run starts log → d.Awaits cfg run starts →
      d'.Awaits cfg run starts) : d'.Accounted cfg (log ++ Docket.fresh d d') := by
  rw [fresh_nil hstarted, List.append_nil]
  obtain ⟨starts, htour, hd⟩ := h.tour run hrun
  constructor
  · intro hnone
    rw [hrun'] at hnone
    cases hnone
  · intro r hr
    rw [hrun'] at hr
    cases hr
    exact ⟨starts, htour.still hdef hstage, (hawaits starts htour hd).congr hdef hstage⟩

/-- An attempt is started. -/
theorem Docket.Accounted.starts {a : StageAssignment} (h : d.Accounted cfg log)
    (hrun : d.run = some run) (hrun' : d'.run = some run) (hfresh : Docket.fresh d d' = [a])
    (hstage : a.stage = run.currentStage)
    (hnext : ∀ starts, d.Awaits cfg run starts → 0 < a.attemptNumber ∧
      ∀ b ∈ starts, b.attemptNumber < a.attemptNumber ∧
        b.attemptNumber < run.maxAttempts cfg run.currentStage)
    (hawaits : ∀ starts, d'.Awaits cfg run (starts ++ [a])) :
    d'.Accounted cfg (log ++ Docket.fresh d d') := by
  rw [hfresh]
  obtain ⟨starts, htour, hd⟩ := h.tour run hrun
  obtain ⟨hpos, hlast⟩ := hnext starts hd
  constructor
  · intro hnone
    rw [hrun'] at hnone
    cases hnone
  · intro r hr
    rw [hrun'] at hr
    cases hr
    exact ⟨starts ++ [a], htour.push hstage hpos hlast, hawaits starts⟩

theorem Edge.leads {fromStage : ContentStage} {row : WorkflowStage}
    (h : Edge cfg run fromStage row) : run.Leads cfg fromStage row.stageKey := by
  obtain ⟨wd, w, hpinned, hw, hfrom, hto, _⟩ := h
  exact ⟨wd, hpinned, w, hw, hfrom, hto⟩

/-- The run has come to a stage, where nothing has been started. -/
theorem Touring.accounted (h : Touring cfg run' [] log) (hrun' : d'.run = some run')
    (hrows : d'.rows = []) : d'.Accounted cfg log := by
  constructor
  · intro hnone
    rw [hrun'] at hnone
    cases hnone
  · intro r hr
    rw [hrun'] at hr
    cases hr
    refine ⟨[], h, ?_⟩
    constructor <;> simp [hrows]

/-- Routing from the current stage. -/
theorem Docket.Route.accounted {fromStage : ContentStage} {reserved : ContentStage → Nat}
    {run₀ : PipelineRun} (hroute : Docket.Route cfg now rid run fromStage reserved d')
    (h : d.Accounted cfg log) (hrun : d.run = some run₀)
    (hdef : run.definitionId = run₀.definitionId) (hstage : run.currentStage = run₀.currentStage)
    (hfrom : fromStage = run₀.currentStage) : d'.Accounted cfg (log ++ Docket.fresh d d') := by
  have hnone : d'.rows = [] := by
    cases hroute <;> rfl
  have hfresh : Docket.fresh d d' = [] := by
    refine fresh_nil fun hstarted => ?_
    unfold Docket.started at hstarted
    rw [hnone] at hstarted
    cases hstarted
  rw [hfresh, List.append_nil]
  obtain ⟨starts, htour, hd⟩ := h.tour run₀ hrun
  have htour := htour.still hdef hstage
  rw [hfrom, ← hstage] at hroute
  cases hroute with
  | ended =>
      constructor
      · intro hnone
        cases hnone
      · intro r hr
        cases hr
        exact ⟨starts, htour.still rfl rfl, .idle⟩
  | finished hedge | paused hedge | stuck hedge | enqueued hedge =>
      refine Touring.accounted ?_ rfl rfl
      exact htour.move rfl hedge.leads

end Steps

/-- The rows of a docket at a stage. -/
theorem Docket.OnStage.row {run : PipelineRun} {a : StageAssignment} {reserved : ContentStage → Nat}
    (h : (Docket.assigned (some run) a reserved).OnStage) : a.stage = run.currentStage :=
  (h run rfl).row

/-- **Every turn** accounts for the attempt that it starts. -/
theorem Docket.Turn.accounted {log : List StageAssignment} (h : Docket.Turn cfg now rid d d')
    (hsound : d.Sound) (hon : d.OnStage) (hd : d.Accounted cfg log) :
    d'.Accounted cfg (log ++ Docket.fresh d d') := by
  cases h with
  | @start definition wd first run _ hwd hfirst hdef hstage hrunning =>
      show Docket.Accounted cfg _ (log ++ [])
      rw [hd.unborn rfl]
      refine Touring.accounted ⟨[], rfl, ⟨.start (.nil ..), wd, first, ?_, hfirst, ?_⟩⟩ rfl rfl
      · unfold PipelineRun.pinned
        rw [hdef]
        exact hwd
      · exact congrArg some hstage
  | wait hsame hattempt =>
      obtain ⟨run, rfl⟩ := hsound.run_queued
      refine hd.still rfl rfl rfl rfl (fun h => h) fun starts _ hawaits => .queued ?_
      rw [hattempt]
      exact hawaits.job
  | defer hsame hattempt =>
      obtain ⟨run, rfl⟩ := hsound.run_queued
      refine hd.still rfl rfl rfl rfl (fun h => h) fun starts _ hawaits => .queued fun a ha => ?_
      obtain ⟨hle, hlt⟩ := hawaits.job a ha
      exact ⟨by omega, hlt⟩
  | hold _ _ hsame hattempt =>
      refine hd.still rfl rfl rfl rfl (fun h => h) fun starts _ hawaits => .queued ?_
      rw [hattempt]
      exact hawaits.job
  | drop | giveUp =>
      obtain ⟨run, rfl⟩ := hsound.run_queued
      exact hd.still rfl rfl rfl rfl (by intro h; cases h) fun _ _ _ => .idle
  | @queue run j stage _ _ hstage =>
      refine hd.still rfl rfl rfl rfl (by intro h; cases h) fun starts _ hawaits =>
        .waits rfl (Nat.succ_pos _) fun a ha => ?_
      obtain ⟨hle, hlt⟩ := hawaits.job a ha
      exact ⟨Nat.lt_succ_of_le hle, hlt⟩
  | @assign run j stage wid _ _ hstage =>
      refine hd.starts rfl rfl (rfl : _ = [newAssignment cfg now (j.dispatchArgs rid) stage
        (some wid)]) ?_ ?_ ?_
      · exact ContentStage.value_injective (hstage.trans (hon _ rfl).job)
      · intro starts hawaits
        refine ⟨Nat.succ_pos _, fun a ha => ?_⟩
        obtain ⟨hle, hlt⟩ := hawaits.job a ha
        exact ⟨Nat.lt_succ_of_le hle, hlt⟩
      · exact fun starts => .flies rfl ⟨starts, _, rfl, rfl⟩
  | @claim run a a' _ hpending hsame hst hattempt =>
      obtain ⟨run, rfl⟩ := hsound.run_assigned
      have hwaits : a.status.inFlight = false := by
        rw [hpending]
        rfl
      have hstart : ∀ r r', Docket.fresh (.assigned (some run) a r) (.assigned (some run) a' r') =
          [a'] := by
        intro r r'
        unfold Docket.fresh Docket.started Docket.assigned
        simp [hpending, hst]
      refine hd.starts rfl rfl (hstart _ _) (hsame.stage.trans hon.row) ?_ ?_
      · intro starts hawaits
        rw [hattempt]
        exact hawaits.row hwaits
      · refine fun starts => .flies ?_ ⟨starts, a', rfl, rfl⟩
        rw [hst]
        rfl
  | @claimHold run a _ hpending =>
      have hwaits : a.status.inFlight = false := by
        rw [hpending]
        rfl
      refine hd.still rfl rfl rfl rfl (fun h => h) fun starts _ hawaits => ?_
      exact .waits hwaits (hawaits.row hwaits).1 (hawaits.row hwaits).2
  | @touch run a a' _ hsame hattempt hfly hopen hst =>
      obtain ⟨run, rfl⟩ := hsound.run_assigned
      refine hd.still rfl rfl rfl rfl ?_ fun starts _ hawaits => ?_
      · simpa [Docket.started, Docket.assigned] using hst
      · cases hflight : a.status.inFlight with
        | false =>
            refine .waits (hfly.trans hflight) ?_ ?_
            · rw [hattempt]
              exact (hawaits.row hflight).1
            · rw [hattempt]
              exact (hawaits.row hflight).2
        | true =>
            refine .flies (hfly.trans hflight) ?_
            rw [hattempt]
            exact hawaits.flying a (List.mem_singleton_self a) hflight
  | @requeue run a a' _ hfly hsame hst hattempt hmax =>
      have hidle : ¬ a'.status = .dispatched := by
        rw [hst]
        decide
      refine hd.still rfl rfl rfl rfl ?_ fun starts htour hawaits => ?_
      · simp [Docket.started, Docket.assigned, hidle]
      · rw [hon.row] at hmax
        refine .waits (by rw [hst]; rfl) (by omega) fun b hb => ?_
        -- the attempt that is given back is the last one, and one more is allowed
        rcases hawaits.flight htour hfly b hb with heq | ⟨hlt, hbelow⟩
        · exact ⟨by omega, by omega⟩
        · exact ⟨by omega, hbelow⟩
  | exhaust | close =>
      exact hd.still rfl rfl rfl rfl (by intro h; cases h) fun _ _ _ => .idle
  | advance _ _ hroute => exact hroute.accounted hd rfl rfl rfl hon.row
  | @retry run a wd row ws runAfter _ hfly hpinned hrow hlt =>
      refine hd.still rfl rfl rfl rfl (by intro h; cases h) fun starts htour hawaits =>
        .queued fun b hb => ?_
      have hmax : run.maxAttempts cfg run.currentStage = row.maxAttempts := by
        unfold PipelineRun.maxAttempts
        rw [← hon.row]
        simp only [hpinned, hrow]
      show b.attemptNumber ≤ a.attemptNumber ∧ _
      rw [hmax]
      rcases hawaits.flight htour hfly b hb with heq | ⟨hlt', hbelow⟩
      · exact ⟨by omega, by omega⟩
      · exact ⟨by omega, by omega⟩
  | fail _ hrun =>
      rcases hrun with rfl | rfl
      · exact hd.still rfl rfl rfl rfl (by intro h; cases h) fun _ _ _ => .idle
      · exact hd.still rfl rfl rfl rfl (by intro h; cases h) fun _ _ _ => .idle
  | decide hdecided =>
      cases hdecided with
      | routed hroute => exact hroute.accounted hd rfl rfl rfl (hon _ rfl).gate
      | settled hrun | rejected hrun =>
          rcases hrun with rfl | rfl
          · exact hd.still rfl rfl rfl rfl (by intro h; cases h) fun _ _ _ => .idle
          · exact hd.still rfl rfl rfl rfl (by intro h; cases h) fun _ _ _ => .idle
  | revise =>
      obtain ⟨run, rfl⟩ := hsound.run_gated
      exact hd.still rfl rfl rfl rfl (by intro h; cases h) fun _ _ _ => .gated
  | cancel =>
      refine hd.still rfl rfl rfl rfl (by intro h; cases h) fun starts _ hawaits => ?_
      exact ⟨hawaits.jobs, (by intro b hb; cases hb), (by intro b hb; cases hb)⟩

/-! ## The system -/

/-- The attempts of a run. -/
def startsOf (log : List StageAssignment) (rid : RunId) : List StageAssignment :=
  log.filter fun a => a.pipelineRunId == rid

/-- A docket whose work item is on the stage, and whose starts are accounted for. -/
structure Docket.Tracked (cfg : Config) (d : Docket) (log : List StageAssignment) : Prop where
  sound : d.Sound
  onStage : d.OnStage
  accounted : d.Accounted cfg log

theorem Docket.Turn.tracked {log : List StageAssignment} (h : Docket.Turn cfg now rid d d')
    (hd : d.Tracked cfg log) : d'.Tracked cfg (log ++ Docket.fresh d d') where
  sound := h.sound hd.sound
  onStage := (h.onStage hd.sound hd.onStage).1
  accounted := h.accounted hd.sound hd.onStage hd.accounted

/-- Quiet turns start nothing. -/
theorem Quieted.tracked {log : RunId → List StageAssignment} (h : Quieted cfg now s t)
    (hs : ∀ r, (s.docket r).Tracked cfg (log r)) (r : RunId) :
    (t.docket r).Tracked cfg (log r) ∧ Docket.fresh (s.docket r) (t.docket r) = [] := by
  have hkept := h.invariant (I := fun r d => d.Tracked cfg (log r) ∧
    (d.started = true → (s.docket r).started = true)) ?_ (fun r => ⟨hs r, fun h => h⟩) r
  · exact ⟨hkept.1, fresh_nil hkept.2⟩
  · rintro r d d' hquiet ⟨hd, hold⟩
    have hd' := hquiet.turn.tracked hd
    rw [fresh_nil hquiet.started, List.append_nil] at hd'
    exact ⟨hd', fun h => hold (hquiet.started h)⟩

theorem Proceeds.tracked {log : RunId → List StageAssignment} (h : Proceeds cfg now s t)
    (hs : ∀ r, (s.docket r).Tracked cfg (log r)) (r : RunId) :
    (t.docket r).Tracked cfg (log r ++ Docket.fresh (s.docket r) (t.docket r)) := by
  rcases h with hquiet | hturn
  · obtain ⟨htracked, hfresh⟩ := hquiet.tracked hs r
    rw [hfresh, List.append_nil]
    exact htracked
  · rcases hturn.member r with hsame | hmove
    · rw [hsame, fresh_nil fun h => h, List.append_nil]
      exact hs r
    · exact hmove.tracked (hs r)

/-- **Every run of the system** accounts for the starts of all its runs. -/
theorem tracked_accounted {p : Db × List StageAssignment} (h : (tracked cfg).Reachable p)
    (r : RunId) : (p.1.docket r).Tracked cfg (startsOf p.2 r) := by
  refine h.invariant (I := fun p => ∀ r, (p.1.docket r).Tracked cfg (startsOf p.2 r)) ?_ ?_ r
  · rintro ⟨s, log⟩ ⟨hfresh, hlog⟩ r
    have hlog : log = [] := hlog
    rw [hlog]
    show (s.docket r).Tracked cfg []
    rw [Fresh.docket hfresh r]
    exact ⟨.idle .., fun run hrun => (nomatch hrun), fun _ => rfl, fun run hrun => (nomatch hrun)⟩
  · rintro ⟨s, log⟩ o hs ho r
    have hsound : ∀ r, (s.docket r).Sound := fun r => (hs r).sound
    have htracked := (exec_turns cfg hsound ho).tracked hs r
    rw [← exec_starts hsound ho r] at htracked
    show ((exec cfg s o).docket r).Tracked cfg (startsOf (log ++ o.startedRows cfg s) r)
    unfold startsOf at htracked ⊢
    rw [List.filter_append]
    exact htracked

/-! ## Attempts -/

/-- **The attempts of a run are a bounded walk** through its workflow definition, whatever its
cycles, as long as all operations are routine (no manual retry, no stage timeout): they divide into
stays at stages, from the first stage to the current one along transitions. On a stay the attempt
numbers are positive and increase, and an attempt that is followed by another one has a number below
the `max_attempts` of the stage. -/
theorem attempts_walk (cfg : Config) {p : Db × List StageAssignment}
    (h : (tracked cfg).Reachable p) {rid : RunId} {run : PipelineRun}
    (hrun : p.1.runs[rid]? = some run) :
    ∃ stays, startsOf p.2 rid = records stays ∧ Tours cfg run stays ∧
      (stays.map Prod.fst).getLast? = some run.currentStage ∧
      ∀ stay ∈ stays, stay.2.length ≤ max 1 (run.maxAttempts cfg stay.1) := by
  obtain ⟨starts, ⟨before, hlog, htour⟩, _⟩ := (tracked_accounted h rid).accounted.tour run hrun
  refine ⟨_, hlog, htour, ?_, fun stay hstay => ?_⟩
  · rw [List.map_append, List.map_singleton, List.getLast?_concat]
  · -- the numbers of a stay climb and stop at the budget, so they bound its length
    have hlen := (htour.walk.kept stay hstay).numbers.length_le
    rwa [List.length_map] at hlen

/-- The script times out, and is drafted on the second attempt. -/
def secondAttemptOps : List Op :=
  [⟨0, .startRun 0 0 0⟩, ⟨1, .pollAndLease 10 [0]⟩, ⟨2, .processLeasedJob 0 [0] 0⟩,
   ⟨3, .submitResult 0 false none "timeout" none 0⟩,
   ⟨1000000000, .pollAndLease 10 [0, 1]⟩, ⟨1000000001, .processLeasedJob 1 [0] 0⟩,
   ⟨1000000002, .submitResult 1 true none "" none 0⟩]

instance (cfg : Config) (p : Db × List StageAssignment) (o : Op) :
    Decidable ((tracked cfg).allowed p o) :=
  inferInstanceAs (Decidable ((routine cfg).allowed p.1 o))

def trackedOps (cfg : Config) (ops : List Op) : Db × List StageAssignment :=
  ops.foldl (tracked cfg).exec (deskDb, [])

theorem secondAttempt_reachable :
    (tracked patientConfig).Reachable (trackedOps patientConfig secondAttemptOps) :=
  System.Reachable.of_legal secondAttemptOps (.init ⟨deskDb_fresh, rfl⟩) (by decide +kernel)

theorem second_attempt_walk :
    (startsOf (trackedOps patientConfig secondAttemptOps).2 0).map StageAssignment.attemptNumber
      = [1, 2] ∧
    ∃ run, (trackedOps patientConfig secondAttemptOps).1.runs[0]? = some run ∧
      run.currentStage = .review ∧ ∃ stays,
        startsOf (trackedOps patientConfig secondAttemptOps).2 0 = records stays ∧
          Tours patientConfig run stays ∧
          (stays.map Prod.fst).getLast? = some run.currentStage ∧
          ∀ stay ∈ stays, stay.2.length ≤ max 1 (run.maxAttempts patientConfig stay.1) := by
  have hrun : (trackedOps patientConfig secondAttemptOps).1.runs[0]? = some
      { workspaceId := 0, contentItemId := 0, currentStage := .review, status := .paused,
        pauseReason := some .reviewGate, definitionId := some 0, startedAt := some 0 } := by
    decide +kernel
  exact ⟨by decide +kernel, _, hrun, rfl, attempts_walk patientConfig secondAttempt_reachable hrun⟩

/-- No walk along transitions of the definition comes back to where it began. -/
def WorkflowDefinition.Acyclic (wd : WorkflowDefinition) : Prop :=
  ∀ stage, ¬ TransGen (fun a b => ∃ w ∈ wd.transitions, w.fromStage = a ∧ w.toStage = b) stage stage

theorem Tours.acyclic {run : PipelineRun} {wd : WorkflowDefinition}
    (hpinned : run.pinned cfg = some wd) (hacyclic : wd.Acyclic) (stage : ContentStage) :
    ¬ TransGen (run.Leads cfg) stage stage := by
  intro h
  refine hacyclic stage (TransGen.mono ?_ stage stage h)
  rintro a b ⟨wd', hwd', hw⟩
  rw [hpinned] at hwd'
  cases hwd'
  exact hw

/-- A definition whose transitions all lead to a higher rank has no cycle. -/
theorem WorkflowDefinition.acyclic_of_rank {wd : WorkflowDefinition} (rank : ContentStage → Nat)
    (h : ∀ w ∈ wd.transitions, rank w.fromStage < rank w.toStage) : wd.Acyclic := by
  intro stage hcycle
  have hlt : ∀ a b, TransGen (fun a b => ∃ w ∈ wd.transitions, w.fromStage = a ∧
      w.toStage = b) a b →
      rank a < rank b := by
    intro a b hab
    induction hab with
    | single hstep =>
        obtain ⟨w, hw, rfl, rfl⟩ := hstep
        exact h w hw
    | tail _ hstep ih =>
        obtain ⟨w, hw, rfl, rfl⟩ := hstep
        exact ih.trans (h w hw)
  exact absurd (hlt stage stage hcycle) (Nat.lt_irrefl _)

/-- The starts of a run at a stage. -/
def startsAt (log : List StageAssignment) (rid : RunId) (stage : ContentStage) :
    List StageAssignment :=
  (startsOf log rid).filter fun a => a.stage = stage

theorem attempts_climb {p : Db × List StageAssignment} (h : (tracked cfg).Reachable p)
    {rid : RunId} {run : PipelineRun} (hrun : p.1.runs[rid]? = some run)
    {wd : WorkflowDefinition} (hpinned : run.pinned cfg = some wd) (hacyclic : wd.Acyclic)
    (stage : ContentStage) : Climbs (run.maxAttempts cfg stage)
      ((startsAt p.2 rid stage).map StageAssignment.attemptNumber) := by
  obtain ⟨starts, ⟨before, hlog, htour⟩, _⟩ := (tracked_accounted h rid).accounted.tour run hrun
  unfold startsAt
  rw [hlog]
  rcases htour.walk.filter_records (Tours.acyclic hpinned hacyclic) StageAssignment.stage
    (fun v hv a ha => (htour.walk.kept v hv).here a ha) stage with hnil | ⟨now, hstay, heq⟩
  · rw [hnil]
    exact .nil _
  · rw [heq]
    exact hstay.numbers

end HumanGate
