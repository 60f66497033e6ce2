import HumanGate.Model.Eligibility
import HumanGate.Review.Approval
import HumanGate.Review.Delivery
import HumanGate.Review.Openings
import HumanGate.Run.Routing

set_option autoImplicit false

/-! # What may be published was approved

The version that a reviewer approves is not stored by the decision. It is implied by the gate, which
shows a version when it is opened and another one after each edit, and the eligibility row of an
item may name any gate. What carries the claim is that a gate is decided on what it shows
(`Db.DecidesOnly`) and never touched again, that its run stays a run of the same item, and that
`assert_publishable` compares the gate's version with the current one.
-/

namespace HumanGate

open Lib Lib.Calendar Relation

variable {cfg : Config} {s t u s' : Db} {now : Instant} {gid : GateId} {reviewer : UserId}
  {approved : Bool}

/-! ## Decisions -/

/-- What is approved afterwards was there before, or it is the gate `gid`, which was awaiting, and
is now as `f` makes it. -/
def Db.DecidesOnly (s s' : Db) (gid : GateId) (f : ReviewGate → ReviewGate) : Prop :=
  ∀ (gid' : GateId) (g : ReviewGate), s'.gates[gid']? = some g → g.status = .approved →
    s.gates[gid']? = some g ∨
      gid' = gid ∧ ∃ gate, s.gates[gid]? = some gate ∧ gate.status = .awaiting ∧ g = f gate

theorem Db.Undecided.decidesOnly (h : s.Undecided s') (gid : GateId)
    (f : ReviewGate → ReviewGate) : s.DecidesOnly s' gid f :=
  fun gid' g hg happ => .inl (h gid' g hg happ)

theorem Db.DecidesOnly.trans_undecided {f : ReviewGate → ReviewGate} (h : s.DecidesOnly t gid f)
    (h' : t.Undecided u) : s.DecidesOnly u gid f :=
  fun gid' g hg happ => h gid' g (h' gid' g hg happ) happ

theorem resumeFromReview_decidesOnly (s : Db) (now : Instant) (gid : GateId) (approved : Bool) :
    s.DecidesOnly (resumeFromReview cfg s now gid approved).db gid
      (ReviewGate.decide approved now) := by
  have hrefl := (Db.Undecided.refl s).decidesOnly gid (ReviewGate.decide approved now)
  unfold resumeFromReview
  split
  · exact hrefl
  rename_i gate hgate
  split
  · exact hrefl
  rename_i hawait
  split
  · exact hrefl
  rename_i run _
  have hdecided : s.DecidesOnly (s.updateGate gid (ReviewGate.decide approved now)) gid
      (ReviewGate.decide approved now) := by
    intro gid' g hg _
    obtain ⟨old, hold, ⟨rfl, rfl⟩ | ⟨_, rfl⟩⟩ := Table.get_modify hg
    · rw [hgate] at hold
      cases hold
      exact .inr ⟨rfl, gate, hgate, by simpa using hawait, rfl⟩
    · exact .inl hold
  -- what comes after the decision leaves the gates that are decided
  have hrouted : ∀ trigger, s.DecidesOnly (advanceOrFinish cfg (s.resumed now gid gate.pipelineRunId
      approved) now gate.pipelineRunId gate.stage trigger []).db gid
      (ReviewGate.decide approved now) := by
    intro trigger
    have hresumed : (s.updateGate gid (ReviewGate.decide approved now)).Opens
        (s.resumed now gid gate.pipelineRunId approved) := .of_eq rfl
    exact hdecided.trans_undecided (hresumed.trans (opens_advanceOrFinish ..)).undecided
  simp only
  split
  · exact hrouted _
  · split
    · exact hdecided
    · split
      · exact hdecided
      · have hcleared : (s.updateGate gid (ReviewGate.decide approved now)).Opens
            ((s.updateGate gid (ReviewGate.decide approved now)).updateRun gate.pipelineRunId
              PipelineRun.clearReason) := .of_eq rfl
        exact hdecided.trans_undecided
          (hcleared.trans (opens_failRun _ now gate.pipelineRunId run.workspaceId)).undecided
      · exact hrouted _

theorem Db.DecidesOnly.congr {f : ReviewGate → ReviewGate} (h : s.DecidesOnly t gid f)
    (hboard : u.board = t.board) : s.DecidesOnly u gid f :=
  h.trans_undecided (Db.Opens.of_eq (congrArg Board.gates hboard)).undecided

/-- The reviewer decides the gate. -/
def ReviewGate.decided (reviewer : UserId) (approved : Bool) (now : Instant) (gate : ReviewGate) :
    ReviewGate :=
  (gate.decideBy reviewer).decide approved now

theorem submitAndDeliver_decidesOnly (s : Db) (now : Instant) (gid : GateId) (reviewer : UserId)
    (approved : Bool) (notes : Option String) :
    s.DecidesOnly (submitAndDeliver cfg s now gid reviewer approved notes).db gid
      (ReviewGate.decided reviewer approved now) := by
  unfold submitAndDeliver
  split
  · exact (Db.Undecided.refl s).decidesOnly gid _
  rename_i s1 eid hsubmit
  obtain ⟨_, hverdict, _⟩ := submitReviewDecision_backed cfg hsubmit
  obtain ⟨_, gate, hgate, hgate1⟩ := submitReviewDecision_gate hsubmit
  have hsubmitted := undecided_submitReviewDecision hsubmit
  -- the event carries this decision, or it is a stale one
  have hdelivered : s1.DecidesOnly (dispatchOne cfg s1 now eid).db gid
      (ReviewGate.decide approved now) := by
    cases hd : deliveredVerdict s1 eid with
    | none =>
        have hstale := (Db.Undecided.refl s1).decidesOnly gid (ReviewGate.decide approved now)
        exact hstale.congr (dispatchOne_stale hd).1
    | some v =>
        obtain ⟨rfl, rfl⟩ := hverdict v.1 v.2 hd
        rcases (dispatchOne_delivered hd).applied with ⟨hboard, _⟩ | ⟨hboard, _⟩
        · exact ((Db.Undecided.refl s1).decidesOnly _ _).congr hboard
        · exact (resumeFromReview_decidesOnly s1 now v.1 v.2).congr hboard
  intro gid' g hg happ
  rcases hdelivered gid' g hg happ with hold | ⟨rfl, gate1, h1, hawait, rfl⟩
  · exact .inl (hsubmitted gid' g hold happ)
  · rw [hgate1] at h1
    cases h1
    exact .inr ⟨rfl, gate, hgate, hawait, rfl⟩

/-- A decision decides the gate that it names. -/
theorem decideReviewGate_decidesOnly (s : Db) (now : Instant) (ws : WorkspaceId) (gid : GateId)
    (reviewer : UserId) (approved : Bool) (expected : Option VersionId) (notes : Option String) :
    s.DecidesOnly (decideReviewGate cfg s now ws gid reviewer approved expected notes).db gid
      (ReviewGate.decided reviewer approved now) := by
  have hrefl := (Db.Undecided.refl s).decidesOnly gid (ReviewGate.decided reviewer approved now)
  unfold decideReviewGate
  split
  · exact hrefl
  split
  · exact hrefl
  split
  · exact hrefl
  split
  · exact hrefl
  split
  · exact hrefl
  simp only
  split
  · exact hrefl
  · exact submitAndDeliver_decidesOnly s now gid reviewer approved notes

/-- The version that a decision names is the one that the gate shows. -/
theorem decideReviewGate_names {ws : WorkspaceId} {version : VersionId} {notes : Option String}
    {gate : ReviewGate} (hgate : s.gates[gid]? = some gate)
    (h : (decideReviewGate cfg s now ws gid reviewer approved (some version) notes).raised = none) :
    gate.contentVersionId = some version := by
  by_contra hne
  have hchanged : (some version : Option VersionId) ≠ none ∧ some version ≠ gate.contentVersionId :=
    ⟨Option.some_ne_none version, Ne.symm hne⟩
  unfold decideReviewGate at h
  simp only [hgate, if_pos hchanged] at h
  split at h
  · cases h
  split at h
  · cases h
  split at h
  · cases h
  · cases h

/-! ## Decisions on record -/

/-- Runs stay runs of their item, and decisions stay on record. -/
structure Board.Keeps (b b' : Board) : Prop where
  runs : ∀ (rid : RunId) (run : PipelineRun), b.runs[rid]? = some run →
    ∃ run', b'.runs[rid]? = some run' ∧ run'.contentItemId = run.contentItemId
  decisions : ∀ dec ∈ b.decisions, dec ∈ b'.decisions

theorem Board.Keeps.refl (b : Board) : b.Keeps b :=
  ⟨fun _ run hrun => ⟨run, hrun, rfl⟩, fun _ h => h⟩

theorem Board.Keeps.trans {b b' b'' : Board} (h : b.Keeps b') (h' : b'.Keeps b'') :
    b.Keeps b'' := by
  refine ⟨fun rid run hrun => ?_, fun dec hdec => h'.decisions dec (h.decisions dec hdec)⟩
  obtain ⟨run', hrun', hitem⟩ := h.runs rid run hrun
  obtain ⟨run'', hrun'', hitem'⟩ := h'.runs rid run' hrun'
  exact ⟨run'', hrun'', hitem'.trans hitem⟩

theorem Board.keeps_updateRun (b : Board) (rid : RunId) {f : PipelineRun → PipelineRun}
    (hf : ∀ run, (f run).contentItemId = run.contentItemId) : b.Keeps (b.updateRun rid f) := by
  refine ⟨fun rid' run hrun => ?_, fun _ h => h⟩
  by_cases hr : rid = rid'
  · subst hr
    exact ⟨f run, Table.get_modify_self hrun, hf run⟩
  · exact ⟨run, (Table.get_modify_ne hr).trans hrun, rfl⟩

variable {sc : Scope}

theorem RunWrite.contentItemId {b : Board} {rid : RunId} {f : PipelineRun → PipelineRun}
    (h : RunWrite cfg sc b rid f) (run : PipelineRun) :
    (f run).contentItemId = run.contentItemId := by
  cases h with
  | reopen _ =>
      unfold PipelineRun.reopen
      split <;> rfl
  | _ => rfl

theorem Write.keeps {b b' : Board} (h : Write cfg sc b b') : b.Keeps b' := by
  cases h with
  | startRun _ _ _ =>
      exact ⟨fun _ run hrun => ⟨run, Table.get_push_of_some hrun, rfl⟩, fun _ h => h⟩
  | run hf => exact b.keeps_updateRun _ hf.contentItemId
  | decision => exact ⟨fun _ run hrun => ⟨run, hrun, rfl⟩, fun _ h => List.mem_append_left _ h⟩
  | newJob | job | newAssignment | assignment | worker | newGate | gate =>
      exact ⟨fun _ run hrun => ⟨run, hrun, rfl⟩, fun _ h => h⟩

theorem Writes.keeps {b b' : Board} (h : Writes cfg sc b b') : b.Keeps b' :=
  h.invariant (I := b.Keeps) (fun _ _ hw hk => hk.trans hw.keeps) (.refl b)

/-- The approval of the gate is on record, for the item of its run. -/
def Board.OnRecord (b : Board) (g : ReviewGate) : Prop :=
  ∃ run dec, b.runs[g.pipelineRunId]? = some run ∧ dec ∈ b.decisions ∧ dec.decision = .approved ∧
    g.decidedBy = some dec.reviewerId ∧ dec.contentItemId = run.contentItemId

theorem Board.OnRecord.keeps {b b' : Board} {g : ReviewGate} (h : b.OnRecord g)
    (hk : b.Keeps b') : b'.OnRecord g := by
  obtain ⟨run, dec, hrun, hdec, happ, hby, hitem⟩ := h
  obtain ⟨run', hrun', hitem'⟩ := hk.runs g.pipelineRunId run hrun
  exact ⟨run', dec, hrun', hk.decisions dec hdec, happ, hby, hitem.trans hitem'.symm⟩

def Board.Recorded (b : Board) : Prop := ∀ g ∈ b.gates, g.status = .approved → b.OnRecord g

/-- A decided gate is on record, if its verdict is the recorded one. -/
theorem GateWrite.onRecord {b : Board} {gid : GateId} {f : ReviewGate → ReviewGate}
    (h : GateWrite sc b gid f) (hv : ¬ sc.verdict) {g : ReviewGate} (hg : b.gates[gid]? = some g)
    (happ : (f g).status = .approved) : b.OnRecord (f g) := by
  have hnot : g.status ≠ .approved := h.not_approved hg
  cases h with
  | decideBy reviewer _ => exact absurd happ hnot
  | decide approved now _ hback =>
      cases approved with
      | false => cases happ
      | true =>
          obtain ⟨g', run, dec, hg', hrun, hdec, hby, hitem, hval⟩ := hback.resolve_right hv
          rw [hg] at hg'
          cases hg'
          exact ⟨run, dec, hrun, hdec, hval, hby, hitem⟩
  | escalate timeoutAt _ _ _ => cases happ
  | showVersion v _ => exact absurd happ hnot

theorem Write.recorded {b b' : Board} (h : Write cfg sc b b') (hv : ¬ sc.verdict)
    (hb : b.Recorded) : b'.Recorded := by
  have hkeeps := h.keeps
  have hold : ∀ g ∈ b.gates, g.status = .approved → b'.OnRecord g := fun g hg happ =>
    (hb g hg happ).keeps hkeeps
  cases h with
  | newGate hnew =>
      refine Table.forall_push hold fun happ => ?_
      obtain ⟨hawait, _, _⟩ := hnew
      rw [hawait] at happ
      cases happ
  | gate hf =>
      exact Table.forall_modify hold fun g hg happ => (hf.onRecord hv hg happ).keeps hkeeps
  | startRun | run | newJob | job | newAssignment | assignment | worker | decision => exact hold

/-! ## Content jobs -/

/-- Nothing is decided, runs stay runs of their item, and the board stays sane. -/
structure Db.Prepares (s s' : Db) : Prop where
  undecided : s.Undecided s'
  keeps : s.board.Keeps s'.board
  sane : s.board.Sane → s'.board.Sane

theorem Db.Prepares.trans (h : s.Prepares t) (h' : t.Prepares u) : s.Prepares u :=
  ⟨h.undecided.trans h'.undecided, h.keeps.trans h'.keeps, h'.sane ∘ h.sane⟩

theorem Db.Prepares.of_board (h : s'.board = s.board) : s.Prepares s' := by
  refine ⟨(Db.Opens.of_eq (congrArg Board.gates h)).undecided, ?_, ?_⟩
  · rw [h]
    exact .refl _
  · rw [h]
    exact id

theorem Db.Prepares.of_writes (hopens : s.Opens s') (h : Writes cfg sc s.board s'.board) :
    s.Prepares s' :=
  ⟨hopens.undecided, h.keeps, h.invariant (I := Board.Sane) fun _ _ => Write.sane⟩

theorem prepares_updateRun (s : Db) (rid : RunId) (f : PipelineRun → PipelineRun)
    (hf : ∀ run, (f run).contentItemId = run.contentItemId) : s.Prepares (s.updateRun rid f) :=
  ⟨(Db.Opens.of_eq rfl).undecided, s.board.keeps_updateRun rid hf, fun h => ⟨h.level, h.jobs⟩⟩

/-- Everything that a scope may allow. -/
def Scope.free : Scope where
  start _ := True
  assign _ := True
  job _ := True
  gate _ := True
  moves _ := True
  spends _ _ := True
  loose _ _ := True
  verdict := True
  reopens := True

theorem prepares_pauseForReview (s : Db) (now : Instant) (rid : RunId) (stage : ContentStage)
    (timeoutSeconds : Nat) :
    s.Prepares (pauseForReview s now rid stage timeoutSeconds).db := by
  have hwrites : Writes {} .free s.board (pauseForReview s now rid stage timeoutSeconds).db.board :=
    pauseForReview_writes s now timeoutSeconds fun _ _ _ => .inr trivial
  exact .of_writes (opens_pauseForReview s now rid stage timeoutSeconds) hwrites

theorem prepares_enqueueStage (s : Db) (now : Instant) (rid : RunId) (ws : WorkspaceId)
    (stage : ContentStage) (attempt : Nat) (runAfter : Instant) :
    s.Prepares (enqueueStage cfg s now rid ws stage attempt runAfter) := by
  have hwrites : Writes cfg .free s.board
      (enqueueStage cfg s now rid ws stage attempt runAfter).board :=
    enqueueStage_writes s now ws attempt runAfter (.inr trivial)
  exact .of_writes (.of_eq rfl) hwrites

theorem prepares_enterStage (s : Db) (now : Instant) (rid : RunId) (ws : WorkspaceId)
    (row : WorkflowStage) : s.Prepares (enterStage cfg s now rid ws row).db := by
  have hentered : s.Prepares (s.updateRun rid (PipelineRun.enter row.stageKey)) :=
    prepares_updateRun s rid _ fun _ => rfl
  unfold enterStage
  simp only
  split
  · have hsucceeded := prepares_updateRun (s.updateRun rid (PipelineRun.enter row.stageKey)) rid
      (PipelineRun.succeed now) fun _ => rfl
    exact (hentered.trans hsucceeded).trans (.of_board rfl)
  split
  · exact hentered.trans (prepares_pauseForReview ..)
  · exact hentered.trans (prepares_enqueueStage ..)

theorem prepares_advanceOrFinish (s : Db) (now : Instant) (rid : RunId) (fromStage : ContentStage)
    (trigger : WorkflowTransitionTrigger) (context : JsonObject) :
    s.Prepares (advanceOrFinish cfg s now rid fromStage trigger context).db := by
  have hrefl : s.Prepares s := .of_board rfl
  unfold advanceOrFinish
  split
  · exact hrefl
  split
  · exact hrefl
  split
  · exact hrefl
  · split
    · exact hrefl
    split
    · have hsucceeded : s.Prepares (s.updateRun rid (PipelineRun.succeed now)) :=
        prepares_updateRun s rid _ fun _ => rfl
      have hentered := prepares_updateRun (s.updateRun rid (PipelineRun.succeed now)) rid
        (PipelineRun.enter fromStage) fun _ => rfl
      exact (hsucceeded.trans hentered).trans (.of_board rfl)
    · exact hrefl
  · split
    · exact hrefl
    · exact prepares_enterStage ..

theorem prepares_handleStageSuccess (s : Db) (now : Instant) (rid : RunId) (stage : ContentStage)
    (context : JsonObject) : s.Prepares (handleStageSuccess cfg s now rid stage context).db := by
  unfold handleStageSuccess
  split
  · exact .of_board rfl
  split
  · exact .of_board rfl
  · exact prepares_advanceOrFinish ..

theorem prepares_updateJobs (f : JobSchedule → JobSchedule) (hf : ∀ j, (f j).SameTarget j)
    (ids : List JobId) (s : Db) : s.Prepares (updateJobs s f ids) := by
  have hwrites : Writes {} .free s.board (updateJobs s f ids).board := by
    induction ids generalizing s with
    | nil => exact .refl
    | cons jid rest ih =>
        have hfirst : Write {} .free s.board (s.updateJob jid f).board :=
          .job hf (.inr fun _ _ _ _ _ _ _ => trivial)
        exact .head hfirst (ih (s.updateJob jid f))
  exact .of_writes (opens_updateJobs f ids s) hwrites

theorem prepares_completeDraft {ws : WorkspaceId} {rid : RunId} {context : JsonObject}
    (h : completeDraft cfg s now ws rid context = .ok s') : s.Prepares s' := by
  unfold completeDraft at h
  simp only at h
  split at h
  · cases h
  rename_i reserved resId hreserve
  have hreserved : s.Prepares reserved := by
    have hopens := opens_reserveSpend s now rid ws .scripting draftDeskProvider
      cfg.settings.defaultStageEstimateUsd
    have hwrites : Writes cfg .free s.board (reserveSpend s now rid ws .scripting draftDeskProvider
        cfg.settings.defaultStageEstimateUsd).1.board :=
      reserveSpend_writes s now ws .scripting draftDeskProvider _ fun _ => .inr trivial
    rw [hreserve] at hopens hwrites
    exact .of_writes hopens hwrites
  split at h
  · cases h
  split at h
  · cases h
  rename_i committed hcommit
  cases h
  have hcommitted : (handleStageSuccess cfg reserved now rid .scripting context).db.Prepares
      committed := .of_board (board_of_core (core_commitSpend hcommit))
  exact ((hreserved.trans (prepares_handleStageSuccess ..)).trans hcommitted).trans
    (prepares_updateJobs JobSchedule.cancelOrphan (fun _ => ⟨rfl, rfl, rfl, rfl⟩) _ _)

theorem prepares_createContentJob {idText : VersionId → String} {amountText : ℚ≥0 → String}
    {s s' : DeskDb} {ws : WorkspaceId} {definition : DefinitionId} {args : ContentJobArgs}
    {result : ContentJobResult}
    (h : createContentJob idText amountText cfg s now ws definition args = .ok (s', result)) :
    s.db.Prepares s'.db := by
  unfold createContentJob at h
  split at h
  · cases h
  split at h
  · cases h
  · obtain ⟨_, _, hs⟩ := map_ok h
    cases hs
    exact .of_board rfl
  · unfold newContentJob at h
    simp only at h
    split at h
    · cases h
    · cases h
    rename_i version topic _ _
    split at h
    · cases h
    split at h
    · cases h
    rename_i db hdraft
    split at h
    · cases h
    cases h
    have hadded : s.db.Prepares (s.db.addDraft ws version) := .of_board rfl
    have hwrites : Writes cfg .free (s.db.addDraft ws version).board
        (startRun cfg (s.db.addDraft ws version) now ws s.db.items.length definition).db.board :=
      startRun_writes _ now ws s.db.items.length definition trivial
    have hstarted := Db.Prepares.of_writes
      (opens_startRun (s.db.addDraft ws version) now ws s.db.items.length definition) hwrites
    exact ((hadded.trans hstarted).trans (prepares_completeDraft hdraft)).trans (.of_board rfl)

/-! ## The invariant -/

/-- A reviewer has named the version that the gate shows in an approval of the gate. -/
def LoggedApproval (log : List Approval) (gid : GateId) (g : ReviewGate) : Prop :=
  ∃ a ∈ log, a.gate = gid ∧ g.decidedBy = some a.reviewer ∧ g.contentVersionId = some a.version

/-- An approved gate shows the version that was named, and its approval is on record. -/
structure DeskDb.Pinned (s : DeskDb) (log : List Approval) : Prop where
  sane : s.db.board.Sane
  recorded : s.db.board.Recorded
  logged : ∀ (gid : GateId) (g : ReviewGate), s.db.gates[gid]? = some g → g.status = .approved →
    LoggedApproval log gid g

variable {idText : VersionId → String} {amountText : ℚ≥0 → String} {log : List Approval}

theorem LoggedApproval.append {g : ReviewGate} (h : LoggedApproval log gid g)
    (more : List Approval) : LoggedApproval (log ++ more) gid g := by
  obtain ⟨a, ha, hrest⟩ := h
  exact ⟨a, List.mem_append_left more ha, hrest⟩

/-- What prepares gates for a review keeps what was approved. -/
theorem Db.Prepares.recorded (h : s.Prepares s') (hs : s.board.Recorded) : s'.board.Recorded := by
  intro g hg happ
  obtain ⟨gid, hgid⟩ := List.mem_iff_getElem?.mp hg
  have hold := h.undecided gid g hgid happ
  exact (hs g (Table.mem_of_get hold) happ).keeps h.keeps

/-- Orchestration that delivers no recorded decision keeps approvals on record. -/
theorem exec_recorded {o : Op} (hdelivers : o.action.isDelivery = false) (hsane : s.board.Sane)
    (hs : s.board.Recorded) : (exec cfg s o).board.Recorded := by
  have hverdict : ¬ (o.scope cfg s).verdict := by
    rintro ⟨eid, h⟩
    rw [h] at hdelivers
    cases hdelivers
  exact (exec_writes cfg o fun _ => hsane).invariant (I := Board.Recorded)
    (fun _ _ hw => hw.recorded hverdict) hs

/-- A decision that goes through names the version that the gate shows, if it approves the gate. -/
theorem decision_logged {s : DeskDb} {ws : WorkspaceId} {gid' : GateId}
    {expected : Option VersionId} {notes : Option String}
    (hnames :
      Action.namesVersion (.decideReviewGate ws gid' reviewer approved expected notes) = true)
    {g : ReviewGate} (happ : g.status = .approved)
    (hg : (exec cfg s.db ⟨now,
      .decideReviewGate ws gid' reviewer approved expected notes⟩).gates[gid]?
      = some g) :
    s.db.gates[gid]? = some g ∨ LoggedApproval (approvals cfg s
      ⟨now, .orchestrate (.decideReviewGate ws gid' reviewer approved expected notes)⟩) gid g := by
  have hcommit : exec cfg s.db ⟨now, .decideReviewGate ws gid' reviewer approved expected notes⟩
      = (decideReviewGate cfg s.db now ws gid' reviewer approved expected notes).commit s.db := rfl
  rw [hcommit] at hg
  unfold Call.commit at hg
  split at hg
  · exact .inl hg
  rename_i hraised
  rcases decideReviewGate_decidesOnly s.db now ws gid' reviewer approved expected notes gid
    g hg happ
    with hold | ⟨rfl, gate, hgate, _, rfl⟩
  · exact .inl hold
  cases approved with
  | false => cases happ
  | true =>
      cases expected with
      | none => cases hnames
      | some version =>
          have hshown := decideReviewGate_names hgate hraised
          refine .inr ⟨⟨gid, reviewer, version⟩, ?_, rfl, rfl, hshown⟩
          simp [approvals, hraised]

/-- An approved gate is an old one, or the operation is an approval that names the version it
shows. -/
theorem exec_logged {s : DeskDb} {action : Action} (hnames : action.namesVersion = true)
    {g : ReviewGate} (happ : g.status = .approved)
    (hg : (exec cfg s.db ⟨now, action⟩).gates[gid]? = some g) :
    s.db.gates[gid]? = some g ∨
    LoggedApproval (approvals cfg s ⟨now, .orchestrate action⟩) gid g := by
  cases hdecides : action.decides with
  | false => exact .inl (exec_undecided cfg s.db hdecides gid g hg happ)
  | true =>
      cases action with
      | decideReviewGate => exact decision_logged hnames happ hg
      | dispatchOne | submitAndDeliver => cases hnames
      | _ => cases hdecides

/-- One transaction. -/
theorem deskExec_pinned {s : DeskDb} {o : DeskOp} (ho : o.action.namesVersion = true)
    (hs : s.Pinned log) :
    (deskExec idText amountText cfg s o).Pinned (log ++ approvals cfg s o) := by
  obtain ⟨now, action⟩ := o
  cases action with
  | orchestrate action =>
      have hdelivers : action.isDelivery = false := by
        cases action with
        | dispatchOne => cases ho
        | _ => rfl
      refine ⟨exec_sane cfg _ hs.sane, exec_recorded hdelivers hs.sane hs.recorded,
        fun gid g hg happ => ?_⟩
      rcases exec_logged ho happ hg with hold | ⟨a, ha, hrest⟩
      · exact (hs.logged gid g hold happ).append _
      · exact ⟨a, List.mem_append_right log ha, hrest⟩
  | createContentJob ws definition args =>
      have hnone : approvals cfg s ⟨now, .createContentJob ws definition args⟩ = [] := rfl
      rw [hnone, List.append_nil]
      unfold deskExec
      simp only
      split
      · exact hs
      · rename_i hcreate
        have hprepares := prepares_createContentJob hcreate
        exact ⟨hprepares.sane hs.sane, hprepares.recorded hs.recorded,
          fun gid g hg happ => hs.logged gid g (hprepares.undecided gid g hg happ) happ⟩
  | writeEligibility rows =>
      refine ⟨hs.sane, hs.recorded, fun gid g hg happ => ?_⟩
      exact (hs.logged gid g hg happ).append _

theorem publicationDesk_pinned {s : DeskDb}
    (h : ((publicationDesk idText amountText cfg).logged (approvals cfg)).Reachable (s, log)) :
    s.Pinned log := by
  refine h.invariant (I := fun p => p.1.Pinned p.2) ?_ fun p o hp ho => deskExec_pinned ho hp
  rintro ⟨s, log⟩ ⟨hfresh, hlog⟩
  have hgates : s.db.gates = [] := Fresh.gates hfresh
  refine ⟨Fresh.sane hfresh, fun g hg => ?_, fun gid g hg => ?_⟩
  · have hg : g ∈ s.db.gates := hg
    rw [hgates] at hg
    cases hg
  · rw [hgates] at hg
    cases hg

/-! ## The controls -/

variable {ws : WorkspaceId} {item : ItemId} {platform : PyStr} {row : PublicationEligibility}
  {gate : ReviewGate}

theorem eligibilityRow_ok {s : DeskDb} (h : eligibilityRow s ws item platform = .ok row) :
    row ∈ s.eligibility ∧ row.workspaceId = ws ∧ row.contentItemId = item ∧
      row.platform = platform := by
  unfold eligibilityRow at h
  split at h
  · cases h
  · rename_i hone
    cases h
    have hrow := List.mem_filter.mp (hone ▸ List.mem_singleton_self row)
    obtain ⟨⟨hws, hitem⟩, hplatform⟩ := by
      simpa only [Bool.and_eq_true, beq_iff_eq] using hrow.2
    exact ⟨hrow.1, hws, hitem, hplatform⟩
  · cases h

theorem approvedGate_ok (h : approvedGate s ws row = .ok (gid, gate)) :
    s.gates[gid]? = some gate ∧ gate.workspaceId = ws ∧ gate.status = .approved := by
  unfold approvedGate at h
  split at h
  · cases h
  split at h
  · cases h
  rename_i hgate
  split at h
  · cases h
  rename_i happ
  cases h
  obtain ⟨hgate, hws⟩ := Option.filter_eq_some_iff.mp hgate
  exact ⟨hgate, by simpa using hws, by simpa using happ⟩

theorem checkRun_ok (h : checkRun s ws item gate = .ok ()) :
    ∃ run, s.runs[gate.pipelineRunId]? = some run ∧ run.workspaceId = ws ∧
      run.contentItemId = item := by
  unfold checkRun at h
  split at h
  · cases h
  rename_i run hrun
  split at h
  · cases h
  rename_i hitem
  obtain ⟨hrun, hws⟩ := Option.filter_eq_some_iff.mp hrun
  exact ⟨run, hrun, by simpa using hws, by simpa using hitem⟩

theorem checkVersion_ok (h : checkVersion s ws item gate = .ok ()) :
    ∃ (row : ContentItem) (version : VersionId), s.items[item]? = some row ∧ row.workspaceId = ws ∧
      row.currentVersionId = some version ∧ gate.contentVersionId = some version := by
  unfold checkVersion at h
  split at h
  · cases h
  rename_i row hrow
  split at h
  · cases h
  rename_i hversion
  push Not at hversion
  obtain ⟨hshown, _, hsame⟩ := hversion
  obtain ⟨hrow, hws⟩ := Option.filter_eq_some_iff.mp hrow
  obtain ⟨version, hversion⟩ := Option.ne_none_iff_exists'.mp hshown
  exact ⟨row, version, hrow, by simpa using hws, hsame ▸ hversion, hversion⟩

theorem attestedFingerprint_ok {fingerprint : PyStr}
    (h : attestedFingerprint row = .ok fingerprint) :
    row.syntheticMediaDisclosed = true ∧ row.rightsConfirmedBy ≠ none ∧
      row.rightsConfirmedAt ≠ none ∧ fingerprint ≠ [] ∧
      row.originalityFingerprint = some fingerprint := by
  unfold attestedFingerprint at h
  split at h
  · cases h
  rename_i hdisclosed
  split at h
  · cases h
  rename_i hrights
  push Not at hrights
  split at h
  · cases h
  · cases h
  · rename_i hne hfingerprint
    cases h
    exact ⟨by simpa using hdisclosed, hrights.1, hrights.2, hne, hfingerprint⟩

theorem checkOriginal_ok {s : DeskDb} {fingerprint : PyStr}
    (h : checkOriginal s ws item platform fingerprint = .ok ()) :
    ∀ other ∈ s.eligibility, other.workspaceId = ws → other.platform = platform →
      other.originalityFingerprint = some fingerprint → other.contentItemId = item := by
  unfold checkOriginal at h
  split at h
  · cases h
  rename_i hnone
  intro other hother hws hplatform hfingerprint
  by_contra hne
  refine hnone (List.any_eq_true.mpr ⟨other, hother, ?_⟩)
  simp [hws, hplatform, hfingerprint, hne]

/-! ## Publishing -/

/-- The version was named by a reviewer in an approval of a gate of the item, and the approval is on
record. -/
def ApprovedFor (s : Db) (log : List Approval) (ws : WorkspaceId) (item : ItemId)
    (version : VersionId) : Prop :=
  ∃ (a : Approval) (gate : ReviewGate) (run : PipelineRun) (dec : ReviewDecision),
    a ∈ log ∧ a.version = version ∧ s.gates[a.gate]? = some gate ∧ gate.workspaceId = ws ∧
    gate.status = .approved ∧ s.runs[gate.pipelineRunId]? = some run ∧ run.workspaceId = ws ∧
    run.contentItemId = item ∧
    dec ∈ s.decisions ∧ dec.decision = .approved ∧ dec.reviewerId = a.reviewer ∧
    dec.contentItemId = item

/-- The item is disclosed, its rights are confirmed, and no other item on the platform has its
fingerprint. -/
def Attested (s : DeskDb) (ws : WorkspaceId) (item : ItemId) (platform : PyStr) : Prop :=
  ∃ row ∈ s.eligibility, row.workspaceId = ws ∧ row.contentItemId = item ∧
    row.platform = platform ∧ row.syntheticMediaDisclosed = true ∧ row.rightsConfirmedBy ≠ none ∧
    row.rightsConfirmedAt ≠ none ∧ ∃ fingerprint, fingerprint ≠ [] ∧
      row.originalityFingerprint = some fingerprint ∧
      ∀ other ∈ s.eligibility, other.workspaceId = ws → other.platform = platform →
        other.originalityFingerprint = some fingerprint → other.contentItemId = item

variable {lower repr : PyStr → PyStr}

/-- Every control is satisfied. -/
theorem assertPublishable_ok {s : DeskDb} {platform : Option PyStr} {decision : PublicationDecision}
    (h : assertPublishable lower repr s ws item platform = .ok decision) :
    ∃ row gid gate fingerprint,
      eligibilityRow s ws item (normalizedPlatform lower platform) = .ok row ∧
      approvedGate s.db ws row = .ok (gid, gate) ∧ checkRun s.db ws item gate = .ok () ∧
      checkVersion s.db ws item gate = .ok () ∧ attestedFingerprint row = .ok fingerprint ∧
      checkOriginal s ws item (normalizedPlatform lower platform) fingerprint = .ok () := by
  unfold assertPublishable at h
  simp only at h
  split at h
  · cases h
  · obtain ⟨row, hrow, h⟩ := bind_ok h
    obtain ⟨⟨gid, gate⟩, hgate, h⟩ := bind_ok h
    obtain ⟨_, hrun, h⟩ := bind_ok h
    obtain ⟨_, hversion, h⟩ := bind_ok h
    obtain ⟨fingerprint, hattested, h⟩ := bind_ok h
    obtain ⟨_, horiginal, _⟩ := bind_ok h
    exact ⟨row, gid, gate, fingerprint, hrow, hgate, hrun, hversion, hattested, horiginal⟩

/-- What an approved gate of the item stands for. -/
theorem DeskDb.Pinned.approvedFor {s : DeskDb} (hs : s.Pinned log) {run : PipelineRun}
    {version : VersionId} (hgate : s.db.gates[gid]? = some gate) (happ : gate.status = .approved)
    (hws : gate.workspaceId = ws) (hshown : gate.contentVersionId = some version)
    (hrun : s.db.runs[gate.pipelineRunId]? = some run) (hrunws : run.workspaceId = ws)
    (hitem : run.contentItemId = item) : ApprovedFor s.db log ws item version := by
  obtain ⟨a, ha, rfl, hby, hversion⟩ := hs.logged gid gate hgate happ
  obtain ⟨run', dec, hrun', hdec, hval, hdecided, hdecitem⟩ :=
    hs.recorded gate (Table.mem_of_get hgate) happ
  have hrun'' : s.db.runs[gate.pipelineRunId]? = some run' := hrun'
  rw [hrun] at hrun''
  cases hrun''
  have hnamed : a.version = version := by
    rw [hversion] at hshown
    exact Option.some.inj hshown
  have hreviewer : dec.reviewerId = a.reviewer := by
    rw [hby] at hdecided
    exact (Option.some.inj hdecided).symm
  exact ⟨a, gate, run, dec, ha, hnamed, hgate, hws, happ, hrun, hrunws, hitem, hdec, hval,
    hreviewer,
    hdecitem.trans hitem⟩

/-- **What may be published was approved**: after any transactions, whenever `assert_publishable`
returns, the current version of the item was named by a reviewer in an approval of a gate of this
item in this workspace, and the item is attested for the platform. -/
theorem publication_sound (lower repr : PyStr → PyStr) (idText : VersionId → String)
    (amountText : ℚ≥0 → String) (cfg : Config) {s : DeskDb} {log : List Approval}
    (h : ((publicationDesk idText amountText cfg).logged (approvals cfg)).Reachable (s, log))
    {ws : WorkspaceId} {item : ItemId} {platform : Option PyStr} {decision : PublicationDecision}
    (hok : assertPublishable lower repr s ws item platform = .ok decision) :
    (∃ row version, s.db.items[item]? = some row ∧ row.workspaceId = ws ∧
      row.currentVersionId = some version ∧ ApprovedFor s.db log ws item version) ∧
    Attested s ws item (normalizedPlatform lower platform) := by
  have hs := publicationDesk_pinned h
  -- what `assert_publishable` has checked, one check after the other
  obtain ⟨row, gid, gate, fingerprint, hrow, hgate, hrun, hversion, hattested, horiginal⟩ :=
    assertPublishable_ok hok
  obtain ⟨hmem, hrowws, hrowitem, hplatform⟩ := eligibilityRow_ok hrow
  obtain ⟨hgate, hgatews, happ⟩ := approvedGate_ok hgate
  obtain ⟨run, hrun, hrunws, hrunitem⟩ := checkRun_ok hrun
  obtain ⟨it, version, hit, hitws, hcurrent, hshown⟩ := checkVersion_ok hversion
  obtain ⟨hdisclosed, hby, hat, hne, hfingerprint⟩ := attestedFingerprint_ok hattested
  refine ⟨⟨it, version, hit, hitws, hcurrent, ?_⟩, row, hmem, hrowws, hrowitem, hplatform,
    hdisclosed,
    hby, hat, fingerprint, hne, hfingerprint, checkOriginal_ok horiginal⟩
  exact hs.approvedFor hgate happ hgatews hshown hrun hrunws hrunitem

/-! ## A draft that is edited, approved and published -/

/-- The desk with the texts of small numbers. -/
def smallDesk : System (DeskDb × List Approval) DeskOp :=
  (publicationDesk toString (fun _ => "0.01") deskConfig).logged (approvals deskConfig)

instance (p : DeskDb × List Approval) (o : DeskOp) : Decidable (smallDesk.allowed p o) :=
  inferInstanceAs (Decidable (o.action.namesVersion = true))

/-- What is attested of the item 1 for one platform. -/
def draftRow : PublicationEligibility where
  id := 0
  workspaceId := 0
  contentItemId := 1
  platform := PyStr.lit "youtube"
  syntheticMediaDisclosed := true
  rightsConfirmedBy := some 7
  rightsConfirmedAt := some 3
  originalityFingerprint := some (PyStr.lit "ab12")
  reviewGateId := some 0

/-- A job, an edit of its draft, and the approval of the edited version. -/
def publishedOps : List DeskOp :=
  [⟨0, .createContentJob 0 0 { topic := PyStr.lit "rain", scriptBody := PyStr.lit "It rains." }⟩,
   ⟨1, .orchestrate (.editReviewGateContent 0 0 1 none (some "It pours.") none)⟩,
   ⟨2, .orchestrate (.decideReviewGate 0 0 7 true (some 2) none)⟩,
   ⟨3, .writeEligibility [draftRow]⟩]

def publishedState : DeskDb × List Approval :=
  publishedOps.foldl smallDesk.exec ({ db := deskDb }, [])

theorem edited_draft_publishable :
    assertPublishable PyStr.lowerAscii id publishedState.1 0 1 (some (PyStr.lit " YouTube"))
      = .ok ⟨1, PyStr.lit "youtube", 0, 0⟩ ∧
    (∃ row version, publishedState.1.db.items[1]? = some row ∧ row.workspaceId = 0 ∧
      row.currentVersionId = some version ∧
      ApprovedFor publishedState.1.db publishedState.2 0 1 version) ∧
    Attested publishedState.1 0 1
      (normalizedPlatform PyStr.lowerAscii (some (PyStr.lit " YouTube"))) := by
  have hinit : smallDesk.init ({ db := deskDb }, []) := ⟨deskDb_fresh, rfl⟩
  have hreach : smallDesk.Reachable publishedState :=
    System.Reachable.of_legal publishedOps (.init hinit) (by decide +kernel)
  have hok : assertPublishable PyStr.lowerAscii id publishedState.1 0 1
      (some (PyStr.lit " YouTube")) = .ok ⟨1, PyStr.lit "youtube", 0, 0⟩ := by
    decide +kernel
  exact ⟨hok, publication_sound PyStr.lowerAscii id toString
    (fun _ => "0.01") deskConfig hreach hok⟩

end HumanGate
