import HumanGate.Run.Backstage
import HumanGate.Run.Operations

set_option autoImplicit false

/-! # What an operation does to the assignments

The *crew* is who works on what: the assignments, the workers, and the record of the attempts
that were made. An operation changes it in single moves (`Move`): a row is inserted, given to
a worker, acknowledged, closed, recovered or cancelled, and the slot of the worker moves with
it, except where a move says otherwise. Everything the controller does, from starting a run to
delivering a review decision, leaves the crew alone.

`exec_moves` says of every operation which kinds of moves it is made of. The properties of the
fleet are then proved move by move (`Moves.invariant`).
-/

namespace HumanGate

open Lib Lib.Calendar Relation

/-! ## The crew -/

structure Crew where
  assignments : List StageAssignment
  workers : List WorkerRegistration
  stageRuns : List PipelineStageRun

def Db.crew (s : Db) : Crew := ⟨s.assignments, s.workers, s.stageRuns⟩

namespace Crew

def push (c : Crew) (a : StageAssignment) : Crew := { c with assignments := c.assignments ++ [a] }

def update (c : Crew) (now : Instant) (aid : AssignmentId)
    (f : StageAssignment → StageAssignment) : Crew :=
  { c with assignments := c.assignments.modify aid fun a => { f a with updatedAt := now } }

/-- The slot of a worker, if there is one. -/
def slot (c : Crew) (worker : Option WorkerId) (f : WorkerRegistration → WorkerRegistration) :
    Crew :=
  match worker with
  | some wid => { c with workers := c.workers.modify wid f }
  | none => c

@[simp] theorem slot_assignments (c : Crew) (worker : Option WorkerId)
    (f : WorkerRegistration → WorkerRegistration) :
    (c.slot worker f).assignments = c.assignments := by
  cases worker <;> rfl

@[simp] theorem slot_stageRuns (c : Crew) (worker : Option WorkerId)
    (f : WorkerRegistration → WorkerRegistration) :
    (c.slot worker f).stageRuns = c.stageRuns := by
  cases worker <;> rfl

end Crew

/-! ## Moves -/

inductive MoveKind where
  | queue | assign | claim | acknowledge | confirm | extend | close | requeue | exhaust | cancel
  | staff
  deriving DecidableEq

/-- The record of the assignment's current attempt. -/
def PipelineStageRun.records (r : PipelineStageRun) (a : StageAssignment) : Bool :=
  r.pipelineRunId == a.pipelineRunId && r.stage == a.stage && r.attemptNumber == a.attemptNumber

/-- The records after an attempt is closed. Without a run there is none. -/
inductive Recorded (a : StageAssignment) (rs : List PipelineStageRun) :
    List PipelineStageRun → Prop
  | none : Recorded a rs rs
  | new {r : PipelineStageRun} : r.records a = true → (∀ r' ∈ rs, r'.records a = false) →
      Recorded a rs (rs ++ [r])

section Move

variable (cfg : Config) (now : Instant)

/-- One move, with what the code has checked before it. `confirm` is an acknowledgement without
a worker: nothing is checked. A cancellation leaves the worker's load. `staff` is a change to a
worker's registration alone; it leaves the worker's pin. -/
inductive Move : MoveKind → Crew → Crew → Prop
  | queue {c : Crew} (args : DispatchArgs) (stage : ContentStage) :
      Move .queue c (c.push (newAssignment cfg now args stage none))
  | assign {c : Crew} {wid : WorkerId} {w : WorkerRegistration} (args : DispatchArgs)
      (stage : ContentStage) : c.workers[wid]? = some w → w.currentLoad < w.maxConcurrency →
      Move .assign c ((c.push (newAssignment cfg now args stage (some wid))).slot (some wid)
        WorkerRegistration.takeSlot)
  | claim {c : Crew} {aid : AssignmentId} {a : StageAssignment} {wid : WorkerId}
      {w : WorkerRegistration} (token : Option ClaimToken) : c.assignments[aid]? = some a →
      a.status = .pending → c.workers[wid]? = some w → claimRefusal cfg w now = none →
      Move .claim c ((c.update now aid (StageAssignment.claim cfg now wid token)).slot (some wid)
        WorkerRegistration.takeSlot)
  | acknowledge {c : Crew} {aid : AssignmentId} {a : StageAssignment} (secs : Nat) :
      c.assignments[aid]? = some a → a.status = .dispatched →
      Move .acknowledge c (c.update now aid (StageAssignment.acknowledge now secs))
  | confirm {c : Crew} {aid : AssignmentId} (secs : Nat) :
      Move .confirm c (c.update now aid (StageAssignment.acknowledge now secs))
  | extend {c : Crew} {aid : AssignmentId} (secs : Nat) :
      Move .extend c (c.update now aid (StageAssignment.extendLease now secs))
  | close {c : Crew} {aid : AssignmentId} {a : StageAssignment} {rs : List PipelineStageRun}
      (success : Bool) (result : Option JsonObject) : c.assignments[aid]? = some a →
      a.status.inFlight = true → Recorded a c.stageRuns rs →
      Move .close c { (c.update now aid (StageAssignment.close now success result)).slot a.workerId
        WorkerRegistration.returnSlot with stageRuns := rs }
  | requeue {c : Crew} {aid : AssignmentId} {a : StageAssignment} :
      c.assignments[aid]? = some a → a.status.inFlight = true →
      Move .requeue c ((c.slot a.workerId WorkerRegistration.releaseSlot).update now aid
        StageAssignment.requeue)
  | exhaust {c : Crew} {aid : AssignmentId} {a : StageAssignment} :
      c.assignments[aid]? = some a → a.status.inFlight = true →
      Move .exhaust c ((c.slot a.workerId WorkerRegistration.releaseSlot).update now aid
        (StageAssignment.exhaust now))
  | cancel {c : Crew} {aid : AssignmentId} {a : StageAssignment} :
      c.assignments[aid]? = some a → a.status.isOpen = true →
      Move .cancel c (c.update now aid StageAssignment.cancel)
  | staff {c : Crew} (wid : WorkerId) (g : WorkerRegistration → WorkerRegistration) :
      (∀ w, (g w).workspaceId = w.workspaceId) → Move .staff c (c.slot (some wid) g)

/-- A sequence of moves of the given kinds. -/
abbrev Moves (kinds : List MoveKind) : Crew → Crew → Prop :=
  ReflTransGen fun c c' => ∃ k ∈ kinds, Move cfg now k c c'

end Move

variable {cfg : Config} {now : Instant}

/-- **The invariant rule**: what every move of these kinds keeps, the operation keeps. -/
theorem Moves.invariant {kinds : List MoveKind} {I : Crew → Prop} {c c' : Crew}
    (h : Moves cfg now kinds c c') (hstep : ∀ k ∈ kinds, ∀ c c', Move cfg now k c c' → I c → I c')
    (hc : I c) : I c' := by
  induction h with
  | refl => exact hc
  | tail _ hm ih =>
      obtain ⟨k, hk, hm⟩ := hm
      exact hstep k hk _ _ hm ih

theorem Moves.one {kinds : List MoveKind} {k : MoveKind} {c c' : Crew} (h : Move cfg now k c c')
    (hk : k ∈ kinds) : Moves cfg now kinds c c' := .single ⟨k, hk, h⟩

/-! ## Rows -/

section Row

variable (cfg : Config) (now : Instant)

/-- What a move does to the row it is about. -/
inductive RowMove (a : StageAssignment) : MoveKind → StageAssignment → Prop
  | claim (wid : WorkerId) (token : Option ClaimToken) : a.status = .pending →
      RowMove a .claim { a.claim cfg now wid token with updatedAt := now }
  | acknowledge (secs : Nat) : a.status = .dispatched →
      RowMove a .acknowledge { a.acknowledge now secs with updatedAt := now }
  | confirm (secs : Nat) : RowMove a .confirm { a.acknowledge now secs with updatedAt := now }
  | extend (secs : Nat) : RowMove a .extend { a.extendLease now secs with updatedAt := now }
  | close (success : Bool) (result : Option JsonObject) : a.status.inFlight = true →
      RowMove a .close { a.close now success result with updatedAt := now }
  | requeue : a.status.inFlight = true → RowMove a .requeue { a.requeue with updatedAt := now }
  | exhaust : a.status.inFlight = true →
      RowMove a .exhaust { a.exhaust now with updatedAt := now }
  | cancel : a.status.isOpen = true → RowMove a .cancel { a.cancel with updatedAt := now }

/-- A row that a dispatch inserts. -/
inductive NewRow (a : StageAssignment) : MoveKind → Prop
  | queue (args : DispatchArgs) (stage : ContentStage) :
      a = newAssignment cfg now args stage none → NewRow a .queue
  | assign (args : DispatchArgs) (stage : ContentStage) (wid : WorkerId) :
      a = newAssignment cfg now args stage (some wid) → NewRow a .assign

end Row

/-- The row at `aid` after an update. -/
theorem Crew.get_update {c : Crew} {aid aid' : AssignmentId}
    {f : StageAssignment → StageAssignment} {a' : StageAssignment}
    (h : (c.update now aid f).assignments[aid']? = some a') :
    c.assignments[aid']? = some a' ∨ ∃ a, aid = aid' ∧ c.assignments[aid']? = some a ∧
      a' = { f a with updatedAt := now } := by
  obtain ⟨a, ha, ⟨heq, hf⟩ | ⟨_, rfl⟩⟩ := Table.get_modify h
  · exact .inr ⟨a, heq, ha, hf⟩
  · exact .inl ha

/-- What a move that updates the row `aid₀` does to the row `aid`. -/
theorem Crew.row_update {k : MoveKind} {c : Crew} {aid₀ aid : AssignmentId}
    {f : StageAssignment → StageAssignment} {a' : StageAssignment}
    (hget : (c.update now aid₀ f).assignments[aid]? = some a')
    (hf : ∀ a, c.assignments[aid₀]? = some a → RowMove cfg now a k { f a with updatedAt := now }) :
    c.assignments[aid]? = some a' ∨
      (∃ a, c.assignments[aid]? = some a ∧ RowMove cfg now a k a') ∨
      (aid = c.assignments.length ∧ NewRow cfg now a' k) := by
  rcases Crew.get_update hget with hsame | ⟨a, rfl, ha, rfl⟩
  · exact .inl hsame
  · exact .inr (.inl ⟨a, ha, hf a ha⟩)

/-- **What a move does to a row**: nothing, a row move, or it inserts the row. -/
theorem Move.row {k : MoveKind} {c c' : Crew} (h : Move cfg now k c c') {aid : AssignmentId}
    {a' : StageAssignment} (ha' : c'.assignments[aid]? = some a') :
    c.assignments[aid]? = some a' ∨
      (∃ a, c.assignments[aid]? = some a ∧ RowMove cfg now a k a') ∨
      (aid = c.assignments.length ∧ NewRow cfg now a' k) := by
  cases h with
  | queue args stage =>
      rcases Table.get_push ha' with hold | ⟨hlen, rfl⟩
      · exact .inl hold
      · exact .inr (.inr ⟨hlen, .queue args stage rfl⟩)
  | @assign _ wid _ args stage _ _ =>
      rcases Table.get_push ha' with hold | ⟨hlen, rfl⟩
      · exact .inl hold
      · exact .inr (.inr ⟨hlen, .assign args stage wid rfl⟩)
  | @claim _ _ _ wid _ token ha hst _ _ =>
      rw [Crew.slot_assignments] at ha'
      refine Crew.row_update ha' fun a hrow => ?_
      rw [ha] at hrow
      cases hrow
      exact .claim wid token hst
  | acknowledge secs ha hst =>
      refine Crew.row_update ha' fun a hrow => ?_
      rw [ha] at hrow
      cases hrow
      exact .acknowledge secs hst
  | confirm secs => exact Crew.row_update ha' fun a _ => .confirm secs
  | extend secs => exact Crew.row_update ha' fun a _ => .extend secs
  | @close _ aid₀ a₀ _ success result ha hst _ =>
      have hget : ((c.update now aid₀ (StageAssignment.close now success result)).slot a₀.workerId
        WorkerRegistration.returnSlot).assignments[aid]? = some a' := ha'
      rw [Crew.slot_assignments] at hget
      refine Crew.row_update hget fun a hrow => ?_
      rw [ha] at hrow
      cases hrow
      exact .close success result hst
  | @requeue _ aid₀ a₀ ha hst =>
      have hget : (c.update now aid₀ StageAssignment.requeue).assignments[aid]? = some a' := by
        simpa only [Crew.update, Crew.slot_assignments] using ha'
      refine Crew.row_update hget fun a hrow => ?_
      rw [ha] at hrow
      cases hrow
      exact .requeue hst
  | @exhaust _ aid₀ a₀ ha hst =>
      have hget : (c.update now aid₀ (StageAssignment.exhaust now)).assignments[aid]?
          = some a' := by
        simpa only [Crew.update, Crew.slot_assignments] using ha'
      refine Crew.row_update hget fun a hrow => ?_
      rw [ha] at hrow
      cases hrow
      exact .exhaust hst
  | cancel ha hst =>
      refine Crew.row_update ha' fun a hrow => ?_
      rw [ha] at hrow
      cases hrow
      exact .cancel hst
  | staff wid g _ => exact .inl ha'

/-! ## Rows through moves -/

theorem Move.length_le {k : MoveKind} {c c' : Crew} (h : Move cfg now k c c') :
    c.assignments.length ≤ c'.assignments.length := by
  cases h <;> simp [Crew.push, Crew.update]

/-- A row stays in the table, and one move changes it by at most one row move. -/
theorem Move.row_next {k : MoveKind} {c c' : Crew} (h : Move cfg now k c c') {aid : AssignmentId}
    {a : StageAssignment} (ha : c.assignments[aid]? = some a) :
    ∃ a', c'.assignments[aid]? = some a' ∧ (a' = a ∨ RowMove cfg now a k a') := by
  have hlt : aid < c.assignments.length := (List.getElem?_eq_some_iff.mp ha).1
  have hget : c'.assignments[aid]? = some (c'.assignments.get ⟨aid, hlt.trans_le h.length_le⟩) :=
    List.getElem?_eq_getElem _
  refine ⟨_, hget, ?_⟩
  rcases h.row hget with hsame | ⟨a₀, ha₀, hmove⟩ | ⟨heq, _⟩
  · left
    rw [ha] at hsame
    exact (Option.some.inj hsame).symm
  · right
    rw [ha] at ha₀
    cases ha₀
    exact hmove
  · exact absurd heq (Nat.ne_of_lt hlt)

/-- What the row moves of these kinds keep, an operation keeps of a row. -/
theorem Moves.row {kinds : List MoveKind} {P : StageAssignment → Prop} {c c' : Crew}
    (h : Moves cfg now kinds c c')
    (hstep : ∀ k ∈ kinds, ∀ a a', RowMove cfg now a k a' → P a → P a') {aid : AssignmentId}
    {a : StageAssignment} (ha : c.assignments[aid]? = some a) (hP : P a) :
    ∃ a', c'.assignments[aid]? = some a' ∧ P a' := by
  refine h.invariant (I := fun c => ∃ a, c.assignments[aid]? = some a ∧ P a) ?_ ⟨a, ha, hP⟩
  rintro k hk c c' hm ⟨a, ha, hP⟩
  obtain ⟨a', ha', rfl | hrow⟩ := hm.row_next ha
  · exact ⟨a', ha', hP⟩
  · exact ⟨a', ha', hstep k hk a a' hrow hP⟩

/-- What new rows have and the row moves of these kinds keep, an operation keeps of all rows. -/
theorem Moves.rows {kinds : List MoveKind} {P : StageAssignment → Prop} {c c' : Crew}
    (h : Moves cfg now kinds c c') (hnew : ∀ k a, NewRow cfg now a k → P a)
    (hstep : ∀ k ∈ kinds, ∀ a a', RowMove cfg now a k a' → P a → P a')
    (hP : ∀ a ∈ c.assignments, P a) : ∀ a ∈ c'.assignments, P a := by
  refine h.invariant (I := fun c => ∀ a ∈ c.assignments, P a) ?_ hP
  intro k hk c c' hm hall a ha
  obtain ⟨aid, haid⟩ := List.getElem?_of_mem ha
  rcases hm.row haid with hsame | ⟨a₀, ha₀, hmove⟩ | ⟨_, hrow⟩
  · exact hall a (Table.mem_of_get hsame)
  · exact hstep k hk a₀ a hmove (hall a₀ (Table.mem_of_get ha₀))
  · exact hnew k a hrow

/-! ## What leaves the crew alone -/

theorem crew_of_backstage {s s' : Db} (h : s'.backstage = s.backstage) : s'.crew = s.crew := by
  have hc : s'.backstage.crew = s.backstage.crew := by rw [h]
  exact hc

section Frame

variable (s : Db) (now : Instant)

@[simp] theorem crew_flush : s.flush.crew = s.crew := rfl

@[simp] theorem crew_emit (e : EventType) (ws : WorkspaceId) (rid : RunId) (g : Option GateId) :
    (s.emit now e ws rid g).crew = s.crew := rfl

@[simp] theorem crew_updateRun (rid : RunId) (f : PipelineRun → PipelineRun) :
    (s.updateRun rid f).crew = s.crew := rfl

@[simp] theorem crew_updateJob (jid : JobId) (f : JobSchedule → JobSchedule) :
    (s.updateJob jid f).crew = s.crew := rfl

@[simp] theorem crew_updateGate (gid : GateId) (f : ReviewGate → ReviewGate) :
    (s.updateGate gid f).crew = s.crew := rfl

@[simp] theorem crew_updateEvent (eid : EventId) (f : OutboxEvent → OutboxEvent) :
    (s.updateEvent eid f).crew = s.crew := rfl

@[simp] theorem crew_updateAssignment (aid : AssignmentId)
    (f : StageAssignment → StageAssignment) :
    (s.updateAssignment now aid f).crew = s.crew.update now aid f := rfl

@[simp] theorem crew_freeSlot (worker : Option WorkerId)
    (f : WorkerRegistration → WorkerRegistration) :
    (freeSlot s worker f).crew = s.crew.slot worker f := by
  cases worker <;> rfl

@[simp] theorem crew_routeToDeadLetter (ws : WorkspaceId) (related : RelatedId)
    (jobType reason : String) (attempts : Nat) (first : Instant) :
    (routeToDeadLetter s now ws related jobType reason attempts first).crew = s.crew := rfl

@[simp] theorem crew_auditRecovery (aid : AssignmentId) (a : StageAssignment)
    (reason : RecoveryReason) (newAttempt : Option Nat) (outcome : RecoveryOutcome)
    (detail : Option String) :
    (auditRecovery s aid a reason newAttempt outcome detail).crew = s.crew := rfl

@[simp] theorem crew_recordClaim (wid : WorkerId) (w : WorkerRegistration)
    (outcome : ClaimOutcome) (reason : String) (a : Option (AssignmentId × StageAssignment))
    (ws : Option WorkspaceId) : (recordClaim s wid w outcome reason a ws).crew = s.crew := by
  unfold recordClaim
  split <;> rfl

@[simp] theorem crew_releaseEach (rid : RunId) (ws : WorkspaceId) (ids : List ReservationId) :
    (releaseEach s now rid ws ids).crew = s.crew :=
  crew_of_backstage (backstage_releaseEach ..)

@[simp] theorem crew_releaseAllReservations (rid : RunId) (ws : WorkspaceId) :
    (releaseAllReservations s now rid ws).crew = s.crew :=
  crew_of_backstage (backstage_releaseAllReservations ..)

@[simp] theorem crew_reserveSpend (rid : RunId) (ws : WorkspaceId) (stage : ContentStage)
    (provider : String) (estimate : ℚ≥0) :
    (reserveSpend s now rid ws stage provider estimate).1.crew = s.crew :=
  crew_of_backstage (backstage_reserveSpend ..)

@[simp] theorem crew_enqueueStage (cfg : Config) (rid : RunId) (ws : WorkspaceId)
    (stage : ContentStage) (attempt : Nat) (runAfter : Instant) :
    (enqueueStage cfg s now rid ws stage attempt runAfter).crew = s.crew := rfl

@[simp] theorem crew_updateJobs (f : JobSchedule → JobSchedule) (ids : List JobId) :
    (updateJobs s f ids).crew = s.crew :=
  crew_of_backstage (backstage_updateJobs ..)

@[simp] theorem crew_pauseForReview (rid : RunId) (stage : ContentStage) (timeoutSeconds : Nat) :
    (pauseForReview s now rid stage timeoutSeconds).db.crew = s.crew :=
  crew_of_backstage (backstage_pauseForReview ..)

@[simp] theorem crew_startRun (cfg : Config) (ws : WorkspaceId) (item : ItemId)
    (definition : DefinitionId) : (startRun cfg s now ws item definition).db.crew = s.crew :=
  crew_of_backstage (backstage_startRun ..)

@[simp] theorem crew_handleStageSuccess (cfg : Config) (rid : RunId) (stage : ContentStage)
    (context : JsonObject) : (handleStageSuccess cfg s now rid stage context).db.crew = s.crew :=
  crew_of_backstage (backstage_handleStageSuccess ..)

@[simp] theorem crew_failRun (rid : RunId) (ws : WorkspaceId) :
    (failRun s now rid ws).crew = s.crew :=
  crew_of_backstage (backstage_failRun ..)

@[simp] theorem crew_failRunUnlessTerminal (rid : RunId) :
    (failRunUnlessTerminal s now rid).crew = s.crew :=
  crew_of_backstage (backstage_failRunUnlessTerminal ..)

@[simp] theorem crew_giveUpStage (rid : RunId) (run : PipelineRun) (stageText : String)
    (attempt : Nat) (errorMessage : String) :
    (giveUpStage s now rid run stageText attempt errorMessage).crew = s.crew :=
  crew_failRun ..

@[simp] theorem crew_resumeFromReview (cfg : Config) (gid : GateId) (approved : Bool) :
    (resumeFromReview cfg s now gid approved).db.crew = s.crew :=
  crew_of_backstage (backstage_resumeFromReview ..)

@[simp] theorem crew_handleReviewTimeout (gid : GateId) :
    (handleReviewTimeout s now gid).crew = s.crew :=
  crew_of_backstage (backstage_handleReviewTimeout ..)

@[simp] theorem crew_dispatchOne (cfg : Config) (eid : EventId) :
    (dispatchOne cfg s now eid).db.crew = s.crew := by
  have hcall : ∀ event approved, (onReview cfg s now event approved).db.crew = s.crew := by
    intro event approved
    unfold onReview
    split
    · rfl
    · exact crew_resumeFromReview ..
  unfold dispatchOne
  split
  · rfl
  · split
    · rfl
    · split
      · rfl
      · simp only
        split
        · exact hcall ..
        · unfold failDelivery
          simp only
          split <;> exact hcall ..

end Frame

theorem crew_commitSpend {s s' : Db} {rid : RunId} {ws : WorkspaceId} {resId : ReservationId}
    {actual : Decimal} (h : commitSpend s now rid ws resId actual = .ok s') : s'.crew = s.crew :=
  crew_of_backstage (backstage_commitSpend h)

theorem crew_triggerCompensation {d : WorkflowDefinition} {s s' : Db} {rid : RunId}
    {ws : WorkspaceId} (h : triggerCompensation d s now rid ws = .ok s') : s'.crew = s.crew :=
  crew_of_backstage (backstage_triggerCompensation h)

theorem crew_handleStageFailure {s s' : Db} {rid : RunId} {stage : ContentStage}
    {stageText : String} {attempt : Nat} {errorMessage : String} {jitter : Nat}
    (h : handleStageFailure cfg s now rid stage stageText attempt errorMessage jitter = .ok s') :
    s'.crew = s.crew := by
  unfold handleStageFailure at h
  split at h
  · cases h
  · simp only at h
    split at h
    · cases h
    · split at h
      · cases h
      · split at h
        · cases h; rfl
        · split at h
          · cases h
            exact crew_giveUpStage ..
          · exact (crew_triggerCompensation h).trans (crew_giveUpStage ..)

theorem crew_handleStageTimeout {s s' : Db} {rid : RunId} {stage : ContentStage} {jitter : Nat}
    (h : handleStageTimeout cfg s now rid stage jitter = .ok s') : s'.crew = s.crew := by
  unfold handleStageTimeout at h
  split at h
  · cases h; rfl
  · split at h
    · exact crew_handleStageFailure h
    · cases h; rfl

theorem crew_submitReviewDecision {s s' : Db} {gid : GateId} {reviewer : UserId}
    {approved : Bool} {notes : Option String} {eid : EventId}
    (h : submitReviewDecision s now gid reviewer approved notes = .ok (s', eid)) :
    s'.crew = s.crew :=
  crew_of_backstage (backstage_submitReviewDecision h)

theorem crew_submitAndDeliver (s : Db) (now : Instant) (gid : GateId) (reviewer : UserId)
    (approved : Bool) (notes : Option String) :
    (submitAndDeliver cfg s now gid reviewer approved notes).db.crew = s.crew := by
  unfold submitAndDeliver
  split
  · rfl
  · rename_i h
    exact (crew_dispatchOne ..).trans (crew_submitReviewDecision h)

theorem crew_decideReviewGate (s : Db) (now : Instant) (ws : WorkspaceId) (gid : GateId)
    (reviewer : UserId) (approved : Bool) (expected : Option VersionId) (notes : Option String) :
    (decideReviewGate cfg s now ws gid reviewer approved expected notes).db.crew = s.crew := by
  unfold decideReviewGate
  split
  · rfl
  · split
    · rfl
    · split
      · rfl
      · split
        · rfl
        · split
          · rfl
          · simp only
            split
            · rfl
            · exact crew_submitAndDeliver ..

theorem crew_editReviewGateContent {s s' : Db} {ws : WorkspaceId} {gid : GateId}
    {expected : VersionId} {hook body cta : Option String}
    (h : editReviewGateContent s ws gid expected hook body cta = .ok s') : s'.crew = s.crew :=
  crew_of_backstage (backstage_editReviewGateContent h)

theorem crew_retryDeadLetters (now : Instant) (ws : WorkspaceId) (ids : List Nat) :
    ∀ s : Db, (retryDeadLetters s now ws ids).crew = s.crew := by
  induction ids with
  | nil => intro s; rfl
  | cons i rest ih =>
      intro s
      refine (ih _).trans ?_
      unfold retryDeadLetter
      split
      · rfl
      · split
        · rfl
        · split
          · rfl
          · split
            · rfl
            · split <;> rfl

theorem crew_retryAssignments (flushed : List JobSchedule) (now : Instant) (ws : WorkspaceId)
    (ids : List AssignmentId) :
    ∀ s : Db, (retryAssignments flushed s now ws ids).crew = s.crew := by
  induction ids with
  | nil => intro s; rfl
  | cons aid rest ih =>
      intro s
      refine (ih _).trans ?_
      unfold retryAssignment
      split
      · rfl
      · split
        · rfl
        · split
          · rfl
          · split <;> rfl

/-! ## The moves of a function -/

theorem crew_insertAssignment (s : Db) (now : Instant) (new : StageAssignment) :
    (insertAssignment s now new).crew
      = (s.crew.push new).slot new.workerId WorkerRegistration.takeSlot := by
  unfold insertAssignment
  cases new.workerId <;> rfl

/-- A selected worker is in the registry and has room. -/
theorem selectWorker_room {s : Db} {stage : String} {rows : List WorkerId} {wid : WorkerId}
    (h : (selectWorker s stage rows).map Prod.fst = some wid) :
    ∃ w, s.workers[wid]? = some w ∧ w.currentLoad < w.maxConcurrency := by
  obtain ⟨⟨wid', w⟩, hsel, rfl⟩ := Option.map_eq_some_iff.mp h
  have hmem := selectWorker_mem hsel
  unfold eligibleWorkers at hmem
  rw [List.mem_filter, List.mem_filterMap] at hmem
  obtain ⟨⟨x, _, hx⟩, helig⟩ := hmem
  obtain ⟨y, hy, heq⟩ := Option.map_eq_some_iff.mp hx
  cases heq
  unfold WorkerRegistration.eligibleFor at helig
  simp only [Bool.and_eq_true, decide_eq_true_eq] at helig
  exact ⟨w, hy, helig.2⟩

/-- What a dispatch does: nothing to the crew, or a new row for a run that is neither over nor
paused. The runs are then as they were. -/
inductive Placed (cfg : Config) (s : Db) (now : Instant) (args : DispatchArgs)
    (rows : List WorkerId) : Db → DispatchOutcome → Prop
  | nothing {s' : Db} {outcome : DispatchOutcome} : s'.crew = s.crew →
      (outcome = .backpressure → s' = s) → Placed cfg s now args rows s' outcome
  | placed {s' : Db} {outcome : DispatchOutcome} {run : PipelineRun} (stage : ContentStage)
      (worker : Option WorkerId) : s.runs[args.pipelineRunId]? = some run →
      run.status.isTerminal = false → run.status ≠ .paused →
      (∀ wid, worker = some wid → (selectWorker s args.stage rows).map Prod.fst = some wid) →
      s'.crew = (s.crew.push (newAssignment cfg now args stage worker)).slot worker
        WorkerRegistration.takeSlot →
      s'.runs = s.runs → outcome ≠ .backpressure → Placed cfg s now args rows s' outcome

theorem insertAssignment_runs (s : Db) (now : Instant) (new : StageAssignment) :
    (insertAssignment s now new).runs = s.runs := by
  unfold insertAssignment
  simp only
  split <;> rfl

theorem dispatchStage_placed {s s' : Db} {args : DispatchArgs} {rows : List WorkerId}
    {outcome : DispatchOutcome} (h : dispatchStage cfg s now args rows = .ok (s', outcome)) :
    Placed cfg s now args rows s' outcome := by
  unfold dispatchStage at h
  split at h
  · cases h
    exact .nothing rfl fun _ => rfl
  · split at h
    · cases h
      exact .nothing rfl fun _ => rfl
    · rename_i hrefusal
      split at h
      · cases h
        exact .nothing rfl fun _ => rfl
      · simp only at h
        unfold assignStage at h
        split at h
        · cases h
        · cases h
        · rename_i stage run hstage hrun
          obtain ⟨hterm, hpaused⟩ := runRefusal_none hrefusal hrun
          split at h
          · cases h
            exact .placed stage none hrun hterm hpaused (by simp) (crew_insertAssignment ..)
              (insertAssignment_runs ..) (by decide)
          · rename_i wid hwid
            simp only at h
            split at h
            · cases h
              exact .nothing (crew_reserveSpend ..) fun hout => by cases hout
            · rename_i res hres
              cases h
              refine .placed stage (some wid) hrun hterm hpaused ?_ ?_ ?_ (by decide)
              · intro wid' hw
                cases hw
                split at hwid
                · exact hwid
                · cases hwid
              · rw [crew_insertAssignment, crew_reserveSpend]
                rfl
              · rw [insertAssignment_runs]
                rcases core_reserveSpend s now args.pipelineRunId run.workspaceId stage
                  (effectiveProvider args.provider) cfg.settings.defaultStageEstimateUsd
                  with ⟨hnone, _⟩ | ⟨_, hcore⟩
                · rw [hres] at hnone
                  cases hnone
                · exact congrArg Board.runs (board_of_core hcore)

theorem dispatchStage_moves {s s' : Db} {args : DispatchArgs} {rows : List WorkerId}
    {outcome : DispatchOutcome} (h : dispatchStage cfg s now args rows = .ok (s', outcome)) :
    Moves cfg now [.queue, .assign] s.crew s'.crew := by
  cases dispatchStage_placed h with
  | nothing hcrew _ => rw [hcrew]
  | placed stage worker _ _ _ hselect hcrew _ _ =>
      rw [hcrew]
      cases worker with
      | none => exact .one (.queue args stage) (by simp)
      | some wid =>
          obtain ⟨w, hw, hroom⟩ := selectWorker_room (hselect wid rfl)
          exact .one (.assign args stage hw hroom) (by simp)

theorem crew_grantClaim (s : Db) (now : Instant) (wid : WorkerId) (w : WorkerRegistration)
    (aid : AssignmentId) (a : StageAssignment) (token : Option ClaimToken)
    (ws : Option WorkspaceId) :
    (grantClaim cfg s now wid w aid a token ws).db.crew
      = (s.crew.update now aid (StageAssignment.claim cfg now wid token)).slot (some wid)
        WorkerRegistration.takeSlot := by
  unfold grantClaim
  simp only [crew_emit, crew_recordClaim]
  rfl

/-- The spend gate of a claim lets the assignment pass: its run has a reservation for the stage,
or the cap leaves room for one. -/
def spendAdmits (cfg : Config) (s : Db) (now : Instant) (a : StageAssignment) : Bool :=
  match s.runs[a.pipelineRunId]? with
  | none => true
  | some run =>
      match openReservationsFor s a.pipelineRunId a.stage with
      | _ :: _ :: _ => false
      | [_] => true
      | [] => (reserveSpend s now a.pipelineRunId run.workspaceId a.stage
          (effectiveProvider a.provider) cfg.settings.defaultStageEstimateUsd).2.isSome

/-- The worker passes the checks that `claim_assignment` makes before it looks for work. -/
def MayClaim (cfg : Config) (now : Instant) (w : WorkerRegistration) : Prop :=
  claimRefusal cfg w now = none ∧
    w.supportedStages.find? (fun t => (ContentStage.ofText? t).isNone) = none

/-- The crew after the assignment is given to the worker. -/
def Crew.give (cfg : Config) (c : Crew) (now : Instant) (aid : AssignmentId) (wid : WorkerId)
    (token : Option ClaimToken) : Crew :=
  (c.update now aid (StageAssignment.claim cfg now wid token)).slot (some wid)
    WorkerRegistration.takeSlot

/-- What a claim does: nothing to the crew, or it gives the candidate to the worker. The runs
are then as they were. -/
inductive Claimed (cfg : Config) (s : Db) (now : Instant) (wid : WorkerId)
    (token : Option ClaimToken) (rows : List AssignmentId) : Db → Prop
  | nothing {s' : Db} : s'.crew = s.crew → Claimed cfg s now wid token rows s'
  | granted {s' : Db} {w : WorkerRegistration} {aid : AssignmentId} {a : StageAssignment} :
      s.workers[wid]? = some w → MayClaim cfg now w →
      claimCandidate cfg s now w rows = some (aid, a) → spendAdmits cfg s now a = true →
      s'.crew = s.crew.give cfg now aid wid token → s'.runs = s.runs →
      Claimed cfg s now wid token rows s'

theorem runs_recordClaim (s : Db) (wid : WorkerId) (w : WorkerRegistration)
    (outcome : ClaimOutcome) (reason : String) (a : Option (AssignmentId × StageAssignment))
    (ws : Option WorkspaceId) : (recordClaim s wid w outcome reason a ws).runs = s.runs :=
  congrArg Board.runs (board_recordClaim ..)

theorem grantClaim_runs (s : Db) (now : Instant) (wid : WorkerId) (w : WorkerRegistration)
    (aid : AssignmentId) (a : StageAssignment) (token : Option ClaimToken)
    (ws : Option WorkspaceId) : (grantClaim cfg s now wid w aid a token ws).db.runs = s.runs :=
  runs_recordClaim ..

/-- The grant of a claim that passed the spend gate, and nothing otherwise. -/
theorem claimWithSpend_claimed {s : Db} {wid : WorkerId} {w : WorkerRegistration}
    {aid : AssignmentId} {a : StageAssignment} {token : Option ClaimToken}
    {ws : Option WorkspaceId} {r : ClaimResult}
    (h : claimWithSpend cfg s now wid w aid a token ws = .ok r) :
    (spendAdmits cfg s now a = true ∧ r.db.crew = s.crew.give cfg now aid wid token ∧
      r.db.runs = s.runs) ∨ (spendAdmits cfg s now a = false ∧ r.db.crew = s.crew) := by
  unfold claimWithSpend at h
  unfold spendAdmits
  cases hrun : s.runs[a.pipelineRunId]? with
  | none =>
      rw [hrun] at h
      cases h
      exact .inl ⟨rfl, crew_grantClaim .., grantClaim_runs ..⟩
  | some run =>
      rw [hrun] at h
      simp only at h ⊢
      rcases hopen : openReservationsFor s a.pipelineRunId a.stage with _ | ⟨r, _ | ⟨r', more⟩⟩
      · simp only [hopen] at h ⊢
        split at h
        · rename_i res hres
          cases h
          refine .inl ⟨by rw [hres]; rfl, by rw [crew_grantClaim, crew_reserveSpend]; rfl, ?_⟩
          rw [grantClaim_runs]
          rcases core_reserveSpend s now a.pipelineRunId run.workspaceId a.stage
            (effectiveProvider a.provider) cfg.settings.defaultStageEstimateUsd
            with ⟨hnone, _⟩ | ⟨_, hcore⟩
          · rw [hres] at hnone
            cases hnone
          · exact congrArg Board.runs (board_of_core hcore)
        · rename_i hres
          cases h
          exact .inr ⟨by rw [hres]; rfl, by rw [crew_recordClaim, crew_reserveSpend]⟩
      · rw [hopen] at h
        cases h
        exact .inl ⟨rfl, crew_grantClaim .., grantClaim_runs ..⟩
      · rw [hopen] at h
        cases h

theorem claimAssignment_claimed {s : Db} {wid : WorkerId} {token : Option ClaimToken}
    {ws : Option WorkspaceId} {rows : List AssignmentId} {r : ClaimResult}
    (h : claimAssignment cfg s now wid token ws rows = .ok r) :
    Claimed cfg s now wid token rows r.db := by
  unfold claimAssignment at h
  split at h
  · cases h
    exact .nothing rfl
  · rename_i w hw
    split at h
    · cases h
    · cases h
      exact .nothing (crew_recordClaim ..)
    · unfold claimFresh at h
      split at h
      · cases h
        exact .nothing (crew_recordClaim ..)
      · rename_i hrefusal
        split at h
        · cases h
        · rename_i hstages
          split at h
          · rename_i aid a hcand
            rcases claimWithSpend_claimed h with ⟨hspend, hcrew, hruns⟩ | ⟨_, hcrew⟩
            · exact .granted hw ⟨hrefusal, hstages⟩ hcand hspend hcrew hruns
            · exact .nothing hcrew
          · split at h
            · cases h
              exact .nothing (crew_recordClaim ..)
            · cases h
              exact .nothing (crew_recordClaim ..)

theorem claimAssignment_moves {s : Db} {wid : WorkerId} {token : Option ClaimToken}
    {ws : Option WorkspaceId} {rows : List AssignmentId} {r : ClaimResult}
    (h : claimAssignment cfg s now wid token ws rows = .ok r) :
    Moves cfg now [.claim] s.crew r.db.crew := by
  have hclaimed := claimAssignment_claimed h
  generalize r.db = s' at hclaimed
  cases hclaimed with
  | nothing hcrew => rw [hcrew]
  | granted hw hmay hcand _ hcrew _ =>
      obtain ⟨ha, hclaimable, _⟩ := claimCandidate_spec hcand
      unfold claimable at hclaimable
      simp only [Bool.and_eq_true, beq_iff_eq] at hclaimable
      rw [hcrew]
      exact .one (.claim token ha hclaimable.1.1 hw hmay.1) (by simp)

theorem acknowledge_moves {s s' : Db} {aid : AssignmentId} {secs : Option Nat}
    {worker : Option WorkerId} (h : acknowledge cfg s now aid secs worker = .ok s') :
    Moves cfg now [if worker.isSome then .acknowledge else .confirm] s.crew s'.crew := by
  unfold acknowledge at h
  split at h
  · cases h
  · rename_i a ha
    simp only at h
    split at h
    · cases h
    · rename_i hrefusal
      cases h
      cases worker with
      | none => exact .one (.confirm _) (by simp)
      | some wid =>
          have hstatus : a.status = .dispatched := by
            by_contra hne
            simp [hne] at hrefusal
          exact .one (.acknowledge _ ha hstatus) (by simp)

theorem renewLease_moves {s s' : Db} {aid : AssignmentId} {secs : Option Nat}
    {worker : Option WorkerId} (h : renewLease cfg s now aid secs worker = .ok s') :
    Moves cfg now [.extend] s.crew s'.crew := by
  unfold renewLease at h
  split at h
  · cases h
  · simp only at h
    split at h
    · cases h
    · cases h
      exact .one (.extend _) (by simp)

theorem submitRefusal_inFlight {a : StageAssignment} {worker : Option WorkerId}
    (h : submitRefusal a worker now = none) : a.status.inFlight = true := by
  unfold submitRefusal at h
  split at h
  · cases h
  · split at h
    · cases h
    · rename_i hflight
      simpa using hflight

/-- Closing an assignment records its attempt, once. -/
theorem recordResult_crew {s s' : Db} {aid : AssignmentId} {a : StageAssignment}
    {run : PipelineRun} {success : Bool} {result : Option JsonObject} {errorMessage : String}
    (h : recordResult s now aid a run success result errorMessage = .ok s') :
    ∃ rs, Recorded a s.stageRuns rs ∧ s'.crew = { (s.crew.update now aid
      (StageAssignment.close now success result)).slot a.workerId WorkerRegistration.returnSlot
        with stageRuns := rs } := by
  have hsame : (freeSlot (s.updateAssignment now aid (StageAssignment.close now success result))
      a.workerId WorkerRegistration.returnSlot).stageRuns = s.stageRuns := by
    cases a.workerId <;> rfl
  unfold recordResult at h
  simp only [hsame] at h
  split at h
  · cases h
  · rename_i hnew
    cases h
    let r : PipelineStageRun :=
      { workspaceId := a.workspaceId
        pipelineRunId := a.pipelineRunId
        contentItemId := run.contentItemId
        stage := a.stage
        attemptNumber := a.attemptNumber
        status := if success then .succeeded else .failed
        errorMessage := if success then none else some errorMessage
        startedAt := a.dispatchedAt
        completedAt := some now }
    have hrec : r.records a = true := by simp [PipelineStageRun.records, r]
    refine ⟨s.stageRuns ++ [r], .new hrec fun r' hr' => ?_, ?_⟩
    · by_contra hrec'
      rw [Bool.not_eq_false] at hrec'
      exact hnew (List.any_eq_true.mpr ⟨r', hr', hrec'⟩)
    · rw [crew_flush]
      cases a.workerId <;> rfl

theorem crew_submitSuccess (s : Db) (now : Instant) (a : StageAssignment) (run : PipelineRun)
    (result : Option JsonObject) : (submitSuccess cfg s now a run result).db.crew = s.crew := by
  unfold submitSuccess
  simp only
  split
  · rfl
  · rename_i s1 hcommit
    rw [crew_handleStageSuccess]
    split at hcommit
    · cases hcommit; rfl
    · exact (crew_commitSpend hcommit).trans rfl

theorem crew_ofExcept {s : Db} {e : Except Err Db} (h : ∀ s', e = .ok s' → s'.crew = s.crew) :
    (Call.ofExcept s e).db.crew = s.crew := by
  cases e with
  | error _ => rfl
  | ok s' => exact h s' rfl

theorem crew_submitFailure (s : Db) (now : Instant) (a : StageAssignment) (run : PipelineRun)
    (errorMessage : String) (jitter : Nat) :
    (submitFailure cfg s now a run errorMessage jitter).db.crew = s.crew := by
  unfold submitFailure
  refine crew_ofExcept fun s' h => (crew_handleStageFailure h).trans ?_
  split
  · rfl
  · exact crew_of_backstage (backstage_of_core (core_releaseSpend ..))

theorem submitResult_moves (s : Db) (now : Instant) (aid : AssignmentId) (success : Bool)
    (result : Option JsonObject) (errorMessage : String) (worker : Option WorkerId)
    (jitter : Nat) :
    Moves cfg now [.close] s.crew
      (submitResult cfg s now aid success result errorMessage worker jitter).db.crew := by
  unfold submitResult
  split
  · exact .refl
  · rename_i a ha
    split
    · exact .refl
    · rename_i hrefusal
      have hflight := submitRefusal_inFlight hrefusal
      split
      · refine .one (k := .close) ?_ (by simp)
        rw [crew_freeSlot, crew_updateAssignment]
        have hsame : { (s.crew.update now aid (StageAssignment.close now success result)).slot
            a.workerId WorkerRegistration.returnSlot with stageRuns := s.crew.stageRuns }
            = (s.crew.update now aid (StageAssignment.close now success result)).slot a.workerId
              WorkerRegistration.returnSlot := by
          cases a.workerId <;> rfl
        rw [← hsame]
        exact .close success result ha hflight .none
      · rename_i run hrun
        split
        · exact .refl
        · rename_i s1 hrecord
          obtain ⟨rs, hrs, hcrew⟩ := recordResult_crew hrecord
          have hclosed : Moves cfg now [.close] s.crew s1.crew := by
            rw [hcrew]
            exact .one (.close success result ha hflight hrs) (by simp)
          split
          · rw [crew_submitSuccess]
            exact hclosed
          · rw [crew_submitFailure]
            exact hclosed

theorem crew_exhaustAssignment (s : Db) (now : Instant) (aid : AssignmentId)
    (a : StageAssignment) (reason : RecoveryReason) (maxAttempts : Nat)
    (detail : Option String) :
    (exhaustAssignment s now aid a reason maxAttempts detail).crew
      = s.crew.update now aid (StageAssignment.exhaust now) := by
  unfold exhaustAssignment
  simp only [crew_auditRecovery, crew_failRunUnlessTerminal, crew_routeToDeadLetter,
    crew_updateAssignment]

theorem requeueAssignment_crew {s s' : Db} {aid : AssignmentId} {a : StageAssignment}
    {reason : RecoveryReason} {detail : Option String}
    (h : requeueAssignment s now aid a reason detail = .ok s') :
    s'.crew = s.crew.update now aid StageAssignment.requeue := by
  unfold requeueAssignment at h
  simp only at h
  split at h
  · split at h
    · cases h
    · cases h
      rfl
  · split at h
    · cases h
    · cases h
      simp only [crew_auditRecovery, crew_emit, crew_updateAssignment, crew_releaseEach]

/-- What a recovery does to the crew: nothing if the assignment is not in flight, and otherwise
it frees the slot and takes the assignment out of flight. -/
theorem recoverAssignment_crew {s s' : Db} {aid : AssignmentId} {reason : RecoveryReason}
    {detail : Option String} (h : recoverAssignment cfg s now aid reason detail = .ok s') :
    ∃ a, s.assignments[aid]? = some a ∧
      ((a.status.inFlight = false ∧ s'.crew = s.crew) ∨
        (a.status.inFlight = true ∧
          ∃ f ∈ [StageAssignment.requeue, StageAssignment.exhaust now],
            s'.crew = (s.crew.slot a.workerId WorkerRegistration.releaseSlot).update now aid
              f)) := by
  unfold recoverAssignment at h
  split at h
  · cases h
  · rename_i a ha
    refine ⟨a, ha, ?_⟩
    split at h
    · rename_i hflight
      cases h
      exact .inl ⟨by simpa using hflight, rfl⟩
    · rename_i hflight
      refine .inr ⟨by simpa using hflight, ?_⟩
      simp only at h
      split at h
      · cases h
        rw [crew_exhaustAssignment, crew_freeSlot]
        exact ⟨_, by simp, rfl⟩
      · rw [requeueAssignment_crew h, crew_freeSlot]
        exact ⟨_, by simp, rfl⟩

/-- A recovery leaves the crew, or requeues or exhausts the assignment. -/
theorem recoverAssignment_moves {s s' : Db} {aid : AssignmentId} {reason : RecoveryReason}
    {detail : Option String} (h : recoverAssignment cfg s now aid reason detail = .ok s') :
    Moves cfg now [.requeue, .exhaust] s.crew s'.crew := by
  obtain ⟨a, ha, ⟨_, hcrew⟩ | ⟨hflight, f, hf, hcrew⟩⟩ := recoverAssignment_crew h
  · rw [hcrew]
  · rw [hcrew]
    simp only [List.mem_cons, List.not_mem_nil, or_false] at hf
    rcases hf with rfl | rfl
    · exact .one (.requeue ha hflight) (by simp)
    · exact .one (.exhaust ha hflight) (by simp)

theorem recoverEach_moves {reason : RecoveryReason} {detail : Option String}
    (ids : List AssignmentId) : ∀ {s s' : Db},
    recoverEach cfg s now reason detail ids = .ok s' →
      Moves cfg now [.requeue, .exhaust] s.crew s'.crew := by
  induction ids with
  | nil =>
      intro s s' h
      cases h
      exact .refl
  | cons aid rest ih =>
      intro s s' h
      unfold recoverEach at h
      split at h
      · cases h
      · rename_i s1 hfirst
        exact (recoverAssignment_moves hfirst).trans (ih h)

theorem reapWorkerBatches_moves {wid : WorkerId} {reason : RecoveryReason}
    {detail : Option String} {limit : Nat} {rows : List AssignmentId} (fuel : Nat) :
    ∀ {s s' : Db}, reapWorkerBatches cfg now wid reason detail limit rows fuel s = .ok s' →
      Moves cfg now [.requeue, .exhaust] s.crew s'.crew := by
  induction fuel with
  | zero =>
      intro s s' h
      cases h
      exact .refl
  | succ fuel ih =>
      intro s s' h
      unfold reapWorkerBatches at h
      split at h
      · cases h
        exact .refl
      · split at h
        · cases h
        · rename_i s1 hbatch
          have hfirst := recoverEach_moves _ hbatch
          split at h
          · cases h
            exact hfirst
          · exact hfirst.trans (ih h)

theorem cancelAssignments_moves (now : Instant) (ids : List AssignmentId) : ∀ s : Db,
    ids.Nodup → (∀ aid ∈ ids, ∃ a, s.assignments[aid]? = some a ∧ a.status.isOpen = true) →
      Moves cfg now [.cancel] s.crew (cancelAssignments s now ids).crew := by
  induction ids with
  | nil => intro s _ _; exact .refl
  | cons aid rest ih =>
      intro s hnodup hopen
      obtain ⟨a, ha, hst⟩ := hopen aid List.mem_cons_self
      have hfirst : Moves cfg now [.cancel] s.crew
          (s.updateAssignment now aid StageAssignment.cancel).crew :=
        .one (.cancel ha hst) (by simp)
      rw [List.nodup_cons] at hnodup
      refine hfirst.trans (ih _ hnodup.2 fun aid' haid' => ?_)
      obtain ⟨a', ha', hst'⟩ := hopen aid' (List.mem_cons_of_mem _ haid')
      have hne : aid ≠ aid' := fun heq => hnodup.1 (heq ▸ haid')
      exact ⟨a', (Table.get_modify_ne hne).trans ha', hst'⟩

theorem cancelRun_moves (s : Db) (now : Instant) (rid : RunId) :
    Moves cfg now [.cancel] s.crew (cancelRun s now rid).crew := by
  unfold cancelRun
  split
  · exact .refl
  · split
    · exact .refl
    · simp only [crew_emit, crew_releaseAllReservations, crew_updateRun]
      refine cancelAssignments_moves now _ s (Table.select_nodup _ _) fun aid haid => ?_
      obtain ⟨a, ha, hopen⟩ := Table.mem_select.mp haid
      rw [Bool.and_eq_true] at hopen
      exact ⟨a, ha, hopen.2⟩

theorem exhaustJob_moves {s s' : Db} {jid : JobId} {job : JobSchedule} {rid : RunId}
    (h : exhaustJob s now jid job rid = .ok s') : Moves cfg now [.cancel] s.crew s'.crew := by
  unfold exhaustJob at h
  simp only at h
  split at h
  · cases h
    exact .refl
  · rename_i run hrun
    split at h
    · cases h
    · rename_i stage hstage
      cases h
      rw [crew_routeToDeadLetter]
      -- the job and the reservations are not part of the crew
      have hcrew : (releaseAllReservations (s.updateJob jid fun j =>
          { j with status := .cancelled, attempt := job.attempt + 1 }) now rid
            run.workspaceId).crew = s.crew := by
        rw [crew_releaseAllReservations]
        rfl
      rw [← hcrew]
      refine cancelAssignments_moves now _ _ (Table.select_nodup _ _) fun aid haid => ?_
      obtain ⟨a, ha, hopen⟩ := Table.mem_select.mp haid
      rw [Bool.and_eq_true] at hopen
      exact ⟨a, ha, hopen.2⟩

theorem settleJob_moves {s s' : Db} {jid : JobId} {job : JobSchedule} {rid : RunId}
    {jitter : Nat} {outcome : DispatchOutcome}
    (h : settleJob s now jid job rid jitter outcome = .ok s') :
    Moves cfg now [.cancel] s.crew s'.crew := by
  cases outcome with
  | spendHold | skipped | dispatched | idempotent | noWorker =>
      cases h
      exact .refl
  | backpressure =>
      change rescheduleJob s now jid job rid jitter = .ok s' at h
      unfold rescheduleJob at h
      split at h
      · exact exhaustJob_moves h
      · cases h
        exact .refl

theorem Moves.mono {kinds kinds' : List MoveKind} {c c' : Crew} (h : Moves cfg now kinds c c')
    (hsub : kinds ⊆ kinds') : Moves cfg now kinds' c c' :=
  ReflTransGen.mono (fun _ _ hm => hm.imp fun _ hk => ⟨hsub hk.1, hk.2⟩) _ _ h

theorem processWorkJob_moves {s s' : Db} {jid : JobId} {job : JobSchedule} {rid : RunId}
    {rows : List WorkerId} {jitter : Nat} {outcome : DispatchOutcome}
    (h : processWorkJob cfg s now jid job rid rows jitter = .ok (s', outcome)) :
    Moves cfg now [.queue, .assign, .cancel] s.crew s'.crew := by
  unfold processWorkJob at h
  split at h
  · cases h
  · rename_i s1 out hdispatch
    split at h
    · cases h
    · rename_i s2 hsettle
      cases h
      have hfirst := (dispatchStage_moves hdispatch).mono
        (show [.queue, .assign] ⊆ [MoveKind.queue, .assign, .cancel] by simp)
      exact hfirst.trans ((settleJob_moves hsettle).mono (by simp))

/-- A job is work that is dispatched, or its processing leaves the crew. -/
theorem processLeasedJob_work {s s' : Db} {jid : JobId} {rows : List WorkerId} {jitter : Nat}
    (h : processLeasedJob cfg s now jid rows jitter = .ok s') :
    (∃ job rid outcome, s.jobs[jid]? = some job ∧ job.worksFor = some rid ∧
      processWorkJob cfg s now jid job rid rows jitter = .ok (s', outcome)) ∨
    s'.crew = s.crew := by
  unfold processLeasedJob at h
  split at h
  · cases h
  · rename_i job hjob
    have hwork : ∀ rid, job.worksFor = some rid →
        (processWorkJob cfg s now jid job rid rows jitter).map Prod.fst = .ok s' →
        ∃ job rid outcome, s.jobs[jid]? = some job ∧ job.worksFor = some rid ∧
          processWorkJob cfg s now jid job rid rows jitter = .ok (s', outcome) := by
      intro rid hfor hmap
      obtain ⟨⟨s1, outcome⟩, hp, rfl⟩ := map_ok hmap
      exact ⟨job, rid, outcome, hjob, hfor, hp⟩
    split at h
    · rename_i htype href
      exact .inl (hwork _ (by simp [JobSchedule.worksFor, JobSchedule.isWork, htype, href]) h)
    · rename_i htype href
      exact .inl (hwork _ (by simp [JobSchedule.worksFor, JobSchedule.isWork, htype, href]) h)
    · split at h
      · cases h
        exact .inr rfl
      · obtain ⟨s1, ht, rfl⟩ := map_ok h
        rw [crew_updateJob, crew_handleStageTimeout ht]
        exact .inr rfl
    · cases h
      exact .inr (crew_handleReviewTimeout ..)
    · cases h
      exact .inr rfl
    · cases h

theorem processLeasedJob_moves {s s' : Db} {jid : JobId} {rows : List WorkerId} {jitter : Nat}
    (h : processLeasedJob cfg s now jid rows jitter = .ok s') :
    Moves cfg now [.queue, .assign, .cancel] s.crew s'.crew := by
  rcases processLeasedJob_work h with ⟨job, rid, outcome, _, _, hp⟩ | hcrew
  · exact processWorkJob_moves hp
  · rw [hcrew]

/-! ## Every operation -/

/-- The kinds of moves an operation is made of. -/
def Action.kinds : Action → List MoveKind
  | .dispatchStage .. => [.queue, .assign]
  | .processLeasedJob .. => [.queue, .assign, .cancel]
  | .claimAssignment .. => [.claim]
  | .acknowledge _ _ worker => [if worker.isSome then .acknowledge else .confirm]
  | .renewLease .. => [.extend]
  | .submitResult .. => [.close]
  | .recoverAssignment .. | .reapExpiredLeases .. | .reapWorkerAssignments .. =>
      [.requeue, .exhaust]
  | .cancelRun .. => [.cancel]
  | _ => []

/-- A call that raises moves nothing. -/
theorem ofExcept_moves {kinds : List MoveKind} {s : Db} {e : Except Err Db}
    (h : ∀ s', e = .ok s' → Moves cfg now kinds s.crew s'.crew) :
    Moves cfg now kinds s.crew (Call.ofExcept s e).db.crew := by
  cases e with
  | error _ => exact .refl
  | ok s' => exact h s' rfl

/-- A call that leaves the crew. -/
theorem Moves.none {kinds : List MoveKind} {c c' : Crew} (h : c' = c) :
    Moves cfg now kinds c c' := by
  rw [h]

theorem call_moves (cfg : Config) (s : Db) (now : Instant) (action : Action) :
    Moves cfg now action.kinds s.crew (Op.call cfg s ⟨now, action⟩).db.crew := by
  cases action with
  | startRun ws item definition => exact .none (crew_startRun ..)
  | pollAndLease batchSize rows => exact .none (crew_updateJobs ..)
  | reapExpiredJobLeases batchSize rows => exact .none (crew_updateJobs ..)
  | processLeasedJob jid rows jitter => exact ofExcept_moves fun _ h => processLeasedJob_moves h
  | dispatchStage args rows =>
      refine ofExcept_moves fun s' h => ?_
      obtain ⟨r, hd, rfl⟩ := map_ok h
      exact dispatchStage_moves hd
  | claimAssignment wid token ws rows =>
      refine ofExcept_moves fun s' h => ?_
      obtain ⟨r, hc, rfl⟩ := map_ok h
      exact claimAssignment_moves hc
  | acknowledge aid secs worker => exact ofExcept_moves fun _ h => acknowledge_moves h
  | renewLease aid secs worker => exact ofExcept_moves fun _ h => renewLease_moves h
  | submitResult aid success result errorMessage worker jitter =>
      exact submitResult_moves s now aid success result errorMessage worker jitter
  | recoverAssignment aid reason detail =>
      exact ofExcept_moves fun _ h => recoverAssignment_moves h
  | reapExpiredLeases batchSize rows => exact ofExcept_moves fun _ h => recoverEach_moves _ h
  | reapWorkerAssignments wid reason batchSize detail rows =>
      exact ofExcept_moves fun _ h => reapWorkerBatches_moves _ h
  | pauseForReview rid stage timeoutSeconds => exact .none (crew_pauseForReview ..)
  | submitReviewDecision gid reviewer approved notes =>
      refine .none (crew_ofExcept fun s' h => ?_)
      obtain ⟨r, hd, rfl⟩ := map_ok h
      exact crew_submitReviewDecision hd
  | dispatchOne eid => exact .none (crew_dispatchOne ..)
  | submitAndDeliver gid reviewer approved notes => exact .none (crew_submitAndDeliver ..)
  | decideReviewGate ws gid reviewer approved expected notes =>
      exact .none (crew_decideReviewGate ..)
  | editReviewGateContent ws gid expected hook body cta =>
      exact .none (crew_ofExcept fun _ h => crew_editReviewGateContent h)
  | handleReviewTimeout gid => exact .none (crew_handleReviewTimeout ..)
  | handleStageTimeout rid stage jitter =>
      exact .none (crew_ofExcept fun _ h => crew_handleStageTimeout h)
  | reserveSpend rid stage provider estimate =>
      refine .none ?_
      show (reserveSpendFor s now rid stage provider estimate).crew = s.crew
      unfold reserveSpendFor
      split
      · rfl
      · exact crew_reserveSpend ..
  | cancelRun rid => exact cancelRun_moves s now rid
  | retryFailedJobs ws rows =>
      exact .none ((crew_retryAssignments ..).trans (crew_retryDeadLetters ..))

/-- A transaction that is one fallible call: rolled back, or committed. -/
theorem commit_ofExcept {s t : Db} {e : Except Err Db} (h : (Call.ofExcept s e).commit s = t) :
    t = s ∨ ∃ s', e = .ok s' ∧ t = s'.flush := by
  subst h
  cases e with
  | error _ => exact .inl rfl
  | ok s' => exact .inr ⟨s', rfl, rfl⟩

/-- **Every operation is a sequence of moves** of its kinds. -/
theorem exec_moves (cfg : Config) (s : Db) (o : Op) :
    Moves cfg o.now o.action.kinds s.crew (exec cfg s o).crew := by
  unfold exec Call.commit
  split
  · exact .refl
  · rw [crew_flush]
    exact call_moves cfg s o.now o.action

end HumanGate
