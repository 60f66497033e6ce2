import HumanGate.Model.Desk
import HumanGate.Run.Operations

set_option autoImplicit false

/-! # Tenant isolation of handed-out work

Work reaches a worker on two paths: a worker pulls it with `claim_assignment`, whose query
looks at the worker's workspace, or `dispatch_stage` pushes it to the worker that
`select_worker` ranks first, and that query does not. So a worker that is pinned to one
workspace can be given the content of another (`pinned_worker_given_foreign_work`). It is the
only way: as long as the workers that can be ranked first serve the workspace, every
assignment in a worker's hands is one of a workspace it serves.
-/

namespace HumanGate

open Lib Lib.Calendar Relation

/-! ## Ranking -/

theorem heartbeatLe_total (a b : Option Instant) : heartbeatLe a b ∨ heartbeatLe b a := by
  cases a <;> cases b <;> simp only [heartbeatLe, decide_eq_true_eq, true_or, or_true]
  exact Nat.le_total _ _

theorem heartbeatLe_trans {a b c : Option Instant} (hab : heartbeatLe a b = true)
    (hbc : heartbeatLe b c = true) : heartbeatLe a c = true := by
  cases a <;> cases b <;> cases c <;>
    simp_all only [heartbeatLe, decide_eq_true_eq, Bool.false_eq_true]
  exact Nat.le_trans hab hbc

theorem WorkerRegistration.rankLe_iff (a b : WorkerRegistration) :
    a.rankLe b = true ↔ b.healthScore < a.healthScore ∨ a.healthScore = b.healthScore ∧
      (a.currentLoad < b.currentLoad ∨ a.currentLoad = b.currentLoad ∧
        heartbeatLe a.lastHeartbeatAt b.lastHeartbeatAt = true) := by
  simp [WorkerRegistration.rankLe]

instance rank_total : Std.Total fun p q : WorkerId × WorkerRegistration =>
    p.2.rankLe q.2 = true where
  total p q := by
    simp only [WorkerRegistration.rankLe_iff]
    rcases heartbeatLe_total p.2.lastHeartbeatAt q.2.lastHeartbeatAt with h | h
    · simp only [h, and_true]; omega
    · simp only [h, and_true]; omega

instance rank_trans : IsTrans (WorkerId × WorkerRegistration)
    fun p q => p.2.rankLe q.2 = true where
  trans p q r hpq hqr := by
    rw [WorkerRegistration.rankLe_iff] at hpq hqr ⊢
    rcases hpq with h | ⟨h, h' | ⟨h', hb⟩⟩ <;> rcases hqr with k | ⟨k, k' | ⟨k', kb⟩⟩
    all_goals first
      | exact .inl (by omega)
      | exact .inr ⟨by omega, .inl (by omega)⟩
      | exact .inr ⟨by omega, .inr ⟨by omega, heartbeatLe_trans hb kb⟩⟩

/-- The selected worker is one of the eligible, and none of them ranks before it. -/
theorem selectWorker_spec {s : Db} {stage : String} {rows : List WorkerId} {wid : WorkerId}
    {w : WorkerRegistration} (h : selectWorker s stage rows = some (wid, w)) :
    (wid, w) ∈ eligibleWorkers s stage rows ∧
      ∀ q ∈ eligibleWorkers s stage rows, w.rankLe q.2 = true := by
  refine ⟨selectWorker_mem h, fun q hq => ?_⟩
  unfold selectWorker at h
  have hsorted := List.pairwise_insertionSort
    (fun p q : WorkerId × WorkerRegistration => p.2.rankLe q.2 = true)
    (eligibleWorkers s stage rows)
  have hmem := (List.mem_insertionSort
    (fun p q : WorkerId × WorkerRegistration => p.2.rankLe q.2 = true)).mpr hq
  cases hlist : (eligibleWorkers s stage rows).insertionSort fun p q => p.2.rankLe q.2 = true with
  | nil =>
      rw [hlist] at h
      cases h
  | cons first rest =>
      rw [hlist] at h hsorted hmem
      cases h
      rcases List.mem_cons.mp hmem with rfl | hmem
      · rcases rank_total.total (wid, w) (wid, w) with h | h <;> exact h
      · exact (List.pairwise_cons.mp hsorted).1 q hmem

theorem eligibleWorkers_get {s : Db} {stage : String} {rows : List WorkerId} {wid : WorkerId}
    {w : WorkerRegistration} (h : (wid, w) ∈ eligibleWorkers s stage rows) :
    s.workers[wid]? = some w := by
  unfold eligibleWorkers at h
  rw [List.mem_filter, List.mem_filterMap] at h
  obtain ⟨⟨x, _, hx⟩, _⟩ := h
  rw [Option.map_eq_some_iff] at hx
  obtain ⟨y, hy, heq⟩ := hx
  cases heq
  exact hy

/-! ## The invariant -/

/-- Whoever is named as an assignment's worker serves its workspace. -/
def Board.Isolated (b : Board) : Prop :=
  ∀ a ∈ b.assignments, ∀ wid ∈ a.workerId, ∀ w ∈ b.workers[wid]?, w.serves a.workspaceId = true

/-- Workers keep their workspace. -/
def SamePins (b b' : Board) : Prop :=
  b'.workers.map WorkerRegistration.workspaceId = b.workers.map WorkerRegistration.workspaceId

theorem SamePins.serves {b b' : Board} (h : SamePins b b') {wid : WorkerId}
    {w' : WorkerRegistration} (hw' : b'.workers[wid]? = some w') :
    ∃ w, b.workers[wid]? = some w ∧ ∀ ws, w.serves ws = w'.serves ws := by
  have hget := congrArg (fun l => l[wid]?) h
  simp only [List.getElem?_map, hw', Option.map_some] at hget
  obtain ⟨w, hw, hpin⟩ := Option.map_eq_some_iff.mp hget.symm
  refine ⟨w, hw, fun ws => ?_⟩
  unfold WorkerRegistration.serves
  rw [hpin]

variable {cfg : Config} {sc : Scope}

/-- One write keeps the isolation, if what may be inserted does. The workers of the board are
those of `b₀`, up to their load. -/
theorem Write.isolated {b₀ b b' : Board} (h : Write cfg sc b b')
    (hassign : ∀ a, sc.assign a → ∀ wid ∈ a.workerId, ∀ w ∈ b₀.workers[wid]?,
      w.serves a.workspaceId = true)
    (hb : SamePins b₀ b ∧ b.Isolated) : SamePins b₀ b' ∧ b'.Isolated := by
  obtain ⟨hpins, hiso⟩ := hb
  cases h with
  | newAssignment ha =>
      refine ⟨hpins, Table.forall_push hiso fun wid hwid w' hw' => ?_⟩
      obtain ⟨w, hw, hserves⟩ := hpins.serves hw'
      rw [← hserves]
      exact hassign _ ha wid hwid w hw
  | assignment hf =>
      refine ⟨hpins, Table.forall_modify hiso fun a ha wid hwid w hw => ?_⟩
      cases hf with
      | keep hkeep =>
          obtain ⟨⟨hws, _, _⟩, hworker⟩ := hkeep a
          rw [hws]
          rw [hworker] at hwid
          exact hiso a (Table.mem_of_get ha) wid hwid w hw
      | drop hdrop =>
          rw [(hdrop a).2] at hwid
          cases hwid
      | take ha' hw' hserves htake =>
          -- the row and the worker that the claim looked at
          obtain ⟨⟨hws, _, _⟩, hworker⟩ := htake a
          rw [hworker, Option.mem_some_iff] at hwid
          subst hwid
          rw [ha] at ha'
          cases ha'
          have hsome := hw'.symm.trans hw
          cases hsome
          rw [hws]
          exact hserves
  | @worker wid₀ f hf =>
      have hsame : SamePins b (b.updateWorker wid₀ f) := Table.map_modify_same (f := f) hf _ _
      refine ⟨hsame.trans hpins, fun a ha wid hwid w' hw' => ?_⟩
      obtain ⟨w, hw, hserves⟩ := hsame.serves hw'
      rw [← hserves]
      exact hiso a ha wid hwid w hw
  | startRun | run | newJob | job | newGate | gate | decision => exact ⟨hpins, hiso⟩

/-! ## Runs of the system -/

/-- `dispatch_stage`, `claim_assignment`, `acknowledge`, `renew_lease`, `submit_result`,
`recover_assignment` and the two reapers. -/
def Action.handlesWork : Action → Bool
  | .dispatchStage .. | .claimAssignment .. | .acknowledge .. | .renewLease .. | .submitResult ..
  | .recoverAssignment .. | .reapExpiredLeases .. | .reapWorkerAssignments .. => true
  | _ => false

theorem handlesWork_noTimer {action : Action} (h : action.handlesWork = true) :
    ¬ action.firesTimer = true := by
  cases action with
  | processLeasedJob | handleReviewTimeout => exact absurd h Bool.false_ne_true
  | _ => exact Bool.false_ne_true

/-- Any workers, any runs, no assignments. -/
def handingOut (cfg : Config) : System Db Op where
  init s := s.assignments = []
  allowed _ o := o.action.handlesWork = true
  exec := exec cfg

/-- Every assignment in a worker's hands belongs to a workspace that the worker serves: its
own, if it is pinned to one. -/
def HandedOutAtHome (s : Db) : Prop :=
  ∀ a ∈ s.assignments, a.status.inFlight = true →
    ∀ w ∈ a.workerId.bind fun wid => s.workers[wid]?, w.serves a.workspaceId = true

/-- Where `dispatch_stage` hands the stage out, the eligible workers that no eligible worker
ranks before are global or pinned to the workspace of the call. -/
def PushesAtHome (cfg : Config) (s : Db) (o : Op) : Prop :=
  ∀ call ∈ o.push, handsOut cfg s o.now call.1 = true →
    ∀ p ∈ eligibleWorkers s call.1.stage call.2,
      (∀ q ∈ eligibleWorkers s call.1.stage call.2, p.2.rankLe q.2 = true) →
      p.2.serves call.1.workspaceId = true

theorem exec_isolated {s : Db} {o : Op} (ha : o.action.handlesWork = true)
    (hpush : PushesAtHome cfg s o) (hs : s.board.Isolated) : (exec cfg s o).board.Isolated := by
  have hwrites := exec_writes cfg (s := s) o fun hf => absurd hf (handlesWork_noTimer ha)
  refine (hwrites.invariant (I := fun b => SamePins s.board b ∧ b.Isolated)
    (fun b b' hw => hw.isolated ?_) ⟨rfl, hs⟩).2
  intro a hins wid hwid w hw
  -- only `dispatch_stage` inserts, and it gives the row to the worker ranked first
  obtain ⟨now, action⟩ := o
  cases action with
  | dispatchStage args rows =>
      obtain ⟨stage, worker, _, hworker, rfl⟩ := hins
      obtain ⟨hout, hselect⟩ := hworker wid hwid
      obtain ⟨⟨wid', w'⟩, hsel, rfl⟩ := Option.map_eq_some_iff.mp hselect
      obtain ⟨hmem, hfirst⟩ := selectWorker_spec hsel
      have hget : s.workers[wid']? = some w := hw
      rw [eligibleWorkers_get hmem] at hget
      cases hget
      exact hpush (args, rows) rfl hout (wid', w) hmem hfirst
  | processLeasedJob => exact absurd ha Bool.false_ne_true
  | _ => exact False.elim hins

/-- **Tenant isolation of handed-out work**, in every run in which `dispatch_stage` never finds
a worker of another workspace ranked first. -/
theorem handed_out_at_home (cfg : Config) {s : Db}
    (h : ((handingOut cfg).restrict (PushesAtHome cfg)).Reachable s) : HandedOutAtHome s := by
  have hiso : s.board.Isolated := by
    refine h.invariant (I := fun s => s.board.Isolated) ?_ ?_
    · intro s hinit a ha
      rw [show s.board.assignments = [] from hinit] at ha
      cases ha
    · intro s o hs hallowed
      exact exec_isolated hallowed.1 hallowed.2 hs
  -- the worker of a row is one that was at home when it was handed out
  intro a ha _ w hw
  obtain ⟨wid, hwid, hw⟩ := Option.bind_eq_some_iff.mp hw
  exact hiso a ha wid hwid w hw

/-! ## Two workspaces -/

/-- A run of workspace 0 in the first stage of the desk's workflow. -/
def scriptingRun : PipelineRun :=
  { workspaceId := 0, contentItemId := 0, currentStage := .scripting, status := .running,
    definitionId := some 0 }

/-- The dispatch of its first attempt. -/
def scriptingDispatch : Op where
  now := 0
  action := .dispatchStage
    { workspaceId := 0, pipelineRunId := 0, stage := "scripting", attemptNumber := 1 } [0]

/-- One worker for scripts, pinned to a workspace. -/
def pinnedDb (ws : WorkspaceId) : Db where
  runs := [scriptingRun]
  workers := [{ deskWorker [.scripting] with workspaceId := some ws }]
  caps := [wideCap 10 100]

instance (s : Db) : Decidable (HandedOutAtHome s) :=
  inferInstanceAs (Decidable (∀ a ∈ s.assignments, a.status.inFlight = true →
    ∀ w ∈ a.workerId.bind fun wid => s.workers[wid]?, w.serves a.workspaceId = true))

instance (cfg : Config) (s : Db) (o : Op) : Decidable (PushesAtHome cfg s o) :=
  inferInstanceAs (Decidable (∀ call ∈ o.push, handsOut cfg s o.now call.1 = true →
    ∀ p ∈ eligibleWorkers s call.1.stage call.2,
      (∀ q ∈ eligibleWorkers s call.1.stage call.2, p.2.rankLe q.2 = true) →
      p.2.serves call.1.workspaceId = true))

/-- The script of workspace 0 goes to a worker of workspace 0. -/
theorem own_worker_at_home :
    (exec deskConfig (pinnedDb 0) scriptingDispatch).assignments.map StageAssignment.workerId
      = [some 0] ∧ HandedOutAtHome (exec deskConfig (pinnedDb 0) scriptingDispatch) :=
  ⟨by decide +kernel, handed_out_at_home deskConfig (System.Reachable.step
    (o := scriptingDispatch) (System.Reachable.init (s := pinnedDb 0) rfl)
    ⟨rfl, by decide +kernel⟩)⟩

/-- The script of workspace 0 goes to a worker of workspace 1. -/
theorem pinned_worker_given_foreign_work :
    ∃ s, (handingOut deskConfig).Reachable s ∧ ¬ HandedOutAtHome s :=
  ⟨exec deskConfig (pinnedDb 1) scriptingDispatch,
    System.Reachable.step (o := scriptingDispatch)
      (System.Reachable.init (S := handingOut deskConfig) (s := pinnedDb 1) rfl) rfl,
    by decide +kernel⟩

end HumanGate
