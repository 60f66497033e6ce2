import HumanGate.Jobs.Rows
import HumanGate.Model.Desk

set_option autoImplicit false

/-! # One bad job in a tick

`_scheduler_tick` carries out all the jobs it has leased in one transaction and catches nothing
in between. A tick in which no job raises has the effects of its jobs. In a tick in which one
does, none of the others has any: the rollback takes back what was done before and keeps the
rest from being tried, and the next tick finds the same jobs again. So the jobs of a tick are
isolated from those that raise exactly when none of them raises, or none is left
(`ticks_isolate_iff`).
-/

namespace HumanGate

open Lib Lib.Calendar

variable {cfg : Config} {s : Db}

/-! ## The leased jobs -/

theorem mem_dueJobs {now : Instant} {batchSize : Nat} {rows : List JobId} {jid : JobId}
    {job : JobSchedule} (h : (jid, job) ∈ dueJobs s now batchSize rows) :
    s.jobs[jid]? = some job ∧ job.due now = true := by
  have hsorted := List.mem_of_mem_take h
  rw [List.mem_insertionSort, List.mem_filter] at hsorted
  obtain ⟨hrow, hdue⟩ := hsorted
  unfold jobRows at hrow
  obtain ⟨jid', _, hrow⟩ := List.mem_filterMap.mp hrow
  obtain ⟨job', hjob, heq⟩ := Option.map_eq_some_iff.mp hrow
  cases heq
  exact ⟨hjob, hdue⟩

theorem jobRows_fst (s : Db) (rows : List JobId) :
    ((jobRows s rows).map Prod.fst).Sublist rows := by
  induction rows with
  | nil => exact .slnil
  | cons jid rest ih =>
      unfold jobRows at ih ⊢
      rw [List.filterMap_cons]
      split
      · exact ih.cons jid
      · rename_i p hp
        obtain ⟨job, _, rfl⟩ := Option.map_eq_some_iff.mp hp
        exact ih.cons_cons jid

theorem dueJobs_nodup {now : Instant} {batchSize : Nat} {rows : List JobId} (h : rows.Nodup) :
    ((dueJobs s now batchSize rows).map Prod.fst).Nodup := by
  have hrows : ((jobRows s rows).map Prod.fst).Nodup := h.sublist (jobRows_fst s rows)
  have hdue : (((jobRows s rows).filter fun p => p.2.due now).map Prod.fst).Nodup :=
    hrows.sublist (List.filter_sublist.map Prod.fst)
  refine List.Nodup.sublist ((List.take_sublist _ _).map Prod.fst) ?_
  exact ((List.perm_insertionSort _ _).map Prod.fst).nodup_iff.mpr hdue

/-- Every job of a queue is a candidate of the queue's workspace. -/
theorem mem_workspaceQueues {candidates : List (JobId × JobSchedule)} {queue : List JobId}
    {jid : JobId} (hq : queue ∈ workspaceQueues cfg s candidates) (hj : jid ∈ queue) :
    ∃ job, (jid, job) ∈ candidates := by
  obtain ⟨ws, _, rfl⟩ := List.mem_map.mp hq
  obtain ⟨⟨jid', job⟩, hp, rfl⟩ := List.mem_map.mp (List.mem_of_mem_take hj)
  exact ⟨job, (List.mem_filter.mp hp).1⟩

/-- No job stands in two queues, or twice in one. -/
theorem workspaceQueues_nodup {candidates : List (JobId × JobSchedule)}
    (hrows : ∀ jid job, (jid, job) ∈ candidates → s.jobs[jid]? = some job)
    (h : (candidates.map Prod.fst).Nodup) : (workspaceQueues cfg s candidates).flatten.Nodup := by
  rw [List.nodup_flatten]
  constructor
  · intro queue hq
    obtain ⟨ws, _, rfl⟩ := List.mem_map.mp hq
    exact h.sublist ((List.take_sublist _ _).trans (List.filter_sublist.map Prod.fst))
  · unfold workspaceQueues
    rw [List.pairwise_map]
    have hdistinct : ((candidates.map fun p => p.2.workspaceId).reverse.dedup.reverse).Nodup :=
      List.nodup_reverse.mpr (List.nodup_dedup _)
    refine hdistinct.imp fun {ws ws'} hne jid hj hj' => hne ?_
    -- a job that stands in both has both workspaces
    obtain ⟨⟨_, job⟩, hp, rfl⟩ := List.mem_map.mp (List.mem_of_mem_take hj)
    obtain ⟨⟨_, job'⟩, hp', heq⟩ := List.mem_map.mp (List.mem_of_mem_take hj')
    obtain ⟨hc, hws⟩ := List.mem_filter.mp hp
    obtain ⟨hc', hws'⟩ := List.mem_filter.mp hp'
    simp only [beq_iff_eq] at hws hws' heq
    subst heq
    have hjob := hrows _ _ hc
    rw [hrows _ _ hc'] at hjob
    cases hjob
    exact hws.symm.trans hws'

theorem heads_tails_perm (queues : List (List JobId)) :
    (queues.filterMap List.head? ++ (queues.map List.tail).flatten).Perm queues.flatten := by
  induction queues with
  | nil => exact .refl _
  | cons queue rest ih =>
      cases queue with
      | nil => exact ih
      | cons jid more =>
          simp only [List.filterMap_cons, List.head?_cons, List.map_cons, List.tail_cons,
            List.flatten_cons, List.cons_append]
          refine .cons jid ?_
          calc rest.filterMap List.head? ++ (more ++ (rest.map List.tail).flatten)
              |>.Perm (more ++ (rest.filterMap List.head? ++ (rest.map List.tail).flatten)) := by
                rw [← List.append_assoc, ← List.append_assoc]
                exact List.perm_append_comm.append_right _
            _ |>.Perm (more ++ rest.flatten) := ih.append_left more

/-- The round robin takes jobs out of the queues. -/
theorem roundRobin_subperm (rounds : Nat) : ∀ (queues : List (List JobId)) (room : Nat),
    (roundRobin rounds queues room).Subperm queues.flatten := by
  induction rounds with
  | zero => intro queues room; exact List.nil_subperm
  | succ rounds ih =>
      intro queues room
      have hheads : ((queues.filterMap List.head?).take room).Subperm
          (queues.filterMap List.head?) := (List.take_sublist _ _).subperm
      have hrest := ih (queues.map List.tail)
        (room - ((queues.filterMap List.head?).take room).length)
      exact (hheads.append hrest).trans (heads_tails_perm queues).subperm

theorem leasedJobs_nodup {now : Instant} {batchSize : Nat} {rows : List JobId} (h : rows.Nodup) :
    (leasedJobs cfg s now batchSize rows).Nodup := by
  have hqueues : (workspaceQueues cfg s (dueJobs s now batchSize rows)).flatten.Nodup :=
    workspaceQueues_nodup (fun jid job hm => (mem_dueJobs hm).1) (dueJobs_nodup h)
  obtain ⟨jobs, hperm, hsub⟩ := roundRobin_subperm (dueJobs s now batchSize rows).length
    (workspaceQueues cfg s (dueJobs s now batchSize rows)) batchSize
  exact hperm.nodup_iff.mp (hqueues.sublist hsub)

theorem leasedJobs_due {now : Instant} {batchSize : Nat} {rows : List JobId} {jid : JobId}
    (h : jid ∈ leasedJobs cfg s now batchSize rows) :
    ∃ job, s.jobs[jid]? = some job ∧ job.due now = true := by
  obtain ⟨queue, hq, hj⟩ := List.mem_flatten.mp ((roundRobin_subperm _ _ _).subset h)
  obtain ⟨job, hm⟩ := mem_workspaceQueues hq hj
  exact ⟨job, mem_dueJobs hm⟩

/-! ## The rows of a batch -/

theorem updateJobs_rows (f : JobSchedule → JobSchedule) (ids : List JobId) : ∀ s : Db,
    (updateJobs s f ids).jobs = Table.modifyAll f ids s.jobs := by
  induction ids with
  | nil => intro s; rfl
  | cons jid rest ih => intro s; exact ih _

theorem updateJobs_row_of_notMem {f : JobSchedule → JobSchedule} {ids : List JobId} {jid : JobId}
    (h : jid ∉ ids) (s : Db) : (updateJobs s f ids).jobs[jid]? = s.jobs[jid]? := by
  rw [updateJobs_rows]
  exact Table.get_modifyAll_of_notMem h s.jobs

/-- A leased job, once the batch is leased. -/
theorem updateJobs_row {f : JobSchedule → JobSchedule} {ids : List JobId} (hnodup : ids.Nodup) :
    ∀ {s : Db} {jid : JobId} {job : JobSchedule}, jid ∈ ids → s.jobs[jid]? = some job →
      (updateJobs s f ids).jobs[jid]? = some (f job) := by
  induction ids with
  | nil => intro s jid job h; cases h
  | cons i rest ih =>
      intro s jid job hmem hjob
      obtain ⟨hi, hrest⟩ := List.nodup_cons.mp hnodup
      by_cases hij : i = jid
      · subst hij
        exact (updateJobs_row_of_notMem hi (s.updateJob i f)).trans (Table.get_modify_self hjob)
      · have hmem' : jid ∈ rest := (List.mem_cons.mp hmem).resolve_left (Ne.symm hij)
        exact ih hrest hmem' ((Table.get_modify_ne hij).trans hjob)

/-- Returning expired leases leaves a job that is not leased. -/
theorem reapExpiredJobLeases_row {s : Db} {now : Instant} {batchSize : Nat} {rows : List JobId}
    {jid : JobId} {job : JobSchedule} (hjob : s.jobs[jid]? = some job)
    (hstatus : job.status ≠ .leased) :
    (reapExpiredJobLeases s now batchSize rows).jobs[jid]? = some job := by
  unfold reapExpiredJobLeases
  rw [updateJobs_row_of_notMem, hjob]
  intro hmem
  have hp := (List.mem_filter.mp (List.mem_of_mem_take hmem)).2
  rw [hjob] at hp
  simp [hstatus] at hp

theorem JobSchedule.MovedOn.not_leased {now : Instant} {before after : JobSchedule}
    (h : before.MovedOn now after) : after.status ≠ .leased := by
  rcases h with h | h | ⟨h, _⟩ <;> simp [h]

namespace SchedulerTick

variable {t : SchedulerTick}

theorem leased_nodup : (t.leased cfg s).Nodup := leasedJobs_nodup t.rows_nodup

theorem process_row {s s' : Db} {jid j : JobId} {row : JobSchedule}
    (h : t.process cfg s jid = .ok s') (hj : j ≠ jid) (hrow : s.jobs[j]? = some row) :
    s'.jobs[j]? = some row := by
  obtain ⟨job, hjob⟩ := processLeasedJob_found h
  exact (processLeasedJob_settles hjob h).1 j hj row hrow

/-- **A batch that goes through** moves each of its jobs on. -/
theorem runBatch_movesOn {s' : Db} {batch : List JobId} {jid : JobId} {job : JobSchedule}
    (hsub : batch.Sublist (t.leased cfg s)) (hmem : jid ∈ batch) (hjob : s.jobs[jid]? = some job)
    (h : t.runBatch cfg s batch = .ok s') :
    ∃ after, s'.jobs[jid]? = some after ∧ job.MovedOn t.now after := by
  have hpolled : (t.polled cfg s).jobs[jid]? = some (job.lease t.now) :=
    updateJobs_row leased_nodup (hsub.subset hmem) hjob
  obtain ⟨before, rest, rfl⟩ := List.append_of_mem hmem
  have hnodup := leased_nodup.sublist hsub
  rw [List.nodup_middle, List.nodup_cons, List.mem_append, not_or] at hnodup
  obtain ⟨⟨hbefore, hrest⟩, _⟩ := hnodup
  unfold runBatch at h
  split at h
  · cases h
  · rename_i s3 hall
    cases h
    obtain ⟨s1, s2, hall1, hstep, hall2⟩ := Batch.all_append before hall
    -- the row is the leased one up to its turn, and the settled one after it
    have hrow1 : s1.jobs[jid]? = some (job.lease t.now) :=
      Batch.all_invariant (I := fun d => d.jobs[jid]? = some (job.lease t.now)) before
        (fun i hi d d' hd => process_row hd fun h : jid = i => hbefore (h ▸ hi)) hall1 hpolled
    obtain ⟨_, after, hrow2, hmoved⟩ := processLeasedJob_settles hrow1 hstep
    have hrow3 : s3.jobs[jid]? = some after :=
      Batch.all_invariant (I := fun d => d.jobs[jid]? = some after) rest
        (fun i hi d d' hd => process_row hd fun h : jid = i => hrest (h ▸ hi)) hall2 hrow2
    have hmoved' : job.MovedOn t.now after := hmoved.of_le (Nat.le_add_right _ _)
    exact ⟨after, reapExpiredJobLeases_row hrow3 hmoved'.not_leased, hmoved'⟩

end SchedulerTick

/-! ## Isolation -/

/-- The databases agree on everything but the rows of the jobs `bad`. -/
def Db.AgreesBut (bad : List JobId) (s s' : Db) : Prop :=
  { s with jobs := [] } = { s' with jobs := [] } ∧ ∀ jid ∉ bad, s.jobs[jid]? = s'.jobs[jid]?

namespace SchedulerTick

variable (cfg : Config) (s : Db) (t : SchedulerTick)

/-- The leased jobs that raise when their turn comes, each exception being caught. -/
def raisers : List JobId := Batch.failures (t.process cfg) (t.polled cfg s) (t.leased cfg s)

/-- The leased jobs that do not raise. -/
def others : List JobId := (t.leased cfg s).filter fun jid => jid ∉ t.raisers cfg s

/-- The database after the tick, had the jobs that raise not been in its batch. -/
def withoutRaisers : Db := (Call.ofExcept s (t.runBatch cfg s (t.others cfg s))).commit s

/-- Every other leased job has the effects it has without those that raise, and moves on. -/
def Isolates : Prop := ∀ jid ∈ t.others cfg s,
  (tickExec cfg s t).AgreesBut (t.raisers cfg s) (t.withoutRaisers cfg s) ∧
    ∃ before after, s.jobs[jid]? = some before ∧ (tickExec cfg s t).jobs[jid]? = some after ∧
      before.MovedOn t.now after

/-- None of the leased jobs raises, or all of them do. -/
def NoneOrAllRaise : Prop := t.raisers cfg s = [] ∨ t.others cfg s = []

variable {cfg s t}

theorem leased_row {jid : JobId} (h : jid ∈ t.leased cfg s) :
    ∃ job, s.jobs[jid]? = some job ∧ job.due t.now = true := leasedJobs_due h

/-- The tick goes through its other jobs. -/
theorem runBatch_others_ok : ∃ s', t.runBatch cfg s (t.others cfg s) = .ok s' := by
  obtain ⟨s1, hall⟩ : ∃ s1, Batch.all (t.process cfg) (t.polled cfg s)
      ((t.leased cfg s).filter fun jid =>
        jid ∉ Batch.failures (t.process cfg) (t.polled cfg s) (t.leased cfg s)) = .ok s1 :=
    Batch.all_others (t.leased cfg s) (t.polled cfg s) leased_nodup
  refine ⟨reapExpiredJobLeases s1 (t.now + t.reapDelay) schedulerReapBatchSize t.reapRows, ?_⟩
  unfold runBatch others raisers
  rw [hall]

/-- **One exception takes back the tick.** -/
theorem tickExec_of_raiser (h : t.raisers cfg s ≠ []) : tickExec cfg s t = s := by
  obtain ⟨e, he⟩ := Batch.all_error (t.leased cfg s) (t.polled cfg s) h
  unfold tickExec schedulerTick runBatch
  rw [he]
  rfl

theorem others_of_no_raiser (h : t.raisers cfg s = []) : t.others cfg s = t.leased cfg s := by
  unfold others
  rw [h]
  simp

theorem others_sublist : (t.others cfg s).Sublist (t.leased cfg s) := List.filter_sublist

/-- Without the jobs that raise, every leased job moves on. -/
theorem withoutRaisers_movesOn {jid : JobId} {job : JobSchedule} (hmem : jid ∈ t.others cfg s)
    (hjob : s.jobs[jid]? = some job) :
    ∃ after, (t.withoutRaisers cfg s).jobs[jid]? = some after ∧ job.MovedOn t.now after := by
  obtain ⟨s', hs'⟩ : ∃ s', t.runBatch cfg s (t.others cfg s) = .ok s' := runBatch_others_ok
  have hwithout : t.withoutRaisers cfg s = s'.flush := by
    unfold withoutRaisers
    rw [hs']
    rfl
  rw [hwithout]
  obtain ⟨after, hafter, hmoved⟩ := runBatch_movesOn others_sublist hmem hjob hs'
  exact ⟨after, hafter, hmoved⟩

theorem tickExec_of_no_raiser (h : t.raisers cfg s = []) :
    tickExec cfg s t = t.withoutRaisers cfg s := by
  unfold tickExec schedulerTick withoutRaisers
  rw [others_of_no_raiser h]

/-- **When a tick isolates its jobs**: none of them raises, or none is left. -/
theorem isolates_iff : t.Isolates cfg s ↔ t.NoneOrAllRaise cfg s := by
  constructor
  · intro h
    by_cases hraisers : t.raisers cfg s = []
    · exact .inl hraisers
    · right
      -- a job that is left would have moved on, but the tick was taken back
      by_contra hothers
      obtain ⟨jid, hmem⟩ := List.exists_mem_of_ne_nil _ hothers
      obtain ⟨_, before, after, hbefore, hafter, hmoved⟩ := h jid hmem
      rw [tickExec_of_raiser hraisers, hbefore] at hafter
      cases hafter
      obtain ⟨job, hjob, hdue⟩ := leased_row (others_sublist.subset hmem)
      rw [hbefore] at hjob
      cases hjob
      exact hmoved.ne hdue rfl
  · intro h jid hmem
    rcases h with h | h
    · obtain ⟨job, hjob, _⟩ := leased_row (others_sublist.subset hmem)
      obtain ⟨after, hafter, hmoved⟩ := withoutRaisers_movesOn hmem hjob
      rw [tickExec_of_no_raiser h]
      exact ⟨⟨rfl, fun _ _ => rfl⟩, job, after, hjob, hafter, hmoved⟩
    · rw [h] at hmem
      cases hmem

end SchedulerTick

/-! ## Repeated ticks -/

/-- What happens one after the other: ticks of the scheduler, and other transactions. -/
inductive Turn where
  | tick (t : SchedulerTick)
  | op (o : Op)

def turnExec (cfg : Config) (s : Db) : Turn → Db
  | .tick t => tickExec cfg s t
  | .op o => exec cfg s o

/-- Every tick of the sequence meets the condition where it starts. -/
def EveryTick (cfg : Config) (C : Db → SchedulerTick → Prop) : Db → List Turn → Prop
  | _, [] => True
  | s, .tick t :: rest => C s t ∧ EveryTick cfg C (tickExec cfg s t) rest
  | s, .op o :: rest => EveryTick cfg C (exec cfg s o) rest

theorem EveryTick.congr {C C' : Db → SchedulerTick → Prop} (h : ∀ s t, C s t ↔ C' s t)
    (turns : List Turn) : ∀ s : Db, EveryTick cfg C s turns ↔ EveryTick cfg C' s turns := by
  induction turns with
  | nil => intro s; exact Iff.rfl
  | cons turn rest ih =>
      intro s
      cases turn with
      | tick t => exact and_congr (h s t) (ih _)
      | op o => exact ih _

/-- **Isolation over repeated ticks**, with anything else in between: every tick isolates the
jobs it leases from those that raise if and only if, in every tick, none of the leased jobs
raises or all of them do. -/
theorem ticks_isolate_iff (cfg : Config) (s : Db) (turns : List Turn) :
    EveryTick cfg (fun s t => t.Isolates cfg s) s turns ↔
      EveryTick cfg (fun s t => t.NoneOrAllRaise cfg s) s turns :=
  EveryTick.congr (fun _ _ => SchedulerTick.isolates_iff) turns s

/-- Two workspaces with an item each. -/
def twoDesks : Db :=
  { deskDb with
    items := [⟨0, some 0⟩, ⟨1, some 1⟩]
    versions := [⟨0, none, some "draft", none⟩, ⟨1, none, some "draft", none⟩] }

theorem twoDesks_fresh : Fresh twoDesks := ⟨rfl, rfl, rfl, rfl, rfl, rfl, rfl, rfl, rfl⟩

/-- A run of workspace 0 fails for good and is retried by the operator; workspace 1 starts a
run. -/
def retriedOps : List Op := failedOps ++ [⟨4, .retryFailedJobs 0 [0]⟩, ⟨5, .startRun 1 1 0⟩]

def fullTick (now : Instant) (rows : List JobId) (h : rows.Nodup) : SchedulerTick where
  now := now
  batchSize := 10
  rows := rows
  draw := fun _ => { workers := [0] }
  reapDelay := 1
  reapRows := rows
  rows_nodup := h

/-- Two ticks over the same jobs. -/
def twoTicks : List Turn :=
  [.tick (fullTick 6 [0, 1, 2, 3] (by decide)), .tick (fullTick 9 [0, 1, 2, 3] (by decide))]

/-- **A retry job that nothing can dispatch stops every workspace.** It raises in each of the
ticks, and the run that workspace 1 has just started stays where it is. -/
theorem raising_job_blocks_tick :
    (orchestration deskConfig fun _ _ => True).Reachable (runOps deskConfig twoDesks retriedOps) ∧
    (fullTick 6 [0, 1, 2, 3] (by decide)).raisers deskConfig
      (runOps deskConfig twoDesks retriedOps) = [1] ∧
    (fullTick 6 [0, 1, 2, 3] (by decide)).others deskConfig
      (runOps deskConfig twoDesks retriedOps) = [3, 2] ∧
    twoTicks.foldl (turnExec deskConfig) (runOps deskConfig twoDesks retriedOps)
      = runOps deskConfig twoDesks retriedOps ∧
    ¬ EveryTick deskConfig (fun s t => t.Isolates deskConfig s)
      (runOps deskConfig twoDesks retriedOps) twoTicks := by
  have hraisers : (fullTick 6 [0, 1, 2, 3] (by decide)).raisers deskConfig
      (runOps deskConfig twoDesks retriedOps) = [1] := by decide +kernel
  have hothers : (fullTick 6 [0, 1, 2, 3] (by decide)).others deskConfig
      (runOps deskConfig twoDesks retriedOps) = [3, 2] := by decide +kernel
  have hraisers' : (fullTick 9 [0, 1, 2, 3] (by decide)).raisers deskConfig
      (runOps deskConfig twoDesks retriedOps) = [1] := by decide +kernel
  have hfirst : tickExec deskConfig (runOps deskConfig twoDesks retriedOps)
      (fullTick 6 [0, 1, 2, 3] (by decide)) = runOps deskConfig twoDesks retriedOps :=
    SchedulerTick.tickExec_of_raiser (by rw [hraisers]; simp)
  refine ⟨runOps_reachable deskConfig twoDesks_fresh retriedOps, hraisers, hothers, ?_, ?_⟩
  · show tickExec deskConfig (tickExec deskConfig (runOps deskConfig twoDesks retriedOps) _) _ = _
    rw [hfirst]
    exact SchedulerTick.tickExec_of_raiser (by rw [hraisers']; simp)
  · rintro ⟨hisolates, _⟩
    rcases SchedulerTick.isolates_iff.mp hisolates with h | h
    · rw [hraisers] at h
      cases h
    · rw [hothers] at h
      cases h

end HumanGate
