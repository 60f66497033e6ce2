import HumanGate.Jobs.RoundRobin
import HumanGate.Jobs.Tick
import HumanGate.Model.Desk

set_option autoImplicit false

/-! # Fairness within a scheduler tick

A batch has room for one job of every workspace with due work, and the loops would take it
(`Settled.served`). But they see only the first `3 * batch_size` due jobs, and the query that
fetches them ranks the jobs of all workspaces together. A workspace is served exactly if its first
due job is among these (`tick_serves_iff`); a large backlog of another one keeps it out
(`backlog_starves_tenant`).
-/

namespace HumanGate

open Lib Lib.Calendar

variable {cfg : Config} {s : Db} {now : Instant} {batchSize : Nat} {rows : List JobId}

/-! ## The loops serve every fetched workspace -/

theorem sum_cursors_le {limits : WorkspaceId → Int} {pre post : LeaseQueues} {l : Leasing}
    (h : Dealt limits pre post 0 l) : l.leased.length ≤ pre.length := by
  have hpre : (pre.map fun q => l.cursors q.1).sum ≤ pre.length := by
    have hle : ∀ q ∈ pre, l.cursors q.1 ≤ 1 := by
      intro q hq
      rw [h.done q hq]
      exact Nat.min_le_left _ _
    calc (pre.map fun q => l.cursors q.1).sum
        ≤ (pre.map fun _ => 1).sum := List.sum_le_sum hle
      _ = pre.length := by simp
  have hpost : (post.map fun q => l.cursors q.1).sum = 0 := by
    apply List.sum_eq_zero
    intro n hn
    obtain ⟨q, hq, rfl⟩ := List.mem_map.mp hn
    rw [h.due q hq]
    exact Nat.zero_min _
  rw [h.total, List.map_append, List.sum_append]
  omega

/-- With room for all workspaces, each of them has a job leased. -/
theorem Settled.served {limits : WorkspaceId → Int} {queues : LeaseQueues} {l : Leasing}
    (h : Settled limits batchSize queues l) (hroom : queues.length ≤ batchSize)
    {q : WorkspaceId × List Candidate} (hq : q ∈ queues) (hcap : 0 < cap limits q) :
    0 < l.cursors q.1 := by
  obtain ⟨pre, post, r, rfl, hdealt⟩ := h.dealt
  rcases List.mem_append.mp hq with hpre | hpost
  · rw [hdealt.done q hpre]
    omega
  · have hcursor := hdealt.due q hpost
    rcases Nat.eq_zero_or_pos r with rfl | hr
    · -- the first round has not ended, so the batch was full before this workspace
      exfalso
      rcases h.ended with hfull | hnone
      · have hle := sum_cursors_le hdealt
        have hpos : 0 < post.length := List.length_pos_of_mem hpost
        rw [List.length_append] at hroom
        omega
      · have hmore := hasMore_iff.not.mp (hnone q hq)
        omega
    · omega

/-! ## The due jobs -/

/-- All due jobs, in the order of the query. -/
def dueRows (s : Db) (now : Instant) (rows : List JobId) : List Candidate :=
  ((jobRows s rows).filter fun p => p.2.due now).insertionSort fun a b => jobLe a.2 b.2 = true

theorem dueJobs_eq_take : dueJobs s now batchSize rows
    = (dueRows s now rows).take (batchSize * 3) :=
  rfl

/-- The number of due jobs before the first one of the workspace. -/
def outranking (s : Db) (now : Instant) (rows : List JobId) (ws : WorkspaceId) : Nat :=
  (dueRows s now rows).findIdx fun p => p.2.workspaceId == ws

/-- The workspace has a due job. -/
def HasDueJob (s : Db) (now : Instant) (ws : WorkspaceId) : Prop :=
  ∃ (jid : JobId) (job : JobSchedule), s.jobs[jid]? = some job ∧ job.workspaceId = ws ∧
    job.due now = true

/-- One of the workspace's due jobs is leased. -/
def Serves (s s' : Db) (now : Instant) (ws : WorkspaceId) : Prop :=
  ∃ (jid : JobId) (job : JobSchedule), s.jobs[jid]? = some job ∧ job.workspaceId = ws ∧
    job.due now = true ∧ s'.jobs[jid]? = some (job.lease now)

theorem mem_dueRows (hrows : rows.Perm (List.range s.jobs.length)) {jid : JobId}
    {job : JobSchedule} :
    (jid, job) ∈ dueRows s now rows ↔ s.jobs[jid]? = some job ∧ job.due now = true := by
  unfold dueRows jobRows
  rw [List.mem_insertionSort, List.mem_filter, List.mem_filterMap]
  constructor
  · rintro ⟨⟨jid', _, hjid'⟩, hdue⟩
    obtain ⟨job', hjob, heq⟩ := Option.map_eq_some_iff.mp hjid'
    cases heq
    exact ⟨hjob, hdue⟩
  · rintro ⟨hjob, hdue⟩
    have hlt : jid < s.jobs.length := (List.getElem?_eq_some_iff.mp hjob).1
    refine ⟨⟨jid, hrows.mem_iff.mpr (List.mem_range.mpr hlt), ?_⟩, hdue⟩
    rw [hjob, Option.map_some]

/-- The workspaces with a due job. -/
def dueWorkspaces (s : Db) (now : Instant) (rows : List JobId) : List WorkspaceId :=
  workspacesOf (dueRows s now rows)

/-- A workspace is fetched exactly if fewer than `3 * batch_size` jobs outrank its first one. -/
theorem fetched_iff (hrows : rows.Perm (List.range s.jobs.length)) {ws : WorkspaceId}
    (hdue : HasDueJob s now ws) :
    ws ∈ workspacesOf (dueJobs s now batchSize rows) ↔
    outranking s now rows ws < batchSize * 3 := by
  obtain ⟨jid, job, hjob, hws, hdue⟩ := hdue
  have hmem : (jid, job) ∈ dueRows s now rows := (mem_dueRows hrows).mpr ⟨hjob, hdue⟩
  have hlt : outranking s now rows ws < (dueRows s now rows).length := by
    unfold outranking
    exact List.findIdx_lt_length_of_exists ⟨_, hmem, beq_iff_eq.mpr hws⟩
  rw [mem_workspacesOf, dueJobs_eq_take]
  constructor
  · rintro ⟨p, hp, hpws⟩
    obtain ⟨i, hi, rfl⟩ := List.mem_take_iff_getElem.mp hp
    have hle : outranking s now rows ws ≤ i := by
      unfold outranking
      by_contra hlt
      have hnot := List.not_of_lt_findIdx (Nat.lt_of_not_le hlt)
      simp [hpws] at hnot
    omega
  · intro hrank
    refine ⟨(dueRows s now rows)[outranking s now rows ws], ?_, ?_⟩
    · exact List.mem_take_iff_getElem.mpr ⟨_, by omega, rfl⟩
    · have hfound := List.findIdx_getElem (w := hlt)
      exact beq_iff_eq.mp hfound

/-! ## Which tenants are served -/

/-- A workspace is served exactly if it is fetched. -/
theorem serves_iff_fetched (hrows : rows.Perm (List.range s.jobs.length))
    (hbatch : (dueWorkspaces s now rows).length ≤ batchSize) {ws : WorkspaceId}
    (hlimit : 1 ≤ fairnessLimit cfg s ws) :
    Serves s (pollAndLease cfg s now batchSize rows) now ws
      ↔ ws ∈ workspacesOf (dueJobs s now batchSize rows) := by
  have hnodup : rows.Nodup := hrows.nodup_iff.mpr List.nodup_range
  obtain ⟨l, hsettled, hloop⟩ :=
    exists_settled_leasing (fairnessLimit cfg s) batchSize (dueJobs s now batchSize rows)
  have hids : l.leased.map Prod.fst = leasedJobs cfg s now batchSize rows := by
    have hlease : leaseCandidates (fairnessLimit cfg s) batchSize
        (dueJobs s now batchSize rows) (batchSize + 1) = some l.leased := by
      unfold leaseCandidates
      rw [hloop (batchSize + 1) (Nat.lt_succ_self _), Option.map_some]
    exact leaseCandidates_roundRobin cfg s hlease
  rw [pollAndLease_eq, ← hids]
  constructor
  · rintro ⟨jid, job, hjob, hws, hdue, hleased⟩
    -- a job that is not in the batch stays pending
    have hmem : jid ∈ l.leased.map Prod.fst := by
      by_contra hnot
      rw [updateJobs_row_of_notMem hnot, hjob] at hleased
      have hstatus := congrArg JobSchedule.status (Option.some.inj hleased)
      simp only [JobSchedule.due, Bool.and_eq_true, beq_iff_eq] at hdue
      rw [hdue.1] at hstatus
      cases hstatus
    rw [hids] at hmem
    obtain ⟨queue, hq, hj⟩ := List.mem_flatten.mp ((roundRobin_subperm _ _ _).subset hmem)
    obtain ⟨job', hcand⟩ := mem_workspaceQueues hq hj
    have hjob' := (mem_dueJobs hcand).1
    rw [hjob] at hjob'
    cases hjob'
    exact mem_workspacesOf.mpr ⟨_, hcand, hws⟩
  · intro hws
    have hqueue := mem_byWorkspace hws
    obtain ⟨p, hp, hpws⟩ := mem_workspacesOf.mp hws
    have hcap : 0 < cap (fairnessLimit cfg s) (ws,
        ofWorkspace ws (dueJobs s now batchSize rows)) := by
      have hown : p ∈ ofWorkspace ws (dueJobs s now batchSize rows) :=
        List.mem_filter.mpr ⟨hp, beq_iff_eq.mpr hpws⟩
      have hpos := List.length_pos_of_mem hown
      unfold cap
      simp only
      omega
    have hroom : (byWorkspace (dueJobs s now batchSize rows)).length ≤ batchSize := by
      have hsub : workspacesOf (dueJobs s now batchSize rows) ⊆ dueWorkspaces s now rows := by
        intro w hw
        obtain ⟨p, hp, hpw⟩ := mem_workspacesOf.mp hw
        exact mem_workspacesOf.mpr ⟨p, List.mem_of_mem_take hp, hpw⟩
      have hle := ((nodup_workspacesOf _).subperm hsub).length_le
      rw [byWorkspace_eq, List.length_map]
      omega
    have hserved := hsettled.served hroom hqueue hcap
    -- the first job of the workspace is in the batch
    have hcount := (hsettled.ofWorkspace_leased ws).2.2 hws
    have hbefore := (hsettled.ofWorkspace_leased ws).1
    obtain ⟨⟨jid, job⟩, hfirst⟩ := List.exists_mem_of_length_pos
      (hcount.symm ▸ hserved : 0 < (ofWorkspace ws l.leased).length)
    have hleased : jid ∈ l.leased.map Prod.fst :=
      List.mem_map.mpr ⟨_, (List.mem_filter.mp hfirst).1, rfl⟩
    rw [hbefore] at hfirst
    obtain ⟨hcand, hjobws⟩ := List.mem_filter.mp (List.mem_of_mem_take hfirst)
    obtain ⟨hjob, hdue⟩ := mem_dueJobs hcand
    refine ⟨jid, job, hjob, beq_iff_eq.mp hjobws, hdue, updateJobs_row ?_ hleased hjob⟩
    rw [hids]
    exact leasedJobs_nodup hnodup

/-- **Who is served in a tick.** With room for a job of every workspace, every workspace with due
work and a limit of at least one is served exactly if fewer than `3 * batch_size` due jobs outrank
the first job of each of them. -/
theorem tick_serves_iff (hrows : rows.Perm (List.range s.jobs.length))
    (hbatch : (dueWorkspaces s now rows).length ≤ batchSize) :
    (∀ ws, HasDueJob s now ws → 1 ≤ fairnessLimit cfg s ws →
      Serves s (pollAndLease cfg s now batchSize rows) now ws) ↔
    ∀ ws, HasDueJob s now ws → 1 ≤ fairnessLimit cfg s ws →
      outranking s now rows ws < batchSize * 3 := by
  -- a workspace is served exactly if one of its due jobs is fetched
  have hiff : ∀ ws, HasDueJob s now ws → 1 ≤ fairnessLimit cfg s ws →
      (Serves s (pollAndLease cfg s now batchSize rows) now ws ↔
        outranking s now rows ws < batchSize * 3) := by
    intro ws hdue hlimit
    rw [serves_iff_fetched hrows hbatch hlimit]
    exact fetched_iff hrows hdue
  constructor
  · exact fun h ws hdue hlimit => (hiff ws hdue hlimit).mp (h ws hdue hlimit)
  · exact fun h ws hdue hlimit => (hiff ws hdue hlimit).mpr (h ws hdue hlimit)

/-! ## A backlog -/

/-- A due job of the workspace. -/
def dueJob (ws : WorkspaceId) (runAfter : Instant) : JobSchedule where
  workspaceId := ws
  jobType := .stage
  refTable := "scripting"
  refId := .run ws
  runAfter := runAfter
  createdAt := 0

/-- Workspace 0 has `n` due jobs, and workspace 1 a later one. -/
def backlogDb (n : Nat) : Db where
  jobs := List.replicate n (dueJob 0 0) ++ [dueJob 1 1]

/-- A backlog of six jobs fills the query for a batch of two, and the other tenant gets nothing. -/
theorem backlog_starves_tenant :
    (dueWorkspaces (backlogDb 6) 2 (List.range 7)).length = 2 ∧
    HasDueJob (backlogDb 6) 2 1 ∧ 1 ≤ fairnessLimit deskConfig (backlogDb 6) 1 ∧
    ¬ Serves (backlogDb 6) (pollAndLease deskConfig (backlogDb 6) 2 2 (List.range 7)) 2 1 := by
  refine ⟨by decide +kernel, ⟨6, dueJob 1 1, rfl, rfl, rfl⟩, by decide +kernel, ?_⟩
  rintro ⟨jid, job, hjob, hws, _, hleased⟩
  have hlast : ((pollAndLease deskConfig (backlogDb 6) 2 2 (List.range 7)).jobs.filter
      fun j => j.workspaceId == 1) = [dueJob 1 1] := by decide +kernel
  have hmem : job.lease 2 ∈ (pollAndLease deskConfig (backlogDb 6) 2 2 (List.range 7)).jobs.filter
      fun j => j.workspaceId == 1 :=
    List.mem_filter.mpr ⟨List.mem_of_getElem? hleased, beq_iff_eq.mpr hws⟩
  rw [hlast, List.mem_singleton] at hmem
  have hstatus := congrArg JobSchedule.status hmem
  cases hstatus

/-- With five jobs in the backlog, the other tenant is served. -/
theorem backlog_leaves_room :
    Serves (backlogDb 5) (pollAndLease deskConfig (backlogDb 5) 2 2 (List.range 6)) 2 1 := by
  have hrows : (List.range 6).Perm (List.range (backlogDb 5).jobs.length) := .refl _
  have hdue : ∀ ws, HasDueJob (backlogDb 5) 2 ws → ws = 0 ∨ ws = 1 := by
    rintro ws ⟨jid, job, hjob, rfl, _⟩
    have hknown : ∀ j ∈ (backlogDb 5).jobs, j.workspaceId = 0 ∨ j.workspaceId = 1 := by
      decide +kernel
    exact hknown job (List.mem_of_getElem? hjob)
  have hserves : ∀ ws, HasDueJob (backlogDb 5) 2 ws →
      1 ≤ fairnessLimit deskConfig (backlogDb 5) ws →
      Serves (backlogDb 5) (pollAndLease deskConfig (backlogDb 5) 2 2 (List.range 6)) 2 ws := by
    refine (tick_serves_iff hrows (by decide +kernel)).mpr fun ws hws _ => ?_
    rcases hdue ws hws with rfl | rfl
    · decide +kernel
    · decide +kernel
  exact hserves 1 ⟨5, dueJob 1 1, rfl, rfl, rfl⟩ (by decide +kernel)

end HumanGate
