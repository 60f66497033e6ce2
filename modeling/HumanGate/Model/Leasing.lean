import HumanGate.Model.Scheduler

set_option autoImplicit false

/-! # The leasing loop

The second half of `poll_and_lease` as it is written: the fetched jobs by workspace, a cursor for
each workspace, and two nested loops that share the batch.
-/

namespace HumanGate

/-- A fetched row of `job_schedule`. -/
abbrev Candidate := JobId × JobSchedule

/-- `by_workspace`, in the order of its insertions. -/
abbrev LeaseQueues := List (WorkspaceId × List Candidate)

/-- `by_workspace[job.workspace_id].append(job)`. -/
def appendCandidate (p : Candidate) : LeaseQueues → LeaseQueues
  | [] => [(p.2.workspaceId, [p])]
  | q :: rest =>
      if q.1 = p.2.workspaceId then (q.1, q.2 ++ [p]) :: rest else q :: appendCandidate p rest

def byWorkspace (candidates : List Candidate) : LeaseQueues :=
  candidates.foldl (fun queues p => appendCandidate p queues) []

/-- The variables of the loops. -/
structure Leasing where
  cursors : WorkspaceId → Nat := fun _ => 0
  leased : List Candidate := []

/-- The body of the inner loop, for a workspace whose turn it is. -/
def Leasing.lease (s : Leasing) (ws : WorkspaceId) (job : Candidate) : Leasing where
  cursors := Function.update s.cursors ws (s.cursors ws + 1)
  leased := s.leased ++ [job]

/-- `cursors[ws] < min(len(jobs), limits[ws])`. -/
def Leasing.HasMore (limits : WorkspaceId → Int) (s : Leasing)
    (q : WorkspaceId × List Candidate) : Prop :=
  (s.cursors q.1 : Int) < min (q.2.length : Int) (limits q.1)

instance (limits : WorkspaceId → Int) (s : Leasing) (q : WorkspaceId × List Candidate) :
    Decidable (s.HasMore limits q) :=
  inferInstanceAs (Decidable (_ < _))

theorem Leasing.HasMore.lt {limits : WorkspaceId → Int} {s : Leasing}
    {q : WorkspaceId × List Candidate} (h : s.HasMore limits q) : s.cursors q.1 < q.2.length := by
  unfold Leasing.HasMore at h
  omega

/-- The inner loop: one round over the workspaces, which ends early when the batch is full. -/
def leaseRound (limits : WorkspaceId → Int) (batchSize : Nat) : LeaseQueues → Leasing → Leasing
  | [], s => s
  | q :: rest, s =>
      if batchSize ≤ s.leased.length then s
      else if h : s.HasMore limits q then
        leaseRound limits batchSize rest (s.lease q.1 (q.2.get ⟨s.cursors q.1, h.lt⟩))
      else leaseRound limits batchSize rest s

/-- The outer loop, with a bound on its rounds. -/
def leaseLoop (limits : WorkspaceId → Int) (batchSize : Nat) (queues : LeaseQueues) :
    Nat → Leasing → Option Leasing
  | 0, _ => none
  | rounds + 1, s =>
      if s.leased.length < batchSize ∧ ∃ q ∈ queues, s.HasMore limits q then
        leaseLoop limits batchSize queues rounds (leaseRound limits batchSize queues s)
      else some s

/-- The jobs that are leased among the fetched ones. -/
def leaseCandidates (limits : WorkspaceId → Int) (batchSize : Nat) (candidates : List Candidate)
    (rounds : Nat) : Option (List Candidate) :=
  (leaseLoop limits batchSize (byWorkspace candidates) rounds {}).map Leasing.leased

end HumanGate
