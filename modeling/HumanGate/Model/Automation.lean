import HumanGate.Lib.Batch
import HumanGate.Model.Operations

set_option autoImplicit false

/-! # The scheduler loop

`_scheduler_tick` of `app/automation.py`: lease due jobs, carry out each of them, return the
leases that ran out, all in one transaction. An exception rolls the transaction back and is
raised again; the loop around the tick records it and goes on with the next tick.
-/

namespace HumanGate

open Lib Lib.Calendar

/-- What the code does not decide when it carries out a job: how far into the tick it is, the
order in which the workers are scanned, and the random draw. -/
structure JobDraw where
  delay : Nat := 0
  workers : List WorkerId := []
  jitter : Nat := 0

/-- One call of `_scheduler_tick`. `rows` and `reapRows` are the jobs as its two queries scan
them, without those that another transaction has locked; a scan returns a row once. -/
structure SchedulerTick where
  now : Instant
  batchSize : Nat
  rows : List JobId
  draw : JobId → JobDraw
  reapDelay : Nat
  reapRows : List JobId
  rows_nodup : rows.Nodup

/-- The jobs that `poll_and_lease` returns. -/
def leasedJobs (cfg : Config) (s : Db) (now : Instant) (batchSize : Nat) (rows : List JobId) :
    List JobId :=
  let candidates := dueJobs s now batchSize rows
  roundRobin candidates.length (workspaceQueues cfg s candidates) batchSize

theorem pollAndLease_eq (cfg : Config) (s : Db) (now : Instant) (batchSize : Nat)
    (rows : List JobId) : pollAndLease cfg s now batchSize rows
      = updateJobs s (JobSchedule.lease now) (leasedJobs cfg s now batchSize rows) := rfl

def schedulerReapBatchSize : Nat := 100

namespace SchedulerTick

variable (cfg : Config) (s : Db) (t : SchedulerTick)

/-- The body of the loop. -/
def process (s : Db) (jid : JobId) : Except Err Db :=
  processLeasedJob cfg s (t.now + (t.draw jid).delay) jid (t.draw jid).workers (t.draw jid).jitter

def leased : List JobId := leasedJobs cfg s t.now t.batchSize t.rows

def polled : Db := pollAndLease cfg s t.now t.batchSize t.rows

/-- The tick, with `batch` as the jobs its loop goes through. The query of
`reap_expired_leases` sees the jobs as the loop left them; for the jobs of the batch itself
that takes a tick that is over before their leases run out. -/
def runBatch (batch : List JobId) : Except Err Db :=
  match Batch.all (t.process cfg) (t.polled cfg s) batch with
  | .error e => .error e
  | .ok s1 =>
      .ok (reapExpiredJobLeases s1 (t.now + t.reapDelay) schedulerReapBatchSize t.reapRows)

end SchedulerTick

/-- `_scheduler_tick`. -/
def schedulerTick (cfg : Config) (s : Db) (t : SchedulerTick) : Except Err Db :=
  t.runBatch cfg s (t.leased cfg s)

/-- The database after the tick: committed, or rolled back. -/
def tickExec (cfg : Config) (s : Db) (t : SchedulerTick) : Db :=
  (Call.ofExcept s (schedulerTick cfg s t)).commit s

end HumanGate
