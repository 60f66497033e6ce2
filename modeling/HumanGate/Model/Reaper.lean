import HumanGate.Model.Recovery

set_option autoImplicit false

/-! # The loop of the reaper

The loop of `reap_worker_assignments`, query by query: each query may return the rows of the worker
in an order of its own.
-/

namespace HumanGate

open Lib Lib.Calendar

/-- `scans` are the orders in which the queries find the rows; `none` if the loop goes on after
them. -/
def reapWorkerLoop (cfg : Config) (now : Instant) (wid : WorkerId) (reason : RecoveryReason)
    (detail : Option String) (limit : Nat) : List (List AssignmentId) → Db → Option (Except Err Db)
  | [], _ => none
  | rows :: scans, s =>
      match holdings s wid limit rows with
      | [] => some (.ok s)
      | aid :: batch =>
          match recoverEach cfg s now reason detail (aid :: batch) with
          | .error e => some (.error e)
          | .ok s' =>
              if (aid :: batch).length < limit then some (.ok s')
              else reapWorkerLoop cfg now wid reason detail limit scans s'

end HumanGate
