import HumanGate.Lib.Calendar
import HumanGate.Lib.Words
import Mathlib.Logic.Function.Basic

set_option autoImplicit false

/-! # Ownership of the automation loops

`automation_leases` of `app/models/automation.py` and the calls of `app/automation.py` that read and
write its rows: `try_claim_automation_loop`, `renew_owned_automation_loop`,
`release_owned_automation_loops`, `_record_success` and `_record_error`. Each of them holds the lock
of the rows it writes until it commits, so a call is one step.
-/

namespace HumanGate

open Lib Lib.Calendar

/-- The id of an owner. `AutomationService` takes `_owner_id()` in place of an empty one, and that
contains an `@`. -/
structure OwnerId where
  text : String
  nonempty : text ≠ ""
  deriving DecidableEq

/-- A row of `automation_leases`. -/
structure AutomationLease where
  ownerId : Option OwnerId := none
  ownerStartedAt : Option Instant := none
  leaseExpiresAt : Option Instant := none
  lastHeartbeatAt : Option Instant := none
  lastOkAt : Option Instant := none
  lastError : Option String := none
  tickCount : Nat := 0
  workCount : Int := 0

/-- The table, by `loop_name`. -/
abbrev AutomationLeases := String → Option AutomationLease

/-- What `_record_error` is given: an exception, of which the name of the class is used, or a
text. -/
inductive LoopError where
  | exception (className : String)
  | text (message : String)

/-- `_sanitize_error`. -/
def sanitizeError : LoopError → String
  | .exception className => className
  | .text message =>
      let isSpace (c : Char) : Bool := Words.isUnicodeSpace c.toNat
      let cleaned := [' '].intercalate (Words.words isSpace message.toList)
      if cleaned = [] then "RuntimeError" else String.ofList (cleaned.take 200)

namespace AutomationLease

variable (row : AutomationLease) (owner : OwnerId) (now : Instant)

/-- `row.lease_expires_at is not None and row.lease_expires_at > now`. -/
def isLive : Bool :=
  match row.leaseExpiresAt with
  | some expires => decide (now < expires)
  | none => false

/-- The body of `try_claim_automation_loop`. Only a missing owner is falsy. -/
def tryClaim (leaseSeconds : Nat) : AutomationLease × Bool :=
  if row.ownerId ≠ none ∧ row.ownerId ≠ some owner ∧ row.isLive now = true then (row, false)
  else
    ({ row with
        ownerStartedAt := if row.ownerId ≠ some owner then some now else row.ownerStartedAt
        ownerId := some owner
        lastHeartbeatAt := some now
        leaseExpiresAt := some (now + seconds leaseSeconds) }, true)

/-- The body of `renew_owned_automation_loop`, with the test that it states the other way round. -/
def renew (leaseSeconds : Nat) : AutomationLease × Bool :=
  match row.leaseExpiresAt with
  | none => (row, false)
  | some expires =>
      if row.ownerId ≠ some owner ∨ expires ≤ now then (row, false)
      else
        ({ row with
            lastHeartbeatAt := some now
            leaseExpiresAt := some (now + seconds leaseSeconds) }, true)

/-- What `release_owned_automation_loops` does to a row. -/
def release : AutomationLease :=
  if row.ownerId = some owner ∧ row.isLive now = true then
    { row with
        ownerId := none
        ownerStartedAt := none
        leaseExpiresAt := none
        lastHeartbeatAt := some now }
  else row

/-- The body of `_record_success`. -/
def recordSuccess (leaseSeconds : Nat) (workCount : Int) : AutomationLease :=
  if row.ownerId = some owner ∧ row.isLive now = true then
    { row with
        lastHeartbeatAt := some now
        leaseExpiresAt := some (now + seconds leaseSeconds)
        lastOkAt := some now
        lastError := none
        tickCount := row.tickCount + 1
        workCount := row.workCount + workCount }
  else row

/-- The body of `_record_error`. -/
def recordError (leaseSeconds : Nat) (error : LoopError) : AutomationLease :=
  if row.ownerId = some owner ∧ row.isLive now = true then
    { row with
        lastHeartbeatAt := some now
        leaseExpiresAt := some (now + seconds leaseSeconds)
        lastError := some (sanitizeError error) }
  else row

end AutomationLease

/-- The arguments of a call, apart from the owner and the instant. -/
inductive LoopAction where
  | tryClaim (loopName : String) (leaseSeconds : Nat)
  | renew (loopName : String) (leaseSeconds : Nat)
  | release
  | recordSuccess (loopName : String) (leaseSeconds : Nat) (workCount : Int)
  | recordError (loopName : String) (leaseSeconds : Nat) (error : LoopError)

/-- The loop that a call names. A release names none: it is for all rows of its owner. -/
def LoopAction.loopName : LoopAction → Option String
  | .tryClaim name _ | .renew name _ | .recordSuccess name _ _ | .recordError name _ _ => some name
  | .release => none

structure LoopCall where
  now : Instant
  owner : OwnerId
  action : LoopAction

/-- What a call does to a row that it concerns, and the answer of the two calls that have one. -/
def LoopCall.onRow (c : LoopCall) (row : AutomationLease) : AutomationLease × Bool :=
  match c.action with
  | .tryClaim _ leaseSeconds => row.tryClaim c.owner c.now leaseSeconds
  | .renew _ leaseSeconds => row.renew c.owner c.now leaseSeconds
  | .release => (row.release c.owner c.now, true)
  | .recordSuccess _ leaseSeconds workCount =>
      (row.recordSuccess c.owner c.now leaseSeconds workCount, true)
  | .recordError _ leaseSeconds error => (row.recordError c.owner c.now leaseSeconds error, true)

/-- A call on the table, and its answer. A claim of a loop without a row raises and a renewal
answers `False`; a release updates the rows of all loops. -/
def LoopCall.run (c : LoopCall) (table : AutomationLeases) : AutomationLeases × Bool :=
  match c.action.loopName with
  | none => (fun name => (table name).map fun row => (c.onRow row).1, true)
  | some name =>
      match table name with
      | none => (table, false)
      | some row => (Function.update table name (some (c.onRow row).1), (c.onRow row).2)

end HumanGate
