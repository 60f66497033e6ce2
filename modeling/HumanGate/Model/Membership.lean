import HumanGate.Lib.Interleaving
import HumanGate.Model.Outbox

set_option autoImplicit false

/-! # Memberships

`app/api/routes/memberships.py` for one workspace: `invite_member`, `update_member_role` and
`remove_member`, statement by statement under READ COMMITTED. A statement sees what is committed
when it starts. Only the rows of admins are locked when they are counted, and the row of the target
when it is written; a locked row makes others wait until the transaction ends. The policies of the
table (migrations 0021 to 0024) decide by the membership that the caller has when the statement
starts: a row that they hide is not locked, updated or deleted.

`db.delete` of a row that is not there any more is no error (`confirm_deleted_rows` is off), an
`UPDATE` of such a row is.
-/

namespace HumanGate

open Lib.Interleaving

abbrev MembershipId := Nat

/-- A row of `workspace_memberships`. -/
structure Membership where
  id : MembershipId
  userId : UserId
  role : WorkspaceRole
  deriving DecidableEq

/-- The memberships of the workspace, its creator, and which request has locked which row. -/
structure MembershipDb where
  members : List Membership
  createdBy : UserId
  nextId : MembershipId
  locks : MembershipId → Option Nat := fun _ => none

namespace MembershipDb

def member (s : MembershipDb) (user : UserId) : Option Membership :=
  s.members.find? fun m => m.userId == user

/-- `is_workspace_member`. -/
def isMember (s : MembershipDb) (user : UserId) : Bool := (s.member user).isSome

/-- `is_workspace_admin`. -/
def isAdmin (s : MembershipDb) (user : UserId) : Bool :=
  s.members.any fun m => m.userId == user && m.role == .admin

/-- The row of `user`, as a statement of `caller` sees it. -/
def visible (s : MembershipDb) (caller user : UserId) : Option Membership :=
  if s.isMember caller then s.member user else none

/-- The row is there, with the role of an admin. -/
def adminRow (s : MembershipDb) (id : MembershipId) : Bool :=
  s.members.any fun m => m.id == id && m.role == .admin

def hasRow (s : MembershipDb) (id : MembershipId) : Bool := s.members.any fun m => m.id == id

def adminIds (s : MembershipDb) : List MembershipId :=
  (s.members.filter fun m => m.role == .admin).map Membership.id

def lock (s : MembershipDb) (i : Nat) (id : MembershipId) : MembershipDb :=
  { s with locks := Function.update s.locks id (some i) }

/-- The request ends: its locks are released. -/
def release (s : MembershipDb) (i : Nat) : MembershipDb :=
  { s with locks := fun id => if s.locks id = some i then none else s.locks id }

def lockedByOther (s : MembershipDb) (i : Nat) (id : MembershipId) : Bool :=
  (s.locks id).any fun j => j != i

end MembershipDb

/-! ## Requests -/

inductive MemberRequest where
  | invite (user : UserId) (role : WorkspaceRole)
  | updateRole (user : UserId) (role : WorkspaceRole)
  | remove (user : UserId)
  deriving DecidableEq

def MemberRequest.user : MemberRequest → UserId
  | .invite user _ | .updateRole user _ | .remove user => user

/-- A change of the table, before it is committed. -/
inductive MemberWrite where
  | insert (user : UserId) (role : WorkspaceRole)
  | setRole (id : MembershipId) (role : WorkspaceRole)
  | delete (id : MembershipId)
  deriving DecidableEq

/-- An error that ends a request: one with a status code and a detail, or another. -/
inductive MemberError where
  | http (code : Nat) (detail : String)
  | other
  deriving DecidableEq

def MemberError.notAMember : MemberError := .http 403 "not a member"

def MemberError.notAMemberOfWorkspace : MemberError := .http 403 "not a member of this workspace"

def MemberError.requiresAdmin : MemberError := .http 403 "requires one of: admin"

def MemberError.memberNotFound : MemberError := .http 404 "member not found"

def MemberError.alreadyMember : MemberError :=
  .http 409 "user is already a member of this workspace"

def MemberError.lastAdmin : MemberError := .http 409 "workspace must retain at least one admin"

/-- How far a request is, by its last statement. `locked` are the rows of admins that the request
has counted. -/
inductive MemberStep where
  | begun
  /-- The caller's own membership was read, and the caller may go on. -/
  | authorized (caller : Membership)
  /-- The invited user has no membership. -/
  | vacant
  /-- The target was read, without a lock. -/
  | targeted (target : Membership)
  /-- `SELECT … FOR UPDATE` of the admins has started: `rows` are still to be locked. -/
  | counting (rows locked : List MembershipId)
  | counted (locked : List MembershipId)
  /-- The change of the target is the next statement. -/
  | decided (target : Membership) (locked : List MembershipId)
  /-- The `UPDATE` or `DELETE` has started. -/
  | writing (target : Membership) (locked : List MembershipId) (permitted : Bool)
  | flushed (write : Option MemberWrite) (locked : List MembershipId)
  | finished (error : Option MemberError)
  deriving DecidableEq

structure MemberTxn where
  caller : UserId
  request : MemberRequest
  step : MemberStep := .begun
  deriving DecidableEq

/-- The request goes on. -/
def MemberTxn.to (t : MemberTxn) (step : MemberStep) : MemberTxn := { t with step := step }

/-! ## Statements -/

/-- The guards of the routes. -/
def MemberTxn.authorize (t : MemberTxn) (m : Option Membership) : MemberStep :=
  match t.request, m with
  | .remove _, none => .finished (some .notAMember)
  | .remove user, some m =>
      -- members may leave: only the removal of others asks for an administrator
      if user ≠ t.caller ∧ m.role ≠ .admin then .finished (some .requiresAdmin) else .authorized m
  | _, none => .finished (some .notAMemberOfWorkspace)
  | _, some m => if m.role = .admin then .authorized m else .finished (some .requiresAdmin)

/-- The first read of the target. The session does not read the caller's own row again. -/
def MemberTxn.findTarget (t : MemberTxn) (s : MembershipDb) (caller : Membership) : MemberStep :=
  match t.request, s.visible t.caller t.request.user with
  | .invite .., some _ => .finished (some .alreadyMember)
  | .invite .., none => .vacant
  | _, none => .finished (some .memberNotFound)
  | _, some m => .targeted (if t.request.user = t.caller then caller else m)

/-- The target has to be guarded: it was read as an admin and will not be one. -/
def MemberRequest.endsAdmin : MemberRequest → Membership → Bool
  | .updateRole _ role, target => target.role == .admin && role != .admin
  | .remove _, target => target.role == .admin
  | .invite .., _ => false

/-- The rows that `_locked_admin_count` selects when it starts. -/
def MemberTxn.selectAdmins (t : MemberTxn) (s : MembershipDb) : List MembershipId :=
  if s.isAdmin t.caller then s.adminIds else []

/-- The target once more, and the decision of `_ensure_admin_mutation_keeps_an_admin`. -/
def MemberTxn.ensureAdmin (t : MemberTxn) (s : MembershipDb) (locked : List MembershipId) :
    MemberStep :=
  match s.visible t.caller t.request.user with
  | none => .finished (some .memberNotFound)
  | some m =>
      if m.role = .admin ∧ locked.length ≤ 1 then .finished (some .lastAdmin)
      else .decided m locked

/-- The policies of the table for the change of the target. -/
def MemberTxn.permitted (t : MemberTxn) (s : MembershipDb) (target : Membership) : Bool :=
  match t.request with
  | .remove _ => s.isAdmin t.caller || target.userId == t.caller
  | _ => s.isAdmin t.caller

/-- The change of the target. An `UPDATE` to the role that the session knows is not executed. -/
def MemberTxn.startWrite (t : MemberTxn) (s : MembershipDb) (target : Membership)
    (locked : List MembershipId) : MemberStep :=
  match t.request with
  | .updateRole _ role =>
      if role = target.role then .flushed none locked
      else .writing target locked (t.permitted s target)
  | _ => .writing target locked (t.permitted s target)

/-- The `INSERT` of an invitation, with the policy and the unique key of the table. -/
def MemberTxn.insert (t : MemberTxn) (s : MembershipDb) : MemberStep :=
  match t.request with
  | .invite user role =>
      -- the creator of an empty workspace makes itself its first administrator
      let seeds := user == t.caller && role == .admin && t.caller == s.createdBy &&
        s.members.isEmpty
      if (s.isAdmin t.caller || seeds) && (s.member user).isNone then
        .flushed (some (.insert user role)) []
      else .finished (some .other)
  | _ => .finished (some .other)

/-- The change that a request makes to a row that it has found. An invitation has its own. -/
def MemberRequest.write : MemberRequest → MembershipId → MemberWrite
  | .updateRole _ role, id => .setRole id role
  | .remove _, id => .delete id
  | .invite user role, _ => .insert user role

/-- The `UPDATE` or `DELETE` of a row that it has not found. -/
def MemberRequest.missed : MemberRequest → List MembershipId → MemberStep
  | .remove _, locked => .flushed none locked
  | _, _ => .finished (some .other)

def MemberWrite.apply (s : MembershipDb) : MemberWrite → MembershipDb
  | .insert user role =>
      { s with members := s.members ++ [⟨s.nextId, user, role⟩], nextId := s.nextId + 1 }
  | .setRole id role =>
      { s with members := s.members.map fun m => if m.id = id then { m with role := role } else m }
  | .delete id => { s with members := s.members.filter fun m => m.id != id }

/-- The next statement: what is committed and locked after it, and where the request is. -/
def MemberTxn.advance (s : MembershipDb) (i : Nat) (t : MemberTxn) : MembershipDb × MemberStep :=
  match t.step with
  | .begun => (s, t.authorize (s.member t.caller))
  | .authorized caller => (s, t.findTarget s caller)
  | .vacant => (s, t.insert s)
  | .targeted target =>
      -- the role that decides here was read before any lock
      if t.request.endsAdmin target then (s, .counting (t.selectAdmins s) [])
      else (s, .decided target [])
  | .counting [] locked => (s, .counted locked)
  | .counting (id :: rows) locked =>
      -- a row that is no admin any more when the lock is there is left out
      if s.adminRow id then (s.lock i id, .counting rows (locked ++ [id]))
      else (s, .counting rows locked)
  | .counted locked => (s, t.ensureAdmin s locked)
  | .decided target locked => (s, t.startWrite s target locked)
  | .writing target locked permitted =>
      if permitted && s.hasRow target.id then
        (s.lock i target.id, .flushed (some (t.request.write target.id)) locked)
      else (s, t.request.missed locked)
  | .flushed none _ => (s, .finished none)
  | .flushed (some w) _ => (w.apply s, .finished none)
  | .finished error => (s, .finished error)

/-- A request that ends releases its locks. -/
def MemberTxn.next (s : MembershipDb) (i : Nat) (t : MemberTxn) : Fate → MembershipDb × MemberTxn
  | .abort =>
      match t.step with
      | .finished _ => (s, t)
      | _ => (s.release i, t.to (.finished (some .other)))
  | .go =>
      match t.advance s i with
      | (s', .finished error) => (s'.release i, t.to (.finished error))
      | (s', step) => (s', t.to step)

/-! ## Waiting -/

/-- Another request has inserted the user and has not ended. -/
def MemberTxn.inserts (u : MemberTxn) (user : UserId) : Bool :=
  match u.step with
  | .flushed (some (.insert user' _)) _ => user' == user
  | _ => false

/-- The next statement has to wait. -/
def MemberTxn.waits (s : MembershipDb) (ts : List MemberTxn) (i : Nat) (t : MemberTxn) : Bool :=
  match t.step with
  | .vacant => (ts.eraseIdx i).any fun u => u.inserts t.request.user
  | .counting (id :: _) _ => s.lockedByOther i id
  | .writing target _ permitted => permitted && s.lockedByOther i target.id
  | _ => false

def memberReady (s : MembershipDb) (ts : List MemberTxn) (i : Nat) : Fate → Prop
  | .abort => True
  | .go => ∀ t ∈ ts[i]?, t.waits s ts i = false

instance decMemberReady (s : MembershipDb) (ts : List MemberTxn) (i : Nat) :
    (c : Fate) → Decidable (memberReady s ts i c)
  | .abort => isTrue trivial
  | .go => inferInstanceAs (Decidable (∀ t ∈ ts[i]?, t.waits s ts i = false))

/-- Any number of requests for the memberships of the workspace at once. -/
def memberships : Program MembershipDb MemberTxn Fate where
  starts _ t := t.step = .begun
  ready := memberReady
  next := MemberTxn.next

instance (s : MembershipDb) (t : MemberTxn) : Decidable (memberships.starts s t) :=
  inferInstanceAs (Decidable (t.step = .begun))

instance (s : MembershipDb) (ts : List MemberTxn) (i : Nat) (c : Fate) :
    Decidable (memberships.ready s ts i c) :=
  decMemberReady s ts i c

end HumanGate
