import HumanGate.Lib.Calendar
import HumanGate.Lib.System
import HumanGate.Model.Data

set_option autoImplicit false

/-! # Local login

`app/services/local_auth.py`: the login of an account that has a password, and the brute-force
controls on its row. The row is locked from the query to the commit, so the logins of one account
run one after the other, and the route commits whatever the outcome is.
-/

namespace HumanGate

open Lib Lib.Calendar

def maxFailedAttempts : Nat := 10

def lockoutSeconds : Nat := 900

def failureWindowSeconds : Nat := 900

/-! ## Credentials -/

structure LocalAuthCredential where
  userId : UserId
  email : String
  passwordHash : String
  failedAttempts : Nat := 0
  lastFailedAt : Option Instant := none
  lockedUntil : Option Instant := none

/-- `local_auth_credentials`: the email is unique. -/
structure CredentialTable where
  rows : List LocalAuthCredential
  unique : (rows.map LocalAuthCredential.email).Nodup

def CredentialTable.find (table : CredentialTable) (email : String) : Option LocalAuthCredential :=
  table.rows.find? fun row => row.email == email

def LocalAuthCredential.isLocked (now : Instant) (row : LocalAuthCredential) : Bool :=
  row.lockedUntil.any fun t => decide (now < t)

/-- The last failure is more than the window ago, or there is none. -/
def LocalAuthCredential.isStale (now : Instant) (row : LocalAuthCredential) : Bool :=
  row.lastFailedAt.all fun t => decide (seconds failureWindowSeconds < now - t)

def LocalAuthCredential.failures (now : Instant) (row : LocalAuthCredential) : Nat :=
  if row.isStale now then 1 else row.failedAttempts + 1

/-- A wrong password. -/
def LocalAuthCredential.recordFailure (now : Instant) (row : LocalAuthCredential) :
    LocalAuthCredential :=
  { row with
    failedAttempts := row.failures now
    lastFailedAt := some now
    lockedUntil :=
      if maxFailedAttempts ≤ row.failures now then some (now + seconds lockoutSeconds)
      else row.lockedUntil }

/-- A success clears the counter and any expired lock. -/
def LocalAuthCredential.clearFailures (row : LocalAuthCredential) : LocalAuthCredential :=
  { row with failedAttempts := 0, lastFailedAt := none, lockedUntil := none }

/-- A write that keeps the email. -/
structure CredentialWrite where
  write : LocalAuthCredential → LocalAuthCredential
  keepsEmail : ∀ row, (write row).email = row.email

def failureWrite (now : Instant) : CredentialWrite := ⟨.recordFailure now, fun _ => rfl⟩

def successWrite : CredentialWrite := ⟨.clearFailures, fun _ => rfl⟩

/-- Write the row of an account. -/
def CredentialTable.update (table : CredentialTable) (email : String) (f : CredentialWrite) :
    CredentialTable where
  rows := table.rows.map fun row => if row.email = email then f.write row else row
  unique := by
    have hemails : (table.rows.map fun row => if row.email = email then f.write row else row).map
        LocalAuthCredential.email = table.rows.map LocalAuthCredential.email := by
      rw [List.map_map]
      refine List.map_congr_left fun row _ => ?_
      simp only [Function.comp]
      split
      · exact f.keepsEmail row
      · rfl
    rw [hemails]
    exact table.unique

/-! ## Login -/

structure AuthError where
  code : String
  message : String
  deriving DecidableEq

/-- What the caller gets, but for the signed token itself. -/
structure AuthToken where
  tokenType : String := "bearer"
  expiresIn : Nat := 3600
  userId : UserId
  email : String
  deriving DecidableEq

/-- Where a login ends. -/
inductive LoginOutcome where
  | disabled | unknownAccount | lockedOut | wrongPassword
  | success (token : AuthToken)
  deriving DecidableEq

/-- What the caller is told: an unknown account, a locked one and a wrong password look the same. -/
def LoginOutcome.answer : LoginOutcome → Except AuthError AuthToken
  | .disabled => .error ⟨"auth_disabled", "local login is disabled when AUTH_MODE!=local"⟩
  | .unknownAccount | .lockedOut | .wrongPassword =>
      .error ⟨"invalid_credentials", "invalid email or password"⟩
  | .success token => .ok token

/-- The mode, the normal form `email.strip().lower()`, and `verify_password`. -/
structure LoginEnv where
  localMode : Bool
  normalize : String → String
  verifyPassword : String → String → Bool

def login (env : LoginEnv) (table : CredentialTable) (now : Instant) (email password : String) :
    CredentialTable × LoginOutcome :=
  if !env.localMode then (table, .disabled)
  else
    match table.find (env.normalize email) with
    | none => (table, .unknownAccount)
    | some row =>
        if row.isLocked now then (table, .lockedOut)
        else if !env.verifyPassword password row.passwordHash then
          (table.update (env.normalize email) (failureWrite now), .wrongPassword)
        else
          (table.update (env.normalize email) successWrite,
            .success { userId := row.userId, email := row.email })

/-! ## Sequences of attempts -/

structure LoginAttempt where
  now : Instant
  email : String
  password : String

structure LoginState where
  table : CredentialTable
  clock : Instant

/-- A line of the log: the account, and the lock that the attempt met. -/
structure LoginRecord where
  now : Instant
  email : String
  lockedUntil : Option Instant
  outcome : LoginOutcome

def loginExec (env : LoginEnv) (s : LoginState) (a : LoginAttempt) : LoginState :=
  { table := (login env s.table a.now a.email a.password).1
    clock := a.now }

def loginRecord (env : LoginEnv) (s : LoginState) (a : LoginAttempt) : List LoginRecord :=
  [{ now := a.now
     email := env.normalize a.email
     lockedUntil := (s.table.find (env.normalize a.email)).bind LocalAuthCredential.lockedUntil
     outcome := (login env s.table a.now a.email a.password).2 }]

/-- Attempts at all accounts, one after the other, on a clock that does not go back; from any
table of credentials. -/
def logins (env : LoginEnv) : System LoginState LoginAttempt where
  init _ := True
  allowed s a := s.clock ≤ a.now
  exec := loginExec env

end HumanGate
