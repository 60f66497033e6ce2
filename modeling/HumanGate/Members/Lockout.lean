import HumanGate.Model.LocalAuth

set_option autoImplicit false

/-! # The brute-force bound

Ten wrong passwords within the window lock an account for as long as the window lasts. So between
two successes, no window of this length, wherever it starts, holds an eleventh guess. The first
guess of a window starts a count that no later one in it finds stale; the tenth locks the account to
the end of the window at least.
-/

namespace HumanGate

open Lib Lib.Calendar

variable {env : LoginEnv} {table : CredentialTable} {e : String} {start : Instant}

/-! ## One attempt -/

theorem find_update (table : CredentialTable) (email e : String) (f : CredentialWrite) :
    (table.update email f).find e
      = if e = email then (table.find e).map f.write else table.find e := by
  unfold CredentialTable.update CredentialTable.find
  simp only [List.find?_map]
  have hkey : (fun row : LocalAuthCredential => row.email == e) ∘
      (fun row => if row.email = email then f.write row else row) = fun row => row.email == e := by
    funext row
    simp only [Function.comp]
    split
    · rw [f.keepsEmail row]
    · rfl
  rw [hkey]
  cases hrow : table.rows.find? fun row => row.email == e with
  | none => simp
  | some row =>
      have hemail := List.find?_some hrow
      rw [beq_iff_eq] at hemail
      by_cases heq : e = email
      · simp [heq, hemail]
      · simp [heq, hemail]

/-- What an attempt does to the table: nothing, unless the account is known and not locked. -/
inductive LoginEnd (env : LoginEnv) (table : CredentialTable) (now : Instant) (e : String) :
    CredentialTable × LoginOutcome → Prop
  | refused {outcome : LoginOutcome} : outcome ≠ .wrongPassword →
      (∀ token, outcome ≠ .success token) → LoginEnd env table now e (table, outcome)
  | wrong {row : LocalAuthCredential} : table.find e = some row → row.isLocked now = false →
      LoginEnd env table now e (table.update e (failureWrite now), .wrongPassword)
  | success {row : LocalAuthCredential} {token : AuthToken} : table.find e = some row →
      row.isLocked now = false →
      LoginEnd env table now e (table.update e successWrite, .success token)

theorem login_ends (env : LoginEnv) (table : CredentialTable) (now : Instant)
    (email password : String) :
    LoginEnd env table now (env.normalize email) (login env table now email password) := by
  unfold login
  split
  · exact .refused (by simp) (by simp)
  · split
    · exact .refused (by simp) (by simp)
    · rename_i row hrow
      by_cases hlocked : row.isLocked now = true
      · rw [if_pos hlocked]
        exact .refused (by simp) (by simp)
      · rw [if_neg hlocked]
        have hfree := Bool.eq_false_iff.mpr hlocked
        split
        · exact .wrong hrow hfree
        · exact .success hrow hfree

theorem isLocked_false {now : Instant} {row : LocalAuthCredential} :
    row.isLocked now = false ↔ ∀ t ∈ row.lockedUntil, t ≤ now := by
  unfold LocalAuthCredential.isLocked
  cases row.lockedUntil with
  | none => simp
  | some t => simp

/-! ## The window -/

/-- The instant is in the window that begins at `start`: closed on the left, open on the right. -/
def inWindow (start t : Instant) : Bool :=
  decide (start ≤ t) && decide (t < start + seconds failureWindowSeconds)

theorem inWindow_iff {t : Instant} :
    inWindow start t = true ↔ start ≤ t ∧ t < start + seconds failureWindowSeconds := by
  simp [inWindow]

/-- The record is of an attempt at the account within the window. -/
def LoginRecord.falls (e : String) (start : Instant) (r : LoginRecord) : Bool :=
  r.email == e && inWindow start r.now

/-- The wrong passwords that were tried on the account within the window, apart from those that were
refused. -/
def guesses (e : String) (start : Instant) (log : List LoginRecord) : Nat :=
  log.countP fun r => r.falls e start && r.outcome == .wrongPassword

/-- No login to the account succeeds within the window. -/
def NoSuccess (e : String) (start : Instant) (log : List LoginRecord) : Prop :=
  ∀ r ∈ log, r.falls e start = true → ∀ token, r.outcome ≠ .success token

/-- What the row of an account tells after `n` guesses in the window, as long as the window
lasts. -/
structure Counted (start : Instant) (n : Nat) (clock : Instant) (row : LocalAuthCredential) :
    Prop where
  last : ∃ t, row.lastFailedAt = some t ∧ start ≤ t ∧ t ≤ clock
  counter : n ≤ row.failedAttempts
  lock : maxFailedAttempts ≤ n → ∃ t, row.lockedUntil = some t ∧
    start + seconds failureWindowSeconds ≤ t

/-- A guess in the window is the first one, or the one after those counted. -/
theorem Counted.guess {n : Nat} {clock now : Instant} {row : LocalAuthCredential}
    (hrow : 0 < n → Counted start n clock row) (hnow : inWindow start now = true)
    (hfree : row.isLocked now = false) :
    n + 1 ≤ maxFailedAttempts ∧ Counted start (n + 1) now (row.recordFailure now) := by
  obtain ⟨hstart, hend⟩ := inWindow_iff.mp hnow
  -- ten guesses lock the account to the end of the window
  have hroom : n + 1 ≤ maxFailedAttempts := by
    by_contra hfull
    have hten : maxFailedAttempts ≤ n := Nat.lt_succ_iff.mp (Nat.lt_of_not_le hfull)
    have hpos : 0 < n := Nat.lt_of_lt_of_le (by decide) hten
    obtain ⟨t, hlock, hle⟩ := (hrow hpos).lock hten
    exact absurd (isLocked_false.mp hfree t hlock) (Nat.not_le_of_lt (hend.trans_le hle))
  have hcount : n + 1 ≤ row.failures now := by
    unfold LocalAuthCredential.failures
    rcases Nat.eq_zero_or_pos n with hzero | hpos
    · rw [hzero]
      split
      · exact le_rfl
      · exact Nat.succ_le_succ (Nat.zero_le _)
    · -- the last failure is in the window too
      obtain ⟨t, hlast, hle, _⟩ := (hrow hpos).last
      have hfresh : row.isStale now = false := by
        unfold LocalAuthCredential.isStale
        rw [hlast, Option.all_some, decide_eq_false_iff_not, Nat.not_lt]
        exact Nat.sub_le_iff_le_add'.mpr (hend.le.trans (Nat.add_le_add_right hle _))
      rw [hfresh]
      exact Nat.succ_le_succ (hrow hpos).counter
  refine ⟨hroom, ⟨now, rfl, hstart, le_rfl⟩, hcount, fun hten => ?_⟩
  refine ⟨now + seconds lockoutSeconds, ?_, Nat.add_le_add_right hstart _⟩
  exact if_pos (hten.trans hcount)

theorem Counted.mono {n : Nat} {clock clock' : Instant} {row : LocalAuthCredential}
    (h : Counted start n clock row) (hle : clock ≤ clock') : Counted start n clock' row := by
  obtain ⟨t, hlast, hstart, hclock⟩ := h.last
  exact ⟨⟨t, hlast, hstart, hclock.trans hle⟩, h.counter, h.lock⟩

/-! ## Sequences of attempts -/

/-- The invariant: as long as the window lasts, the row counts the guesses in it; afterwards there
are no more. -/
def Guarded (e : String) (start : Instant) (p : LoginState × List LoginRecord) : Prop :=
  NoSuccess e start p.2 → guesses e start p.2 ≤ maxFailedAttempts ∧
    (p.1.clock < start + seconds failureWindowSeconds → 0 < guesses e start p.2 →
      ∃ row, p.1.table.find e = some row ∧ Counted start (guesses e start p.2) p.1.clock row)

theorem guesses_append (log log' : List LoginRecord) :
    guesses e start (log ++ log') = guesses e start log + guesses e start log' :=
  List.countP_append

/-- A record that is not of the account and the window counts for nothing. -/
theorem guesses_of_not_falls {r : LoginRecord} (h : r.falls e start = false) :
    guesses e start [r] = 0 := by
  unfold guesses
  rw [List.countP_singleton, h]
  rfl

theorem guarded_step {s : LoginState} {log : List LoginRecord} {a : LoginAttempt}
    (h : Guarded e start (s, log)) (hclock : s.clock ≤ a.now) :
    Guarded e start (loginExec env s a, log ++ loginRecord env s a) := by
  intro hno
  obtain ⟨hbound, hcounted⟩ := h fun r hr => hno r (List.mem_append_left _ hr)
  have hends := login_ends env s.table a.now a.email a.password
  unfold loginRecord at hno ⊢
  unfold loginExec
  generalize login env s.table a.now a.email a.password = r at hno hends ⊢
  generalize hrecord : LoginRecord.mk a.now (env.normalize a.email)
    ((s.table.find (env.normalize a.email)).bind LocalAuthCredential.lockedUntil) r.2
      = record at hno ⊢
  have hfalls : record.falls e start = (env.normalize a.email == e && inWindow start a.now) := by
    rw [← hrecord]
    rfl
  have houtcome : record.outcome = r.2 := by rw [← hrecord]
  simp only [guesses_append] at hbound hcounted ⊢
  -- before the end of the window, and after a guess, the attempt is in the window
  have hwithin : a.now < start + seconds failureWindowSeconds → 0 < guesses e start log →
      inWindow start a.now = true := by
    intro hend hpos
    obtain ⟨row, _, hrow⟩ := hcounted (hclock.trans_lt hend) hpos
    obtain ⟨t, _, hstart, ht⟩ := hrow.last
    exact inWindow_iff.mpr ⟨hstart.trans (ht.trans hclock), hend⟩
  cases hf : record.falls e start with
  | false =>
      rw [guesses_of_not_falls hf, Nat.add_zero]
      refine ⟨hbound, fun hend hpos => ?_⟩
      obtain ⟨row, hfind, hrow⟩ := hcounted (hclock.trans_lt hend) hpos
      have hother : ¬ e = env.normalize a.email := by
        intro heq
        rw [hfalls, ← heq, beq_self_eq_true, hwithin hend hpos] at hf
        cases hf
      refine ⟨row, ?_, hrow.mono hclock⟩
      cases hends with
      | refused => exact hfind
      | wrong => rw [find_update, if_neg hother, hfind]
      | success => rw [find_update, if_neg hother, hfind]
  | true =>
      have hno' := hno record (List.mem_append_right log List.mem_cons_self) hf
      rw [hfalls, Bool.and_eq_true, beq_iff_eq] at hf
      obtain ⟨hemail, hnow⟩ := hf
      cases hends with
      | refused hwrong _ =>
          have hzero : guesses e start [record] = 0 := by
            unfold guesses
            rw [List.countP_singleton, houtcome, beq_eq_false_iff_ne.mpr hwrong, Bool.and_false]
            rfl
          rw [hzero, Nat.add_zero]
          refine ⟨hbound, fun hend hpos => ?_⟩
          obtain ⟨row, hfind, hrow⟩ := hcounted (hclock.trans_lt hend) hpos
          exact ⟨row, hfind, hrow.mono hclock⟩
      | @wrong row hfind hfree =>
          have hone : guesses e start [record] = 1 := by
            unfold guesses
            rw [List.countP_singleton, houtcome, hfalls, hemail, hnow, beq_self_eq_true]
            rfl
          rw [hemail] at hfind
          have hrow : 0 < guesses e start log →
              Counted start (guesses e start log) s.clock row := by
            intro hpos
            obtain ⟨row', hfind', hrow'⟩ := hcounted (hclock.trans_lt (inWindow_iff.mp hnow).2) hpos
            rw [hfind] at hfind'
            cases hfind'
            exact hrow'
          obtain ⟨hroom, hnext⟩ := Counted.guess hrow hnow hfree
          rw [hone]
          refine ⟨hroom, fun _ _ => ⟨row.recordFailure a.now, ?_, hnext⟩⟩
          rw [find_update, hemail, if_pos rfl, hfind]
          rfl
      | success => exact absurd houtcome (hno' _)

/-- **The brute-force bound.** No attempt succeeds before the lock that it meets has expired. And in
every window of 900 seconds, closed on the left and open on the right, in which no login to an
account succeeds, at most ten wrong passwords are tried on it that are not refused because of the
lock. -/
theorem login_bound (env : LoginEnv) (p : LoginState × List LoginRecord)
    (h : ((logins env).logged (loginRecord env)).Reachable p) :
    (∀ r ∈ p.2, ∀ token, r.outcome = .success token → ∀ t ∈ r.lockedUntil, t ≤ r.now) ∧
    ∀ e start, NoSuccess e start p.2 → guesses e start p.2 ≤ 10 := by
  constructor
  · refine h.invariant (I := fun p : LoginState × List LoginRecord =>
      ∀ r ∈ p.2, ∀ token, r.outcome = .success token → ∀ t ∈ r.lockedUntil, t ≤ r.now) ?_ ?_
    · rintro ⟨s, log⟩ ⟨_, hlog⟩ r hr
      simp only at hlog hr
      rw [hlog] at hr
      cases hr
    · rintro ⟨s, log⟩ a hlog _ r hr token hsuccess
      -- a login that succeeds has found the account unlocked
      rcases List.mem_append.mp hr with hold | hnew
      · exact hlog r hold token hsuccess
      · rw [loginRecord, List.mem_singleton] at hnew
        subst hnew
        have hends := login_ends env s.table a.now a.email a.password
        simp only at hsuccess ⊢
        generalize login env s.table a.now a.email a.password = out at hends hsuccess
        cases hends with
        | refused _ hnot => exact absurd hsuccess (hnot token)
        | wrong => cases hsuccess
        | success hfind hfree =>
            rw [hfind]
            exact isLocked_false.mp hfree
  · intro e start hno
    -- every wrong guess of the window counts, and the tenth locks the account
    have hguarded : Guarded e start p := by
      refine h.invariant (I := Guarded e start) ?_ ?_
      · rintro ⟨s, log⟩ ⟨_, hlog⟩ _
        simp only at hlog ⊢
        rw [hlog]
        exact ⟨Nat.zero_le _, fun _ hpos => absurd hpos (Nat.lt_irrefl 0)⟩
      · rintro ⟨s, log⟩ a hs hallowed
        exact guarded_step hs hallowed
    exact (hguarded hno).1

/-- Passwords in the clear, and one account. -/
def clearEnv : LoginEnv := ⟨true, id, fun password hash => password == hash⟩

def oneAccount : LoginState where
  table := ⟨[{ userId := 0, email := "a", passwordHash := "p" }], List.nodup_singleton _⟩
  clock := 0

/-- Ten wrong passwords at once, then the right one, just before the lock expires and when it
does. -/
def lockedOutAttempts : List LoginAttempt :=
  List.replicate 10 ⟨0, "a", "q"⟩
    ++ [⟨seconds 900 - 1, "a", "p"⟩, ⟨seconds 900, "a", "p"⟩]

def lockedOutRun : LoginState × List LoginRecord :=
  lockedOutAttempts.foldl ((logins clearEnv).logged (loginRecord clearEnv)).exec (oneAccount, [])

/-- The right password is refused before the lock expires, and the window has its ten guesses. -/
theorem lock_refuses_right_password :
    (lockedOutRun.2.map fun r => r.outcome) = List.replicate 10 .wrongPassword
      ++ [.lockedOut, .success { userId := 0, email := "a" }] ∧
    guesses "a" 0 lockedOutRun.2 = 10 ∧ guesses "a" 0 lockedOutRun.2 ≤ 10 := by
  have hrun : ((logins clearEnv).logged (loginRecord clearEnv)).Reachable lockedOutRun := by
    refine System.Reachable.of_legal lockedOutAttempts (.init ⟨trivial, rfl⟩) ?_
    simp only [lockedOutAttempts, List.replicate, List.cons_append, List.nil_append]
    refine ⟨?_, ?_, ?_, ?_, ?_, ?_, ?_, ?_, ?_, ?_, ?_, ?_,
      trivial⟩ <;> exact Nat.le_of_ble_eq_true rfl
  refine ⟨by decide +kernel, by decide +kernel, (login_bound clearEnv lockedOutRun hrun).2 "a" 0 ?_⟩
  have hnone : ∀ r ∈ lockedOutRun.2, r.falls "a" 0 = true →
      r.outcome = .wrongPassword ∨ r.outcome = .lockedOut := by decide +kernel
  intro r hr hfalls token hsuccess
  rcases hnone r hr hfalls with hwrong | hlocked
  · rw [hsuccess] at hwrong
    cases hwrong
  · rw [hsuccess] at hlocked
    cases hlocked

end HumanGate
