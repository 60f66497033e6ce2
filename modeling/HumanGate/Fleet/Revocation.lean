import HumanGate.Fleet.OffDuty
import HumanGate.Run.Routing
import HumanGate.Model.Gateway
import HumanGate.Model.Desk

set_option autoImplicit false

/-! # Revocation

A credential is read when a request arrives, and the handler runs later. Claim, acknowledge, renew
and submit look at the credential once more, under its lock, and are refused after a revocation.
Register, heartbeat and deregister do not: a request that was let in before the revocation puts the
worker back on duty after it (`revoked_worker_returns`).

`revocation_holds` is about all interleavings in which these three do not run for a worker whose
credentials are all revoked: such a worker is off duty and nothing is given to it, until it gets a
new credential. What carries it is that nothing but a registration and a heartbeat brings a worker
on duty (`StaysOff`).
-/

namespace HumanGate

open Lib Lib.Calendar Lib.Interleaving Relation

variable {cfg : Config} {now : Instant}

/-! ## Revoked workers -/

/-- The worker has had credentials, and all of them are revoked. -/
def Fleet.Revoked (f : Fleet) (wid : WorkerId) : Prop :=
  (∃ c ∈ f.credentials, c.workerId = wid) ∧
    ∀ c ∈ f.credentials, c.workerId = wid → c.status = .revoked

instance decRevoked (f : Fleet) (wid : WorkerId) : Decidable (f.Revoked wid) :=
  inferInstanceAs (Decidable (_ ∧ _))

/-- A worker that has deregistered is off duty, and so is one whose credentials are revoked. -/
structure Fleet.Guarded (f : Fleet) : Prop where
  dormant : ∀ (wid : WorkerId) (w : WorkerRegistration), f.db.workers[wid]? = some w →
    w.deregisteredAt.isSome = true → w.status = .offline
  revoked : ∀ (wid : WorkerId) (w : WorkerRegistration), f.db.workers[wid]? = some w →
    f.Revoked wid → w.status = .offline

theorem Fleet.Guarded.of_staysOff {f f' : Fleet} (h : f.Guarded)
    (hcrew : f.db.crew.StaysOff f'.db.crew) (hrev : ∀ wid, f'.Revoked wid → f.Revoked wid) :
    f'.Guarded where
  dormant wid w' hw' hgone := by
    obtain ⟨w, hw, hoff⟩ := hcrew wid w' hw'
    rw [hoff.deregistered] at hgone
    exact hoff.offline (h.dormant wid w hw hgone)
  revoked wid w' hw' hrev' := by
    obtain ⟨w, hw, hoff⟩ := hcrew wid w' hw'
    exact hoff.offline (h.revoked wid w hw (hrev wid hrev'))

/-- The registration of a worker with a credential that is not revoked changes. -/
theorem Fleet.Guarded.update {f : Fleet} (h : f.Guarded) {wid : WorkerId}
    (g : WorkerRegistration → WorkerRegistration) (hlive : ¬ f.Revoked wid)
    (hg : ∀ w, f.db.workers[wid]? = some w → (g w).deregisteredAt.isSome = true →
      (g w).status = .offline) : (f.updateWorker wid g).Guarded where
  dormant wid' w' hw' hgone := by
    obtain ⟨w, hw, ⟨rfl, rfl⟩ | ⟨_, rfl⟩⟩ := Table.get_modify hw'
    · exact hg w hw hgone
    · exact h.dormant wid' w' hw hgone
  revoked wid' w' hw' hrev := by
    obtain ⟨w, hw, ⟨rfl, rfl⟩ | ⟨_, rfl⟩⟩ := Table.get_modify hw'
    · exact absurd hrev hlive
    · exact h.revoked wid' w' hw hrev

/-! ## Revoking -/

theorem revokeWhere_mem {p : WorkerCredential → Bool} {cs : List WorkerCredential}
    {c' : WorkerCredential} (h : c' ∈ revokeWhere p cs) :
    ∃ c ∈ cs, c'.workerId = c.workerId ∧
      ((p c = true ∧ c'.status = .revoked) ∨ (c' = c ∧ (p c = true → c.status = .revoked))) := by
  obtain ⟨c, hc, rfl⟩ := List.mem_map.mp h
  refine ⟨c, hc, ?_⟩
  by_cases hp : (p c && c.status == .active) = true
  · rw [if_pos hp]
    rw [Bool.and_eq_true] at hp
    exact ⟨rfl, .inl ⟨hp.1, rfl⟩⟩
  · rw [if_neg hp]
    refine ⟨rfl, .inr ⟨rfl, fun hpc => ?_⟩⟩
    cases hst : c.status with
    | revoked => rfl
    | active => simp [hpc, hst] at hp

theorem mem_revokeWhere {p : WorkerCredential → Bool} {cs : List WorkerCredential}
    {c : WorkerCredential} (h : c ∈ cs) :
    ∃ c' ∈ revokeWhere p cs, c'.workerId = c.workerId ∧ (p c = false → c' = c) := by
  refine ⟨_, List.mem_map.mpr ⟨c, h, rfl⟩, ?_, fun hp => by simp [hp]⟩
  split <;> rfl

/-- What is revoked stays revoked. -/
theorem revoked_revokeWhere {f : Fleet} (f' : Fleet) {p : WorkerCredential → Bool}
    (hcred : f'.credentials = revokeWhere p f.credentials) {wid : WorkerId} (h : f.Revoked wid) :
    f'.Revoked wid := by
  obtain ⟨⟨c, hc, hwid⟩, hall⟩ := h
  obtain ⟨c', hc', hwid', _⟩ := mem_revokeWhere (p := p) hc
  refine ⟨⟨c', by rw [hcred]; exact hc', hwid'.trans hwid⟩, fun d' hd' hd'wid => ?_⟩
  rw [hcred] at hd'
  obtain ⟨d, hd, hdwid, ⟨_, hst⟩ | ⟨rfl, _⟩⟩ := revokeWhere_mem hd'
  · exact hst
  · exact hall d' hd hd'wid

/-- Only the credentials of `wid` are revoked. -/
theorem revoked_of_revokeWhere {f f' : Fleet} {p : WorkerCredential → Bool} {wid wid' : WorkerId}
    (hcred : f'.credentials = revokeWhere p f.credentials)
    (hp : ∀ c, p c = true → c.workerId = wid) (hne : wid' ≠ wid) (h : f'.Revoked wid') :
    f.Revoked wid' := by
  obtain ⟨⟨c', hc', hwid'⟩, hall⟩ := h
  rw [hcred] at hc' hall
  obtain ⟨c, hc, hsame, _⟩ := revokeWhere_mem hc'
  refine ⟨⟨c, hc, hsame ▸ hwid'⟩, fun d hd hdwid => ?_⟩
  obtain ⟨d', hd', hdwid', hkeep⟩ := mem_revokeWhere (p := p) hd
  have hpd : p d = false := by
    by_contra hpd
    exact hne (hdwid.symm.trans (hp d (by simpa using hpd)))
  have hst := hall d' hd' (hdwid'.trans hdwid)
  rw [hkeep hpd] at hst
  exact hst

/-- **The kill switch**: the credentials of a worker are revoked, and it goes off duty. -/
theorem Fleet.Guarded.kill {f f' : Fleet} (h : f.Guarded) {wid : WorkerId}
    {p : WorkerCredential → Bool} (hp : ∀ c, p c = true → c.workerId = wid)
    (hcred : f'.credentials = revokeWhere p f.credentials)
    (hcrew : f.db.crew.StaysOff f'.db.crew)
    (hoff : ∀ w, f'.db.workers[wid]? = some w → w.status = .offline) : f'.Guarded where
  dormant wid' w' hw' hgone := by
    obtain ⟨w, hw, hstays⟩ := hcrew wid' w' hw'
    rw [hstays.deregistered] at hgone
    exact hstays.offline (h.dormant wid' w hw hgone)
  revoked wid' w' hw' hrev := by
    by_cases hwid : wid' = wid
    · subst hwid
      exact hoff w' hw'
    · obtain ⟨w, hw, hstays⟩ := hcrew wid' w' hw'
      exact hstays.offline (h.revoked wid' w hw (revoked_of_revokeWhere hcred hp hwid hrev))

theorem reapHoldings_staysOff {f f' : Fleet} {wid : WorkerId} {reason : RecoveryReason}
    {rows : List AssignmentId} (h : reapHoldings cfg f now wid reason rows = .ok f') :
    f.db.crew.StaysOff f'.db.crew ∧ f'.credentials = f.credentials := by
  unfold reapHoldings at h
  split at h
  · cases h
  · rename_i s hs
    cases h
    exact ⟨(reapWorkerBatches_moves _ hs).staysOff (by simp) (by simp), rfl⟩

/-- Reaped and sent off duty. -/
theorem offline_staysOff {f f' : Fleet} (wid : WorkerId)
    (g : WorkerRegistration → WorkerRegistration) (h : f.db.crew.StaysOff f'.db.crew)
    (hg : ∀ w, (g w).status = .offline ∧ (g w).deregisteredAt = w.deregisteredAt) :
    f.db.crew.StaysOff (f'.updateWorker wid g).db.crew ∧
      ∀ w, (f'.updateWorker wid g).db.workers[wid]? = some w → w.status = .offline := by
  refine ⟨h.trans (Crew.staysOff_slot (some wid) g fun _ w _ _ => ⟨fun _ => (hg w).1, (hg w).2⟩),
    fun w hw => ?_⟩
  obtain ⟨w₀, _, ⟨_, rfl⟩ | ⟨hne, _⟩⟩ := Table.get_modify hw
  · exact (hg w₀).1
  · exact absurd rfl hne

theorem revokeWorkerCredentials_guarded {f f' : Fleet} {ws : WorkspaceId} {wid : WorkerId}
    {rows : List AssignmentId} (hf : f.Guarded)
    (h : revokeWorkerCredentials cfg f now ws wid rows = .ok f') :
    f'.Guarded ∧ f'.credentials = revokeWhere (fun c => c.workerId == wid) f.credentials := by
  unfold revokeWorkerCredentials at h
  split at h
  · cases h
  · rename_i w hw
    split at h
    · cases h
    · simp only at h
      split at h
      · cases h
      · rename_i f1 hreap
        obtain ⟨hcrew, hcred⟩ := reapHoldings_staysOff hreap
        have hp : ∀ c : WorkerCredential, (c.workerId == wid) = true → c.workerId = wid :=
          fun c hc => beq_iff_eq.mp hc
        split at h
        · cases h
          obtain ⟨hcrew', hoff⟩ :=
            offline_staysOff wid WorkerRegistration.goOffline hcrew fun w => ⟨rfl, rfl⟩
          exact ⟨hf.kill hp hcred hcrew' hoff, hcred⟩
        · rename_i hgone
          cases h
          refine ⟨hf.kill hp hcred hcrew fun w' hw' => ?_, hcred⟩
          -- it has deregistered, so it was off duty before
          obtain ⟨w₀, hw₀, hstays⟩ := hcrew wid w' hw'
          have heq : some w₀ = some w := hw₀.symm.trans hw
          cases heq
          exact hstays.offline
            (hf.dormant wid w hw (Option.isSome_iff_ne_none.mpr (by simpa using hgone)))

theorem stopEach_guarded {ws : WorkspaceId} {rows : List AssignmentId} (workers : List WorkerId) :
    ∀ {f f' : Fleet}, f.Guarded → stopEach cfg now ws rows workers f = .ok f' →
      f'.Guarded ∧ ∀ wid, f.Revoked wid → f'.Revoked wid := by
  induction workers with
  | nil =>
      intro f f' hf h
      cases h
      exact ⟨hf, fun _ hrev => hrev⟩
  | cons wid rest ih =>
      intro f f' hf h
      unfold stopEach at h
      simp only at h
      split at h
      · cases h
      · rename_i f1 hreap
        obtain ⟨hcrew, hcred⟩ := reapHoldings_staysOff hreap
        obtain ⟨hcrew', hoff⟩ :=
          offline_staysOff wid WorkerRegistration.stop hcrew fun w => ⟨rfl, rfl⟩
        have hkill : (f1.updateWorker wid WorkerRegistration.stop).Guarded :=
          hf.kill (fun c hc => by simp only [Bool.and_eq_true, beq_iff_eq] at hc; exact hc.1)
            hcred hcrew' hoff
        obtain ⟨hf', hrev⟩ := ih hkill h
        refine ⟨hf', fun wid' hrev' => hrev wid' ?_⟩
        exact revoked_revokeWhere (f1.updateWorker wid WorkerRegistration.stop) hcred hrev'

/-! ## Handlers -/

/-- The handler does not look at the credential again, and what it does look at is in order. -/
def MachineRequest.unguarded (cfg : Config) (f : Fleet) (wid : WorkerId) : MachineRequest → Bool
  | .register payload _ =>
      decide (payload.protocolVersion ∈ cfg.settings.workerCapabilityProtocolVersions)
        && (f.db.workers[wid]?).isSome
  | .heartbeat status currentLoad =>
      decide (status ≠ .offline) && (f.db.workers[wid]?).any fun w =>
        w.deregisteredAt.isNone && decide (currentLoad ≤ w.maxConcurrency)
  | .deregister _ => (f.db.workers[wid]?).any fun w => w.deregisteredAt.isNone
  | _ => false

/-- What a handler does: nothing; or it has found the credential active; or, without a look at the
credential, it changes the worker's registration. -/
inductive Handled (cfg : Config) (now : Instant) (f : Fleet) (auth : AuthenticatedWorker)
    (request : MachineRequest) : Fleet → Prop
  | nothing : request.unguarded cfg f auth.workerId = false → Handled cfg now f auth request f
  | checked {f' : Fleet} : credentialRefusal f now auth = none →
      f.db.crew.StaysOff f'.db.crew → f'.credentials = f.credentials →
      Handled cfg now f auth request f'
  | unchecked {f' : Fleet} (g : WorkerRegistration → WorkerRegistration) :
      request.unguarded cfg f auth.workerId = true → f.db.crew.StaysOff f'.db.crew →
      f'.credentials = f.credentials →
      (∀ w, f'.db.workers[auth.workerId]? = some w → (g w).deregisteredAt.isSome = true →
        (g w).status = .offline) →
      (∀ w, f'.db.workers[auth.workerId]? = some w →
        (g w).status ≠ .offline ∨ (g w).deregisteredAt ≠ w.deregisteredAt) →
      Handled cfg now f auth request (f'.updateWorker auth.workerId g)

theorem registerWorker_handled {f f' : Fleet} {auth : AuthenticatedWorker}
    {payload : WorkerRegisterIn} {rows : List AssignmentId}
    (h : registerWorker cfg f now auth payload rows = .ok f') :
    Handled cfg now f auth (.register payload rows) f' := by
  unfold registerWorker at h
  split at h
  · cases h
  · rename_i hversion
    split at h
    · cases h
    · rename_i w hw
      split at h
      · cases h
      · rename_i f1 hreap
        cases h
        obtain ⟨hcrew, hcred⟩ := reapHoldings_staysOff hreap
        refine .unchecked _ ?_ hcrew hcred (fun _ _ hgone => by cases hgone)
          fun _ _ => .inl (show WorkerStatus.online ≠ .offline by decide)
        simp [MachineRequest.unguarded, not_not.mp hversion, hw]

theorem workerHeartbeat_handled {f f' : Fleet} {auth : AuthenticatedWorker}
    {status : WorkerStatus} {currentLoad : Nat}
    (h : workerHeartbeat f now auth status currentLoad = .ok f') :
    Handled cfg now f auth (.heartbeat status currentLoad) f' := by
  unfold workerHeartbeat activeRegistration at h
  split at h
  · cases h
  · rename_i hstatus
    cases hw : f.db.workers[auth.workerId]? with
    | none =>
        rw [hw] at h
        cases h
    | some w =>
        by_cases hgone : w.deregisteredAt.isSome = true
        · simp only [hw, hgone, if_true] at h
          cases h
        · simp only [hw, hgone, Bool.false_eq_true, if_false] at h
          split at h
          · cases h
          · rename_i hload
            cases h
            have hnone : w.deregisteredAt = none := by simpa using hgone
            refine .unchecked _ ?_ (.refl _) rfl (fun w' hw' hgone' => ?_) fun _ _ => .inl hstatus
            · simp [MachineRequest.unguarded, hstatus, hw, hnone, Nat.le_of_not_lt hload]
            · have heq : some w = some w' := hw.symm.trans hw'
              cases heq
              exact absurd hgone' hgone

theorem deregisterWorker_handled {f f' : Fleet} {auth : AuthenticatedWorker}
    {rows : List AssignmentId} (h : deregisterWorker cfg f now auth rows = .ok f') :
    Handled cfg now f auth (.deregister rows) f' := by
  unfold deregisterWorker at h
  split at h
  · cases h
  · rename_i w hw
    split at h
    · rename_i hgone
      cases h
      refine .nothing ?_
      simp [MachineRequest.unguarded, hw, hgone]
    · rename_i hgone
      split at h
      · cases h
      · rename_i f1 hreap
        cases h
        obtain ⟨hcrew, hcred⟩ := reapHoldings_staysOff hreap
        have hnone : w.deregisteredAt = none := by simpa using hgone
        refine .unchecked _ ?_ hcrew hcred (fun _ _ _ => rfl) fun w' hw' => .inr ?_
        · simp [MachineRequest.unguarded, hw, hnone]
        · -- reaping has not deregistered it
          obtain ⟨w₀, hw₀, hstays⟩ := hcrew auth.workerId w' hw'
          have heq : some w₀ = some w := hw₀.symm.trans hw
          cases heq
          rw [hstays.deregistered, hnone]
          exact Option.some_ne_none now

theorem claimEndpoint_handled {f : Fleet} {auth : AuthenticatedWorker} {token : Option ClaimToken}
    {rows : List AssignmentId} {r : Fleet × ClaimResult}
    (h : claimEndpoint cfg f now auth token rows = .ok r) :
    Handled cfg now f auth (.claim token rows) r.1 := by
  have hcrew := (claimEndpoint_requested h).moves.staysOff (by simp) (by simp)
  unfold claimEndpoint at h
  split at h
  · cases h
  · rename_i hactive
    split at h
    · cases h
    · cases h
      exact .checked hactive hcrew rfl

/-- The three requests about an assignment look at the credential first. -/
theorem ownedAssignment_active {f : Fleet} {auth : AuthenticatedWorker} {aid : AssignmentId}
    {a : StageAssignment} (h : ownedAssignment f now auth aid = .ok a) :
    credentialRefusal f now auth = none := by
  unfold ownedAssignment at h
  split at h
  · cases h
  · assumption

theorem ensureProviderEffectKey_credentials (f : Fleet) (aid : AssignmentId) (a : StageAssignment)
    (key : Option String) :
    (ensureProviderEffectKey f aid a key).1.credentials = f.credentials := by
  unfold ensureProviderEffectKey
  simp only
  split <;> rfl

theorem ackAssignment_handled {f : Fleet} {auth : AuthenticatedWorker} {aid : AssignmentId}
    {r : Fleet × Bool} (h : ackAssignment cfg f now auth aid = .ok r) :
    Handled cfg now f auth (.ack aid) r.1 := by
  have hcrew := (ackAssignment_requested h).moves.staysOff (by simp) (by simp)
  unfold ackAssignment at h
  split at h
  · cases h
  · rename_i a howned
    split at h
    · cases h
    · cases h
      exact .checked (ownedAssignment_active howned) hcrew
        (ensureProviderEffectKey_credentials { f with db := _ } ..)

theorem renewAssignmentLease_handled {f f' : Fleet} {auth : AuthenticatedWorker}
    {aid : AssignmentId} (h : renewAssignmentLease cfg f now auth aid = .ok f') :
    Handled cfg now f auth (.renew aid) f' := by
  have hcrew := (renewAssignmentLease_requested h).moves.staysOff (by simp) (by simp)
  unfold renewAssignmentLease at h
  split at h
  · cases h
  · rename_i a howned
    split at h
    · cases h
    · cases h
      exact .checked (ownedAssignment_active howned) hcrew rfl

theorem submitAssignmentResult_handled {f : Fleet} {auth : AuthenticatedWorker}
    {aid : AssignmentId} {payload : SubmitIn} {jitter : Nat} {r : Fleet × SubmitOut}
    (h : submitAssignmentResult cfg f now auth aid payload jitter = .ok r) :
    Handled cfg now f auth (.submit aid payload jitter) r.1 := by
  have hcrew := (submitAssignmentResult_requested h).moves.staysOff (by simp) (by simp)
  unfold submitAssignmentResult at h
  split at h
  · cases h
  · rename_i a howned
    simp only at h
    split at h
    · cases h
      exact .checked (ownedAssignment_active howned) hcrew (ensureProviderEffectKey_credentials ..)
    · split at h
      · cases h
      · cases h
        exact .checked (ownedAssignment_active howned) hcrew
          (ensureProviderEffectKey_credentials ..)

theorem handler_handled {f f' : Fleet} {auth : AuthenticatedWorker} {request : MachineRequest}
    (h : FleetOp.call cfg f ⟨now, request.action auth⟩ = .ok f') :
    Handled cfg now f auth request f' := by
  cases request with
  | register payload rows => exact registerWorker_handled h
  | heartbeat status currentLoad => exact workerHeartbeat_handled h
  | deregister rows => exact deregisterWorker_handled h
  | claim token rows =>
      change (claimEndpoint cfg f now auth token rows).map Prod.fst = .ok f' at h
      obtain ⟨r, hr, rfl⟩ := map_ok h
      exact claimEndpoint_handled hr
  | ack aid =>
      change (ackAssignment cfg f now auth aid).map Prod.fst = .ok f' at h
      obtain ⟨r, hr, rfl⟩ := map_ok h
      exact ackAssignment_handled hr
  | renew aid => exact renewAssignmentLease_handled h
  | submit aid payload jitter =>
      change (submitAssignmentResult cfg f now auth aid payload jitter).map Prod.fst = .ok f' at h
      obtain ⟨r, hr, rfl⟩ := map_ok h
      exact submitAssignmentResult_handled hr

theorem credentialRefusal_revoked {f : Fleet} {auth : AuthenticatedWorker}
    (h : f.Revoked auth.workerId) : credentialRefusal f now auth ≠ none := by
  intro hnone
  unfold credentialRefusal at hnone
  split_ifs at hnone with hactive
  obtain ⟨c, hc, hactive⟩ := (Option.any_eq_true _ _).mp hactive
  simp only [Bool.and_eq_true, beq_iff_eq] at hactive
  have hst := h.2 c (Table.mem_of_get hc) hactive.1.2
  rw [hactive.1.1] at hst
  cases hst

/-- A handler that is run after the revocation does nothing. -/
theorem Handled.revoked {f f' : Fleet} {auth : AuthenticatedWorker} {request : MachineRequest}
    (h : Handled cfg now f auth request f') (hrev : f.Revoked auth.workerId)
    (hguard : request.unguarded cfg f auth.workerId = false) : f' = f := by
  cases h with
  | nothing _ => rfl
  | checked hactive _ _ => exact absurd hactive (credentialRefusal_revoked hrev)
  | unchecked g hun _ _ _ _ =>
      rw [hguard] at hun
      cases hun

theorem MachineRequest.unguarded_worker {f : Fleet} {wid : WorkerId} {request : MachineRequest}
    (h : request.unguarded cfg f wid = true) : ∃ w, f.db.workers[wid]? = some w := by
  cases hw : f.db.workers[wid]? with
  | some w => exact ⟨w, rfl⟩
  | none => cases request <;> simp [MachineRequest.unguarded, hw] at h

/-- One that does not look at the credential, and goes through, changes the worker. -/
theorem Handled.changes {f f' : Fleet} {auth : AuthenticatedWorker} {request : MachineRequest}
    (h : Handled cfg now f auth request f') (hf : f.Guarded) (hrev : f.Revoked auth.workerId)
    (hun : request.unguarded cfg f auth.workerId = true) :
    f'.db.workers[auth.workerId]? ≠ f.db.workers[auth.workerId]? := by
  cases h with
  | nothing hguard =>
      rw [hguard] at hun
      cases hun
  | checked hactive _ _ => exact absurd hactive (credentialRefusal_revoked hrev)
  | @unchecked f1 g _ hcrew _ _ hg =>
      intro hsame
      obtain ⟨w, hw⟩ := MachineRequest.unguarded_worker hun
      rw [hw] at hsame
      obtain ⟨w₁, hw₁, ⟨_, heq⟩ | ⟨hne, _⟩⟩ := Table.get_modify hsame
      · -- the worker is off duty, and reaping has not changed that
        obtain ⟨w₀, hw₀, hstays⟩ := hcrew auth.workerId w₁ hw₁
        have hw₀ : some w₀ = some w := hw₀.symm.trans hw
        cases hw₀
        rcases hg w₁ hw₁ with honduty | hgone
        · rw [← heq] at honduty
          exact honduty (hf.revoked auth.workerId w hw hrev)
        · rw [← heq] at hgone
          exact hgone hstays.deregistered.symm
      · exact absurd rfl hne

theorem revoked_congr {f f' : Fleet} (h : f'.credentials = f.credentials) (wid : WorkerId) :
    f'.Revoked wid ↔ f.Revoked wid := by
  unfold Fleet.Revoked
  rw [h]

theorem Handled.credentials {f f' : Fleet} {auth : AuthenticatedWorker} {request : MachineRequest}
    (h : Handled cfg now f auth request f') : f'.credentials = f.credentials := by
  cases h with
  | nothing _ => rfl
  | checked _ _ hcred => exact hcred
  | unchecked g _ _ hcred _ _ => exact hcred

theorem Handled.guarded {f f' : Fleet} {auth : AuthenticatedWorker} {request : MachineRequest}
    (h : Handled cfg now f auth request f') (hf : f.Guarded)
    (hspare : request.unguarded cfg f auth.workerId = true → ¬ f.Revoked auth.workerId) :
    f'.Guarded := by
  cases h with
  | nothing _ => exact hf
  | checked _ hcrew hcred => exact hf.of_staysOff hcrew fun wid => (revoked_congr hcred wid).mp
  | @unchecked f1 g hun hcrew hcred hg _ =>
      have hf1 : f1.Guarded := hf.of_staysOff hcrew fun wid => (revoked_congr hcred wid).mp
      exact hf1.update g (fun hrev => hspare hun ((revoked_congr hcred _).mp hrev)) hg

/-! ## Trusted requests -/

/-- The request gives the worker a new credential. -/
def FleetRequest.issues (f : Fleet) (wid : WorkerId) : FleetRequest → Bool
  | .trusted (.rotate _ wid' _) => wid' == wid
  | .trusted (.provision ..) => f.db.workers.length == wid
  | _ => false

theorem provisionWorker_guarded {f : Fleet} (hf : f.Guarded) (ws : WorkspaceId)
    (stages : List String) (max : Nat) : (provisionWorker f ws stages max).Guarded := by
  have hrow : ∀ (wid : WorkerId) (w : WorkerRegistration),
      (provisionWorker f ws stages max).db.workers[wid]? = some w →
      f.db.workers[wid]? = some w ∨ w.status = .offline := by
    intro wid w hw
    rcases Table.get_push hw with hold | ⟨_, rfl⟩
    · exact .inl hold
    · exact .inr rfl
  refine ⟨fun wid w hw hgone => ?_, fun wid w hw hrev => ?_⟩
  · rcases hrow wid w hw with hold | hoff
    · exact hf.dormant wid w hold hgone
    · exact hoff
  · rcases hrow wid w hw with hold | hoff
    · have hlt : wid < f.db.workers.length := (List.getElem?_eq_some_iff.mp hold).1
      refine hf.revoked wid w hold ⟨?_,
        fun c hc hcwid => hrev.2 c (List.mem_append_left _ hc) hcwid⟩
      obtain ⟨c, hc, hcwid⟩ := hrev.1
      rcases List.mem_append.mp hc with hc | hc
      · exact ⟨c, hc, hcwid⟩
      · cases List.mem_singleton.mp hc
        exact absurd hcwid (Nat.ne_of_gt hlt)
    · exact hoff

theorem setWorkerDrain_staysOff {f f' : Fleet} {ws : WorkspaceId} {wid : WorkerId} {drain : Bool}
    (h : setWorkerDrain f ws wid drain = .ok f') :
    f.db.crew.StaysOff f'.db.crew ∧ f'.credentials = f.credentials := by
  unfold setWorkerDrain at h
  split at h
  · cases h
  · cases h
    exact ⟨Crew.staysOff_slot (some wid) _ fun _ w _ _ => ⟨id, rfl⟩, rfl⟩

/-- A rotation leaves the worker with an active credential, and the others as they are. -/
theorem rotateWorkerCredential_revoked {f f' : Fleet} {ws : WorkspaceId} {wid : WorkerId}
    {grace : Nat} (h : rotateWorkerCredential f now ws wid grace = .ok f') (wid' : WorkerId) :
    f'.db = f.db ∧ (f'.Revoked wid' ↔ wid' ≠ wid ∧ f.Revoked wid') := by
  unfold rotateWorkerCredential at h
  split at h
  · cases h
  · cases h
    refine ⟨rfl, ?_⟩
    let p : WorkerCredential → WorkerCredential := fun c =>
      if c.workerId == wid && c.status == .active then c.rotate (now + seconds grace) else c
    have hp : ∀ c, (p c).workerId = c.workerId ∧ (p c).status = c.status := by
      intro c
      simp only [p]
      split <;> exact ⟨rfl, rfl⟩
    simp only [Fleet.Revoked, List.mem_append, List.mem_map, List.mem_singleton]
    constructor
    · rintro ⟨⟨c, hc, hwid'⟩, hall⟩
      have hne : wid' ≠ wid := by
        rintro rfl
        cases hall _ (.inr rfl) rfl
      refine ⟨hne, ?_, fun d hd hdwid => ?_⟩
      · rcases hc with ⟨d, hd, rfl⟩ | rfl
        · exact ⟨d, hd, (hp d).1.symm.trans hwid'⟩
        · exact absurd hwid'.symm hne
      · rw [← (hp d).2]
        exact hall _ (.inl ⟨d, hd, rfl⟩) ((hp d).1.trans hdwid)
    · rintro ⟨hne, ⟨c, hc, hwid'⟩, hall⟩
      refine ⟨⟨p c, .inl ⟨c, hc, rfl⟩, (hp c).1.trans hwid'⟩, ?_⟩
      rintro d (⟨e, he, rfl⟩ | rfl) hdwid
      · exact (hp e).2.trans (hall e he ((hp e).1.symm.trans hdwid))
      · exact absurd hdwid.symm hne

theorem trusted_spec {f f' : Fleet} {action : TrustedAction} (hf : f.Guarded)
    (h : action.call cfg f now = .ok f') :
    f'.Guarded ∧ ∀ wid, f.Revoked wid →
      (FleetRequest.trusted action).issues f wid = false → f'.Revoked wid := by
  cases action with
  | op action =>
      cases h
      have hcrew := exec_staysOff cfg f.db ⟨now, action⟩
      exact ⟨hf.of_staysOff hcrew fun _ hrev => hrev, fun _ hrev _ => hrev⟩
  | provision ws stages max =>
      cases h
      refine ⟨provisionWorker_guarded hf ws stages max, fun wid hrev hissue => ?_⟩
      obtain ⟨⟨c, hc, hcwid⟩, hall⟩ := hrev
      refine ⟨⟨c, List.mem_append_left _ hc, hcwid⟩, fun d hd hdwid => ?_⟩
      rcases List.mem_append.mp hd with hd | hd
      · exact hall d hd hdwid
      · cases List.mem_singleton.mp hd
        exact absurd hdwid (by simpa [FleetRequest.issues] using hissue)
  | setDrain ws wid drain =>
      obtain ⟨hcrew, hcred⟩ := setWorkerDrain_staysOff h
      exact ⟨hf.of_staysOff hcrew fun wid => (revoked_congr hcred wid).mp,
        fun wid hrev _ => (revoked_congr hcred wid).mpr hrev⟩
  | rotate ws wid grace =>
      have hrotate := rotateWorkerCredential_revoked h
      have hdb := (hrotate 0).1
      refine ⟨hf.of_staysOff (by rw [hdb]; exact .refl _) fun wid' hrev =>
        ((hrotate wid').2.mp hrev).2, fun wid' hrev hissue => (hrotate wid').2.mpr ⟨?_, hrev⟩⟩
      rintro rfl
      simp [FleetRequest.issues] at hissue
  | revoke ws wid rows =>
      obtain ⟨hf', hcred⟩ := revokeWorkerCredentials_guarded hf h
      exact ⟨hf', fun wid' hrev _ => revoked_revokeWhere _ hcred hrev⟩
  | emergencyStop ws others workers rows =>
      obtain ⟨hf', hrev⟩ := stopEach_guarded _ hf h
      exact ⟨hf', fun wid' hrev' _ => hrev wid' hrev'⟩

/-! ## Interleavings -/

/-- Before the first request: nothing is revoked, and who has deregistered is off duty. -/
structure Fleet.Opening (f : Fleet) : Prop where
  fresh : Fresh f.db
  dormant : ∀ w ∈ f.db.workers, w.deregisteredAt.isSome = true → w.status = .offline
  active : ∀ c ∈ f.credentials, c.status = .active

theorem Fleet.Opening.guarded {f : Fleet} (h : f.Opening) : f.Guarded where
  dormant wid w hw hgone := h.dormant w (Table.mem_of_get hw) hgone
  revoked wid w hw hrev := by
    obtain ⟨⟨c, hc, hcwid⟩, hall⟩ := hrev
    have hst := hall c hc hcwid
    rw [h.active c hc] at hst
    cases hst

/-- The request is not a registration, heartbeat or deregistration that would go through for a
worker whose credentials are all revoked. -/
def FleetRequest.Spares (cfg : Config) (f : Fleet) : FleetRequest → Prop
  | .admitted auth request =>
      request.unguarded cfg f auth.workerId = true → ¬ f.Revoked auth.workerId
  | _ => True

instance decSpares (cfg : Config) (f : Fleet) : (r : FleetRequest) → Decidable (r.Spares cfg f)
  | .admitted auth request => inferInstanceAs
      (Decidable (request.unguarded cfg f auth.workerId = true → ¬ f.Revoked auth.workerId))
  | .arrived .. | .trusted _ | .finished _ => isTrue trivial

def SparesRevoked (cfg : Config) (f : Fleet) (rs : List FleetRequest) (i : Nat) (_ : Instant) :
    Prop :=
  ∀ r ∈ rs[i]?, r.Spares cfg f

instance decSparesRevoked (cfg : Config) (f : Fleet) (rs : List FleetRequest) (i : Nat)
    (now : Instant) : Decidable (SparesRevoked cfg f rs i now) :=
  inferInstanceAs (Decidable (∀ r ∈ rs[i]?, r.Spares cfg f))

/-- No request gives the worker a new credential. -/
def NoneIssued (wid : WorkerId) (f : Fleet) (rs : List FleetRequest) (i : Nat) (_ : Instant) :
    Prop :=
  ∀ r ∈ rs[i]?, r.issues f wid = false

instance decNoneIssued (wid : WorkerId) (f : Fleet) (rs : List FleetRequest) (i : Nat)
    (now : Instant) : Decidable (NoneIssued wid f rs i now) :=
  inferInstanceAs (Decidable (∀ r ∈ rs[i]?, r.issues f wid = false))

/-- What holds between two transactions. -/
structure Fleet.Settled (f : Fleet) : Prop where
  guarded : f.Guarded
  synced : f.db.Synced

theorem flush_eq {f : Fleet} (h : f.db.Synced) : { f with db := f.db.flush } = f := by
  obtain ⟨db, credentials, effects⟩ := f
  have hflush : db.flush = db := by
    unfold Db.flush
    rw [← show db.gateColumn = db.gates.map ReviewGate.status from h]
  show (⟨db.flush, credentials, effects⟩ : Fleet) = _
  rw [hflush]

theorem guarded_flush {f : Fleet} (h : f.Guarded) : Fleet.Settled { f with db := f.db.flush } :=
  ⟨⟨h.dormant, h.revoked⟩, rfl⟩

/-- **What a transaction leaves.** -/
theorem next_settled {f : Fleet} (hf : f.Settled) (i : Nat) (r : FleetRequest) (now : Instant)
    (hspare : r.Spares cfg f) :
    (r.next cfg f i now).1.Settled ∧
      ∀ wid, f.Revoked wid → r.issues f wid = false → (r.next cfg f i now).1.Revoked wid := by
  cases r with
  | arrived token request =>
      unfold FleetRequest.next
      simp only
      split <;> exact ⟨hf, fun _ hrev _ => hrev⟩
  | admitted auth request =>
      simp only [FleetRequest.next]
      cases hcall : FleetOp.call cfg f ⟨now, request.action auth⟩ with
      | error e => exact ⟨hf, fun _ hrev _ => hrev⟩
      | ok f' =>
          have hdone := handler_handled hcall
          exact ⟨guarded_flush (hdone.guarded hf.guarded hspare),
            fun wid hrev _ => (revoked_congr hdone.credentials wid).mpr hrev⟩
  | trusted action =>
      simp only [FleetRequest.next]
      cases hcall : action.call cfg f now with
      | error e => exact ⟨hf, fun _ hrev _ => hrev⟩
      | ok f' =>
          obtain ⟨hf', hrev⟩ := trusted_spec hf.guarded hcall
          exact ⟨guarded_flush hf', fun wid hrev' hissue => hrev wid hrev' hissue⟩
  | finished error => exact ⟨hf, fun _ hrev _ => hrev⟩

/-- A step of an interleaving. -/
theorem exec_settled {s : State Fleet FleetRequest} (hs : s.shared.Settled)
    {o : Interleaving.Op FleetRequest Instant}
    (hspare : ∀ i now, o = .run i now → SparesRevoked cfg s.shared s.txns i now) :
    ((requests cfg).exec s o).shared.Settled ∧
      ∀ wid, s.shared.Revoked wid →
        (∀ i now, o = .run i now → NoneIssued wid s.shared s.txns i now) →
        ((requests cfg).exec s o).shared.Revoked wid := by
  cases o with
  | start r => exact ⟨hs, fun _ hrev _ => hrev⟩
  | run i now =>
      cases hr : s.txns[i]? with
      | none =>
          simp only [Program.exec, hr]
          exact ⟨hs, fun _ hrev _ => hrev⟩
      | some r =>
          rw [exec_run hr]
          obtain ⟨hset, hrev⟩ := next_settled hs i r now (hspare i now rfl r hr)
          exact ⟨hset, fun wid hrev' hissue => hrev wid hrev' (hissue i now rfl r hr)⟩

theorem reachable_settled {s : State Fleet FleetRequest}
    (h : (((requests cfg).restrict (SparesRevoked cfg)).system Fleet.Opening).Reachable s) :
    s.shared.Settled := by
  refine h.invariant (I := fun s => s.shared.Settled) (fun s hs => ?_) (fun s o hs ho => ?_)
  · obtain ⟨hopen, _⟩ := hs
    exact ⟨hopen.guarded, hopen.fresh.synced⟩
  · refine (exec_settled hs fun i now heq => ?_).1
    subst heq
    exact ho.2

/-- **Revocation holds.** In every interleaving whose registrations, heartbeats and deregistrations
spare the workers that are revoked: once all credentials of a worker are revoked, and until it gets
a new one, a handler changes nothing for it (while one that does not spare it, and goes through,
does), it is off duty, it is not selected, and a claim gives it nothing. -/
theorem revocation_holds {s t : State Fleet FleetRequest} {wid : WorkerId}
    (hs : (((requests cfg).restrict (SparesRevoked cfg)).system Fleet.Opening).Reachable s)
    (hrev : s.shared.Revoked wid)
    (ht : ((((requests cfg).restrict (SparesRevoked cfg)).restrict (NoneIssued wid)).system
      Fleet.Opening).Steps s t) :
    t.shared.Revoked wid ∧
    (∀ i now auth request, t.txns[i]? = some (.admitted auth request) → auth.workerId = wid →
      (SparesRevoked cfg t.shared t.txns i now →
        ((requests cfg).exec t (.run i now)).shared = t.shared) ∧
      (¬ SparesRevoked cfg t.shared t.txns i now → ∀ f',
        FleetOp.call cfg t.shared ⟨now, request.action auth⟩ = .ok f' →
        f'.db.workers[wid]? ≠ t.shared.db.workers[wid]?)) ∧
    (∀ w, t.shared.db.workers[wid]? = some w → w.status = .offline) ∧
    (∀ stage rows w, selectWorker t.shared.db stage rows ≠ some (wid, w)) ∧
    ∀ now token ws rows r, claimAssignment cfg t.shared.db now wid token ws rows = .ok r →
      r.db.crew = t.shared.db.crew := by
  -- along the run nothing is issued to the worker, so it stays revoked
  obtain ⟨hset, hrevt⟩ : t.shared.Settled ∧ t.shared.Revoked wid := by
    refine ht.preserves (I := fun t => t.shared.Settled ∧ t.shared.Revoked wid)
      (fun t o hI ho => ?_) ⟨reachable_settled hs, hrev⟩
    obtain ⟨hset, hkeep⟩ := exec_settled (o := o) hI.1 fun i now heq => by
      subst heq
      exact ho.1.2
    refine ⟨hset, hkeep wid hI.2 fun i now heq => ?_⟩
    subst heq
    exact ho.2
  have hoff : ∀ w, t.shared.db.workers[wid]? = some w → w.status = .offline :=
    fun w hw => hset.guarded.revoked wid w hw hrevt
  refine ⟨hrevt, ?_, hoff, ?_, ?_⟩
  · -- a request that was let in before the revocation
    intro i now auth request hr hwid
    subst hwid
    have hspares : SparesRevoked cfg t.shared t.txns i now ↔
        request.unguarded cfg t.shared auth.workerId = false := by
      rw [← Bool.not_eq_true]
      refine ⟨fun hspare hun => hspare _ hr hun hrevt, fun hguard r hr' => ?_⟩
      cases Option.some.inj (hr.symm.trans hr')
      exact fun hun => absurd hun hguard
    refine ⟨fun hspare => ?_, fun hnot f' hcall => ?_⟩
    · rw [exec_run hr]
      show (FleetRequest.next cfg t.shared i (.admitted auth request) now).1 = t.shared
      simp only [FleetRequest.next]
      cases hcall : FleetOp.call cfg t.shared ⟨now, request.action auth⟩ with
      | error e => rfl
      | ok f' =>
          rw [(handler_handled hcall).revoked hrevt (hspares.mp hspare)]
          exact flush_eq hset.synced
    · rw [hspares, Bool.not_eq_false] at hnot
      exact (handler_handled hcall).changes hset.guarded hrevt hnot
  · -- an offline worker is not selected
    intro stage rows w hsel
    obtain ⟨hw, honduty⟩ := selectWorker_onDuty hsel
    exact honduty (hoff w hw)
  · -- and is refused a claim
    intro now token ws rows r hclaim
    have hclaimed := claimAssignment_claimed hclaim
    generalize r.db = s' at hclaimed
    cases hclaimed with
    | nothing hcrew => exact hcrew
    | granted hw hmay _ _ _ _ => exact absurd (hoff _ hw) (claimRefusal_onDuty hmay.1)

/-! ## A request that was let in -/

/-- Workspace 0 with a worker of its own, on duty, and the worker's credential. -/
def pinnedFleet : Fleet where
  db := { deskDb with workers := [{ deskWorker [.scripting] with workspaceId := some 0 }] }
  credentials := [{ workerId := 0, workspaceId := 0 }]

theorem pinnedFleet_opening : pinnedFleet.Opening where
  fresh := ⟨rfl, rfl, rfl, rfl, rfl, rfl, rfl, rfl, rfl⟩
  dormant := by decide
  active := by decide

/-- A request of the worker is let in, and then its credential is revoked. -/
def letInOps (request : MachineRequest) : List (Interleaving.Op FleetRequest Instant) :=
  [.start (.arrived ⟨some 0, true⟩ request), .run 0 1, .start (.trusted (.revoke 0 0 [])), .run 1 2]

/-- The state at the end of some steps. -/
def afterOps (ops : List (Interleaving.Op FleetRequest Instant)) : State Fleet FleetRequest :=
  ops.foldl (requests deskConfig).exec ⟨pinnedFleet, []⟩

/-- The heartbeat of a revoked worker goes through, and the worker is selected. -/
theorem revoked_worker_returns :
    pinnedFleet.Opening ∧
    ((requests deskConfig).system Fleet.Opening).Legal ⟨pinnedFleet, []⟩
      (letInOps (.heartbeat .online 0) ++ [.run 0 3]) ∧
    (let s := (afterOps (letInOps (.heartbeat .online 0))).shared
     let s' := (afterOps (letInOps (.heartbeat .online 0) ++ [.run 0 3])).shared
     s.Revoked 0 ∧ s.db.workers.map WorkerRegistration.status = [.offline] ∧
     s'.Revoked 0 ∧ s'.db.workers.map WorkerRegistration.status = [.online] ∧
     (selectWorker s'.db "scripting" [0]).map Prod.fst = some 0) :=
  ⟨pinnedFleet_opening, by decide +kernel, by decide +kernel⟩

/-- The answers of the requests that are over. -/
def FleetRequest.answer : FleetRequest → Option (Option ApiError)
  | .finished error => some error
  | _ => none

/-- A claim of the worker is refused. -/
theorem revoked_claim_refused :
    (afterOps (letInOps (.claim none []) ++ [.run 0 3])).txns.map FleetRequest.answer
      = [some (some unauthorized), some none] ∧
    (afterOps (letInOps (.claim none []))).shared.Revoked 0 ∧
    ∀ w, (afterOps (letInOps (.claim none []) ++ [.run 0 3])).shared.db.workers[0]? = some w →
      w.status = .offline := by
  have hs : (((requests deskConfig).restrict (SparesRevoked deskConfig)).system
      Fleet.Opening).Reachable (afterOps (letInOps (.claim none []))) :=
    System.Reachable.of_legal (letInOps (.claim none [])) (.init ⟨pinnedFleet_opening, rfl⟩)
      (by decide +kernel)
  have hrev : (afterOps (letInOps (.claim none []))).shared.Revoked 0 := by decide +kernel
  have ht : ((((requests deskConfig).restrict (SparesRevoked deskConfig)).restrict
      (NoneIssued 0)).system Fleet.Opening).Steps (afterOps (letInOps (.claim none [])))
        (afterOps (letInOps (.claim none []) ++ [.run 0 3])) :=
    System.Steps.of_legal [Interleaving.Op.run 0 3] (by decide +kernel)
  exact ⟨by decide +kernel, hrev, (revocation_holds hs hrev ht).2.2.1⟩

end HumanGate
