import HumanGate.Fleet.Exclusive

set_option autoImplicit false

/-! # Effect keys

A worker that acknowledges an assignment is told whether the acknowledgement reserved the effect
key of the assignment, that is, whether the worker is the first to produce its effect. The key is
the text of the assignment's identifier. All keys of a workspace share one index, and a submission
may carry any key it likes: one that carries the text of another assignment's identifier takes the
key of that assignment, whose first acknowledgement is then told that its effect was produced
before (`foreign_key_taken`).

As long as no submission takes the key of an assignment in this way (`KeepsOff`), what an
acknowledgement is told depends on the earlier requests about this assignment only.
-/

namespace HumanGate

open Lib Lib.Calendar

variable {cfg : Config} {now : Instant}

/-! ## Which requests add a key -/

theorem defaultEffectKey_inj {aid b : AssignmentId}
    (h : defaultEffectKey aid = defaultEffectKey b) : aid = b := by
  have hdigits : Nat.toDigits 10 aid = Nat.toDigits 10 b := by
    have hlist := congrArg String.toList h
    simpa [defaultEffectKey, toString, Nat.repr] using hlist
  rw [← Nat.ofDigitChars_ten_toDigits (n := aid), hdigits, Nat.ofDigitChars_ten_toDigits]

/-- The assignment whose key a request reserves, and the key it carries. -/
def FleetAction.reserves : FleetAction → Option (AssignmentId × Option String)
  | .ack _ aid => some (aid, none)
  | .submit _ aid payload _ => some (aid, payload.providerEffectKey)
  | _ => none

/-- The request is accepted. -/
def FleetOp.accepted (cfg : Config) (f : Fleet) (o : FleetOp) : Bool := (o.call cfg f).isOk

theorem accepted_ok {f f' : Fleet} {o : FleetOp} (h : o.call cfg f = .ok f') :
    o.accepted cfg f = true := by
  simp [FleetOp.accepted, h, Except.isOk, Except.toBool]

/-- A key that `ensureProviderEffectKey` adds. -/
theorem mem_ensureProviderEffectKey {f : Fleet} {aid : AssignmentId} {a : StageAssignment}
    {key : Option String} {e : ProviderEffectKey}
    (he : e ∈ (ensureProviderEffectKey f aid a key).1.effects) :
    e ∈ f.effects ∨ (e.workspaceId = a.workspaceId ∧ e.effectKey = effectKeyFor aid key) := by
  unfold ensureProviderEffectKey at he
  simp only at he
  split at he
  · exact .inl he
  · rcases List.mem_append.mp he with he | he
    · exact .inl he
    · rw [List.mem_singleton.mp he]
      exact .inr ⟨rfl, rfl⟩

theorem reapHoldings_effects {f f' : Fleet} {wid : WorkerId} {reason : RecoveryReason}
    {rows : List AssignmentId} (h : reapHoldings cfg f now wid reason rows = .ok f') :
    f'.effects = f.effects := by
  unfold reapHoldings at h
  split at h
  · cases h
  · cases h
    rfl

theorem registerWorker_effects {f f' : Fleet} {auth : AuthenticatedWorker}
    {payload : WorkerRegisterIn} {rows : List AssignmentId}
    (h : registerWorker cfg f now auth payload rows = .ok f') : f'.effects = f.effects := by
  unfold registerWorker at h
  split at h
  · cases h
  · split at h
    · cases h
    · split at h
      · cases h
      · rename_i f1 hreap
        cases h
        have hsame := reapHoldings_effects hreap
        exact hsame

theorem deregisterWorker_effects {f f' : Fleet} {auth : AuthenticatedWorker}
    {rows : List AssignmentId} (h : deregisterWorker cfg f now auth rows = .ok f') :
    f'.effects = f.effects := by
  unfold deregisterWorker at h
  split at h
  · cases h
  · split at h
    · cases h
      rfl
    · split at h
      · cases h
      · rename_i f1 hreap
        cases h
        have hsame := reapHoldings_effects hreap
        exact hsame

theorem workerHeartbeat_effects {f f' : Fleet} {auth : AuthenticatedWorker}
    {status : WorkerStatus} {load : Nat} (h : workerHeartbeat f now auth status load = .ok f') :
    f'.effects = f.effects := by
  unfold workerHeartbeat at h
  split at h
  · cases h
  · split at h
    · cases h
    · split at h
      · cases h
      · cases h
        rfl

theorem claimEndpoint_effects {f : Fleet} {auth : AuthenticatedWorker}
    {token : Option ClaimToken} {rows : List AssignmentId} {r : Fleet × ClaimResult}
    (h : claimEndpoint cfg f now auth token rows = .ok r) : r.1.effects = f.effects := by
  unfold claimEndpoint at h
  split at h
  · cases h
  · split at h
    · cases h
    · cases h
      rfl

theorem renewAssignmentLease_effects {f f' : Fleet} {auth : AuthenticatedWorker}
    {aid : AssignmentId} (h : renewAssignmentLease cfg f now auth aid = .ok f') :
    f'.effects = f.effects := by
  unfold renewAssignmentLease at h
  split at h
  · cases h
  · split at h
    · cases h
    · cases h
      rfl

theorem revokeWorkerCredentials_effects {f f' : Fleet} {ws : WorkspaceId} {wid : WorkerId}
    {rows : List AssignmentId} (h : revokeWorkerCredentials cfg f now ws wid rows = .ok f') :
    f'.effects = f.effects := by
  unfold revokeWorkerCredentials at h
  split at h
  · cases h
  · split at h
    · cases h
    · simp only at h
      split at h
      · cases h
      · rename_i f1 hreap
        have hsame := reapHoldings_effects hreap
        split at h
        · cases h
          exact hsame
        · cases h
          exact hsame

theorem stopEach_effects {ws : WorkspaceId} {rows : List AssignmentId} (workers : List WorkerId) :
    ∀ {f f' : Fleet}, stopEach cfg now ws rows workers f = .ok f' → f'.effects = f.effects := by
  induction workers with
  | nil =>
      intro f f' h
      cases h
      rfl
  | cons wid rest ih =>
      intro f f' h
      unfold stopEach at h
      simp only at h
      split at h
      · cases h
      · rename_i f1 hreap
        have hsame := reapHoldings_effects hreap
        rw [ih h]
        exact hsame

/-- **An accepted acknowledgement**: the assignment was dispatched, and the answer says whether the
key is new. -/
theorem ackAssignment_spec {f : Fleet} {auth : AuthenticatedWorker} {aid : AssignmentId}
    {r : Fleet × Bool} (h : ackAssignment cfg f now auth aid = .ok r) :
    ∃ a s, f.row aid = some a ∧ a.status = .dispatched ∧
      acknowledge cfg f.db now aid none (some auth.workerId) = .ok s ∧
      r = ensureProviderEffectKey { f with db := s } aid a none := by
  unfold ackAssignment at h
  split at h
  · cases h
  · rename_i a howned
    split at h
    · cases h
    · rename_i s hack
      cases h
      have hrow : f.db.assignments[aid]? = some a := (ownedAssignment_spec howned).1
      refine ⟨a, s, hrow, ?_, hack, rfl⟩
      by_contra hne
      unfold acknowledge at hack
      simp [hrow, hne] at hack

/-- A key that an accepted submission adds is the one it carries. -/
theorem mem_submitAssignmentResult {f : Fleet} {auth : AuthenticatedWorker} {aid : AssignmentId}
    {payload : SubmitIn} {jitter : Nat} {r : Fleet × SubmitOut}
    (h : submitAssignmentResult cfg f now auth aid payload jitter = .ok r)
    {e : ProviderEffectKey} (he : e ∈ r.1.effects) :
    e ∈ f.effects ∨ ∃ a, f.row aid = some a ∧ e.workspaceId = a.workspaceId ∧
      e.effectKey = effectKeyFor aid payload.providerEffectKey := by
  unfold submitAssignmentResult at h
  split at h
  · cases h
  · rename_i a howned
    have hrow := (ownedAssignment_spec howned).1
    have hadded : e ∈ (ensureProviderEffectKey f aid a payload.providerEffectKey).1.effects := by
      simp only at h
      split at h
      · cases h
        exact he
      · split at h
        · cases h
        · cases h
          exact he
    rcases mem_ensureProviderEffectKey hadded with he | he
    · exact .inl he
    · exact .inr ⟨a, hrow, he⟩

/-- **A key is only added by an accepted acknowledgement or submission**, in the workspace of its
assignment. -/
theorem mem_fleetExec_effects {f : Fleet} {o : FleetOp} {e : ProviderEffectKey}
    (he : e ∈ (fleetExec cfg f o).effects) :
    e ∈ f.effects ∨ ∃ aid key a, o.action.reserves = some (aid, key) ∧
      o.accepted cfg f = true ∧ f.row aid = some a ∧ e.workspaceId = a.workspaceId ∧
      e.effectKey = effectKeyFor aid key := by
  unfold fleetExec at he
  split at he
  · exact .inl he
  · rename_i f' hcall
    have hacc := accepted_ok hcall
    have hold : f'.effects = f.effects → e ∈ f.effects := fun hsame => hsame ▸ he
    obtain ⟨now, action⟩ := o
    cases action with
    | op action =>
        cases hcall
        exact .inl he
    | register auth payload rows => exact .inl (hold (registerWorker_effects hcall))
    | heartbeat auth status load => exact .inl (hold (workerHeartbeat_effects hcall))
    | deregister auth rows => exact .inl (hold (deregisterWorker_effects hcall))
    | claim auth token rows =>
        obtain ⟨r, hr, rfl⟩ := map_ok hcall
        exact .inl (hold (claimEndpoint_effects hr))
    | ack auth aid =>
        obtain ⟨r, hr, rfl⟩ := map_ok hcall
        obtain ⟨a, s, hrow, _, _, rfl⟩ := ackAssignment_spec hr
        rcases mem_ensureProviderEffectKey he with he | he
        · exact .inl he
        · exact .inr ⟨aid, none, a, rfl, hacc, hrow, he⟩
    | renew auth aid => exact .inl (hold (renewAssignmentLease_effects hcall))
    | submit auth aid payload jitter =>
        obtain ⟨r, hr, rfl⟩ := map_ok hcall
        rcases mem_submitAssignmentResult hr he with he | ⟨a, hrow, he⟩
        · exact .inl he
        · exact .inr ⟨aid, payload.providerEffectKey, a, rfl, hacc, hrow, he⟩
    | revoke ws wid rows => exact .inl (hold (revokeWorkerCredentials_effects hcall))
    | emergencyStop ws others workers rows => exact .inl (hold (stopEach_effects _ hcall))

/-! ## What an acknowledgement is told -/

/-- The requests about the assignment that are accepted, in a run from `f`. -/
def ownRequests (cfg : Config) (aid : AssignmentId) : Fleet → List FleetOp → List FleetAction
  | _, [] => []
  | f, o :: ops =>
      (if o.accepted cfg f ∧ o.action.reserves.map Prod.fst = some aid then [o.action] else [])
        ++ ownRequests cfg aid (fleetExec cfg f o) ops

/-- The flag `provider_effect_created` that the request returns, if it is an accepted
acknowledgement of the assignment. -/
def FleetOp.effectCreated (cfg : Config) (f : Fleet) (aid : AssignmentId) (o : FleetOp) :
    Option Bool :=
  match o.action with
  | .ack auth b => if b = aid then (ackAssignment cfg f o.now auth b).toOption.map Prod.snd
    else none
  | _ => none

/-- The flags that the acknowledgements of the assignment return, in a run from `f`. -/
def effectFlags (cfg : Config) (aid : AssignmentId) : Fleet → List FleetOp → List Bool
  | _, [] => []
  | f, o :: ops =>
      (o.effectCreated cfg f aid).toList ++ effectFlags cfg aid (fleetExec cfg f o) ops

/-- The fleet before any key was reserved. -/
def effectFleet (cfg : Config) : System Fleet FleetOp :=
  { workerFleet cfg with init := fun f => Fresh f.db ∧ f.effects = [] }

/-- No submission of another assignment of the workspace takes the key of the assignment. -/
def KeepsOff (cfg : Config) (aid : AssignmentId) (ws : WorkspaceId) (f : Fleet) (o : FleetOp) :
    Prop :=
  ∀ r ∈ o.action.reserves, ∀ key ∈ r.2, r.1 ≠ aid → o.accepted cfg f = true →
    (f.row r.1).map StageAssignment.workspaceId = some ws →
    f.keyKnown ws (defaultEffectKey aid) = false → key ≠ defaultEffectKey aid

instance (cfg : Config) (aid : AssignmentId) (ws : WorkspaceId) (f : Fleet) (o : FleetOp) :
    Decidable (KeepsOff cfg aid ws f o) :=
  inferInstanceAs (Decidable (∀ r ∈ o.action.reserves, ∀ key ∈ r.2, _ → _ → _ → _ → _))

instance (cfg : Config) (f : Fleet) (o : FleetOp) : Decidable ((effectFleet cfg).allowed f o) :=
  inferInstanceAs (Decidable o.action.ByWorker)

/-- The assignment has made use of its key: the key is taken, or the assignment is final. -/
def Spent (aid : AssignmentId) (f : Fleet) : Prop :=
  ∃ a, f.row aid = some a ∧
    (f.keyKnown a.workspaceId (defaultEffectKey aid) = true ∨ a.status.isFinal = true)

theorem keyKnown_mono {f g : Fleet} (h : f.effects <+: g.effects) {ws : WorkspaceId} {key : String}
    (hk : f.keyKnown ws key = true) : g.keyKnown ws key = true := by
  unfold Fleet.keyKnown at hk ⊢
  rw [List.any_eq_true] at hk ⊢
  obtain ⟨e, he, hp⟩ := hk
  exact ⟨e, h.subset he, hp⟩

theorem RowMove.workspaceId {k : MoveKind} {a a' : StageAssignment} (h : RowMove cfg now a k a') :
    a'.workspaceId = a.workspaceId := by
  cases h <;> rfl

/-- A row stays in its workspace. -/
theorem fleetExec_workspace (cfg : Config) (o : FleetOp) {f : Fleet} {aid : AssignmentId}
    {a : StageAssignment} (ha : f.row aid = some a) :
    ∃ a', (fleetExec cfg f o).row aid = some a' ∧ a'.workspaceId = a.workspaceId := by
  refine (fleetExec_moves cfg f o).row (P := fun a' => a'.workspaceId = a.workspaceId) ?_ ha rfl
  intro k _ b b' hm hb
  rw [hm.workspaceId, hb]

theorem Spent.step (cfg : Config) {f : Fleet} {o : FleetOp} (ho : o.action.ByWorker)
    {aid : AssignmentId} (h : Spent aid f) : Spent aid (fleetExec cfg f o) := by
  obtain ⟨a, ha, hknown | hfinal⟩ := h
  · obtain ⟨a', ha', hws⟩ := fleetExec_workspace cfg o ha
    refine ⟨a', ha', .inl ?_⟩
    rw [hws]
    exact keyKnown_mono (fleetExec_requested cfg f o).effects hknown
  · obtain ⟨a', ha', hfin⟩ := fleetExec_row ho
      (fun k hk _ _ (hm : RowMove cfg o.now _ k _) => hm.finalAs hk) ha ⟨hfinal, rfl, rfl, rfl⟩
    refine ⟨a', ha', .inr ?_⟩
    rw [hfin.2.1]
    exact hfinal

/-- An accepted request about the assignment makes use of its key. -/
theorem spent_of_own {f : Fleet} {o : FleetOp} {aid : AssignmentId}
    (hacc : o.accepted cfg f = true) (hown : o.action.reserves.map Prod.fst = some aid) :
    Spent aid (fleetExec cfg f o) := by
  obtain ⟨now, action⟩ := o
  cases hcall : (FleetOp.mk now action).call cfg f with
  | error e =>
      unfold FleetOp.accepted at hacc
      rw [hcall] at hacc
      cases hacc
  | ok f' =>
      have hexec : fleetExec cfg f ⟨now, action⟩ = { f' with db := f'.db.flush } := by
        unfold fleetExec
        rw [hcall]
      rw [hexec]
      cases action with
      | ack auth b =>
          have hb : b = aid := by simpa [FleetAction.reserves] using hown
          subst hb
          obtain ⟨r, hr, rfl⟩ := map_ok hcall
          obtain ⟨a, s, hrow, _, hack, rfl⟩ := ackAssignment_spec hr
          obtain ⟨a', ha', hws⟩ := (acknowledge_moves hack).row
            (P := fun a' => a'.workspaceId = a.workspaceId)
            (fun k _ b b' hm hb => hm.workspaceId.trans hb) hrow rfl
          refine ⟨a', ?_, .inl ?_⟩
          · simp only [Fleet.row, ensureProviderEffectKey_db]
            exact ha'
          · rw [hws]
            exact ensureProviderEffectKey_known { f with db := s } b a none
      | submit auth b payload jitter =>
          have hb : b = aid := by simpa [FleetAction.reserves] using hown
          subst hb
          obtain ⟨r, hr, rfl⟩ := map_ok hcall
          obtain ⟨g, out⟩ := r
          obtain ⟨_, a, _, hrow, _, _, _, hfinal, _⟩ := submit_accepted hr
          exact ⟨a, hrow, .inr hfinal⟩
      | _ => cases hown

/-- Any other request leaves the key of the assignment free. -/
theorem keyKnown_step {f : Fleet} {o : FleetOp} {aid : AssignmentId} {ws : WorkspaceId}
    (hoff : KeepsOff cfg aid ws f o) (hfree : f.keyKnown ws (defaultEffectKey aid) = false)
    (hother : ¬ (o.accepted cfg f = true ∧ o.action.reserves.map Prod.fst = some aid)) :
    (fleetExec cfg f o).keyKnown ws (defaultEffectKey aid) = false := by
  by_contra hknown
  rw [Bool.not_eq_false, Fleet.keyKnown, List.any_eq_true] at hknown
  obtain ⟨e, he, hp⟩ := hknown
  rw [Bool.and_eq_true, beq_iff_eq, beq_iff_eq] at hp
  rcases mem_fleetExec_effects he with he | ⟨b, key, a, hres, hacc, hrow, hews, hekey⟩
  · rw [Fleet.keyKnown, List.any_eq_false] at hfree
    exact hfree e he (by simp [hp.1, hp.2])
  · have hb : b ≠ aid := by
      rintro rfl
      exact hother ⟨hacc, by rw [hres]; rfl⟩
    have hdefault : effectKeyFor b none ≠ defaultEffectKey aid := fun heq =>
      hb (defaultEffectKey_inj heq)
    rw [hp.2] at hekey
    -- the key is the default one of another assignment, or one that a submission carries
    cases key with
    | none => exact hdefault hekey.symm
    | some key =>
        by_cases hempty : key = ""
        · rw [hempty] at hekey
          exact hdefault hekey.symm
        · have hws : (f.row b).map StageAssignment.workspaceId = some ws := by
            rw [hrow, Option.map_some, ← hews, hp.1]
          refine hoff (b, some key) hres key rfl hb hacc hws hfree ?_
          rw [hekey]
          simp [effectKeyFor, hempty]

theorem ensureProviderEffectKey_created (f : Fleet) (aid : AssignmentId) (a : StageAssignment)
    (key : Option String) :
    (ensureProviderEffectKey f aid a key).2 = !f.keyKnown a.workspaceId (effectKeyFor aid key) := by
  unfold ensureProviderEffectKey Fleet.keyKnown
  simp only
  split <;> simp_all

/-- The flag of an accepted acknowledgement. -/
theorem ackAssignment_created {f : Fleet} {auth : AuthenticatedWorker} {aid : AssignmentId}
    {r : Fleet × Bool} (h : ackAssignment cfg f now auth aid = .ok r) :
    ∃ a, f.row aid = some a ∧ a.status = .dispatched ∧
      r.2 = !f.keyKnown a.workspaceId (defaultEffectKey aid) := by
  obtain ⟨a, s, hrow, hst, _, rfl⟩ := ackAssignment_spec h
  exact ⟨a, hrow, hst, ensureProviderEffectKey_created { f with db := s } aid a none⟩

theorem Spent.not_created {f : Fleet} {aid : AssignmentId} (h : Spent aid f)
    {auth : AuthenticatedWorker} {r : Fleet × Bool}
    (hack : ackAssignment cfg f now auth aid = .ok r) : r.2 = false := by
  obtain ⟨a, ha, hspent⟩ := h
  obtain ⟨b, hb, hst, hcreated⟩ := ackAssignment_created hack
  rw [ha] at hb
  cases hb
  rcases hspent with hknown | hfinal
  · rw [hcreated, hknown]
    rfl
  · rw [hst] at hfinal
    cases hfinal

/-! ## Whole runs -/

def FleetAction.isAck : FleetAction → Bool
  | .ack .. => true
  | _ => false

/-- The flags that the accepted requests about an assignment call for: the first one is told that
the key is new. -/
def flagsOf : List FleetAction → List Bool
  | [] => []
  | own :: rest =>
      (if own.isAck then [true] else []) ++ (rest.filter FleetAction.isAck).map fun _ => false

/-- The flag of a request, when the flag of every accepted acknowledgement is `created`. -/
theorem effectCreated_eq {f : Fleet} {o : FleetOp} {aid : AssignmentId} {created : Bool}
    (h : ∀ auth r, ackAssignment cfg f o.now auth aid = .ok r → r.2 = created) :
    (o.effectCreated cfg f aid).toList
      = ((if o.accepted cfg f ∧ o.action.reserves.map Prod.fst = some aid then [o.action]
          else []).filter FleetAction.isAck).map fun _ => created := by
  obtain ⟨now, action⟩ := o
  cases action with
  | ack auth b =>
      by_cases hb : b = aid
      · subst hb
        cases hack : ackAssignment cfg f now auth b with
        | error e =>
            simp [FleetOp.effectCreated, FleetOp.accepted, FleetOp.call, hack, Except.map,
              Except.isOk, Except.toBool, Except.toOption]
        | ok r =>
            simp [FleetOp.effectCreated, FleetOp.accepted, FleetOp.call, hack, Except.map,
              Except.isOk, Except.toBool, Except.toOption, FleetAction.reserves,
              List.filter_cons, FleetAction.isAck, h auth r hack]
      · simp [FleetOp.effectCreated, FleetAction.reserves, hb]
  | submit auth b payload jitter =>
      simp only [FleetOp.effectCreated, Option.toList_none]
      split <;> simp [FleetAction.isAck]
  | _ => simp [FleetOp.effectCreated, FleetAction.reserves]

/-- Once the key was used, every acknowledgement is told so. -/
theorem effectFlags_spent {aid : AssignmentId} (ops : List FleetOp) : ∀ {f : Fleet},
    Spent aid f → (∀ o ∈ ops, o.action.ByWorker) →
    effectFlags cfg aid f ops
      = ((ownRequests cfg aid f ops).filter FleetAction.isAck).map fun _ => false := by
  induction ops with
  | nil => intro f _ _; rfl
  | cons o ops ih =>
      intro f hspent hby
      have hrest := ih (hspent.step cfg (hby o List.mem_cons_self)) fun o' ho' =>
        hby o' (List.mem_cons_of_mem _ ho')
      rw [effectFlags, ownRequests, List.filter_append, List.map_append, hrest,
        effectCreated_eq fun auth r hack => hspent.not_created hack]

/-- A row stays in its workspace through a run. -/
theorem foldl_workspace (cfg : Config) {aid : AssignmentId} (ops : List FleetOp) :
    ∀ {f : Fleet} {a : StageAssignment}, f.row aid = some a →
      ∃ a', (ops.foldl (fleetExec cfg) f).row aid = some a' ∧ a'.workspaceId = a.workspaceId := by
  induction ops with
  | nil => intro f a ha; exact ⟨a, ha, rfl⟩
  | cons o ops ih =>
      intro f a ha
      obtain ⟨b, hb, hws⟩ := fleetExec_workspace cfg o ha
      obtain ⟨c, hc, hws'⟩ := ih hb
      exact ⟨c, hc, hws'.trans hws⟩

theorem byWorker_of_legal {aid : AssignmentId} {ws : WorkspaceId} (ops : List FleetOp) :
    ∀ {f : Fleet}, ((effectFleet cfg).restrict (KeepsOff cfg aid ws)).Legal f ops →
      ∀ o ∈ ops, o.action.ByWorker := by
  induction ops with
  | nil => intro f _ o ho; cases ho
  | cons o ops ih =>
      intro f hl o' ho'
      rcases List.mem_cons.mp ho' with rfl | ho'
      · exact hl.1.1
      · exact ih hl.2 o' ho'

section Runs

variable {aid : AssignmentId} {ws : WorkspaceId}

/-- The flags of a run in which nobody else takes the key. -/
theorem effectFlags_own (ops : List FleetOp) : ∀ {f : Fleet},
    f.keyKnown ws (defaultEffectKey aid) = false →
    ((effectFleet cfg).restrict (KeepsOff cfg aid ws)).Legal f ops →
    (∀ a, (ops.foldl (fleetExec cfg) f).row aid = some a → a.workspaceId = ws) →
    effectFlags cfg aid f ops = flagsOf (ownRequests cfg aid f ops) := by
  induction ops with
  | nil => intro f _ _ _; rfl
  | cons o ops ih =>
      intro f hfree hl hws
      have hcreated : ∀ auth r, ackAssignment cfg f o.now auth aid = .ok r → r.2 = true := by
        intro auth r hack
        obtain ⟨a, ha, _, hr⟩ := ackAssignment_created hack
        obtain ⟨b, hb, hsame⟩ := foldl_workspace cfg (o :: ops) ha
        rw [hr, ← hsame, hws b hb, hfree]
        rfl
      rw [effectFlags, ownRequests, effectCreated_eq hcreated]
      by_cases hown : o.accepted cfg f = true ∧ o.action.reserves.map Prod.fst = some aid
      · rw [if_pos hown, effectFlags_spent ops (spent_of_own hown.1 hown.2)
          (byWorker_of_legal ops hl.2)]
        show _ = (if o.action.isAck then [true] else []) ++ _
        cases hack : o.action.isAck <;> simp [hack]
      · rw [if_neg hown]
        exact ih (keyKnown_step hl.1.2 hfree hown) hl.2 hws

/-- Who is told that the key is new, at the end of such a run. -/
theorem created_iff_first (ops : List FleetOp) : ∀ {f : Fleet},
    f.keyKnown ws (defaultEffectKey aid) = false →
    ((effectFleet cfg).restrict (KeepsOff cfg aid ws)).Legal f ops →
    (∀ a, (ops.foldl (fleetExec cfg) f).row aid = some a → a.workspaceId = ws) →
    ∀ now auth r, ackAssignment cfg (ops.foldl (fleetExec cfg) f) now auth aid = .ok r →
      (r.2 = true ↔ ownRequests cfg aid f ops = []) := by
  induction ops with
  | nil =>
      intro f hfree _ hws now auth r hack
      obtain ⟨a, ha, _, hr⟩ := ackAssignment_created hack
      rw [hr, hws a ha, List.foldl_nil, hfree]
      simp [ownRequests]
  | cons o ops ih =>
      intro f hfree hl hws now auth r hack
      by_cases hown : o.accepted cfg f = true ∧ o.action.reserves.map Prod.fst = some aid
      · have hspent : Spent aid (ops.foldl (fleetExec cfg) (fleetExec cfg f o)) := by
          have hby := byWorker_of_legal ops hl.2
          have hfold : ∀ (ops : List FleetOp) (g : Fleet), Spent aid g →
              (∀ o ∈ ops, o.action.ByWorker) → Spent aid (ops.foldl (fleetExec cfg) g) := by
            intro ops
            induction ops with
            | nil => intro g hg _; exact hg
            | cons o ops ih =>
                intro g hg hby
                exact ih _ (hg.step cfg (hby o List.mem_cons_self)) fun o' ho' =>
                  hby o' (List.mem_cons_of_mem _ ho')
          exact hfold ops _ (spent_of_own hown.1 hown.2) hby
        rw [hspent.not_created hack, ownRequests, if_pos hown]
        simp
      · rw [ownRequests, if_neg hown]
        exact ih (keyKnown_step hl.1.2 hfree hown) hl.2 hws now auth r hack

end Runs

/-- **Effect keys do not interfere**, in runs in which no submission of another assignment of the
workspace takes the key of the assignment: an acknowledgement is told that the key is new exactly
when no request about the assignment was accepted before it, and two runs with the same accepted
requests about it return the same flags. -/
theorem effect_flags_own (cfg : Config) (aid : AssignmentId) (ws : WorkspaceId) (f g : Fleet)
    (ops ops' : List FleetOp) (hf : (effectFleet cfg).init f) (hg : (effectFleet cfg).init g)
    (hops : ((effectFleet cfg).restrict (KeepsOff cfg aid ws)).Legal f ops)
    (hops' : ((effectFleet cfg).restrict (KeepsOff cfg aid ws)).Legal g ops')
    (hws : ∀ a, (ops.foldl (fleetExec cfg) f).row aid = some a → a.workspaceId = ws)
    (hws' : ∀ a, (ops'.foldl (fleetExec cfg) g).row aid = some a → a.workspaceId = ws) :
    (∀ now auth r, ackAssignment cfg (ops.foldl (fleetExec cfg) f) now auth aid = .ok r →
      (r.2 = true ↔ ownRequests cfg aid f ops = [])) ∧
    (ownRequests cfg aid f ops = ownRequests cfg aid g ops' →
      effectFlags cfg aid f ops = effectFlags cfg aid g ops') := by
  have hfree : ∀ f : Fleet, (effectFleet cfg).init f →
      f.keyKnown ws (defaultEffectKey aid) = false := by
    intro f hf
    rw [Fleet.keyKnown, hf.2]
    rfl
  refine ⟨created_iff_first ops (hfree f hf) hops hws, fun hsame => ?_⟩
  -- the flags are a function of the requests about the assignment
  rw [effectFlags_own ops (hfree f hf) hops hws,
    effectFlags_own ops' (hfree g hg) hops' hws', hsame]

/-! ## A key that is taken by another script -/

/-- Two runs are started, their scripts are queued, and the worker claims both. -/
def twoClaimed : List FleetOp :=
  [⟨0, .op (.startRun 0 0 0)⟩, ⟨1, .op (.startRun 0 0 0)⟩, ⟨2, .op (.pollAndLease 10 [0, 1])⟩,
   ⟨3, .op (.processLeasedJob 0 [0] 0)⟩, ⟨4, .op (.processLeasedJob 1 [0] 0)⟩,
   ⟨5, .claim deskAuth none [0]⟩, ⟨6, .claim deskAuth none [1]⟩]

/-- The first script is submitted under this key, then the second one is acknowledged. -/
def submittedUnder (key : Option String) : List FleetOp :=
  twoClaimed ++ [⟨7, .submit deskAuth 0 ⟨true, none, "", key⟩ 0⟩, ⟨8, .ack deskAuth 1⟩]

theorem claimFleet_init : (effectFleet deskConfig).init claimFleet :=
  ⟨⟨rfl, rfl, rfl, rfl, rfl, rfl, rfl, rfl, rfl⟩, rfl⟩

/-- The acknowledgement is the one request about the second script. -/
theorem ownRequests_second (key : Option String)
    (hacc : FleetOp.accepted deskConfig
      ((submittedUnder key).dropLast.foldl (fleetExec deskConfig) claimFleet)
      ⟨8, .ack deskAuth 1⟩ = true) :
    ownRequests deskConfig 1 claimFleet (submittedUnder key) = [.ack deskAuth 1] := by
  have hother : ∀ (o : FleetOp) (f : Fleet) (ops : List FleetOp),
      o.action.reserves.map Prod.fst ≠ some 1 →
      ownRequests deskConfig 1 f (o :: ops)
        = ownRequests deskConfig 1 (fleetExec deskConfig f o) ops := by
    intro o f ops ho
    rw [ownRequests, if_neg fun h => ho h.2, List.nil_append]
  show ownRequests deskConfig 1 claimFleet (_ :: _ :: _ :: _ :: _ :: _ :: _ :: _ :: [_]) = _
  iterate 8 rw [hother _ _ _ (by simp [FleetAction.reserves])]
  rw [ownRequests, if_pos ⟨hacc, rfl⟩]
  rfl

/-- Under a key of its own, or under none, it makes no difference to the second script. -/
theorem own_key_not_taken :
    effectFlags deskConfig 1 claimFleet (submittedUnder none) = [true] ∧
    effectFlags deskConfig 1 claimFleet (submittedUnder (some "draft"))
      = effectFlags deskConfig 1 claimFleet (submittedUnder none) := by
  have hrow : ∀ (f : Fleet), (f.row 1).map StageAssignment.workspaceId = some 0 →
      ∀ a, f.row 1 = some a → a.workspaceId = 0 := by
    intro f hf a ha
    rw [ha] at hf
    exact Option.some.inj hf
  refine ⟨by decide +kernel, ?_⟩
  refine (effect_flags_own deskConfig 1 0 claimFleet claimFleet _ _ claimFleet_init claimFleet_init
    ?_ ?_ (hrow _ ?_) (hrow _ ?_)).2 ?_
  · decide +kernel
  · decide +kernel
  · decide +kernel
  · decide +kernel
  · rw [ownRequests_second _ (by decide +kernel), ownRequests_second _ (by decide +kernel)]

/-- Two runs that differ in the key of the first script only: the second script is told that its
effect was produced before, or that it was not. -/
theorem foreign_key_taken :
    (effectFleet deskConfig).init claimFleet ∧
    (effectFleet deskConfig).Legal claimFleet (submittedUnder (some "1")) ∧
    (effectFleet deskConfig).Legal claimFleet (submittedUnder none) ∧
    effectFlags deskConfig 1 claimFleet (submittedUnder (some "1")) = [false] ∧
    effectFlags deskConfig 1 claimFleet (submittedUnder none) = [true] ∧
    ownRequests deskConfig 1 claimFleet (submittedUnder (some "1"))
      = ownRequests deskConfig 1 claimFleet (submittedUnder none) := by
  refine ⟨claimFleet_init, by decide +kernel, by decide +kernel, by decide +kernel,
    by decide +kernel, ?_⟩
  rw [ownRequests_second _ (by decide +kernel), ownRequests_second _ (by decide +kernel)]

end HumanGate
