import HumanGate.Fleet.Exclusive

set_option autoImplicit false

/-! # Claim tokens

A claim is repeated under the same token when its answer is lost. The replay looks for the
assignment that the worker holds under the token, but only among the dispatched ones: an
acknowledged one is not found, and the repeated claim is granted another (`late_duplicate_granted`).
As long as no claim arrives while the worker has acknowledged an assignment under the claim's token,
a token stands for one assignment (`Crew.Tokens`), and every repeated claim returns it.
-/

namespace HumanGate

open Lib Lib.Calendar Relation

variable {cfg : Config} {now : Instant} {c c' : Crew} {f : Fleet} {wid : WorkerId}
  {token : ClaimToken}

/-! ## What is held under a token -/

/-- The assignment is in the worker's hands, under the token. -/
def StageAssignment.carries (wid : WorkerId) (token : ClaimToken) (a : StageAssignment) : Prop :=
  a.workerId = some wid ∧ a.claimToken = some token ∧ a.status.inFlight = true

/-- Only claimed rows have a token, a claimed row is in the scope of the worker that claimed it, and
what a worker holds under a token is one assignment. -/
structure Crew.Tokens (c : Crew) : Prop where
  claimed : ∀ a ∈ c.assignments, a.claimToken ≠ none → a.claimedBy = a.workerId
  scope : ∀ a ∈ c.assignments, ∀ wid, a.claimedBy = some wid →
    ∃ w, c.workers[wid]? = some w ∧ w.serves a.workspaceId = true
  unique : ∀ (wid : WorkerId) (token : ClaimToken) (i j : AssignmentId) (a b : StageAssignment),
    c.assignments[i]? = some a → c.assignments[j]? = some b → a.carries wid token →
    b.carries wid token → i = j

/-- What every move but a claim leaves of a row's claim: it is the row's as before, or cleared. -/
structure KeepsClaim (a a' : StageAssignment) : Prop where
  carries : ∀ wid token, a'.carries wid token → a.carries wid token
  claimedBy : ∀ wid, a'.claimedBy = some wid → a.claimedBy = some wid
  claimed : (a.claimToken ≠ none → a.claimedBy = a.workerId) →
    a'.claimToken ≠ none → a'.claimedBy = a'.workerId
  workspaceId : a'.workspaceId = a.workspaceId

theorem KeepsClaim.refl (a : StageAssignment) : KeepsClaim a a :=
  ⟨fun _ _ h => h, fun _ h => h, fun h => h, rfl⟩

theorem RowMove.keepsClaim {k : MoveKind} {a a' : StageAssignment} (h : RowMove cfg now a k a')
    (hclaim : k ≠ .claim) (hconfirm : k ≠ .confirm) : KeepsClaim a a' := by
  -- a row that is closed is no longer in flight
  have hclosed : ∀ {b : StageAssignment}, b.status.inFlight = false →
      ∀ wid token, ¬ b.carries wid token := by
    rintro b hb wid token ⟨_, _, hflight⟩
    rw [hb] at hflight
    cases hflight
  cases h with
  | claim => exact absurd rfl hclaim
  | confirm => exact absurd rfl hconfirm
  | acknowledge secs hst =>
      refine ⟨fun wid token hc => ⟨hc.1, hc.2.1, ?_⟩, fun _ h => h, fun h => h, rfl⟩
      rw [hst]
      rfl
  | extend secs => exact ⟨fun _ _ h => h, fun _ h => h, fun h => h, rfl⟩
  | close success result hst =>
      refine ⟨fun wid token hc => absurd hc ?_, fun _ h => h, fun h => h, rfl⟩
      refine hclosed ?_ wid token
      cases success <;> rfl
  | requeue hst =>
      refine ⟨fun wid token hc => ?_, fun _ h => ?_, fun _ h => absurd rfl h, rfl⟩
      · cases hc.2.1
      · cases h
  | exhaust hst =>
      refine ⟨fun wid token hc => ?_, fun _ h => ?_, fun _ h => absurd rfl h, rfl⟩
      · cases hc.2.1
      · cases h
  | cancel hst =>
      exact ⟨fun wid token hc => absurd hc (hclosed rfl wid token),
        fun _ h => h, fun h => h, rfl⟩

/-- A new row is not claimed. -/
theorem NewRow.unclaimed {k : MoveKind} {a : StageAssignment} (h : NewRow cfg now a k) :
    a.claimToken = none ∧ a.claimedBy = none := by
  cases h with
  | queue args stage ha => rw [ha]; exact ⟨rfl, rfl⟩
  | assign args stage wid ha => rw [ha]; exact ⟨rfl, rfl⟩

theorem serves_congr {w w' : WorkerRegistration} (h : w'.workspaceId = w.workspaceId)
    (ws : WorkspaceId) : w'.serves ws = w.serves ws := by
  unfold WorkerRegistration.serves
  rw [h]

/-- A worker keeps its scope. -/
theorem Move.serves {k : MoveKind} (h : Move cfg now k c c') {w : WorkerRegistration}
    (hw : c.workers[wid]? = some w) :
    ∃ w', c'.workers[wid]? = some w' ∧ ∀ ws, w'.serves ws = w.serves ws := by
  have hpin := congrArg (fun pins => pins[wid]?) h.pins
  simp only [List.getElem?_map, hw, Option.map_some] at hpin
  obtain ⟨w', hw', hpin⟩ := Option.map_eq_some_iff.mp hpin
  exact ⟨w', hw', serves_congr hpin⟩

/-- **Any move but a claim** keeps what is held under the tokens. -/
theorem Move.tokens {k : MoveKind} (h : Move cfg now k c c') (hclaim : k ≠ .claim)
    (hconfirm : k ≠ .confirm) (hc : c.Tokens) : c'.Tokens := by
  have hrow : ∀ (i : AssignmentId) (a' : StageAssignment), c'.assignments[i]? = some a' →
      (∃ a, c.assignments[i]? = some a ∧ KeepsClaim a a') ∨
        a'.claimToken = none ∧ a'.claimedBy = none := by
    intro i a' ha'
    rcases h.row ha' with hsame | ⟨a, ha, hmove⟩ | ⟨_, hnew⟩
    · exact .inl ⟨a', hsame, .refl a'⟩
    · exact .inl ⟨a, ha, hmove.keepsClaim hclaim hconfirm⟩
    · exact .inr hnew.unclaimed
  refine ⟨fun a' ha' htoken => ?_, fun a' ha' wid hby => ?_,
    fun wid token i j a' b' hi hj ha hb => ?_⟩
  · obtain ⟨i, hi⟩ := List.getElem?_of_mem ha'
    rcases hrow i a' hi with ⟨a, ha, hkeep⟩ | ⟨hnone, _⟩
    · exact hkeep.claimed (hc.claimed a (Table.mem_of_get ha)) htoken
    · exact absurd hnone htoken
  · obtain ⟨i, hi⟩ := List.getElem?_of_mem ha'
    rcases hrow i a' hi with ⟨a, ha, hkeep⟩ | ⟨_, hnone⟩
    · obtain ⟨w, hw, hserves⟩ := hc.scope a (Table.mem_of_get ha) wid (hkeep.claimedBy wid hby)
      obtain ⟨w', hw', hsame⟩ := h.serves hw
      exact ⟨w', hw', by rw [hsame, hkeep.workspaceId, hserves]⟩
    · rw [hnone] at hby
      cases hby
  · rcases hrow i a' hi with ⟨a, hia, hkeepa⟩ | ⟨hnone, _⟩
    · rcases hrow j b' hj with ⟨b, hjb, hkeepb⟩ | ⟨hnone, _⟩
      · exact hc.unique wid token i j a b hia hjb (hkeepa.carries wid token ha)
          (hkeepb.carries wid token hb)
      · rw [hb.2.1] at hnone
        cases hnone
    · rw [ha.2.1] at hnone
      cases hnone

/-! ## Claims -/

/-- What a claim does to the crew: nothing, or the worker, that holds nothing dispatched under the
token, is given a pending assignment in its scope. -/
theorem claimAssignment_grants {s : Db} {token : Option ClaimToken} {ws : Option WorkspaceId}
    {rows : List AssignmentId} {r : ClaimResult}
    (h : claimAssignment cfg s now wid token ws rows = .ok r) :
    r.db.crew = s.crew ∨ ∃ w aid a, s.workers[wid]? = some w ∧ claimRefusal cfg w now = none ∧
      token.elim [] (heldUnder s wid w) = [] ∧ s.assignments[aid]? = some a ∧
      claimable w a = true ∧ r.db.crew = s.crew.give cfg now aid wid token := by
  have hclaimed := claimAssignment_claimed h
  generalize hdb : r.db = s' at hclaimed ⊢
  cases hclaimed with
  | nothing hcrew => exact .inl hcrew
  | @granted w aid a hw hmay hcand _ hcrew _ =>
      obtain ⟨ha, hclaimable, _⟩ := claimCandidate_spec hcand
      rcases hheld : token.elim [] (heldUnder s wid w) with _ | ⟨held, more⟩
      · exact .inr ⟨w, aid, a, hw, hmay.1, hheld, ha, hclaimable, hcrew⟩
      · -- a replay writes an audit row only
        left
        unfold claimAssignment at h
        simp only [hw, hheld] at h
        cases more with
        | nil =>
            cases h
            rw [← hdb]
            exact crew_recordClaim ..
        | cons held' more => cases h

/-- What is dispatched to a worker under a token is found again. -/
theorem mem_heldUnder {s : Db} (hs : s.crew.Tokens) {w : WorkerRegistration}
    (hw : s.workers[wid]? = some w) {aid : AssignmentId} {a : StageAssignment}
    (ha : s.assignments[aid]? = some a) (hcarries : a.carries wid token)
    (hst : a.status = .dispatched) : aid ∈ heldUnder s wid w token := by
  obtain ⟨hworker, htoken, _⟩ := hcarries
  have hmem := Table.mem_of_get ha
  have hby : a.claimedBy = some wid := by
    rw [hs.claimed a hmem (by rw [htoken]; exact Option.some_ne_none token), hworker]
  obtain ⟨w', hw', hserves⟩ := hs.scope a hmem wid hby
  have hsame : w' = w := Option.some.inj (hw'.symm.trans hw)
  refine Table.mem_select.mpr ⟨a, ha, ?_⟩
  rw [hby, htoken, hst, ← hsame, hserves]
  simp

/-- The worker has acknowledged nothing under the token. -/
def NoneAcknowledged (s : Db) (wid : WorkerId) (token : ClaimToken) : Prop :=
  ∀ a ∈ s.assignments, a.carries wid token → a.status ≠ .acknowledged

theorem dispatched_of_noneAcknowledged {s : Db} (hnone : NoneAcknowledged s wid token)
    {a : StageAssignment} (ha : a ∈ s.assignments) (hcarries : a.carries wid token) :
    a.status = .dispatched := by
  have hack := hnone a ha hcarries
  have hflight := hcarries.2.2
  unfold StageAssignmentStatus.inFlight at hflight
  cases hst : a.status with
  | dispatched => rfl
  | acknowledged => exact absurd hst hack
  | _ =>
      rw [hst] at hflight
      cases hflight

/-- **A claim** keeps what is held under the tokens, if the worker has acknowledged nothing under
its own. -/
theorem give_tokens {s : Db} {token : Option ClaimToken} {w : WorkerRegistration}
    {aid : AssignmentId} {a : StageAssignment} (hs : s.crew.Tokens)
    (hw : s.workers[wid]? = some w) (hrefusal : claimRefusal cfg w now = none)
    (hheld : token.elim [] (heldUnder s wid w) = [])
    (hnone : ∀ t ∈ token, NoneAcknowledged s wid t) (ha : s.assignments[aid]? = some a)
    (hclaimable : claimable w a = true) : (s.crew.give cfg now aid wid token).Tokens := by
  obtain ⟨hpending, hscope⟩ : a.status = .pending ∧ w.serves a.workspaceId = true := by
    unfold claimable at hclaimable
    simp only [Bool.and_eq_true, beq_iff_eq] at hclaimable
    exact ⟨hclaimable.1.1, hclaimable.2⟩
  have hmove : Move cfg now .claim s.crew (s.crew.give cfg now aid wid token) :=
    .claim token ha hpending hw hrefusal
  have hrow : ∀ (i : AssignmentId) (b : StageAssignment),
      (s.crew.give cfg now aid wid token).assignments[i]? = some b →
      s.assignments[i]? = some b ∨
        i = aid ∧ b = { a.claim cfg now wid token with updatedAt := now } := by
    intro i b hb
    rw [Crew.give, Crew.slot_assignments] at hb
    rcases Crew.get_update hb with hold | ⟨a', heq, ha', hnew⟩
    · exact .inl hold
    · right
      subst heq
      have hsame : a' = a := Option.some.inj (ha'.symm.trans ha)
      exact ⟨rfl, by rw [hnew, hsame]⟩
  -- nothing but the new row is held under the token of the claim
  have hfree : ∀ (i : AssignmentId) (b : StageAssignment) (t : ClaimToken), token = some t →
      s.assignments[i]? = some b → ¬ b.carries wid t := by
    rintro i b t rfl hb hcarries
    have hst := dispatched_of_noneAcknowledged (hnone t rfl) (Table.mem_of_get hb) hcarries
    have hmem := mem_heldUnder hs hw hb hcarries hst
    rw [show heldUnder s wid w t = [] from hheld] at hmem
    cases hmem
  refine ⟨fun b hb htoken => ?_, fun b hb wid' hby => ?_,
    fun wid' t i j b b' hi hj hb hb' => ?_⟩
  · obtain ⟨i, hi⟩ := List.getElem?_of_mem hb
    rcases hrow i b hi with hold | ⟨_, rfl⟩
    · exact hs.claimed b (Table.mem_of_get hold) htoken
    · rfl
  · obtain ⟨i, hi⟩ := List.getElem?_of_mem hb
    rcases hrow i b hi with hold | ⟨_, rfl⟩
    · obtain ⟨w', hw', hserves⟩ := hs.scope b (Table.mem_of_get hold) wid' hby
      obtain ⟨w'', hw'', hsame⟩ := hmove.serves hw'
      exact ⟨w'', hw'', by rw [hsame, hserves]⟩
    · cases hby
      obtain ⟨w', hw', hsame⟩ := hmove.serves hw
      exact ⟨w', hw', (hsame a.workspaceId).trans hscope⟩
  · rcases hrow i b hi with holdi | ⟨rfl, rfl⟩
    · rcases hrow j b' hj with holdj | ⟨rfl, rfl⟩
      · exact hs.unique wid' t i j b b' holdi holdj hb hb'
      · have hwid : wid' = wid := (Option.some.inj hb'.1).symm
        subst hwid
        exact absurd hb (hfree i b t hb'.2.1 holdi)
    · rcases hrow j b' hj with holdj | ⟨rfl, _⟩
      · have hwid : wid' = wid := (Option.some.inj hb.1).symm
        subst hwid
        exact absurd hb' (hfree j b' t hb.2.1 holdj)
      · rfl

/-! ## Requests -/

/-- Who claims, and under which token. -/
def FleetAction.claims : FleetAction → Option (WorkerId × Option ClaimToken)
  | .op (.claimAssignment wid token _ _) => some (wid, token)
  | .claim auth token _ => some (auth.workerId, token)
  | _ => none

/-- The condition on a request: a claim under a token does not come from a worker that has
acknowledged an assignment under this token. -/
def NotAcknowledged (f : Fleet) (o : FleetOp) : Prop :=
  ∀ wid token, o.action.claims = some (wid, some token) → NoneAcknowledged f.db wid token

theorem kinds_of_not_claims {a : FleetAction} (h : a.claims = none) : .claim ∉ a.kinds := by
  cases a with
  | op action =>
      cases action with
      | claimAssignment => cases h
      | acknowledge aid secs worker => cases worker <;> simp [FleetAction.kinds, Action.kinds]
      | _ => simp [FleetAction.kinds, Action.kinds]
  | claim => cases h
  | _ => simp [FleetAction.kinds]

theorem tokens_of_claim {s : Db} (hs : s.crew.Tokens) {token : Option ClaimToken}
    (hnone : ∀ t ∈ token, NoneAcknowledged s wid t) {ws : Option WorkspaceId}
    {rows : List AssignmentId} {r : ClaimResult}
    (h : claimAssignment cfg s now wid token ws rows = .ok r) : r.db.crew.Tokens := by
  rcases claimAssignment_grants h with hsame | ⟨w, aid, a, hw, hrefusal, hheld, ha,
    hclaimable, hgive⟩
  · rw [hsame]
    exact hs
  · rw [hgive]
    exact give_tokens hs hw hrefusal hheld hnone ha hclaimable

/-- **One request** keeps what is held under the tokens. -/
theorem fleetExec_tokens {o : FleetOp} (hby : o.action.ByWorker) (hcond : NotAcknowledged f o)
    (hf : f.db.crew.Tokens) : (fleetExec cfg f o).db.crew.Tokens := by
  cases hclaims : o.action.claims with
  | none =>
      refine (fleetExec_moves cfg f o).invariant (fun k hk c c' hmove => ?_) hf
      refine hmove.tokens ?_ ?_
      · rintro rfl
        exact kinds_of_not_claims hclaims hk
      · rintro rfl
        exact hby.kinds hk
  | some claim =>
      obtain ⟨wid, token⟩ := claim
      have hnone : ∀ t ∈ token, NoneAcknowledged f.db wid t := by
        intro t ht
        exact hcond wid t (by rw [hclaims, Option.mem_def.mp ht])
      obtain ⟨now, action⟩ := o
      cases action with
      | op action =>
          cases action with
          | claimAssignment wid' token' ws rows =>
              cases hclaims
              show (exec cfg f.db ⟨now, .claimAssignment wid token ws rows⟩).crew.Tokens
              rcases commit_ofExcept (t := exec cfg f.db ⟨now, .claimAssignment wid token ws rows⟩)
                rfl with hexec | ⟨s', hok, hexec⟩
              · rw [hexec]
                exact hf
              · obtain ⟨r, hclaim, rfl⟩ := map_ok hok
                rw [hexec, crew_flush]
                exact tokens_of_claim hf hnone hclaim
          | _ => cases hclaims
      | claim auth token' rows =>
          cases hclaims
          unfold fleetExec FleetOp.call
          simp only
          cases hclaim : claimEndpoint cfg f now auth token rows with
          | error e => exact hf
          | ok p =>
              unfold claimEndpoint at hclaim
              split at hclaim
              · cases hclaim
              · split at hclaim
                · cases hclaim
                · rename_i r hr
                  cases hclaim
                  exact tokens_of_claim hf hnone hr
      | _ => cases hclaims

/-- A repeated claim returns what the worker holds under the token. -/
theorem claim_again (cfg : Config) (now : Instant) {s : Db} (hs : s.crew.Tokens)
    (hnone : NoneAcknowledged s wid token)
    {aid : AssignmentId} {a : StageAssignment} (ha : s.assignments[aid]? = some a)
    (hcarries : a.carries wid token) (ws : Option WorkspaceId) (rows : List AssignmentId) :
    ∃ r, claimAssignment cfg s now wid (some token) ws rows = .ok r ∧ r.outcome = .granted ∧
      r.assignment = some aid := by
  have hst := dispatched_of_noneAcknowledged hnone (Table.mem_of_get ha) hcarries
  obtain ⟨hworker, htoken, _⟩ := id hcarries
  have hby : a.claimedBy = some wid := by
    rw [hs.claimed a (Table.mem_of_get ha) (by rw [htoken]; exact Option.some_ne_none token),
      hworker]
  obtain ⟨w, hcrew, _⟩ := hs.scope a (Table.mem_of_get ha) wid hby
  have hw : s.workers[wid]? = some w := hcrew
  have hmem := mem_heldUnder hs hw ha hcarries hst
  -- everything that is found is this assignment
  have hall : ∀ i ∈ heldUnder s wid w token, i = aid := by
    intro i hi
    obtain ⟨b, hb, hsel⟩ := Table.mem_select.mp hi
    simp only [Bool.and_eq_true, beq_iff_eq] at hsel
    obtain ⟨⟨⟨hclaimed, htok⟩, hdispatched⟩, _⟩ := hsel
    refine hs.unique wid token i aid b a hb ha ⟨?_, htok, by rw [hdispatched]; rfl⟩ hcarries
    rw [← hs.claimed b (Table.mem_of_get hb) (by rw [htok]; exact Option.some_ne_none token),
      hclaimed]
  have hnodup : (heldUnder s wid w token).Nodup := Table.select_nodup ..
  have hheld : heldUnder s wid w token = [aid] := by
    have hperm : (heldUnder s wid w token).Perm [aid] := by
      refine (List.perm_ext_iff_of_nodup hnodup (List.nodup_singleton aid)).mpr fun i => ?_
      rw [List.mem_singleton]
      exact ⟨hall i, fun heq => heq ▸ hmem⟩
    exact List.perm_singleton.mp hperm
  unfold claimAssignment
  simp only [hw, Option.elim_some, hheld]
  exact ⟨_, rfl, rfl, rfl⟩

/-! ## Runs -/

/-- **A token stands for one assignment.** In every run in which no claim under a token arrives
while the worker has acknowledged an assignment under it, no worker ever holds two assignments under
one token, and a repeated claim returns the assignment that the worker holds. -/
theorem token_grants_once (cfg : Config) (f : Fleet)
    (h : ((workerFleet cfg).restrict NotAcknowledged).Reachable f) :
    (∀ wid token i j a b, f.row i = some a → f.row j = some b → a.carries wid token →
      b.carries wid token → i = j) ∧
    ∀ now (auth : AuthenticatedWorker) token rows aid a, f.row aid = some a →
      a.carries auth.workerId token → NoneAcknowledged f.db auth.workerId token →
      credentialRefusal f now auth = none →
      ∃ p, claimEndpoint cfg f now auth (some token) rows = .ok p ∧ p.2.outcome = .granted ∧
        p.2.assignment = some aid := by
  have htokens : f.db.crew.Tokens := by
    refine h.invariant (I := fun f => f.db.crew.Tokens) ?_ ?_
    · -- nothing is held at the start
      intro f hf
      have hnil : f.db.crew.assignments = [] := hf.assignments
      refine ⟨fun a ha => ?_, fun a ha => ?_, fun wid token i j a b hi => ?_⟩
      · rw [hnil] at ha
        cases ha
      · rw [hnil] at ha
        cases ha
      · rw [hnil] at hi
        cases hi
    · intro f o hf ho
      exact fleetExec_tokens ho.1 ho.2 hf
  refine ⟨htokens.unique, fun now auth token rows aid a ha hcarries hnone hcred => ?_⟩
  obtain ⟨r, hr, hgranted, hsame⟩ :=
    claim_again cfg now htokens hnone ha hcarries (some auth.workspaceId) rows
  unfold claimEndpoint
  simp only [hcred, hr]
  exact ⟨_, rfl, hgranted, hsame⟩

/-! ## A late duplicate -/

/-- Two runs are started and their scripts queued; the worker claims under a token. -/
def tokenOps : List FleetOp :=
  [⟨0, .op (.startRun 0 0 0)⟩, ⟨0, .op (.startRun 0 0 0)⟩, ⟨1, .op (.pollAndLease 10 [0, 1])⟩,
   ⟨2, .op (.processLeasedJob 0 [0] 0)⟩, ⟨2, .op (.processLeasedJob 1 [0] 0)⟩,
   ⟨3, .claim deskAuth (some 7) [0, 1]⟩]

/-- It acknowledges the script, and the claim arrives once more. -/
def lateOps : List FleetOp := tokenOps ++
    [⟨4, .ack deskAuth 0⟩, ⟨5, .claim deskAuth (some 7) [0, 1]⟩]

/-- The rows of the two scripts. -/
theorem late_rows : (lateOps.foldl (fleetExec deskConfig) claimFleet).db.assignments.map
    (fun a => (a.workerId, a.claimToken, a.status.inFlight))
      = [(some 0, some 7, true), (some 0, some 7, true)] := by
  decide +kernel

/-- The duplicate is granted the other script: the worker holds both under the token. -/
theorem late_duplicate_granted :
    ∃ f, (workerFleet deskConfig).Reachable f ∧ ∃ a b, f.row 0 = some a ∧ f.row 1 = some b ∧
      a.carries 0 7 ∧ b.carries 0 7 := by
  have hrun : (workerFleet deskConfig).Reachable
      (lateOps.foldl (fleetExec deskConfig) claimFleet) := by
    refine .of_legal lateOps (.init ?_) ?_
    · exact ⟨rfl, rfl, rfl, rfl, rfl, rfl, rfl, rfl, rfl⟩
    · exact ⟨trivial, trivial, trivial, trivial, trivial, trivial, trivial, trivial, trivial⟩
  have hrow : ∀ i < 2, ∃ a, (lateOps.foldl (fleetExec deskConfig) claimFleet).row i = some a ∧
      a.carries 0 7 := by
    intro i hi
    have hget := congrArg (fun l => l[i]?) late_rows
    have hpair : ([(some 0, some 7, true), (some 0, some 7, true)] :
        List (Option WorkerId × Option ClaimToken × Bool))[i]? = some (some 0, some 7, true) := by
      interval_cases i <;> rfl
    simp only [List.getElem?_map] at hget
    rw [hpair] at hget
    obtain ⟨a, ha, hfields⟩ := Option.map_eq_some_iff.mp hget
    simp only [Prod.mk.injEq] at hfields
    exact ⟨a, ha, hfields⟩
  obtain ⟨a, ha, hca⟩ := hrow 0 (by decide)
  obtain ⟨b, hb, hcb⟩ := hrow 1 (by decide)
  exact ⟨_, hrun, a, b, ha, hb, hca, hcb⟩

/-- A request that is no claim meets the condition. -/
theorem notAcknowledged_of_not_claims {o : FleetOp} (h : o.action.claims = none) :
    NotAcknowledged f o := by
  intro wid token hclaims
  rw [h] at hclaims
  cases hclaims

/-- A duplicate that arrives before the acknowledgement returns the script that was granted. -/
theorem early_duplicate_replayed :
    ∃ p, claimEndpoint deskConfig
      (tokenOps.foldl (fleetExec deskConfig) claimFleet) 4 deskAuth (some 7)
        [0, 1] = .ok p ∧ p.2.outcome = .granted ∧ p.2.assignment = some 0 := by
  have hbefore : ∀ a ∈ ((tokenOps.take 5).foldl (fleetExec deskConfig) claimFleet).db.assignments,
      a.status ≠ .acknowledged := by decide +kernel
  have hafter : ∀ a ∈ (tokenOps.foldl (fleetExec deskConfig) claimFleet).db.assignments,
      a.status ≠ .acknowledged := by decide +kernel
  have hrun : ((workerFleet deskConfig).restrict NotAcknowledged).Reachable
      (tokenOps.foldl (fleetExec deskConfig) claimFleet) := by
    refine .of_legal tokenOps (.init ?_) ?_
    · exact ⟨rfl, rfl, rfl, rfl, rfl, rfl, rfl, rfl, rfl⟩
    · refine ⟨⟨trivial, notAcknowledged_of_not_claims rfl⟩,
        ⟨trivial, notAcknowledged_of_not_claims rfl⟩, ⟨trivial, notAcknowledged_of_not_claims rfl⟩,
        ⟨trivial, notAcknowledged_of_not_claims rfl⟩, ⟨trivial, notAcknowledged_of_not_claims rfl⟩,
        ⟨trivial, fun _ _ _ a ha _ => hbefore a ha⟩, trivial⟩
  have hrow : ((tokenOps.foldl (fleetExec deskConfig) claimFleet).row 0).map
      (fun a => (a.workerId, a.claimToken, a.status.inFlight)) = some (some 0, some 7, true) := by
    decide +kernel
  obtain ⟨a, ha, hfields⟩ := Option.map_eq_some_iff.mp hrow
  simp only [Prod.mk.injEq] at hfields
  exact (token_grants_once deskConfig _ hrun).2 4 deskAuth 7 [0, 1] 0 a ha hfields
    (fun b hb _ => hafter b hb) (by decide +kernel)

end HumanGate
