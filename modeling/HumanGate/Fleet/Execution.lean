import HumanGate.Fleet.Effects
import HumanGate.Model.Client

set_option autoImplicit false

/-! # The executor is called once

The guarantee is split over the server and the worker. The server reserves the effect key of an
assignment once, over all its attempts, and tells the one acknowledgement that reserved it. The
worker calls the executor on that answer only, and once for each of its calls. What is kept through
a run (`SiteInv`) ties the two: an executor's call goes back to a committed acknowledgement, under
the number of the call, and an assignment has one of these.
-/

namespace HumanGate

open Lib Lib.Calendar

variable {cfg : Config} {now : Instant}

/-- Every order of the processes' steps, of arrivals, crashes, losses and repetitions, and of
whatever else the server does. -/
def site (cfg : Config) : System Site SiteOp where
  init s := Fresh s.fleet.db ∧ s.clients = [] ∧ s.requests = [] ∧ s.responses = [] ∧
    s.reserved = [] ∧ s.executions = []
  allowed _ _ := True
  exec := siteExec cfg

/-! ## One step of a process -/

/-- What a step of a process may do: calls are numbered upwards, and the process waits for the call
it waited for before or for the one it makes. -/
structure ClientStep.Follows (st : ClientStep) (c : ReferenceWorkerClient) : Prop where
  calls : c.calls ≤ st.client.calls
  sent : st.request.isSome = true → c.calls < st.client.calls
  awaits : ∀ call, st.client.awaits = some call → c.awaits = some call ∨ call = c.calls
  acking : ∀ call aid, st.client.phase = .acking call aid →
    c.phase = .acking call aid ∨ (call = c.calls ∧ st.request = some (.ack aid))

variable {c : ReferenceWorkerClient}

theorem follows_stay : ClientStep.Follows ⟨c, none, none⟩ c where
  calls := Nat.le_refl _
  sent h := by cases h
  awaits _ h := .inl h
  acking _ _ h := .inl h

/-- A step that waits for nothing. -/
theorem follows_rest {st : ClientStep} (hcalls : c.calls ≤ st.client.calls)
    (hsent : st.request.isSome = true → c.calls < st.client.calls)
    (hrest : st.client.awaits = none) : st.Follows c where
  calls := hcalls
  sent := hsent
  awaits call h := by
    rw [hrest] at h
    cases h
  acking call aid h := by
    rw [ReferenceWorkerClient.awaits, h] at hrest
    cases hrest

theorem follows_goto {phase : ClientPhase} (h : phase = .idle ∨ phase = .crashed) :
    (c.goto phase).Follows c := by
  refine follows_rest (Nat.le_refl _) (fun h => by cases h) ?_
  rcases h with rfl | rfl <;> rfl

/-- A step that makes a call, and waits for it if it waits for any. -/
theorem follows_post {request : ClientRequest} {phase : Nat → ClientPhase}
    (hwaits : ∀ call, (c.post request phase).client.awaits = some call → call = c.calls)
    (hack : ∀ call aid, phase c.calls = .acking call aid →
      call = c.calls ∧ some request = some (.ack aid)) : (c.post request phase).Follows c where
  calls := Nat.le_succ _
  sent _ := Nat.lt_succ_self _
  awaits call h := .inr (hwaits call h)
  acking call aid h := .inr (hack call aid h)

theorem handle_follows (input : ClientInput) : (c.handle input).Follows c := by
  have hwaited : ∀ call call' : Nat, some call = some call' → call' = call := fun _ _ h =>
    (Option.some.inj h).symm
  cases input with
  | claimNext token =>
      unfold ReferenceWorkerClient.handle
      simp only
      split
      · exact follows_stay
      · exact follows_post (hwaited _) fun _ _ h => by cases h
  | runOne =>
      unfold ReferenceWorkerClient.handle
      simp only
      split
      · refine follows_post (hwaited _) fun call aid h => ?_
        cases h
        exact ⟨rfl, rfl⟩
      · exact follows_stay
  | transportError =>
      unfold ReferenceWorkerClient.handle
      simp only
      split
      · exact follows_post (hwaited _) fun _ _ h => by cases h
      · exact follows_goto (.inl rfl)
      · exact follows_goto (.inl rfl)
      · exact follows_goto (.inl rfl)
      · exact follows_stay
  | renew =>
      unfold ReferenceWorkerClient.handle
      simp only
      split
      · exact follows_post (fun _ h => by cases h) fun _ _ h => by cases h
      · exact follows_stay
  | renewRaised =>
      unfold ReferenceWorkerClient.handle
      simp only
      split
      · exact follows_goto (.inl rfl)
      · exact follows_stay
  | executed success result error =>
      unfold ReferenceWorkerClient.handle
      simp only
      split
      · exact follows_post (hwaited _) fun _ _ h => by cases h
      · exact follows_stay
  | drain => exact ⟨Nat.le_refl _, fun h => (by cases h), fun _ h => .inl h, fun _ _ h => .inl h⟩
  | crash => exact follows_goto (.inr rfl)

theorem handle_executes (input : ClientInput) : (c.handle input).executes = none := by
  unfold ReferenceWorkerClient.handle
  split <;> try split
  all_goals rfl

theorem receive_follows (response : ClientResponse) : (c.receive response).Follows c := by
  have hwaited : ∀ call call' : Nat, some call = some call' → call' = call := fun _ _ h =>
    (Option.some.inj h).symm
  unfold ReferenceWorkerClient.receive
  split
  · exact follows_rest (Nat.le_refl _) (fun h => by cases h) rfl
  · exact follows_goto (.inl rfl)
  · split
    · exact follows_post (hwaited _) fun _ _ h => by cases h
    · exact follows_rest (Nat.le_refl _) (fun h => by cases h) rfl
  · exact follows_goto (.inl rfl)
  · exact follows_rest (Nat.le_refl _) (fun h => by cases h) rfl
  · exact follows_goto (.inl rfl)
  · exact follows_stay

/-- **When the executor is called**: on the answer to an acknowledgement, unless it says that the
key was reserved before. The process then waits for nothing. -/
theorem receive_executes {response : ClientResponse} {call : Nat} {aid : AssignmentId}
    (h : (c.receive response).executes = some (call, aid)) :
    c.phase = .acking call aid ∧ (∃ created, response = .lease created ∧ created ≠ some false) ∧
      (c.receive response).client.awaits = none := by
  unfold ReferenceWorkerClient.receive at h ⊢
  split at h
  · cases h
  · cases h
  · rename_i hphase
    split at h
    · cases h
    · rename_i hcreated
      cases h
      exact ⟨hphase, ⟨_, rfl, hcreated⟩, by rw [if_neg hcreated]; rfl⟩
  all_goals cases h

/-! ## The server -/

theorem serveRequest_fleet (cfg : Config) (now : Instant) (f : Fleet) (rows : List AssignmentId)
    (jitter : Nat) (q : HttpRequest) :
    ∃ action, (serveRequest cfg f now rows jitter q).1 = fleetExec cfg f ⟨now, action⟩ := by
  unfold serveRequest
  split
  · rename_i token _
    refine ⟨.claim q.auth (some token) rows, ?_⟩
    simp only [fleetExec, FleetOp.call, answer]
    cases claimEndpoint cfg f now q.auth (some token) rows <;> rfl
  · rename_i aid _
    refine ⟨.ack q.auth aid, ?_⟩
    simp only [fleetExec, FleetOp.call, answer]
    cases ackAssignment cfg f now q.auth aid <;> rfl
  · rename_i aid _
    refine ⟨.renew q.auth aid, ?_⟩
    simp only [fleetExec, FleetOp.call, answer]
    cases renewAssignmentLease cfg f now q.auth aid <;> rfl
  · rename_i aid payload _
    refine ⟨.submit q.auth aid payload jitter, ?_⟩
    simp only [fleetExec, FleetOp.call, answer]
    cases submitAssignmentResult cfg f now q.auth aid payload jitter <;> rfl

/-- The effect key of the assignment is taken. -/
def KeyTaken (f : Fleet) (aid : AssignmentId) : Prop :=
  ∃ a, f.row aid = some a ∧ f.keyKnown a.workspaceId (defaultEffectKey aid) = true

theorem KeyTaken.step {f : Fleet} {aid : AssignmentId} (h : KeyTaken f aid) (o : FleetOp) :
    KeyTaken (fleetExec cfg f o) aid := by
  obtain ⟨a, ha, hknown⟩ := h
  obtain ⟨b, hb, hws⟩ := fleetExec_workspace cfg o ha
  refine ⟨b, hb, ?_⟩
  rw [hws]
  exact keyKnown_mono (fleetExec_requested cfg f o).effects hknown

/-- What the answer to an acknowledgement says of the key: it was free, and is now in the table. -/
structure KeyReserved (f f' : Fleet) (aid : AssignmentId) : Prop where
  free : ¬ KeyTaken f aid
  taken : KeyTaken f' aid
  inserted : ∃ e, f'.effects = f.effects ++ [e] ∧ e.assignmentId = aid ∧
    e.effectKey = defaultEffectKey aid

theorem ackAssignment_reserves {f : Fleet} {auth : AuthenticatedWorker} {aid : AssignmentId}
    {r : Fleet × Bool} (h : ackAssignment cfg f now auth aid = .ok r) (hnew : r.2 = true) :
    KeyReserved f { r.1 with db := r.1.db.flush } aid := by
  have hcall : (FleetOp.mk now (.ack auth aid)).call cfg f = .ok r.1 := by
    simp [FleetOp.call, h, Except.map]
  have hexec : fleetExec cfg f ⟨now, .ack auth aid⟩ = { r.1 with db := r.1.db.flush } := by
    unfold fleetExec
    rw [hcall]
  obtain ⟨a, s, hrow, hst, hack, rfl⟩ := ackAssignment_spec h
  have hfree : f.keyKnown a.workspaceId (defaultEffectKey aid) = false := by
    rw [ensureProviderEffectKey_created] at hnew
    exact Bool.not_eq_true' _ |>.mp hnew
  refine ⟨?_, ?_, ?_⟩
  · rintro ⟨b, hb, hknown⟩
    rw [hrow] at hb
    cases hb
    rw [hfree] at hknown
    cases hknown
  · obtain ⟨b, hb, hws⟩ := fleetExec_workspace cfg ⟨now, .ack auth aid⟩ hrow
    rw [hexec] at hb
    refine ⟨b, hb, ?_⟩
    rw [hws]
    exact ensureProviderEffectKey_known { f with db := s } aid a none
  · refine ⟨⟨a.workspaceId, aid, a.attemptNumber, defaultEffectKey aid⟩, ?_, rfl, rfl⟩
    unfold ensureProviderEffectKey
    simp only
    rw [if_neg]
    · rfl
    · intro hany
      rw [Fleet.keyKnown] at hfree
      have hfalse := hfree.symm.trans hany
      cases hfalse

/-- The acknowledgement that an answer reports as the first has reserved the key. -/
theorem serve_reserves {f : Fleet} {rows : List AssignmentId} {jitter : Nat} {q : HttpRequest}
    {x : AckCall} (h : q.reserves (serveRequest cfg f now rows jitter q).2 = some x) :
    x.client = q.client ∧ x.call = q.call ∧ q.request = .ack x.assignmentId ∧
      KeyReserved f (serveRequest cfg f now rows jitter q).1 x.assignmentId := by
  cases hq : q.request with
  | ack aid =>
      unfold serveRequest at h ⊢
      simp only [hq] at h ⊢
      cases hack : ackAssignment cfg f now q.auth aid with
      | error e =>
          rw [hack] at h
          cases h
      | ok r =>
          rw [hack] at h
          simp only [answer] at h ⊢
          cases hnew : r.2 with
          | false =>
              rw [hnew] at h
              cases h
          | true =>
              rw [hnew] at h
              simp only [HttpRequest.reserves, hq] at h
              cases h
              exact ⟨rfl, rfl, rfl, ackAssignment_reserves hack hnew⟩
  | _ =>
      unfold HttpRequest.reserves at h
      split at h
      · rw [hq] at h
        cases h
      · cases h

/-- The answer to an acknowledgement, if it is not a refusal. -/
theorem serve_ack {f : Fleet} {rows : List AssignmentId} {jitter : Nat} {q : HttpRequest}
    {aid : AssignmentId} (hq : q.request = .ack aid) {created : Option Bool}
    (h : (serveRequest cfg f now rows jitter q).2 = .lease created) (hc : created ≠ some false) :
    q.reserves (serveRequest cfg f now rows jitter q).2 = some ⟨q.client, q.call, aid⟩ := by
  rw [h]
  unfold serveRequest at h
  rw [hq] at h
  simp only [answer] at h
  split at h
  · cases h
  · rename_i f' new _
    cases h
    cases new with
    | false => exact absurd rfl hc
    | true => simp [HttpRequest.reserves, hq]

/-! ## The invariant -/

structure SiteInv (s : Site) : Prop where
  /-- A request was made by a process, under a number that it has used. -/
  numbered : ∀ q ∈ s.requests, ∃ c, s.clients[q.client]? = some c ∧ q.call < c.calls
  /-- A call makes one request. -/
  unique : ∀ q ∈ s.requests, ∀ q' ∈ s.requests, q.client = q'.client → q.call = q'.call →
    q.request = q'.request
  /-- A process that waits for an acknowledgement has asked for it. -/
  asked : ∀ i c call aid, s.clients[i]? = some c → c.phase = .acking call aid →
    ∃ q ∈ s.requests, q.client = i ∧ q.call = call ∧ q.request = .ack aid
  /-- An answer that lets a process execute goes back to a key that was reserved. -/
  answered : ∀ r ∈ s.responses, ∃ q ∈ s.requests, q.client = r.client ∧ q.call = r.call ∧
    ∀ aid created, q.request = .ack aid → r.response = .lease created → created ≠ some false →
      ⟨r.client, r.call, aid⟩ ∈ s.reserved
  taken : ∀ x ∈ s.reserved, KeyTaken s.fleet x.assignmentId
  reservedOnce : (s.reserved.map AckCall.assignmentId).Nodup
  /-- A call of the executor goes back to a key that was reserved, by a call that is over. -/
  executed : ∀ x ∈ s.executions, x ∈ s.reserved ∧
    ∃ c, s.clients[x.client]? = some c ∧ x.call < c.calls ∧ c.awaits ≠ some x.call
  once : s.executions.Nodup

variable {s : Site}

theorem SiteInv.server (h : SiteInv s) {f : Fleet}
    (hf : ∀ aid, KeyTaken s.fleet aid → KeyTaken f aid) : SiteInv { s with fleet := f } :=
  { h with taken := fun x hx => hf _ (h.taken x hx) }

theorem SiteInv.spawn (h : SiteInv s) (auth : AuthenticatedWorker) :
    SiteInv { s with clients := s.clients ++ [{ auth := auth }] } where
  numbered q hq := by
    obtain ⟨c, hc, hlt⟩ := h.numbered q hq
    exact ⟨c, Table.get_push_of_some hc, hlt⟩
  unique := h.unique
  asked i c call aid hc hphase := by
    rcases Table.get_push hc with hc | ⟨_, rfl⟩
    · exact h.asked i c call aid hc hphase
    · cases hphase
  answered := h.answered
  taken := h.taken
  reservedOnce := h.reservedOnce
  executed x hx := by
    obtain ⟨hres, c, hc, hlt, hwaits⟩ := h.executed x hx
    exact ⟨hres, c, Table.get_push_of_some hc, hlt, hwaits⟩
  once := h.once

theorem SiteInv.serve (h : SiteInv s) {q : HttpRequest} (hq : q ∈ s.requests)
    (rows : List AssignmentId) (jitter : Nat) :
    SiteInv (s.serve q (serveRequest cfg s.fleet now rows jitter q)) := by
  have hkeys : ∀ aid, KeyTaken s.fleet aid →
      KeyTaken (serveRequest cfg s.fleet now rows jitter q).1 aid := by
    intro aid haid
    obtain ⟨action, heq⟩ := serveRequest_fleet cfg now s.fleet rows jitter q
    rw [heq]
    exact haid.step _
  refine ⟨h.numbered, h.unique, h.asked, ?_, ?_, ?_, ?_, h.once⟩
  · intro r hr
    rcases List.mem_append.mp hr with hr | hr
    · obtain ⟨q', hq', hcl, hcall, hres⟩ := h.answered r hr
      exact ⟨q', hq', hcl, hcall, fun aid created hack hlease hne =>
        List.mem_append_left _ (hres aid created hack hlease hne)⟩
    · rw [List.mem_singleton.mp hr]
      refine ⟨q, hq, rfl, rfl, fun aid created hack hlease hne => List.mem_append_right _ ?_⟩
      rw [serve_ack hack hlease hne]
      exact List.mem_singleton_self _
  · intro x hx
    rcases List.mem_append.mp hx with hx | hx
    · exact hkeys _ (h.taken x hx)
    · rw [Option.mem_toList] at hx
      exact (serve_reserves hx).2.2.2.taken
  · show ((s.reserved ++ _).map AckCall.assignmentId).Nodup
    rw [List.map_append, List.nodup_append]
    cases hx : q.reserves (serveRequest cfg s.fleet now rows jitter q).2 with
    | none =>
        refine ⟨h.reservedOnce, List.nodup_nil, ?_⟩
        simp
    | some x =>
        refine ⟨h.reservedOnce, by simp, ?_⟩
        -- an assignment whose key is reserved now has not reserved it before
        intro aid haid aid' haid' heq
        obtain ⟨y, hy, hya⟩ := List.mem_map.mp haid
        have hxa : x.assignmentId = aid' := (List.mem_singleton.mp haid').symm
        have hfree := (serve_reserves hx).2.2.2.free
        rw [hxa, ← heq, ← hya] at hfree
        exact hfree (h.taken y hy)
  · intro x hx
    obtain ⟨hres, hc⟩ := h.executed x hx
    exact ⟨List.mem_append_left _ hres, hc⟩

/-- A process takes a step; if it calls the executor, it was waiting for the call that reserved. -/
theorem SiteInv.advance (h : SiteInv s) {i : Nat} {c : ReferenceWorkerClient}
    (hc : s.clients[i]? = some c) {st : ClientStep} (hst : st.Follows c)
    (hexec : ∀ call aid, st.executes = some (call, aid) →
      ⟨i, call, aid⟩ ∈ s.reserved ∧ c.awaits = some call ∧ call < c.calls ∧
        st.client.awaits = none) : SiteInv (s.advance i c st) := by
  have hlen : i < s.clients.length := (List.getElem?_eq_some_iff.mp hc).1
  have hself : (s.advance i c st).clients[i]? = some st.client := by
    simp [Site.advance, hlen]
  have hne : ∀ j, j ≠ i → (s.advance i c st).clients[j]? = s.clients[j]? := fun j hj =>
    List.getElem?_set_ne (Ne.symm hj)
  -- numbers only grow
  have hgrow : ∀ (j : Nat) (d : ReferenceWorkerClient) (n : Nat), s.clients[j]? = some d →
      n < d.calls →
      ∃ d' : ReferenceWorkerClient, (s.advance i c st).clients[j]? = some d' ∧ n < d'.calls := by
    intro j d n hd hlt
    by_cases hj : j = i
    · subst hj
      rw [hc] at hd
      cases hd
      exact ⟨st.client, hself, hlt.trans_le hst.calls⟩
    · exact ⟨d, (hne j hj).trans hd, hlt⟩
  have hnew : ∀ q, st.request.map (fun r => (⟨i, c.calls, c.auth, r⟩ : HttpRequest)) = some q →
      q.client = i ∧ q.call = c.calls ∧ st.request = some q.request := by
    intro q hq
    obtain ⟨r, hr, rfl⟩ := Option.map_eq_some_iff.mp hq
    exact ⟨rfl, rfl, hr⟩
  have hold : ∀ q ∈ s.requests, q.client = i → q.call ≠ c.calls := by
    rintro q hq rfl heq
    obtain ⟨d, hd, hlt⟩ := h.numbered q hq
    rw [hc] at hd
    cases hd
    omega
  refine ⟨?_, ?_, ?_, ?_, h.taken, h.reservedOnce, ?_, ?_⟩
  · intro q hq
    rcases List.mem_append.mp hq with hq | hq
    · obtain ⟨d, hd, hlt⟩ := h.numbered q hq
      exact hgrow _ d _ hd hlt
    · obtain ⟨hcl, hcall, hr⟩ := hnew q (Option.mem_toList.mp hq)
      refine ⟨st.client, hcl ▸ hself, ?_⟩
      rw [hcall]
      exact hst.sent (by rw [hr]; rfl)
  · intro q hq q' hq' hcl hcall
    rcases List.mem_append.mp hq with hq | hq <;> rcases List.mem_append.mp hq' with hq' | hq'
    · exact h.unique q hq q' hq' hcl hcall
    · obtain ⟨hcl', hcall', _⟩ := hnew q' (Option.mem_toList.mp hq')
      exact absurd (hcall.trans hcall') (hold q hq (hcl.trans hcl'))
    · obtain ⟨hcl', hcall', _⟩ := hnew q (Option.mem_toList.mp hq)
      exact absurd (hcall.symm.trans hcall') (hold q' hq' (hcl.symm.trans hcl'))
    · have hr := (hnew q (Option.mem_toList.mp hq)).2.2
      rw [(hnew q' (Option.mem_toList.mp hq')).2.2] at hr
      exact (Option.some.inj hr).symm
  · intro j d call aid hd hphase
    by_cases hj : j = i
    · subst hj
      rw [hself] at hd
      cases hd
      rcases hst.acking call aid hphase with hphase | ⟨rfl, hreq⟩
      · obtain ⟨q, hq, hask⟩ := h.asked j c call aid hc hphase
        exact ⟨q, List.mem_append_left _ hq, hask⟩
      · refine ⟨⟨j, c.calls, c.auth, .ack aid⟩, List.mem_append_right _ ?_, rfl, rfl, rfl⟩
        rw [hreq]
        exact List.mem_singleton_self _
    · rw [hne j hj] at hd
      obtain ⟨q, hq, hask⟩ := h.asked j d call aid hd hphase
      exact ⟨q, List.mem_append_left _ hq, hask⟩
  · intro r hr
    obtain ⟨q, hq, hcl, hcall, hres⟩ := h.answered r hr
    exact ⟨q, List.mem_append_left _ hq, hcl, hcall, hres⟩
  · intro x hx
    rcases List.mem_append.mp hx with hx | hx
    · obtain ⟨hres, d, hd, hlt, hwaits⟩ := h.executed x hx
      refine ⟨hres, ?_⟩
      by_cases hj : x.client = i
      · rw [hj] at hd ⊢
        rw [hc] at hd
        cases hd
        refine ⟨st.client, hself, hlt.trans_le hst.calls, fun hw => ?_⟩
        rcases hst.awaits _ hw with hw | hw
        · exact hwaits hw
        · omega
      · exact ⟨d, (hne _ hj).trans hd, hlt, hwaits⟩
    · obtain ⟨⟨call, aid⟩, he, rfl⟩ := Option.map_eq_some_iff.mp (Option.mem_toList.mp hx)
      obtain ⟨hres, _, hlt, hrest⟩ := hexec call aid he
      refine ⟨hres, st.client, hself, hlt.trans_le hst.calls, ?_⟩
      rw [hrest]
      exact fun h => by cases h
  · show (s.executions ++ _).Nodup
    cases he : st.executes with
    | none => simpa using h.once
    | some x =>
        obtain ⟨_, hwaits, _, _⟩ := hexec x.1 x.2 he
        rw [Option.map_some, Option.toList_some, List.nodup_append]
        refine ⟨h.once, by simp, ?_⟩
        -- the process still waits for the call, so the executor was not called on it
        rintro y hy z hz rfl
        rw [List.mem_singleton.mp hz] at hy
        obtain ⟨_, d, hd, _, hdone⟩ := h.executed _ hy
        rw [hc] at hd
        cases hd
        exact hdone hwaits

/-- What lets a process call the executor. -/
theorem SiteInv.may_execute (h : SiteInv s) {i : Nat} {c : ReferenceWorkerClient}
    (hc : s.clients[i]? = some c) {r : HttpResponse} (hr : r ∈ s.responses) (hcl : r.client = i)
    (hwaits : c.awaits = some r.call) {call : Nat} {aid : AssignmentId}
    (he : (c.receive r.response).executes = some (call, aid)) :
    ⟨i, call, aid⟩ ∈ s.reserved ∧ c.awaits = some call ∧ call < c.calls ∧
      (c.receive r.response).client.awaits = none := by
  obtain ⟨hphase, ⟨created, hlease, hne⟩, hrest⟩ := receive_executes he
  have hcall : r.call = call := by
    rw [ReferenceWorkerClient.awaits, hphase] at hwaits
    exact (Option.some.inj hwaits).symm
  obtain ⟨q, hq, hqcl, hqcall, hqack⟩ := h.asked i c call aid hc hphase
  obtain ⟨q', hq', hcl', hcall', hres⟩ := h.answered r hr
  have hsame : q'.request = .ack aid := by
    rw [← hqack]
    exact h.unique q' hq' q hq (by rw [hcl', hqcl, hcl]) (by rw [hcall', hqcall, hcall])
  have hmem := hres aid created hsame hlease hne
  rw [hcl, hcall] at hmem
  obtain ⟨d, hd, hlt⟩ := h.numbered q hq
  rw [hqcl, hc] at hd
  cases hd
  rw [hqcall] at hlt
  exact ⟨hmem, by rw [hwaits, hcall], hlt, hrest⟩

theorem SiteInv.step (h : SiteInv s) (o : SiteOp) : SiteInv (siteExec cfg s o) := by
  obtain ⟨now, action⟩ := o
  cases action with
  | spawn auth => exact h.spawn auth
  | client i input =>
      simp only [siteExec]
      split
      · exact h
      · rename_i c hc
        refine h.advance hc (handle_follows input) fun call aid he => ?_
        rw [handle_executes] at he
        cases he
  | receive i j =>
      simp only [siteExec]
      split
      · rename_i c r hc hr
        split
        · rename_i hmatch
          exact h.advance hc (receive_follows _) fun call aid he =>
            h.may_execute hc (Table.mem_of_get hr) hmatch.1 hmatch.2 he
        · exact h
      · exact h
  | serve j rows jitter =>
      simp only [siteExec]
      split
      · exact h
      · rename_i q hq
        exact h.serve (Table.mem_of_get hq) rows jitter
  | server action => exact h.server fun aid haid => haid.step _

theorem reachable_siteInv (h : (site cfg).Reachable s) : SiteInv s := by
  refine h.invariant (I := SiteInv) ?_ fun s o hs _ => hs.step o
  rintro s ⟨_, hclients, hrequests, hresponses, hreserved, hexecutions⟩
  constructor <;> simp [hclients, hrequests, hresponses, hreserved, hexecutions]

/-- **The executor is called at most once for each assignment**, over all processes and attempts,
and only after the acknowledgement that put the assignment's effect key into the table was
committed: a step that calls it finds the call's acknowledgement on record and the key taken, and
an acknowledgement comes on record in the step that commits the key. -/
theorem executed_once_after_reserving (cfg : Config) (s : Site) (h : (site cfg).Reachable s) :
    (∀ aid, s.executions.countP (fun x => x.assignmentId == aid) ≤ 1) ∧
    (∀ o x, x ∈ (siteExec cfg s o).executions → x ∉ s.executions →
      x ∈ s.reserved ∧ KeyTaken s.fleet x.assignmentId) ∧
    ∀ o x, x ∈ (siteExec cfg s o).reserved → x ∉ s.reserved →
      (∃ q ∈ s.requests, q.client = x.client ∧ q.call = x.call ∧
        q.request = .ack x.assignmentId) ∧
      KeyReserved s.fleet (siteExec cfg s o).fleet x.assignmentId := by
  have hinv := reachable_siteInv h
  refine ⟨fun aid => ?_, ?_, ?_⟩
  · -- two calls for one assignment would go back to two acknowledgements that reserved its key
    have hnodup : (s.executions.map AckCall.assignmentId).Nodup := by
      refine List.Nodup.map_on ?_ hinv.once
      intro x hx y hy heq
      exact List.inj_on_of_nodup_map hinv.reservedOnce (hinv.executed x hx).1
        (hinv.executed y hy).1 heq
    have hcount := List.nodup_iff_count_le_one.mp hnodup aid
    rw [List.count, List.countP_map] at hcount
    exact hcount
  · intro o x hx hnot
    have hres : x ∈ s.reserved := by
      obtain ⟨now, action⟩ := o
      cases action with
      | spawn auth => exact absurd hx hnot
      | server action => exact absurd hx hnot
      | serve j rows jitter =>
          simp only [siteExec] at hx
          split at hx
          · exact absurd hx hnot
          · exact absurd hx hnot
      | client i input =>
          simp only [siteExec] at hx
          split at hx
          · exact absurd hx hnot
          · simp only [Site.advance, handle_executes] at hx
            simp only [Option.map_none, Option.toList_none, List.append_nil] at hx
            exact absurd hx hnot
      | receive i j =>
          simp only [siteExec] at hx
          split at hx
          · rename_i c r hc hr
            split at hx
            · rename_i hmatch
              rcases List.mem_append.mp hx with hx | hx
              · exact absurd hx hnot
              · obtain ⟨⟨call, aid⟩, he, rfl⟩ := Option.map_eq_some_iff.mp (Option.mem_toList.mp hx)
                exact (hinv.may_execute hc (Table.mem_of_get hr) hmatch.1 hmatch.2 he).1
            · exact absurd hx hnot
          · exact absurd hx hnot
    exact ⟨hres, hinv.taken x hres⟩
  · intro o x hx hnot
    obtain ⟨now, action⟩ := o
    cases action with
    | spawn auth => exact absurd hx hnot
    | server action => exact absurd hx hnot
    | client i input =>
        simp only [siteExec] at hx
        split at hx <;> exact absurd hx hnot
    | receive i j =>
        simp only [siteExec] at hx
        split at hx
        · split at hx <;> exact absurd hx hnot
        · exact absurd hx hnot
    | serve j rows jitter =>
        simp only [siteExec] at hx ⊢
        split at hx
        · exact absurd hx hnot
        · rename_i q hq
          rcases List.mem_append.mp hx with hx | hx
          · exact absurd hx hnot
          · obtain ⟨hcl, hcall, hreq, hkey⟩ := serve_reserves (Option.mem_toList.mp hx)
            exact ⟨⟨q, Table.mem_of_get hq, hcl.symm, hcall.symm, hreq⟩, hkey⟩

/-! ## A worker that crashes while it executes -/

/-- A run is started and its script queued. A worker claims it, acknowledges it, calls the executor
and crashes. Its lease runs out, and another process claims and acknowledges the script. -/
def crashedAndClaimed : List SiteOp :=
  [⟨0, .server (.op (.startRun 0 0 0))⟩, ⟨1, .server (.op (.pollAndLease 10 [0]))⟩,
   ⟨2, .server (.op (.processLeasedJob 0 [0] 0))⟩, ⟨3, .spawn deskAuth⟩,
   ⟨4, .client 0 (.claimNext 7)⟩, ⟨5, .serve 0 [0] 0⟩, ⟨6, .receive 0 0⟩, ⟨7, .client 0 .runOne⟩,
   ⟨8, .serve 1 [] 0⟩, ⟨9, .receive 0 1⟩, ⟨10, .client 0 .crash⟩,
   ⟨seconds 61, .server (.op (.reapExpiredLeases none [0]))⟩, ⟨seconds 62, .spawn deskAuth⟩,
   ⟨seconds 62, .client 1 (.claimNext 8)⟩, ⟨seconds 62, .serve 2 [0] 0⟩,
   ⟨seconds 62, .receive 1 2⟩, ⟨seconds 62, .client 1 .runOne⟩, ⟨seconds 62, .serve 3 [] 0⟩,
   ⟨seconds 62, .receive 1 3⟩]

def crashedSite : Site := crashedAndClaimed.foldl (siteExec patientConfig) { fleet := claimFleet }

/-- The second process has submitted its refusal. -/
theorem crashed_script_executed_once :
    crashedSite.executions = [⟨0, 1, 0⟩] ∧
    crashedSite.clients.map ReferenceWorkerClient.phase = [.crashed, .submitting 2] ∧
    ∀ aid, crashedSite.executions.countP (fun x => x.assignmentId == aid) ≤ 1 := by
  refine ⟨by decide +kernel, by decide +kernel, ?_⟩
  refine (executed_once_after_reserving patientConfig crashedSite ?_).1
  refine .of_legal crashedAndClaimed (.init ⟨?_, rfl, rfl, rfl, rfl, rfl⟩) ?_
  · exact ⟨rfl, rfl, rfl, rfl, rfl, rfl, rfl, rfl, rfl⟩
  · simp [crashedAndClaimed, System.Legal, site]

end HumanGate
