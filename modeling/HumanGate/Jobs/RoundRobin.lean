import HumanGate.Model.Leasing

set_option autoImplicit false

/-! # Round-robin leasing

The invariant of the two loops of `poll_and_lease`: after `r` full rounds every workspace has had
`r` of its jobs leased, or all it may have (`cap`). In the middle of a round the workspaces whose
turn has passed are one job ahead (`Dealt`). The totals, the balance and the termination of the
loops follow from it (`round_robin_allocation`), and that the loops are the `roundRobin` of
`pollAndLease` (`leaseCandidates_roundRobin`).
-/

namespace HumanGate

/-! ## Fetched jobs by workspace -/

/-- The candidates of one workspace. -/
def ofWorkspace (ws : WorkspaceId) (candidates : List Candidate) : List Candidate :=
  candidates.filter fun p => p.2.workspaceId == ws

theorem ofWorkspace_append (ws : WorkspaceId) (l l' : List Candidate) :
    ofWorkspace ws (l ++ l') = ofWorkspace ws l ++ ofWorkspace ws l' :=
  List.filter_append ..

theorem ofWorkspace_self {ws : WorkspaceId} {l : List Candidate}
    (h : ∀ p ∈ l, p.2.workspaceId = ws) :
    ofWorkspace ws l = l :=
  List.filter_eq_self.mpr fun p hp => beq_iff_eq.mpr (h p hp)

theorem ofWorkspace_other {ws : WorkspaceId} {l : List Candidate}
    (h : ∀ p ∈ l, p.2.workspaceId ≠ ws) : ofWorkspace ws l = [] := by
  apply List.filter_eq_nil_iff.mpr
  intro p hp heq
  exact h p hp (beq_iff_eq.mp heq)

/-- The workspaces of the candidates, in the order they first appear. -/
def workspacesOf (candidates : List Candidate) : List WorkspaceId :=
  (candidates.map fun p => p.2.workspaceId).reverse.dedup.reverse

theorem mem_workspacesOf {ws : WorkspaceId} {candidates : List Candidate} :
    ws ∈ workspacesOf candidates ↔ ∃ p ∈ candidates, p.2.workspaceId = ws := by
  unfold workspacesOf
  rw [List.mem_reverse, List.mem_dedup, List.mem_reverse, List.mem_map]

theorem nodup_workspacesOf (candidates : List Candidate) : (workspacesOf candidates).Nodup :=
  List.nodup_reverse.mpr (List.nodup_dedup _)

theorem workspacesOf_append (l : List Candidate) (p : Candidate) :
    workspacesOf (l ++ [p])
      = if p.2.workspaceId ∈ workspacesOf l then workspacesOf l
        else workspacesOf l ++ [p.2.workspaceId] := by
  by_cases hmem : p.2.workspaceId ∈ workspacesOf l
  · rw [if_pos hmem]
    unfold workspacesOf at hmem ⊢
    rw [List.mem_reverse, List.mem_dedup] at hmem
    rw [List.map_append, List.reverse_append, List.map_singleton, List.reverse_singleton,
      List.singleton_append, List.dedup_cons_of_mem hmem]
  · rw [if_neg hmem]
    unfold workspacesOf at hmem ⊢
    rw [List.mem_reverse, List.mem_dedup] at hmem
    rw [List.map_append, List.reverse_append, List.map_singleton, List.reverse_singleton,
      List.singleton_append, List.dedup_cons_of_notMem hmem, List.reverse_cons]

/-- A candidate is appended to the queue of its workspace. -/
theorem appendCandidate_eq (p : Candidate) (keys : List WorkspaceId)
    (f : WorkspaceId → List Candidate) (hnodup : keys.Nodup) :
    appendCandidate p (keys.map fun ws => (ws, f ws))
      = (if p.2.workspaceId ∈ keys then keys else keys ++ [p.2.workspaceId]).map fun ws =>
          (ws, if ws = p.2.workspaceId then (if ws ∈ keys then f ws else []) ++ [p] else f ws) := by
  induction keys with
  | nil => simp [appendCandidate]
  | cons k rest ih =>
      obtain ⟨hk, hrest⟩ := List.nodup_cons.mp hnodup
      rw [List.map_cons, appendCandidate]
      by_cases heq : k = p.2.workspaceId
      · rw [if_pos heq, if_pos (by simp [heq]), List.map_cons, if_pos heq,
          if_pos List.mem_cons_self]
        congr 1
        refine List.map_congr_left fun ws hws => ?_
        have hne : ws ≠ p.2.workspaceId := fun h => hk (heq.trans h.symm ▸ hws)
        rw [if_neg hne]
      · rw [if_neg heq, ih hrest]
        have hiff : p.2.workspaceId ∈ k :: rest ↔ p.2.workspaceId ∈ rest := by
          rw [List.mem_cons, or_iff_right (Ne.symm heq)]
        by_cases hmem : p.2.workspaceId ∈ rest
        · rw [if_pos hmem, if_pos (hiff.mpr hmem), List.map_cons, if_neg heq]
          congr 1
          refine List.map_congr_left fun ws hws => ?_
          simp [hws]
        · rw [if_neg hmem, if_neg (fun h => hmem (hiff.mp h)), List.cons_append, List.map_cons,
            if_neg heq]
          congr 1
          refine List.map_congr_left fun ws hws => ?_
          by_cases hws' : ws = p.2.workspaceId
          · rw [if_pos hws', if_pos hws', if_neg (hws' ▸ hmem),
              if_neg (fun h => hmem (hiff.mp (hws' ▸ h)))]
          · rw [if_neg hws', if_neg hws']

/-- **The dictionary**: each workspace with its candidates, in the order fetched. -/
theorem byWorkspace_eq (candidates : List Candidate) :
    byWorkspace candidates
      = (workspacesOf candidates).map fun ws => (ws, ofWorkspace ws candidates) := by
  induction candidates using List.reverseRecOn with
  | nil => rfl
  | append_singleton l p ih =>
      unfold byWorkspace at ih ⊢
      rw [List.foldl_append, List.foldl_cons, List.foldl_nil, ih,
        appendCandidate_eq p _ _ (nodup_workspacesOf l), workspacesOf_append]
      refine List.map_congr_left fun ws _ => ?_
      rw [ofWorkspace_append]
      by_cases hws : ws = p.2.workspaceId
      · have hp : ofWorkspace ws [p] = [p] := ofWorkspace_self fun q hq => by
          rw [List.mem_singleton.mp hq, hws]
        rw [if_pos hws, hp]
        by_cases hmem : ws ∈ workspacesOf l
        · rw [if_pos hmem]
        · rw [if_neg hmem, ofWorkspace_other fun q hq hq' =>
            hmem (mem_workspacesOf.mpr ⟨q, hq, hq'⟩)]
      · have hp : ofWorkspace ws [p] = [] := ofWorkspace_other fun q hq => by
          rw [List.mem_singleton.mp hq]
          exact Ne.symm hws
        rw [if_neg hws, hp, List.append_nil]

/-! ## The invariant -/

/-- The jobs that a workspace may have leased. -/
def cap (limits : WorkspaceId → Int) (q : WorkspaceId × List Candidate) : Nat :=
  min q.2.length (limits q.1).toNat

theorem hasMore_iff {limits : WorkspaceId → Int} {s : Leasing} {q : WorkspaceId × List Candidate} :
    s.HasMore limits q ↔ s.cursors q.1 < cap limits q := by
  unfold Leasing.HasMore cap
  omega

/-- The queues belong to different workspaces, and their jobs to the workspace of the queue. -/
structure Grouped (queues : LeaseQueues) : Prop where
  nodup : (queues.map Prod.fst).Nodup
  own : ∀ q ∈ queues, ∀ p ∈ q.2, p.2.workspaceId = q.1

theorem byWorkspace_grouped (candidates : List Candidate) : Grouped (byWorkspace candidates) where
  nodup := by
    rw [byWorkspace_eq, List.map_map]
    simpa [Function.comp_def] using nodup_workspacesOf candidates
  own := by
    intro q hq p hp
    rw [byWorkspace_eq] at hq
    obtain ⟨ws, _, rfl⟩ := List.mem_map.mp hq
    exact beq_iff_eq.mp (List.mem_filter.mp hp).2

/-- In round `r + 1`, with the workspaces of `pre` done: what each workspace has had leased, and
that this is all. -/
structure Dealt (limits : WorkspaceId → Int) (pre post : LeaseQueues) (r : Nat) (s : Leasing) :
    Prop where
  done : ∀ q ∈ pre, s.cursors q.1 = min (r + 1) (cap limits q)
  due : ∀ q ∈ post, s.cursors q.1 = min r (cap limits q)
  taken : ∀ q ∈ pre ++ post, ofWorkspace q.1 s.leased = q.2.take (s.cursors q.1)
  others : ∀ p ∈ s.leased, ∃ q ∈ pre ++ post, p.2.workspaceId = q.1
  total : s.leased.length = ((pre ++ post).map fun q => s.cursors q.1).sum

variable {limits : WorkspaceId → Int} {batchSize r : Nat} {pre post queues : LeaseQueues}
  {s s' : Leasing} {q : WorkspaceId × List Candidate}

/-- The next workspace has nothing more. -/
theorem Dealt.skip (h : Dealt limits pre (q :: post) r s) (hmore : ¬ s.HasMore limits q) :
    Dealt limits (pre ++ [q]) post r s := by
  have hq := h.due q List.mem_cons_self
  rw [hasMore_iff] at hmore
  refine ⟨fun q' hq' => ?_, fun q' hq' => h.due q' (List.mem_cons_of_mem _ hq'), ?_, ?_, ?_⟩
  · rcases List.mem_append.mp hq' with hpre | hself
    · exact h.done q' hpre
    · rw [List.mem_singleton.mp hself]
      omega
  · simpa [List.append_assoc] using h.taken
  · simpa [List.append_assoc] using h.others
  · simpa [List.append_assoc] using h.total

theorem sum_update (hnodup : (queues.map Prod.fst).Nodup) (hq : q ∈ queues)
    (cursors : WorkspaceId → Nat) :
    (queues.map fun q' => Function.update cursors q.1 (cursors q.1 + 1) q'.1).sum
      = (queues.map fun q' => cursors q'.1).sum + 1 := by
  induction queues with
  | nil => cases hq
  | cons q' rest ih =>
      obtain ⟨hhead, hrest⟩ := List.nodup_cons.mp hnodup
      rw [List.map_cons, List.map_cons, List.sum_cons, List.sum_cons]
      by_cases heq : q'.1 = q.1
      · have hsame : (rest.map fun q' => Function.update cursors q.1 (cursors q.1 + 1) q'.1)
            = rest.map fun q' => cursors q'.1 := by
          refine List.map_congr_left fun x hx => ?_
          refine Function.update_of_ne (fun hxq => hhead ?_) _ _
          exact List.mem_map.mpr ⟨x, hx, hxq.trans heq.symm⟩
        rw [hsame, heq, Function.update_self]
        omega
      · have hmem : q ∈ rest := by
          rcases List.mem_cons.mp hq with rfl | hmem
          · exact absurd rfl heq
          · exact hmem
        rw [ih hrest hmem, Function.update_of_ne heq]
        omega

/-- A job of the next workspace is leased. -/
theorem Dealt.lease (h : Dealt limits pre (q :: post) r s) (hgrouped : Grouped (pre ++ q :: post))
    (hmore : s.HasMore limits q) :
    Dealt limits (pre ++ [q]) post r (s.lease q.1 (q.2.get ⟨s.cursors q.1, hmore.lt⟩)) := by
  have hmem : q ∈ pre ++ q :: post := by simp
  have hq := h.due q List.mem_cons_self
  have hlt := hasMore_iff.mp hmore
  have hws : (q.2.get ⟨s.cursors q.1, hmore.lt⟩).2.workspaceId = q.1 :=
    hgrouped.own q hmem _ (List.get_mem _ _)
  -- the other workspaces have other names
  have hnodup := hgrouped.nodup
  rw [List.map_append, List.map_cons, List.nodup_append] at hnodup
  obtain ⟨_, hpost, hdisj⟩ := hnodup
  have hpre_ne : ∀ q' ∈ pre, q'.1 ≠ q.1 := fun q' hq' =>
    hdisj q'.1 (List.mem_map_of_mem hq') q.1 List.mem_cons_self
  have hpost_ne : ∀ q' ∈ post, q'.1 ≠ q.1 := fun q' hq' heq =>
    (List.nodup_cons.mp hpost).1 (List.mem_map.mpr ⟨q', hq', heq⟩)
  refine ⟨fun q' hq' => ?_, fun q' hq' => ?_, fun q' hq' => ?_, fun p hp => ?_, ?_⟩
  · rcases List.mem_append.mp hq' with hin | hself
    · exact (Function.update_of_ne (hpre_ne q' hin) _ _).trans (h.done q' hin)
    · rw [List.mem_singleton.mp hself]
      show Function.update s.cursors q.1 (s.cursors q.1 + 1) q.1 = _
      rw [Function.update_self]
      omega
  · exact (Function.update_of_ne (hpost_ne q' hq') _ _).trans
      (h.due q' (List.mem_cons_of_mem _ hq'))
  · rw [List.append_assoc, List.singleton_append] at hq'
    show ofWorkspace q'.1 (s.leased ++ [_]) = q'.2.take (Function.update s.cursors q.1 _ q'.1)
    rw [ofWorkspace_append, h.taken q' hq']
    by_cases heq : q'.1 = q.1
    · have hqq : q' = q := List.inj_on_of_nodup_map hgrouped.nodup hq' hmem heq
      subst hqq
      rw [ofWorkspace_self (by simpa using hws), Function.update_self, List.take_add_one,
        List.getElem?_eq_getElem hmore.lt]
      rfl
    · have hother : (q.2.get ⟨s.cursors q.1, hmore.lt⟩).2.workspaceId ≠ q'.1 := by
        rw [hws]
        exact Ne.symm heq
      rw [ofWorkspace_other (by simpa using hother), List.append_nil, Function.update_of_ne heq]
  · rw [List.append_assoc, List.singleton_append]
    rcases List.mem_append.mp hp with hold | hnew
    · exact h.others p hold
    · exact ⟨q, hmem, by rw [List.mem_singleton.mp hnew, hws]⟩
  · show (s.leased ++ [_]).length = _
    rw [List.length_append, List.length_singleton, h.total, List.append_assoc,
      List.singleton_append]
    exact (sum_update hgrouped.nodup hmem s.cursors).symm

/-! ## The loops -/

/-- **The inner loop** gets through the workspaces, unless the batch is full before. -/
theorem leaseRound_dealt (batchSize : Nat) : ∀ (post pre : LeaseQueues) {s : Leasing},
    Grouped (pre ++ post) → Dealt limits pre post r s → s.leased.length ≤ batchSize →
    ∃ pre' post', pre ++ post = pre' ++ post' ∧
      Dealt limits pre' post' r (leaseRound limits batchSize post s) ∧
      (leaseRound limits batchSize post s).leased.length ≤ batchSize ∧
      (post' = [] ∨ batchSize ≤ (leaseRound limits batchSize post s).leased.length) := by
  intro post
  induction post with
  | nil =>
      intro pre s _ h hle
      exact ⟨pre, [], rfl, h, hle, .inl rfl⟩
  | cons q rest ih =>
      intro pre s hgrouped h hle
      have hassoc : pre ++ q :: rest = (pre ++ [q]) ++ rest := by simp
      rw [leaseRound]
      by_cases hfull : batchSize ≤ s.leased.length
      · rw [if_pos hfull]
        exact ⟨pre, q :: rest, rfl, h, hle, .inr hfull⟩
      · rw [if_neg hfull]
        by_cases hmore : s.HasMore limits q
        · rw [dif_pos hmore, hassoc]
          refine ih _ (hassoc ▸ hgrouped) (h.lease hgrouped hmore) ?_
          have hlength : (s.lease q.1 (q.2.get ⟨s.cursors q.1, hmore.lt⟩)).leased.length
              = s.leased.length + 1 := List.length_append
          omega
        · rw [dif_neg hmore, hassoc]
          exact ih _ (hassoc ▸ hgrouped) (h.skip hmore) hle

/-- The next round starts. -/
theorem Dealt.next (h : Dealt limits queues [] r s) : Dealt limits [] queues (r + 1) s := by
  refine ⟨by simp, h.done, ?_, ?_, ?_⟩
  · simpa using h.taken
  · simpa using h.others
  · simpa using h.total

/-- A round leases a job as long as there is one. -/
theorem leaseRound_progress (hgrouped : Grouped queues) (h : Dealt limits [] queues r s)
    (hlt : s.leased.length < batchSize) (hmore : ∃ q ∈ queues, s.HasMore limits q) :
    s.leased.length < (leaseRound limits batchSize queues s).leased.length := by
  obtain ⟨pre', post', hsplit, hdealt, _, hend⟩ :=
    leaseRound_dealt batchSize queues [] hgrouped h hlt.le
  rcases hend with rfl | hfull
  · -- all workspaces had their turn
    rw [List.nil_append, List.append_nil] at hsplit
    subst hsplit
    have htotal := h.total
    have htotal' := hdealt.total
    rw [List.nil_append] at htotal
    rw [List.append_nil] at htotal'
    rw [htotal, htotal']
    obtain ⟨q, hq, hq'⟩ := hmore
    refine List.sum_lt_sum _ _ (fun x hx => ?_) ⟨q, hq, ?_⟩
    · rw [h.due x hx, hdealt.done x hx]
      omega
    · have hlt := hasMore_iff.mp hq'
      rw [h.due q hq] at hlt ⊢
      rw [hdealt.done q hq]
      omega
  · omega

/-- How the loops end. -/
structure Settled (limits : WorkspaceId → Int) (batchSize : Nat) (queues : LeaseQueues)
    (s : Leasing) : Prop where
  dealt : ∃ pre post r, queues = pre ++ post ∧ Dealt limits pre post r s
  le : s.leased.length ≤ batchSize
  ended : batchSize ≤ s.leased.length ∨ ∀ q ∈ queues, ¬ s.HasMore limits q

/-- **The outer loop** ends, after at most one round for each place in the batch. -/
theorem leaseLoop_settled (hgrouped : Grouped queues) : ∀ (rounds r : Nat) (s : Leasing),
    Dealt limits [] queues r s → s.leased.length ≤ batchSize →
    batchSize - s.leased.length < rounds →
    ∃ s', leaseLoop limits batchSize queues rounds s = some s' ∧
      Settled limits batchSize queues s' := by
  intro rounds
  induction rounds with
  | zero => exact fun r s _ _ h => absurd h (Nat.not_lt_zero _)
  | succ rounds ih =>
      intro r s hdealt hle hlt
      rw [leaseLoop]
      by_cases hcond : s.leased.length < batchSize ∧ ∃ q ∈ queues, s.HasMore limits q
      · rw [if_pos hcond]
        have hprogress := leaseRound_progress hgrouped hdealt hcond.1 hcond.2
        obtain ⟨pre', post', hsplit, hdealt', hle', hend⟩ :=
          leaseRound_dealt batchSize queues [] hgrouped hdealt hle
        rcases hend with rfl | hfull
        · rw [List.nil_append, List.append_nil] at hsplit
          subst hsplit
          exact ih (r + 1) _ hdealt'.next hle' (by omega)
        · -- the batch is full, so the loop ends at its next test
          obtain ⟨n, rfl⟩ : ∃ n, rounds = n + 1 := ⟨rounds - 1, by omega⟩
          refine ⟨leaseRound limits batchSize queues s, ?_,
            ⟨⟨pre', post', r, hsplit, hdealt'⟩, hle',
            .inl hfull⟩⟩
          rw [leaseLoop, if_neg (fun h => absurd h.1 (Nat.not_lt.mpr hfull))]
      · rw [if_neg hcond]
        refine ⟨s, rfl, ⟨[], queues, r, rfl, hdealt⟩, hle, ?_⟩
        by_cases hfull : batchSize ≤ s.leased.length
        · exact .inl hfull
        · exact .inr fun q hq hmore => hcond ⟨Nat.lt_of_not_le hfull, q, hq, hmore⟩

/-- More rounds than needed do no harm. -/
theorem leaseLoop_rounds : ∀ {rounds rounds' : Nat} {s : Leasing},
    (leaseLoop limits batchSize queues rounds s).isSome = true → rounds ≤ rounds' →
    leaseLoop limits batchSize queues rounds' s = leaseLoop limits batchSize queues rounds s := by
  intro rounds
  induction rounds with
  | zero => exact fun h => nomatch h
  | succ rounds ih =>
      intro rounds' s h hle
      obtain ⟨n, rfl⟩ : ∃ n, rounds' = n + 1 := ⟨rounds' - 1, by omega⟩
      rw [leaseLoop] at h ⊢
      rw [leaseLoop]
      by_cases hcond : s.leased.length < batchSize ∧ ∃ q ∈ queues, s.HasMore limits q
      · rw [if_pos hcond] at h ⊢
        rw [if_pos hcond]
        exact ih h (by omega)
      · rw [if_neg hcond, if_neg hcond]

theorem dealt_start (limits : WorkspaceId → Int) (queues : LeaseQueues) :
    Dealt limits [] queues 0 {} where
  done := by simp
  due := by simp
  taken := by simp [ofWorkspace]
  others := by simp
  total := by simp

/-! ## The allocation -/

/-- What a workspace has had leased in the end. -/
theorem Settled.cursor_le (h : Settled limits batchSize queues s) {q : WorkspaceId × List Candidate}
    (hq : q ∈ queues) : s.cursors q.1 ≤ cap limits q := by
  obtain ⟨pre, post, r, rfl, hdealt⟩ := h.dealt
  rcases List.mem_append.mp hq with hpre | hpost
  · rw [hdealt.done q hpre]
    exact Nat.min_le_right _ _
  · rw [hdealt.due q hpost]
    exact Nat.min_le_right _ _

/-- Whoever is two jobs behind has all its jobs. -/
theorem Settled.balanced (h : Settled limits batchSize queues s)
    {q q' : WorkspaceId × List Candidate} (hq : q ∈ queues) (hq' : q' ∈ queues)
    (hahead : s.cursors q'.1 + 2 ≤ s.cursors q.1) : s.cursors q'.1 = cap limits q' := by
  obtain ⟨pre, post, r, rfl, hdealt⟩ := h.dealt
  have hround : ∀ x ∈ pre ++ post, s.cursors x.1 = min (r + 1) (cap limits x) ∨
      s.cursors x.1 = min r (cap limits x) := by
    intro x hx
    rcases List.mem_append.mp hx with hpre | hpost
    · exact .inl (hdealt.done x hpre)
    · exact .inr (hdealt.due x hpost)
  have h1 := hround q hq
  have h2 := hround q' hq'
  omega

theorem Settled.taken (h : Settled limits batchSize queues s) {q : WorkspaceId × List Candidate}
    (hq : q ∈ queues) : ofWorkspace q.1 s.leased = q.2.take (s.cursors q.1) := by
  obtain ⟨pre, post, r, rfl, hdealt⟩ := h.dealt
  exact hdealt.taken q hq

theorem Settled.total (h : Settled limits batchSize queues s) :
    s.leased.length = min batchSize (queues.map (cap limits)).sum := by
  have hle : s.leased.length ≤ (queues.map (cap limits)).sum := by
    obtain ⟨pre, post, r, rfl, hdealt⟩ := h.dealt
    rw [hdealt.total]
    exact List.sum_le_sum fun q hq => h.cursor_le hq
  rcases h.ended with hfull | hnone
  · have hbatch := h.le
    omega
  · -- nobody has more, so the cursors are at the ends
    have heq : s.leased.length = (queues.map (cap limits)).sum := by
      have hends : ∀ q ∈ queues, s.cursors q.1 = cap limits q := by
        intro q hq
        have hmore := hasMore_iff.not.mp (hnone q hq)
        have hcap := h.cursor_le hq
        omega
      obtain ⟨pre, post, r, rfl, hdealt⟩ := h.dealt
      rw [hdealt.total, List.map_congr_left hends]
    have hbatch := h.le
    omega

/-- The jobs a workspace may have leased among the fetched ones. -/
def allowance (limits : WorkspaceId → Int) (candidates : List Candidate) (ws : WorkspaceId) : Nat :=
  min (ofWorkspace ws candidates).length (max 0 (limits ws)).toNat

theorem allowance_eq_cap (limits : WorkspaceId → Int) (candidates : List Candidate)
    (ws : WorkspaceId) :
    allowance limits candidates ws = cap limits (ws, ofWorkspace ws candidates) := by
  have hpos : (max 0 (limits ws)).toNat = (limits ws).toNat := by omega
  unfold allowance cap
  rw [hpos]

/-- The loops over the fetched jobs end. -/
theorem exists_settled_leasing (limits : WorkspaceId → Int) (batchSize : Nat)
    (candidates : List Candidate) :
    ∃ s, Settled limits batchSize (byWorkspace candidates) s ∧
      ∀ rounds, batchSize < rounds →
        leaseLoop limits batchSize (byWorkspace candidates) rounds {} = some s := by
  obtain ⟨s, hs, hsettled⟩ := leaseLoop_settled (byWorkspace_grouped candidates)
      (batchSize + 1) 0 {}
    (dealt_start limits _) (Nat.zero_le batchSize) (Nat.lt_succ_self _)
  refine ⟨s, hsettled, fun rounds hrounds => ?_⟩
  rw [← hs]
  exact leaseLoop_rounds (by rw [hs]; rfl) (by omega)

/-- The queue of a workspace, if it has candidates. -/
theorem mem_byWorkspace {candidates : List Candidate} {ws : WorkspaceId}
    (hws : ws ∈ workspacesOf candidates) :
    (ws, ofWorkspace ws candidates) ∈ byWorkspace candidates := by
  rw [byWorkspace_eq]
  exact List.mem_map.mpr ⟨ws, hws, rfl⟩

/-- What a workspace gets. -/
theorem Settled.ofWorkspace_leased {candidates : List Candidate}
    (h : Settled limits batchSize (byWorkspace candidates) s) (ws : WorkspaceId) :
    ofWorkspace ws s.leased = (ofWorkspace ws candidates).take (ofWorkspace ws s.leased).length ∧
    (ofWorkspace ws s.leased).length ≤ allowance limits candidates ws ∧
    (ws ∈ workspacesOf candidates → (ofWorkspace ws s.leased).length = s.cursors ws) := by
  by_cases hws : ws ∈ workspacesOf candidates
  · have hmem := mem_byWorkspace hws
    have htaken := h.taken hmem
    have hle := h.cursor_le hmem
    have hlen : s.cursors ws ≤ (ofWorkspace ws candidates).length := hle.trans (Nat.min_le_left _ _)
    have hcount : (ofWorkspace ws s.leased).length = s.cursors ws := by
      rw [htaken, List.length_take]
      exact Nat.min_eq_left hlen
    refine ⟨?_, ?_, fun _ => hcount⟩
    · rw [hcount]
      exact htaken
    · rw [hcount, allowance_eq_cap]
      exact hle
  · -- no candidates, nothing leased
    have hnone : ofWorkspace ws s.leased = [] := by
      obtain ⟨pre, post, r, hsplit, hdealt⟩ := h.dealt
      refine ofWorkspace_other fun p hp heq => ?_
      obtain ⟨q, hq, hpq⟩ := hdealt.others p hp
      rw [← hsplit, byWorkspace_eq] at hq
      obtain ⟨ws', hws', rfl⟩ := List.mem_map.mp hq
      exact hws (heq ▸ hpq ▸ hws')
    rw [hnone]
    exact ⟨rfl, Nat.zero_le _, fun hmem => absurd hmem hws⟩

/-- **Round-robin allocation.** The loops end, and each workspace gets a prefix of its fetched jobs,
within its limit; the batch is filled as far as the limits allow; and a workspace that is two jobs
behind another one has all it may have. -/
theorem round_robin_allocation (limits : WorkspaceId → Int) (batchSize : Nat)
    (candidates : List Candidate) :
    ∃ leased, (∀ rounds, batchSize < rounds →
        leaseCandidates limits batchSize candidates rounds = some leased) ∧
      (∀ ws, ofWorkspace ws leased <+: ofWorkspace ws candidates) ∧
      (∀ ws, ((ofWorkspace ws leased).length : Int) ≤ max 0 (limits ws)) ∧
      leased.length
        = min batchSize ((workspacesOf candidates).map (allowance limits candidates)).sum ∧
      ∀ ws ws', (ofWorkspace ws' leased).length + 2 ≤ (ofWorkspace ws leased).length →
        (ofWorkspace ws' leased).length = allowance limits candidates ws' := by
  obtain ⟨s, hs, hloop⟩ := exists_settled_leasing limits batchSize candidates
  refine ⟨s.leased, fun rounds hrounds => ?_, fun ws => ?_, fun ws => ?_, ?_,
    fun ws ws' hahead => ?_⟩
  · -- the loop has ended
    unfold leaseCandidates
    rw [hloop rounds hrounds, Option.map_some]
  · -- a workspace is leased the first of its candidates
    have hbefore := (hs.ofWorkspace_leased ws).1
    rw [hbefore]
    exact List.take_prefix _ _
  · have hle := (hs.ofWorkspace_leased ws).2.1
    unfold allowance at hle
    omega
  · -- the batch is full, or everybody has all that is allowed
    have htotal := hs.total
    rw [byWorkspace_eq, List.map_map] at htotal
    have hcaps : (cap limits ∘ fun ws => (ws, ofWorkspace ws candidates))
        = allowance limits candidates := by
      funext ws
      exact (allowance_eq_cap limits candidates ws).symm
    rw [htotal, hcaps]
  · -- whoever is two behind has nothing left to lease
    have hpos : 0 < (ofWorkspace ws s.leased).length := by omega
    have hws : ws ∈ workspacesOf candidates := by
      by_contra hnot
      have hle := (hs.ofWorkspace_leased ws).2.1
      have hnone : ofWorkspace ws candidates = [] :=
        ofWorkspace_other fun p hp heq => hnot (mem_workspacesOf.mpr ⟨p, hp, heq⟩)
      unfold allowance at hle
      rw [hnone] at hle
      simp only [List.length_nil, Nat.zero_min] at hle
      omega
    by_cases hws' : ws' ∈ workspacesOf candidates
    · have hcount := (hs.ofWorkspace_leased ws).2.2 hws
      have hcount' := (hs.ofWorkspace_leased ws').2.2 hws'
      rw [hcount, hcount'] at hahead
      rw [hcount', allowance_eq_cap]
      exact hs.balanced (mem_byWorkspace hws) (mem_byWorkspace hws') hahead
    · have hnone : ofWorkspace ws' candidates = [] :=
        ofWorkspace_other fun p hp heq => hws' (mem_workspacesOf.mpr ⟨p, hp, heq⟩)
      have hle := (hs.ofWorkspace_leased ws').2.1
      have hzero : allowance limits candidates ws' = 0 := by
        unfold allowance
        rw [hnone]
        exact Nat.zero_min _
      omega

/-! ## The loops and `roundRobin` -/

/-- The ids of the jobs that a workspace may have leased. -/
def allowedIds (limits : WorkspaceId → Int) (q : WorkspaceId × List Candidate) : List JobId :=
  (q.2.map Prod.fst).take (limits q.1).toNat

theorem allowedIds_length (limits : WorkspaceId → Int) (q : WorkspaceId × List Candidate) :
    (allowedIds limits q).length = cap limits q := by
  unfold allowedIds cap
  rw [List.length_take, List.length_map, Nat.min_comm]

theorem allowedIds_cursor (hcursor : s.cursors q.1 = min r (cap limits q)) :
    (allowedIds limits q).drop (s.cursors q.1) = (allowedIds limits q).drop r := by
  have hlength := allowedIds_length limits q
  rw [hcursor]
  by_cases hle : r ≤ cap limits q
  · rw [Nat.min_eq_left hle]
  · rw [Nat.min_eq_right (Nat.le_of_not_le hle), List.drop_eq_nil_of_le hlength.le,
      List.drop_eq_nil_of_le (by omega)]

/-- The next job of a workspace. -/
def Leasing.nextId (limits : WorkspaceId → Int) (s : Leasing)
    (q : WorkspaceId × List Candidate) : Option JobId :=
  ((allowedIds limits q).drop (s.cursors q.1)).head?

theorem nextId_some (hmore : s.HasMore limits q) :
    s.nextId limits q = some (q.2.get ⟨s.cursors q.1, hmore.lt⟩).1 := by
  have hlt := hasMore_iff.mp hmore
  unfold cap at hlt
  unfold Leasing.nextId allowedIds
  rw [List.head?_drop, List.getElem?_take_of_lt (by omega), List.getElem?_map,
    List.getElem?_eq_getElem hmore.lt]
  rfl

theorem nextId_none (hmore : ¬ s.HasMore limits q) : s.nextId limits q = none := by
  have hle := hasMore_iff.not.mp hmore
  unfold Leasing.nextId
  rw [List.drop_eq_nil_of_le (by rw [allowedIds_length]; omega), List.head?_nil]

/-- What the inner loop leases. -/
theorem leaseRound_ids (limits : WorkspaceId → Int) (batchSize : Nat) :
    ∀ (post : LeaseQueues) (s : Leasing), (post.map Prod.fst).Nodup →
    (leaseRound limits batchSize post s).leased.map Prod.fst
      = s.leased.map Prod.fst ++
        (post.filterMap (s.nextId limits)).take (batchSize - s.leased.length) := by
  intro post
  induction post with
  | nil => simp [leaseRound]
  | cons q rest ih =>
      intro s hnodup
      obtain ⟨hq, hrest⟩ := List.nodup_cons.mp hnodup
      rw [leaseRound]
      by_cases hfull : batchSize ≤ s.leased.length
      · have hroom : batchSize - s.leased.length = 0 := by omega
        rw [if_pos hfull, hroom, List.take_zero, List.append_nil]
      · rw [if_neg hfull]
        by_cases hmore : s.HasMore limits q
        · -- the cursors of the others stay
          have hsame : rest.filterMap
                ((s.lease q.1 (q.2.get ⟨s.cursors q.1, hmore.lt⟩)).nextId limits)
              = rest.filterMap (s.nextId limits) := by
            refine List.filterMap_congr fun q' hq' => ?_
            have hne : q'.1 ≠ q.1 := fun heq => hq (List.mem_map.mpr ⟨q', hq', heq⟩)
            have hcursor : (s.lease q.1 (q.2.get ⟨s.cursors q.1, hmore.lt⟩)).cursors q'.1
                = s.cursors q'.1 := Function.update_of_ne hne _ _
            unfold Leasing.nextId
            rw [hcursor]
          have hlength : (s.lease q.1 (q.2.get ⟨s.cursors q.1, hmore.lt⟩)).leased.length
              = s.leased.length + 1 := List.length_append
          obtain ⟨room, hroom⟩ : ∃ room, batchSize - s.leased.length = room + 1 :=
            ⟨batchSize - s.leased.length - 1, by omega⟩
          have hroom' : batchSize - (s.leased.length + 1) = room := by omega
          rw [dif_pos hmore, ih _ hrest, hsame, hlength, hroom', hroom,
            List.filterMap_cons_some (nextId_some hmore), List.take_succ_cons]
          simp [Leasing.lease]
        · rw [dif_neg hmore, ih s hrest, List.filterMap_cons_none (nextId_none hmore)]

theorem roundRobin_full (rounds : Nat) (queues : List (List JobId)) :
    roundRobin rounds queues 0 = [] := by
  induction rounds generalizing queues with
  | zero => rfl
  | succ rounds ih => simp [roundRobin, ih]

theorem roundRobin_empty (rounds : Nat) {queues : List (List JobId)} (h : ∀ q ∈ queues, q = [])
    (room : Nat) : roundRobin rounds queues room = [] := by
  induction rounds generalizing queues room with
  | zero => rfl
  | succ rounds ih =>
      have hheads : queues.filterMap List.head? = [] := by
        rw [List.filterMap_eq_nil_iff]
        intro q hq
        rw [h q hq, List.head?_nil]
      have htails : ∀ q ∈ queues.map List.tail, q = [] := by
        intro q hq
        obtain ⟨q', hq', rfl⟩ := List.mem_map.mp hq
        rw [h q' hq', List.tail_nil]
      rw [roundRobin, hheads]
      simp only [List.take_nil, List.nil_append]
      exact ih htails _

/-- The loops lease what `roundRobin` deals out. -/
theorem leaseLoop_roundRobin (hgrouped : Grouped queues) : ∀ (rounds r n : Nat) (s : Leasing),
    Dealt limits [] queues r s → s.leased.length ≤ batchSize →
    (∀ q ∈ queues, (allowedIds limits q).length ≤ r + n) →
    ∀ s', leaseLoop limits batchSize queues rounds s = some s' →
      s'.leased.map Prod.fst = s.leased.map Prod.fst ++
        roundRobin n (queues.map fun q => (allowedIds limits q).drop r)
          (batchSize - s.leased.length) := by
  intro rounds
  induction rounds with
  | zero => exact fun r n s _ _ _ s' h => nomatch h
  | succ rounds ih =>
      intro r n s hdealt hle hn s' hs'
      rw [leaseLoop] at hs'
      by_cases hcond : s.leased.length < batchSize ∧ ∃ q ∈ queues, s.HasMore limits q
      · rw [if_pos hcond] at hs'
        obtain ⟨hlt, q, hq, hmore⟩ := hcond
        obtain ⟨m, rfl⟩ : ∃ m, n = m + 1 := by
          have hcap := hasMore_iff.mp hmore
          have hbound := hn q hq
          rw [hdealt.due q hq] at hcap
          rw [allowedIds_length] at hbound
          exact ⟨n - 1, by omega⟩
        have hids := leaseRound_ids limits batchSize queues s hgrouped.nodup
        have hheads : queues.filterMap (s.nextId limits)
            = (queues.map fun q => (allowedIds limits q).drop r).filterMap List.head? := by
          rw [List.filterMap_map]
          refine List.filterMap_congr fun q hq => ?_
          unfold Leasing.nextId
          rw [allowedIds_cursor (hdealt.due q hq)]
          rfl
        rw [hheads] at hids
        have hlength := congrArg List.length hids
        rw [List.length_append, List.length_map, List.length_map] at hlength
        have htails : ((queues.map fun q => (allowedIds limits q).drop r).map List.tail)
            = queues.map fun q => (allowedIds limits q).drop (r + 1) := by
          rw [List.map_map]
          refine List.map_congr_left fun q _ => ?_
          simp [List.tail_drop]
        obtain ⟨pre', post', hsplit, hdealt', hle', hend⟩ :=
          leaseRound_dealt batchSize queues [] hgrouped hdealt hle
        rw [roundRobin, htails, ← List.append_assoc, ← hids]
        have hroom : batchSize - s.leased.length
              - (((queues.map fun q => (allowedIds limits q).drop r).filterMap List.head?).take
                (batchSize - s.leased.length)).length
            = batchSize - (leaseRound limits batchSize queues s).leased.length := by
          omega
        rw [hroom]
        rcases hend with rfl | hfull
        · rw [List.nil_append, List.append_nil] at hsplit
          subst hsplit
          refine ih (r + 1) m _ hdealt'.next hle' (fun q hq => ?_) s' hs'
          have hbound := hn q hq
          omega
        · -- the batch is full
          have hnone : ¬ ((leaseRound limits batchSize queues s).leased.length < batchSize ∧
              ∃ q ∈ queues, (leaseRound limits batchSize queues s).HasMore limits q) :=
            fun h => absurd h.1 (Nat.not_lt.mpr hfull)
          have hfull' : batchSize - (leaseRound limits batchSize queues s).leased.length = 0 := by
            omega
          rw [hfull', roundRobin_full, List.append_nil]
          cases rounds with
          | zero => cases hs'
          | succ rounds =>
              rw [leaseLoop, if_neg hnone] at hs'
              cases hs'
              rfl
      · rw [if_neg hcond] at hs'
        cases hs'
        by_cases hfull : batchSize ≤ s.leased.length
        · have hroom : batchSize - s.leased.length = 0 := by omega
          rw [hroom, roundRobin_full, List.append_nil]
        · have hempty : ∀ ids ∈ queues.map fun q => (allowedIds limits q).drop r, ids = [] := by
            intro ids hids
            obtain ⟨q, hq, rfl⟩ := List.mem_map.mp hids
            have hmore : ¬ s.HasMore limits q := fun h => hcond ⟨Nat.lt_of_not_le hfull, q, hq, h⟩
            have hcap := hasMore_iff.not.mp hmore
            rw [hdealt.due q hq] at hcap
            exact List.drop_eq_nil_of_le (by rw [allowedIds_length]; omega)
          rw [roundRobin_empty n hempty, List.append_nil]

/-- **The model of `poll_and_lease`** deals out what the loops lease. -/
theorem leaseCandidates_roundRobin (cfg : Config) (db : Db) {candidates leased : List Candidate}
    {rounds : Nat}
    (h : leaseCandidates (fairnessLimit cfg db) batchSize candidates rounds = some leased) :
    leased.map Prod.fst
      = roundRobin candidates.length (workspaceQueues cfg db candidates) batchSize := by
  unfold leaseCandidates at h
  obtain ⟨s, hs, rfl⟩ := Option.map_eq_some_iff.mp h
  have hlengths : ∀ q ∈ byWorkspace candidates,
      (allowedIds (fairnessLimit cfg db) q).length ≤ 0 + candidates.length := by
    intro q hq
    rw [byWorkspace_eq] at hq
    obtain ⟨ws, _, rfl⟩ := List.mem_map.mp hq
    have hfilter : (ofWorkspace ws candidates).length ≤ candidates.length :=
      List.length_filter_le _ _
    rw [allowedIds_length]
    unfold cap
    simp only
    omega
  have hids := leaseLoop_roundRobin (byWorkspace_grouped candidates) rounds 0 candidates.length {}
    (dealt_start _ _) (Nat.zero_le batchSize) hlengths s hs
  rw [hids, byWorkspace_eq, List.map_map]
  rfl

end HumanGate
