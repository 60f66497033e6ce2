import HumanGate.Model.ReviewTxn

set_option autoImplicit false

/-! # A recorded decision

A decision reads the gate under a row lock that it holds to its commit, so at most one is recorded,
and a delivered event finds the gate decided. A timeout reads the gate without a lock: it may find
it awaiting, wait until a decision has committed, and then write `escalated` over it
(`timeout_overwrites_decision`). A decision is final in every interleaving in which no timeout
writes to a gate that was decided after it was read (`decision_final`).
-/

namespace HumanGate

open Lib Lib.Calendar Lib.Interleaving

variable {strict : Prop} {s s' : ReviewDb} {i j : Nat} {t u : ReviewTxn}

/-- The status that a decision gives to its gate. -/
def ReviewDecision.status (d : ReviewDecision) : ReviewGateStatus :=
  if d.decision = .approved then .approved else .rejected

/-! ## Invariants

`strict` says whether decisions are to be final; the rest holds without. -/

structure ReviewDb.Sound (strict : Prop) (s : ReviewDb) : Prop where
  level : s.gate.status = .awaiting → s.gate.escalationLevel = 0
  awaiting : s.gate.status = .awaiting → s.decisions = []
  once : s.decisions.length ≤ 1
  events : s.events.length = s.decisions.length
  failures : "review_gate_timed_out" ∉ s.failures
  final : strict → ∀ d ∈ s.decisions, s.gate.status = d.status

/-- What is about to be committed. -/
def ReviewWrite.Sound (strict : Prop) (s : ReviewDb) : ReviewWrite → Prop
  | .decide decision approved _ _ =>
      s.gate.status = .awaiting ∧ decision.status = if approved then .approved else .rejected
  | .escalate _ _ => strict → s.decisions = []
  | .resume .. | .timeOut => False

def ReviewRequest.decides : ReviewRequest → Bool
  | .decide .. => true
  | _ => false

/-- The transaction holds the row of the gate, which awaits a decision. -/
def ReviewDb.Holds (s : ReviewDb) (i : Nat) : Prop :=
  s.rowLock = some i ∧ s.gate.status = .awaiting

/-- The transaction in place `i`: a decision holds the row that it has read, and a timeout has read
a gate that was not escalated. A delivered event finds nothing to do. -/
def ReviewTxn.Sound (strict : Prop) (s : ReviewDb) (i : Nat) (t : ReviewTxn) : Prop :=
  match t.step with
  | .begun => ∀ approved, t.request = .resume approved → s.decisions ≠ []
  | .locked _ => t.request.decides = true ∧ s.Holds i
  | .read gate => t.request = .timeout ∧ gate.escalationLevel = 0
  | .ordered gate => t.request.decides = true ∧ s.Holds i ∨
      t.request = .timeout ∧ gate.escalationLevel = 0
  | .written write => s.rowLock = some i ∧ write.Sound strict s
  | .finished _ => True

/-! ## What others may do -/

/-- What the transaction in place `j` relies on: nothing is written under its lock, and a decision
is not undone. -/
structure ReviewFrame (j : Nat) (s s' : ReviewDb) : Prop where
  locked : s.rowLock = some j →
    s'.rowLock = some j ∧ s'.gate = s.gate ∧ s'.decisions = s.decisions
  decided : s.decisions ≠ [] → s'.decisions ≠ []

theorem ReviewFrame.refl (j : Nat) (s : ReviewDb) : ReviewFrame j s s :=
  ⟨fun h => ⟨h, rfl, rfl⟩, id⟩

theorem ReviewFrame.trans {s₁ s₂ s₃ : ReviewDb} (h : ReviewFrame j s₁ s₂)
    (h' : ReviewFrame j s₂ s₃) : ReviewFrame j s₁ s₃ := by
  refine ⟨fun hlock => ?_, fun hdecided => h'.decided (h.decided hdecided)⟩
  obtain ⟨hlock₂, hgate₂, hdecisions₂⟩ := h.locked hlock
  obtain ⟨hlock₃, hgate₃, hdecisions₃⟩ := h'.locked hlock₂
  exact ⟨hlock₃, hgate₃.trans hgate₂, hdecisions₃.trans hdecisions₂⟩

theorem frame_reviewRelease (hj : j ≠ i) : ReviewFrame j s (s.release i) := by
  refine ⟨fun hlock => ⟨?_, rfl, rfl⟩, id⟩
  unfold ReviewDb.release
  simp [hlock, hj]

theorem ReviewDb.Holds.frame (h : s.Holds j) (hframe : ReviewFrame j s s') : s'.Holds j := by
  obtain ⟨hlock, hgate, _⟩ := hframe.locked h.1
  exact ⟨hlock, hgate ▸ h.2⟩

theorem ReviewTxn.Sound.frame (h : u.Sound strict s j) (hframe : ReviewFrame j s s') :
    u.Sound strict s' j := by
  unfold ReviewTxn.Sound at h ⊢
  cases hstep : u.step with
  | begun =>
      rw [hstep] at h
      exact fun approved hrequest => hframe.decided (h approved hrequest)
  | locked gate =>
      rw [hstep] at h
      exact ⟨h.1, h.2.frame hframe⟩
  | read gate =>
      rw [hstep] at h
      exact h
  | ordered gate =>
      rw [hstep] at h
      exact h.imp (fun h => ⟨h.1, h.2.frame hframe⟩) id
  | written write =>
      rw [hstep] at h
      obtain ⟨hlock, hgate, hdecisions⟩ := hframe.locked h.1
      refine ⟨hlock, ?_⟩
      have hwrite := h.2
      cases write with
      | decide decision approved decidedAt failsRun => exact ⟨hgate ▸ hwrite.1, hwrite.2⟩
      | escalate level timeoutAt => exact fun hstrict => hdecisions.trans (hwrite hstrict)
      | resume approved decidedAt failsRun => exact hwrite
      | timeOut => exact hwrite
  | finished error => trivial

/-! ## One statement -/

/-- What a statement leaves. -/
structure ReviewAdvanced (strict : Prop) (s : ReviewDb) (i : Nat) (t : ReviewTxn)
    (r : ReviewDb × ReviewStep) : Prop where
  db : r.1.Sound strict
  txn : (t.to r.2).Sound strict r.1 i
  frame : ∀ j, j ≠ i → ReviewFrame j s r.1

/-- A lock that is taken changes nothing that is committed. -/
theorem ReviewDb.Sound.lock (h : s.Sound strict) (row advisory : Option Nat) :
    ({ s with rowLock := row, advisory := advisory } : ReviewDb).Sound strict :=
  ⟨h.level, h.awaiting, h.once, h.events, h.failures, h.final⟩

/-- The row is locked only where no other transaction holds it. -/
theorem frame_rowLock (hfree : heldByOther s.rowLock i = false) (hj : j ≠ i) :
    ReviewFrame j s { s with rowLock := some i } := by
  refine ⟨fun hlock => ?_, id⟩
  rw [hlock] at hfree
  exact absurd hj (by simpa [heldByOther] using hfree)

theorem frame_advisory (j : Nat) (advisory : Option Nat) :
    ReviewFrame j s { s with advisory := advisory } :=
  ⟨fun hlock => ⟨hlock, rfl, rfl⟩, id⟩

theorem begin_spec (hs : s.Sound strict) (ht : t.Sound strict s i) (hstep : t.step = .begun)
    (hready : t.waits s i = false) : ReviewAdvanced strict s i t (t.request.begin s i) := by
  unfold ReviewTxn.Sound at ht
  unfold ReviewTxn.waits at hready
  rw [hstep] at ht hready
  cases hrequest : t.request with
  | decide reviewer approved expected notes =>
      rw [hrequest] at hready
      unfold ReviewRequest.begin
      dsimp only
      cases hrefusal : reviewRefusal s.gid s.gate approved expected with
      | some e => exact ⟨hs, trivial, fun j _ => .refl j s⟩
      | none =>
          have hawaiting : s.gate.status = .awaiting := by
            by_contra hnot
            unfold reviewRefusal at hrefusal
            rw [if_pos hnot] at hrefusal
            cases hrefusal
          refine ⟨hs.lock (some i) s.advisory, ⟨?_, rfl, hawaiting⟩,
            fun j hj => frame_rowLock hready hj⟩
          show t.request.decides = true
          rw [hrequest]
          rfl
  | resume approved =>
      -- the event was committed with its decision
      have hdecided := ht approved hrequest
      have hnot : s.gate.status ≠ .awaiting := fun hawaiting => hdecided (hs.awaiting hawaiting)
      unfold ReviewRequest.begin
      rw [if_neg hnot]
      exact ⟨hs, trivial, fun j _ => .refl j s⟩
  | timeout =>
      unfold ReviewRequest.begin
      by_cases hawaiting : s.gate.status = .awaiting
      · rw [if_pos hawaiting]
        exact ⟨hs, ⟨hrequest, hs.level hawaiting⟩, fun j _ => .refl j s⟩
      · rw [if_neg hawaiting]
        exact ⟨hs, trivial, fun j _ => .refl j s⟩

/-- A decision is written under its lock; what a timeout writes, it has computed before. -/
theorem write_spec (hs : s.Sound strict) (ht : t.Sound strict s i) {gate : ReviewGate}
    (hstep : t.step = .ordered gate) (hready : t.waits s i = false)
    (hspares : strict → t.request = .timeout → s.decisions = []) (now : Instant)
    (delivery : Option Bool) :
    ReviewAdvanced strict s i t (t.request.write s i gate now delivery) := by
  unfold ReviewTxn.Sound at ht
  unfold ReviewTxn.waits at hready
  rw [hstep] at ht hready
  rcases ht with ⟨hdecides, hholds⟩ | ⟨hrequest, hlevel⟩
  · cases hrequest : t.request with
    | resume approved =>
        rw [hrequest] at hdecides
        exact nomatch hdecides
    | timeout =>
        rw [hrequest] at hdecides
        exact nomatch hdecides
    | decide reviewer approved expected notes =>
        unfold ReviewRequest.write deliverDecision
        cases s.contentItemId with
        | none => exact ⟨hs, trivial, fun j _ => .refl j s⟩
        | some itemId =>
            cases delivery with
            | none => exact ⟨hs, trivial, fun j _ => .refl j s⟩
            | some failsRun =>
                refine ⟨hs, ⟨hholds.1, hholds.2, ?_⟩, fun j _ => .refl j s⟩
                cases approved <;> rfl
  · rw [hrequest] at hready ⊢
    unfold ReviewRequest.write timeoutWrite
    rw [if_pos hlevel]
    exact ⟨hs.lock (some i) s.advisory, ⟨rfl, fun hstrict => hspares hstrict hrequest⟩,
      fun j hj => frame_rowLock hready hj⟩

/-- **The commit** of a decision or of an escalation. -/
theorem apply_sound (hs : s.Sound strict) {write : ReviewWrite} (hwrite : write.Sound strict s) :
    (write.apply s).Sound strict := by
  cases write with
  | resume approved decidedAt failsRun => exact nomatch hwrite
  | timeOut => exact nomatch hwrite
  | escalate level timeoutAt =>
      refine ⟨fun h => (nomatch h), fun h => (nomatch h), hs.once, hs.events, hs.failures, ?_⟩
      intro hstrict d hd
      have hnone : s.decisions = [] := hwrite hstrict
      have hd : d ∈ s.decisions := hd
      rw [hnone] at hd
      exact nomatch hd
  | decide decision approved decidedAt failsRun =>
      obtain ⟨hawaiting, hstatus⟩ := hwrite
      have hnone := hs.awaiting hawaiting
      have hdecided : ((s.gate.decideBy decision.reviewerId).decide approved decidedAt).status
          = decision.status := hstatus.symm
      have hnot : decision.status ≠ .awaiting := by
        rw [hstatus]
        cases approved <;> decide
      refine ⟨fun h => absurd (hdecided.symm.trans h) hnot,
        fun h => absurd (hdecided.symm.trans h) hnot, ?_, ?_, ?_, fun _ d hd => ?_⟩
      · show (s.decisions ++ [decision]).length ≤ 1
        rw [hnone]
        exact le_rfl
      · show (s.events ++ [approved]).length = (s.decisions ++ [decision]).length
        rw [List.length_append, List.length_append, hs.events]
        rfl
      · intro hmem
        rcases List.mem_append.mp hmem with hold | hnew
        · exact hs.failures hold
        · unfold reviewFailures at hnew
          cases failsRun <;> simp at hnew
      · have hd : d ∈ s.decisions ++ [decision] := hd
        rw [hnone, List.nil_append, List.mem_singleton] at hd
        rw [hd]
        exact hdecided

theorem frame_reviewApply (hlock : s.rowLock = some i) (hj : j ≠ i) (write : ReviewWrite) :
    ReviewFrame j s (write.apply s) := by
  refine ⟨fun hlock' => ?_, fun hdecided => ?_⟩
  · rw [hlock] at hlock'
    exact absurd (Option.some.inj hlock').symm hj
  · cases write with
    | decide decision approved decidedAt failsRun =>
        exact List.append_ne_nil_of_left_ne_nil hdecided _
    | _ => exact hdecided

/-- A timeout is about to write to a gate that was decided after it was read. -/
def ReviewTxn.overwrites (s : ReviewDb) (t : ReviewTxn) : Bool :=
  match t.step, t.request with
  | .ordered _, .timeout => s.gate.status == .approved || s.gate.status == .rejected
  | _, _ => false

/-- With final decisions a gate that is not decided has none. -/
theorem ReviewDb.Sound.undecided (hs : s.Sound strict) (hstrict : strict)
    (h : (s.gate.status == .approved || s.gate.status == .rejected) = false) :
    s.decisions = [] := by
  cases hd : s.decisions with
  | nil => rfl
  | cons d rest =>
      have hfinal := hs.final hstrict d (by rw [hd]; exact List.mem_cons_self)
      unfold ReviewDecision.status at hfinal
      rw [hfinal] at h
      split at h <;> exact nomatch h

theorem advance_review (hs : s.Sound strict) (ht : t.Sound strict s i)
    (hready : t.waits s i = false) (hspares : strict → t.overwrites s = false) (now : Instant)
    (delivery : Option Bool) : ReviewAdvanced strict s i t (t.advance s i now delivery) := by
  have hsound := ht
  unfold ReviewTxn.advance
  unfold ReviewTxn.Sound at ht
  cases hstep : t.step with
  | begun => exact begin_spec hs hsound hstep hready
  | locked gate =>
      rw [hstep] at ht
      exact ⟨hs.lock s.rowLock (some i), .inl ht, fun j _ => frame_advisory j (some i)⟩
  | read gate =>
      rw [hstep] at ht
      exact ⟨hs.lock s.rowLock (some i), .inr ht, fun j _ => frame_advisory j (some i)⟩
  | ordered gate =>
      refine write_spec hs hsound hstep hready (fun hstrict hrequest => ?_) now delivery
      have hopen := hspares hstrict
      unfold ReviewTxn.overwrites at hopen
      rw [hstep, hrequest] at hopen
      exact hs.undecided hstrict hopen
  | written write =>
      rw [hstep] at ht
      exact ⟨apply_sound hs ht.2, trivial, fun j hj => frame_reviewApply ht.1 hj write⟩
  | finished error => exact ⟨hs, trivial, fun j _ => .refl j s⟩

/-- **A statement** keeps what is committed and its own transaction as they should be, and nothing
that others rely on changes. -/
theorem next_review (hs : s.Sound strict) (ht : t.Sound strict s i) {ts : List ReviewTxn}
    {c : ReviewFate} (hget : ts[i]? = some t) (hready : reviewReady s ts i c)
    (hspares : strict → c ≠ .abort → t.overwrites s = false) :
    (t.next s i c).1.Sound strict ∧ (t.next s i c).2.Sound strict (t.next s i c).1 i ∧
      ∀ j, j ≠ i → ReviewFrame j s (t.next s i c).1 := by
  have hrelease : ∀ r : ReviewDb, r.Sound strict → (r.release i).Sound strict := fun r hr =>
    ⟨hr.level, hr.awaiting, hr.once, hr.events, hr.failures, hr.final⟩
  cases c with
  | abort =>
      unfold ReviewTxn.next
      cases hstep : t.step with
      | finished error => exact ⟨hs, ht, fun j _ => .refl j s⟩
      | _ => exact ⟨hrelease s hs, trivial, fun j hj => frame_reviewRelease hj⟩
  | go now delivery =>
      have hadvanced := advance_review hs ht (hready t hget)
        (fun hstrict => hspares hstrict (by simp)) now delivery
      unfold ReviewTxn.next
      dsimp only
      generalize t.advance s i now delivery = r at hadvanced ⊢
      obtain ⟨r, step⟩ := r
      obtain ⟨hdb, htxn, hframe⟩ := hadvanced
      cases step with
      | finished error =>
          exact ⟨hrelease r hdb, trivial, fun j hj => (hframe j hj).trans (frame_reviewRelease hj)⟩
      | _ => exact ⟨hdb, htxn, hframe⟩

/-! ## All interleavings -/

/-- The gate as `pause_for_review` leaves it. -/
structure ReviewDb.Fresh (s : ReviewDb) : Prop where
  status : s.gate.status = .awaiting
  level : s.gate.escalationLevel = 0
  decisions : s.decisions = []
  events : s.events = []
  failures : s.failures = []

theorem ReviewDb.Fresh.sound (h : s.Fresh) (strict : Prop) : s.Sound strict where
  level _ := h.level
  awaiting _ := h.decisions
  once := by rw [h.decisions]; exact Nat.zero_le _
  events := by rw [h.decisions, h.events]; rfl
  failures := by rw [h.failures]; simp
  final _ d hd := by
    rw [h.decisions] at hd
    exact nomatch hd

theorem starts_sound (hs : s.Sound strict) (h : t.starts s) : t.Sound strict s i := by
  unfold ReviewTxn.Sound
  rw [h.1]
  intro approved hrequest hnone
  have hmem := h.2 approved (by rw [hrequest]; rfl)
  have hlength := hs.events
  rw [hnone] at hlength
  rw [List.length_eq_zero_iff.mp hlength] at hmem
  exact nomatch hmem

/-- The run lemma, for statements that wait for more than the locks. -/
theorem review_each (ready : ReviewDb → List ReviewTxn → Nat → ReviewFate → Prop)
    (hready : ∀ s ts i c, ready s ts i c → reviewReady s ts i c ∧
      (strict → c ≠ .abort → ∀ t ∈ ts[i]?, t.overwrites s = false))
    {init : ReviewDb → Prop} {r₀ r : State ReviewDb ReviewTxn} (hs : r₀.shared.Sound strict)
    (hnone : r₀.txns = [])
    (h : (({ reviewTxns with ready := ready } : Program _ _ _).system init).Steps r₀ r) :
    r.shared.Sound strict := by
  refine (Steps.each (I := ReviewDb.Sound strict) (J := fun s i t => t.Sound strict s i) hs hnone
    (fun s i t hs hstart => starts_sound hs hstart) (fun s ts i c t hs ht hget hr => ?_)
    (fun s ts i c t j u hs ht hget hr hj hu => ?_) h).1
  · obtain ⟨hwait, hspares⟩ := hready s ts i c hr
    have hspec := next_review hs ht hget hwait fun hstrict hgo => hspares hstrict hgo t hget
    exact ⟨hspec.1, hspec.2.1⟩
  · obtain ⟨hwait, hspares⟩ := hready s ts i c hr
    have hspec := next_review hs ht hget hwait fun hstrict hgo => hspares hstrict hgo t hget
    exact hu.frame (hspec.2.2 j hj)

/-- No timeout writes to a gate that was decided after it was read. -/
def SparesDecided (s : ReviewDb) (ts : List ReviewTxn) (i : Nat) (c : ReviewFate) : Prop :=
  c ≠ .abort → ∀ t ∈ ts[i]?, t.overwrites s = false

instance decSparesDecided (s : ReviewDb) (ts : List ReviewTxn) (i : Nat) (c : ReviewFate) :
    Decidable (SparesDecided s ts i c) :=
  inferInstanceAs (Decidable (c ≠ .abort → ∀ t ∈ ts[i]?, t.overwrites s = false))

/-- **A recorded decision is final** in every interleaving in which no timeout writes to a gate that
was decided after it was read. In every interleaving at most one decision is recorded, and the run
is not failed for a timed out gate. -/
theorem decision_final {init : ReviewDb → Prop} {r₀ r : State ReviewDb ReviewTxn}
    (hfresh : r₀.shared.Fresh) (hnone : r₀.txns = []) :
    ((reviewTxns.system init).Steps r₀ r →
      r.shared.decisions.length ≤ 1 ∧ "review_gate_timed_out" ∉ r.shared.failures) ∧
    (((reviewTxns.restrict SparesDecided).system init).Steps r₀ r →
      ∀ d ∈ r.shared.decisions, r.shared.gate.status = d.status) := by
  constructor
  · -- without the condition: all but that the gate stays as it was decided
    intro h
    have hsound : r.shared.Sound False := by
      refine review_each reviewReady (fun s ts i c hr => ⟨hr, ?_⟩)
        (hfresh.sound False) hnone h
      exact fun hfalse => hfalse.elim
    exact ⟨hsound.once, hsound.failures⟩
  · intro h
    -- no timeout has written over a decision
    have hsound : r.shared.Sound True :=
      review_each (reviewTxns.restrict SparesDecided).ready
        (fun s ts i c hr => ⟨hr.1, fun _ => hr.2⟩)
        (hfresh.sound True) hnone h
    exact hsound.final trivial

/-! ## A timeout that has read the gate -/

/-- A gate that awaits a decision about version 5. -/
def freshGate : ReviewDb where
  gid := 0
  gate := {
    workspaceId := 0
    pipelineRunId := 0
    contentVersionId := some 5
    stage := .review
    requestedAt := 0
    timeoutAt := some 100 }
  contentItemId := some 0

theorem freshGate_fresh : freshGate.Fresh := ⟨rfl, rfl, rfl, rfl, rfl⟩

/-- The timeout reads the gate; then a reviewer approves, and the approval is committed. -/
def overtakenOps : List (Interleaving.Op ReviewTxn ReviewFate) :=
  [.start { request := .timeout }, .start { request := .decide 7 true (some 5) none },
    .run 0 (.go 100 none)] ++ List.replicate 4 (.run 1 (.go 101 (some false)))

/-- Then the timeout writes what it has computed. -/
def overwritingOps : List (Interleaving.Op ReviewTxn ReviewFate) :=
  overtakenOps ++ List.replicate 3 (.run 0 (.go 102 none))

/-- The decision is recorded, and the gate is escalated. -/
theorem timeout_overwrites_decision :
    freshGate.Fresh ∧ (reviewTxns.system fun _ => True).Legal ⟨freshGate, []⟩ overwritingOps ∧
      (overwritingOps.foldl reviewTxns.exec ⟨freshGate, []⟩).shared.decisions.map
        ReviewDecision.decision = [.approved] ∧
      (overwritingOps.foldl reviewTxns.exec ⟨freshGate, []⟩).shared.gate.status = .escalated :=
  ⟨freshGate_fresh, by decide, by decide, by decide⟩

/-- Or the timeout is given up while it waits. -/
def givenUpOps : List (Interleaving.Op ReviewTxn ReviewFate) :=
  overtakenOps ++ [.run 0 (.go 102 none), .run 0 .abort]

/-- The approval stays. -/
theorem approval_stays :
    (givenUpOps.foldl reviewTxns.exec ⟨freshGate, []⟩).shared.decisions.length = 1 ∧
      ∀ d ∈ (givenUpOps.foldl reviewTxns.exec ⟨freshGate, []⟩).shared.decisions,
        (givenUpOps.foldl reviewTxns.exec ⟨freshGate, []⟩).shared.gate.status = d.status := by
  have hlegal : ((reviewTxns.restrict SparesDecided).system fun _ => True).Legal ⟨freshGate, []⟩
      givenUpOps := by decide
  exact ⟨by decide, (decision_final freshGate_fresh rfl).2 (.of_legal givenUpOps hlegal)⟩

end HumanGate
