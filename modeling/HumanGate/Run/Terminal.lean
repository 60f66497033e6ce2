import HumanGate.Model.Desk
import HumanGate.Run.Operations

set_option autoImplicit false

/-! # Terminal statuses

A run that has succeeded or was cancelled stays so, and a failed one is only reopened by
`retry_failed_jobs`: most functions that write `status` look at it first. Three do not: the
delivery of a review decision, the end of a stage whose attempts are used up, and the spend
hold of a claim. Objects that outlive the run (an awaiting gate, an assignment in flight, a
pending one) lead there, so a cancelled run can come back (`cancelled_run_succeeds`).

`Op.overwrites` is what such an operation writes. In every run of the system in which it never
strikes a terminal status, the terminal statuses are absorbing.
-/

namespace HumanGate

open Lib Lib.Calendar Relation

/-! ## One write -/

/-- The terminal statuses that an operation must leave alone. -/
def Absorbed (sc : Scope) (st : PipelineRunStatus) : Prop :=
  st.isClosed = true ∨ st = .failed ∧ ¬ sc.reopens

theorem Absorbed.isTerminal {sc : Scope} {st : PipelineRunStatus} (h : Absorbed sc st) :
    st.isTerminal = true := by
  rcases h with h | ⟨rfl, _⟩
  · cases st <;> first | rfl | cases h
  · rfl

/-- The run is still in the status it had in `b₀`, if that status is to be left alone. -/
def KeepsStatus (sc : Scope) (b₀ b : Board) : Prop :=
  ∀ (rid : RunId) (run₀ : PipelineRun), b₀.runs[rid]? = some run₀ → Absorbed sc run₀.status →
    ∃ run : PipelineRun, b.runs[rid]? = some run ∧ run.status = run₀.status

variable {cfg : Config} {sc : Scope}

/-- What a write to a run does to a status that is to be left alone. -/
theorem RunWrite.keepsStatus {b : Board} {rid : RunId} {f : PipelineRun → PipelineRun}
    (h : RunWrite cfg sc b rid f) {run : PipelineRun} (hrun : b.runs[rid]? = some run)
    (habs : Absorbed sc run.status)
    (hloose : ∀ st, sc.loose rid st → run.status = st) : (f run).status = run.status := by
  -- the two guards of the code, against a status that is to be left alone
  have hlive : ¬ b.Live rid := by
    rintro ⟨run', hrun', ht⟩
    rw [hrun] at hrun'
    cases hrun'
    rw [habs.isTerminal] at ht
    cases ht
  have hnotClosed : b.NotClosed rid → run.status = .failed := by
    rintro ⟨run', hrun', hc⟩
    rw [hrun] at hrun'
    cases hrun'
    rcases habs with h | ⟨h, _⟩
    · rw [h] at hc
      cases hc
    · exact h
  cases h with
  | hold hg =>
      rcases hg with hg | hg
      · exact absurd hg hlive
      · exact (hloose _ hg).symm
  | pause hg => exact absurd hg hlive
  | enter stage => rfl
  | succeed now hg _ => exact absurd hg hlive
  | fail now hg =>
      rcases hg with hg | hg
      · exact (hnotClosed hg).symm
      · exact (hloose _ hg).symm
  | markFailed hg =>
      rcases hg with hg | hg
      · exact (hnotClosed hg).symm
      · exact (hloose _ hg).symm
  | cancel now hg => exact absurd hg hlive
  | resume hg => exact (hloose _ hg).symm
  | clearReason => rfl
  | reopen hg =>
      unfold PipelineRun.reopen
      rcases habs with h | ⟨_, h⟩
      · rw [if_neg]
        intro hf
        rw [hf] at h
        cases h
      · exact absurd hg h

theorem Write.keepsStatus {b₀ b b' : Board} (h : Write cfg sc b b')
    (hloose : ∀ rid st run, sc.loose rid st → b₀.runs[rid]? = some run →
      run.status.isTerminal = true → run.status = st)
    (hb : KeepsStatus sc b₀ b) : KeepsStatus sc b₀ b' := by
  intro rid run₀ hrun₀ habs
  obtain ⟨run, hrun, hst⟩ := hb rid run₀ hrun₀ habs
  cases h with
  | startRun _ _ _ => exact ⟨run, Table.get_push_of_some hrun, hst⟩
  | @run rid' f hf =>
      by_cases hr : rid' = rid
      · subst hr
        refine ⟨f run, Table.get_modify_self hrun, ?_⟩
        rw [hf.keepsStatus hrun (hst ▸ habs), hst]
        intro st hl
        rw [hst]
        exact hloose rid' st run₀ hl hrun₀ habs.isTerminal
      · exact ⟨run, (Table.get_modify_ne hr).trans hrun, hst⟩
  | newJob | job | newAssignment | assignment | worker | newGate | gate | decision =>
      exact ⟨run, hrun, hst⟩

/-! ## Runs of the system -/

/-- The operation overwrites no terminal status with another one. -/
def SparesTerminal (cfg : Config) (s : Db) (o : Op) : Prop :=
  ∀ p ∈ o.overwrites cfg s, ∀ run ∈ s.runs[p.1]?, run.status.isTerminal = true → run.status = p.2

instance (cfg : Config) (s : Db) (o : Op) : Decidable (SparesTerminal cfg s o) :=
  inferInstanceAs (Decidable (∀ p ∈ o.overwrites cfg s, ∀ run ∈ s.runs[p.1]?,
    run.status.isTerminal = true → run.status = p.2))

theorem exec_keepsStatus {s : Db} {o : Op} (hs : s.board.Sane) (ho : SparesTerminal cfg s o)
    {rid : RunId} {st : PipelineRunStatus} (hst : s.statusOf rid = some st)
    (habs : Absorbed (o.scope cfg s) st) : (exec cfg s o).statusOf rid = some st := by
  have hkeeps : KeepsStatus (o.scope cfg s) s.board (exec cfg s o).board := by
    refine (exec_writes cfg o fun _ => hs).invariant
      (I := KeepsStatus (o.scope cfg s) s.board) (fun b b' hw => hw.keepsStatus ?_) ?_
    · intro rid st run hl hrun ht
      exact ho (rid, st) hl run hrun ht
    · intro rid run hrun _
      exact ⟨run, hrun, rfl⟩
  obtain ⟨run₀, hrun₀, rfl⟩ := Option.map_eq_some_iff.mp hst
  obtain ⟨run, hrun, heq⟩ := hkeeps rid run₀ hrun₀ habs
  exact Option.map_eq_some_iff.mpr ⟨run, hrun, heq⟩

/-- A status that is `SUCCEEDED` or `CANCELLED` is the status from then on, and only
`retry_failed_jobs` changes the status `FAILED`. -/
def TerminalStays (S : System Db Op) (s : Db) : Prop :=
  ∀ rid st, s.statusOf rid = some st →
    (st.isClosed = true → ∀ t, S.Steps s t → t.statusOf rid = some st) ∧
    (st = .failed → ∀ o, S.allowed s o → (S.exec s o).statusOf rid ≠ some .failed →
      ∃ ws rows, o.action = .retryFailedJobs ws rows)

/-- The orchestration without operations that overwrite a terminal status. -/
def sparingTerminal (cfg : Config) : System Db Op :=
  (orchestration cfg fun _ _ => True).restrict (SparesTerminal cfg)

instance (cfg : Config) (s : Db) (o : Op) : Decidable ((sparingTerminal cfg).allowed s o) :=
  inferInstanceAs (Decidable (True ∧ SparesTerminal cfg s o))

theorem sparingTerminal_sane {s : Db} (h : (sparingTerminal cfg).Reachable s) : s.board.Sane :=
  h.invariant (I := fun s => s.board.Sane) (fun _ hinit => Fresh.sane hinit)
    fun _ o hs _ => exec_sane cfg o hs

/-- **Terminal run statuses are absorbing**, in every run of the system whose operations spare
them. -/
theorem terminal_status_stays (cfg : Config) {s : Db} (h : (sparingTerminal cfg).Reachable s) :
    TerminalStays (sparingTerminal cfg) s := by
  intro rid st hst
  refine ⟨fun hclosed t hsteps => ?_, fun hfailed o ho hne => ?_⟩
  · -- along the run, the status and the sanity of the board
    have hkept : t.statusOf rid = some st ∧ t.board.Sane := by
      refine hsteps.preserves (I := fun t => t.statusOf rid = some st ∧ t.board.Sane) ?_
        ⟨hst, sparingTerminal_sane h⟩
      intro u o hu ho
      exact ⟨exec_keepsStatus hu.2 ho.2 hu.1 (.inl hclosed), exec_sane cfg o hu.2⟩
    exact hkept.1
  · by_contra hretry
    refine hne (hfailed ▸ exec_keepsStatus (sparingTerminal_sane h) ho.2 hst ?_)
    exact .inr ⟨hfailed, hretry⟩

/-! ## The desk's workflow -/

/-- A decision is recorded, and the run is cancelled before it is delivered. -/
def cancelledOps : List Op :=
  draftedOps ++ [⟨4, .submitReviewDecision 0 7 true none⟩, ⟨5, .cancelRun 0⟩]

theorem cancelled_run_stays :
    (runOps deskConfig deskDb cancelledOps).statusOf 0 = some .cancelled ∧
      TerminalStays (sparingTerminal deskConfig) (runOps deskConfig deskDb cancelledOps) :=
  ⟨by decide +kernel, terminal_status_stays deskConfig (System.Reachable.of_legal
    cancelledOps (.init deskDb_fresh) (by decide +kernel))⟩

/-- The relay then delivers the approval: the gate is still awaiting, and the cancelled run
is published. -/
theorem cancelled_run_succeeds :
    ∃ s, (orchestration deskConfig fun _ _ => True).Reachable s ∧
      ¬ TerminalStays (orchestration deskConfig fun _ _ => True) s := by
  refine ⟨runOps deskConfig deskDb cancelledOps, runOps_reachable deskConfig deskDb_fresh _, ?_⟩
  intro h
  have hstays := (h 0 .cancelled (by decide +kernel)).1 rfl _
    (.step (o := ⟨6, .dispatchOne 5⟩) .refl trivial)
  exact absurd hstays (by decide +kernel)

end HumanGate
