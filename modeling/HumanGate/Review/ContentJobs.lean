import HumanGate.Review.Publishing
import HumanGate.Run.Stages

set_option autoImplicit false

/-! # A content job is created once

A key names at most one run of a workspace, for ever: rows are never deleted, and nothing changes
the workspace of a run, its item, its key or the run of a gate. Asking again with the key answers
with the job that is there, or fails, and changes nothing. -/

namespace HumanGate

open Lib Lib.Calendar Relation

variable {cfg : Config} {sc : Scope} {s t u s' : Db} {now : Instant}

/-! ## Rows stay what they are -/

/-- A run stays a run of its workspace and item, a gate a gate of its run. -/
structure Board.Rows (b b' : Board) : Prop where
  runs : ∀ (rid : RunId) (run : PipelineRun), b.runs[rid]? = some run →
    ∃ run', b'.runs[rid]? = some run' ∧ run'.workspaceId = run.workspaceId ∧
      run'.contentItemId = run.contentItemId
  gates : ∀ (gid : GateId) (g : ReviewGate), b.gates[gid]? = some g →
    ∃ g', b'.gates[gid]? = some g' ∧ g'.pipelineRunId = g.pipelineRunId

namespace Board.Rows

variable {b b' b'' : Board}

theorem refl (b : Board) : b.Rows b :=
  ⟨fun _ run hrun => ⟨run, hrun, rfl, rfl⟩, fun _ g hg => ⟨g, hg, rfl⟩⟩

theorem trans (h : b.Rows b') (h' : b'.Rows b'') : b.Rows b'' := by
  constructor
  · intro rid run hrun
    obtain ⟨run', hrun', hws, hitem⟩ := h.runs rid run hrun
    obtain ⟨run'', hrun'', hws', hitem'⟩ := h'.runs rid run' hrun'
    exact ⟨run'', hrun'', hws'.trans hws, hitem'.trans hitem⟩
  · intro gid g hg
    obtain ⟨g', hg', hrun⟩ := h.gates gid g hg
    obtain ⟨g'', hg'', hrun'⟩ := h'.gates gid g' hg'
    exact ⟨g'', hg'', hrun'.trans hrun⟩

theorem of_eq (h : b' = b) : b.Rows b' := by
  rw [h]
  exact .refl b

theorem of_tables (hruns : b'.runs = b.runs) (hgates : b'.gates = b.gates) : b.Rows b' := by
  constructor
  · intro rid run hrun
    exact ⟨run, by rwa [hruns], rfl, rfl⟩
  · intro gid g hg
    exact ⟨g, by rwa [hgates], rfl⟩

theorem updateRun (b : Board) (rid : RunId) {f : PipelineRun → PipelineRun}
    (hf : ∀ run, (f run).workspaceId = run.workspaceId ∧
      (f run).contentItemId = run.contentItemId) : b.Rows (b.updateRun rid f) := by
  refine ⟨fun rid' run hrun => ?_, fun _ g hg => ⟨g, hg, rfl⟩⟩
  by_cases hr : rid = rid'
  · subst hr
    exact ⟨f run, Table.get_modify_self hrun, hf run⟩
  · exact ⟨run, (Table.get_modify_ne hr).trans hrun, rfl, rfl⟩

end Board.Rows

theorem Write.rows {b b' : Board} (h : Write cfg sc b b') : b.Rows b' := by
  have hsame : ∀ (gid : GateId) (g : ReviewGate), b.gates[gid]? = some g →
      ∃ g', b.gates[gid]? = some g' ∧ g'.pipelineRunId = g.pipelineRunId :=
    fun _ g hg => ⟨g, hg, rfl⟩
  have hruns : ∀ (rid : RunId) (run : PipelineRun), b.runs[rid]? = some run →
      ∃ run', b.runs[rid]? = some run' ∧ run'.workspaceId = run.workspaceId ∧
        run'.contentItemId = run.contentItemId :=
    fun _ run hrun => ⟨run, hrun, rfl, rfl⟩
  cases h with
  | startRun _ _ _ =>
      exact ⟨fun _ run hrun => ⟨run, Table.get_push_of_some hrun, rfl, rfl⟩, hsame⟩
  | run hf => exact .updateRun b _ fun run => ⟨hf.workspaceId run, hf.contentItemId run⟩
  | newGate => exact ⟨hruns, fun _ g hg => ⟨g, Table.get_push_of_some hg, rfl⟩⟩
  | @gate gid f hf =>
      refine ⟨hruns, fun gid' g hg => ?_⟩
      by_cases hgid : gid = gid'
      · subst hgid
        exact ⟨f g, Table.get_modify_self hg, (hf.target g).1⟩
      · exact ⟨g, (Table.get_modify_ne hgid).trans hg, rfl⟩
  | newJob | job | newAssignment | assignment | worker | decision => exact ⟨hruns, hsame⟩

theorem Writes.rows {b b' : Board} (h : Writes cfg sc b b') : b.Rows b' :=
  h.invariant (I := b.Rows) (fun _ _ hw hk => hk.trans hw.rows) (.refl b)

/-! ## What creates a job -/

theorem rows_enterStage (s : Db) (now : Instant) (rid : RunId) (ws : WorkspaceId)
    (row : WorkflowStage) : s.board.Rows (enterStage cfg s now rid ws row).db.board := by
  have hentered : s.board.Rows (s.updateRun rid (PipelineRun.enter row.stageKey)).board :=
    .updateRun s.board rid fun _ => ⟨rfl, rfl⟩
  unfold enterStage
  simp only
  split
  · have hsucceeded : (s.updateRun rid (PipelineRun.enter row.stageKey)).board.Rows
        ((s.updateRun rid (PipelineRun.enter row.stageKey)).updateRun rid
          (PipelineRun.succeed now)).board :=
      .updateRun _ rid fun _ => ⟨rfl, rfl⟩
    exact hentered.trans (hsucceeded.trans (.of_eq rfl))
  split
  · have hwrites : Writes {} .free (s.updateRun rid (PipelineRun.enter row.stageKey)).board
        (pauseForReview (s.updateRun rid (PipelineRun.enter row.stageKey)) now rid row.stageKey
          row.timeoutSeconds).db.board :=
      pauseForReview_writes _ now _ fun _ _ _ => .inr trivial
    exact hentered.trans hwrites.rows
  · have hwrites : Writes cfg .free (s.updateRun rid (PipelineRun.enter row.stageKey)).board
        (enqueueStage cfg (s.updateRun rid (PipelineRun.enter row.stageKey)) now rid ws row.stageKey
          0 now).board :=
      enqueueStage_writes _ now ws 0 now (.inr trivial)
    exact hentered.trans hwrites.rows

theorem rows_advanceOrFinish (s : Db) (now : Instant) (rid : RunId) (fromStage : ContentStage)
    (trigger : WorkflowTransitionTrigger) (context : JsonObject) :
    s.board.Rows (advanceOrFinish cfg s now rid fromStage trigger context).db.board := by
  have hrefl : s.board.Rows s.board := .refl _
  unfold advanceOrFinish
  split
  · exact hrefl
  split
  · exact hrefl
  split
  · exact hrefl
  · split
    · exact hrefl
    split
    · have hsucceeded : s.board.Rows (s.updateRun rid (PipelineRun.succeed now)).board :=
        .updateRun s.board rid fun _ => ⟨rfl, rfl⟩
      have hentered : (s.updateRun rid (PipelineRun.succeed now)).board.Rows
          ((s.updateRun rid (PipelineRun.succeed now)).updateRun rid
            (PipelineRun.enter fromStage)).board :=
        .updateRun _ rid fun _ => ⟨rfl, rfl⟩
      exact hsucceeded.trans (hentered.trans (.of_eq rfl))
    · exact hrefl
  · split
    · exact hrefl
    · exact rows_enterStage ..

theorem rows_handleStageSuccess (s : Db) (now : Instant) (rid : RunId) (stage : ContentStage)
    (context : JsonObject) :
    s.board.Rows (handleStageSuccess cfg s now rid stage context).db.board := by
  unfold handleStageSuccess
  split
  · exact .refl _
  split
  · exact .refl _
  · exact rows_advanceOrFinish ..

theorem rows_updateJobs (f : JobSchedule → JobSchedule) (ids : List JobId) (s : Db) :
    s.board.Rows (updateJobs s f ids).board := by
  induction ids generalizing s with
  | nil => exact .refl _
  | cons jid rest ih =>
      have hfirst : s.board.Rows (s.updateJob jid f).board := .of_tables rfl rfl
      exact hfirst.trans (ih (s.updateJob jid f))

theorem rows_completeDraft {ws : WorkspaceId} {rid : RunId} {context : JsonObject}
    (h : completeDraft cfg s now ws rid context = .ok s') : s.board.Rows s'.board := by
  unfold completeDraft at h
  simp only at h
  split at h
  · cases h
  rename_i reserved resId hreserve
  have hreserved : s.board.Rows reserved.board := by
    have hwrites : Writes cfg .free s.board (reserveSpend s now rid ws .scripting draftDeskProvider
        cfg.settings.defaultStageEstimateUsd).1.board :=
      reserveSpend_writes s now ws .scripting draftDeskProvider _ fun _ => .inr trivial
    rw [hreserve] at hwrites
    exact hwrites.rows
  split at h
  · cases h
  split at h
  · cases h
  rename_i committed hcommit
  cases h
  have hsuccess : reserved.board.Rows
      (handleStageSuccess cfg reserved now rid .scripting context).db.board :=
    rows_handleStageSuccess ..
  have hcommitted : committed.board = (handleStageSuccess cfg reserved now rid .scripting
      context).db.board := board_of_core (core_commitSpend hcommit)
  exact hreserved.trans (hsuccess.trans ((Board.Rows.of_eq hcommitted).trans
    (rows_updateJobs _ _ committed)))

/-! ## Keys -/

/-- The key names a run of the workspace. -/
def DeskDb.Names (s : DeskDb) (ws : WorkspaceId) (key : String) (rid : RunId) : Prop :=
  s.idempotencyKey rid = some key ∧ ∃ run, s.db.runs[rid]? = some run ∧ run.workspaceId = ws

theorem mem_runsWithKey {s : DeskDb} {ws : WorkspaceId} {key : String} {rid : RunId} :
    rid ∈ runsWithKey s ws (some key) ↔ s.Names ws key rid := by
  unfold runsWithKey DeskDb.Names
  simp only [List.mem_filter, Table.mem_select, beq_iff_eq]
  exact and_comm

/-- A key names at most one run of a workspace, and no run that is not there. -/
structure DeskDb.Keyed (s : DeskDb) : Prop where
  sane : s.db.board.Sane
  fresh : ∀ rid, s.db.runs.length ≤ rid → s.idempotencyKey rid = none
  unique : ∀ ws key rid rid', s.Names ws key rid → s.Names ws key rid' → rid = rid'

namespace DeskDb

variable {s s' t : DeskDb} {ws : WorkspaceId} {key : String} {rid : RunId}

theorem Keyed.runsWithKey (h : s.Keyed) (hrid : s.Names ws key rid) :
    runsWithKey s ws (some key) = [rid] := by
  have hnodup : (HumanGate.runsWithKey s ws (some key)).Nodup :=
    (Table.select_nodup _ _).filter _
  have hmem := mem_runsWithKey.mpr hrid
  have hall : ∀ rid' ∈ HumanGate.runsWithKey s ws (some key), rid' = rid := fun rid' hrid' =>
    h.unique ws key rid' rid (mem_runsWithKey.mp hrid') hrid
  cases hrows : HumanGate.runsWithKey s ws (some key) with
  | nil =>
      rw [hrows] at hmem
      cases hmem
  | cons a rest =>
      rw [hrows] at hnodup hall
      have ha : a = rid := hall a List.mem_cons_self
      subst ha
      cases rest with
      | nil => rfl
      | cons b rest =>
          have hb : b = a := hall b (by simp)
          subst hb
          simp at hnodup

/-- What every transaction does to runs, gates and keys. -/
structure Grows (s s' : DeskDb) : Prop where
  rows : s.db.board.Rows s'.db.board
  keys : ∀ rid, rid < s.db.runs.length → s'.idempotencyKey rid = s.idempotencyKey rid

namespace Grows

theorem refl (s : DeskDb) : s.Grows s :=
  ⟨.refl _, fun _ _ => rfl⟩

theorem length_le (h : s.Grows s') : s.db.runs.length ≤ s'.db.runs.length := by
  by_contra hlt
  have hin : s'.db.runs.length < s.db.runs.length := Nat.lt_of_not_le hlt
  obtain ⟨run', hrun', _⟩ := h.rows.runs _ _ (List.getElem?_eq_getElem hin)
  have hout : s'.db.runs[s'.db.runs.length]? = none := List.getElem?_eq_none (le_refl _)
  have hrun' : s'.db.runs[s'.db.runs.length]? = some run' := hrun'
  rw [hout] at hrun'
  cases hrun'

theorem trans (h : s.Grows s') (h' : s'.Grows t) : s.Grows t :=
  ⟨h.rows.trans h'.rows, fun rid hrid =>
    (h'.keys rid (Nat.lt_of_lt_of_le hrid h.length_le)).trans (h.keys rid hrid)⟩

theorem names (h : s.Grows s') (hrid : s.Names ws key rid) : s'.Names ws key rid := by
  obtain ⟨hkey, run, hrun, hws⟩ := hrid
  obtain ⟨hlt, _⟩ := List.getElem?_eq_some_iff.mp hrun
  obtain ⟨run', hrun', hws', _⟩ := h.rows.runs rid run hrun
  exact ⟨(h.keys rid hlt).trans hkey, run', hrun', hws'.trans hws⟩

/-- What a key names afterwards it named before, unless the run is new. -/
theorem names_back (h : s.Grows s') (hrid : s'.Names ws key rid)
    (hlt : rid < s.db.runs.length) : s.Names ws key rid := by
  obtain ⟨hkey, run', hrun', hws'⟩ := hrid
  obtain ⟨run'', hrun'', hws'', _⟩ := h.rows.runs rid _ (List.getElem?_eq_getElem hlt)
  have hsame : run'' = run' := Option.some.inj (hrun''.symm.trans hrun')
  subst hsame
  exact ⟨(h.keys rid hlt).symm.trans hkey, _, List.getElem?_eq_getElem hlt, hws''.symm.trans hws'⟩

/-- The one gate of a run, as long as it is one. -/
theorem gatesOfRun (h : s.Grows s') {gid gid' : GateId}
    (hone : HumanGate.gatesOfRun s.db rid = [gid])
    (hone' : HumanGate.gatesOfRun s'.db rid = [gid']) : gid' = gid := by
  have hmem : gid ∈ HumanGate.gatesOfRun s.db rid := by
    rw [hone]
    exact List.mem_singleton_self gid
  obtain ⟨g, hg, hrun⟩ := Table.mem_select.mp hmem
  obtain ⟨g', hg', hrun'⟩ := h.rows.gates gid g hg
  have hmem' : gid ∈ HumanGate.gatesOfRun s'.db rid := by
    refine Table.mem_select.mpr ⟨g', hg', ?_⟩
    rw [beq_iff_eq, hrun']
    exact beq_iff_eq.mp hrun
  rw [hone'] at hmem'
  exact (List.mem_singleton.mp hmem').symm

end Grows

end DeskDb

/-! ## Creating -/

section Create

variable {idText : VersionId → String} {amountText : ℚ≥0 → String} {s s' : DeskDb}
  {ws : WorkspaceId} {definition : DefinitionId} {args : ContentJobArgs} {result : ContentJobResult}
  {key : Option String} {rid : RunId}

/-- The run that is started. -/
theorem startRun_new {s : Db} {item : ItemId}
    (h : (startRun cfg s now ws item definition).raised = none) :
    ∃ run, (startRun cfg s now ws item definition).db.runs[s.runs.length]? = some run ∧
      run.workspaceId = ws ∧ run.contentItemId = item := by
  unfold startRun at h ⊢
  split at h
  · rename_i d _ hd hitem
    split at h
    · cases h
    · rename_i first hfirst
      exact ⟨_, Table.get_push_new _ _, rfl, rfl⟩
  · cases h

theorem enteredGate_ok {s : Db} {gid : GateId} (h : enteredGate s rid = .ok gid) :
    gatesOfRun s rid = [gid] := by
  unfold enteredGate at h
  split at h
  · cases h
  · rename_i gid' hone
    split at h
    · cases h
      exact hone
    · cases h
  · cases h

theorem replayJob_ok (h : replayJob s rid = .ok result) :
    ∃ run, s.db.runs[rid]? = some run ∧ result.pipelineRunId = rid ∧
      result.contentItemId = run.contentItemId ∧ gatesOfRun s.db rid = [result.reviewGateId] := by
  unfold replayJob at h
  split at h
  · cases h
  · rename_i run gid hrun hone
    split at h
    · cases h
      exact ⟨run, hrun, rfl, rfl, hone⟩
    · cases h
  · cases h

/-- What a new job leaves: its run with the key, and the gate. -/
theorem newContentJob_ok
    (h : newContentJob idText amountText cfg s now ws definition key args = .ok (s', result)) :
    s.db.board.Rows s'.db.board ∧
    s'.idempotencyKey = Function.update s.idempotencyKey s.db.runs.length key ∧
    result.pipelineRunId = s.db.runs.length ∧
    (∃ run, s'.db.runs[s.db.runs.length]? = some run ∧ run.workspaceId = ws ∧
      run.contentItemId = result.contentItemId) ∧
    gatesOfRun s'.db s.db.runs.length = [result.reviewGateId] := by
  unfold newContentJob at h
  simp only at h
  split at h
  · cases h
  · cases h
  rename_i version topic _ _
  split at h
  · cases h
  rename_i hstarted
  split at h
  · cases h
  rename_i db hdraft
  split at h
  · cases h
  rename_i gid hgate
  cases h
  have hwrites : Writes cfg .free (s.db.addDraft ws version).board
      (startRun cfg (s.db.addDraft ws version) now ws s.db.items.length definition).db.board :=
    startRun_writes _ now ws s.db.items.length definition trivial
  have hcompleted := rows_completeDraft hdraft
  obtain ⟨run, hrun, hws, hitem⟩ := startRun_new hstarted
  obtain ⟨run', hrun', hws', hitem'⟩ := hcompleted.runs _ run hrun
  exact ⟨hwrites.rows.trans hcompleted, rfl, rfl, ⟨run', hrun', hws'.trans hws,
    hitem'.trans hitem⟩, enteredGate_ok hgate⟩

theorem createContentJob_ok
    (h : createContentJob idText amountText cfg s now ws definition args = .ok (s', result)) :
    ∃ key, storeOption args.idempotencyKey = .ok key ∧
      ((∃ rid, runsWithKey s ws key = [rid] ∧ s' = s ∧ replayJob s rid = .ok result) ∨
        (runsWithKey s ws key = [] ∧
          newContentJob idText amountText cfg s now ws definition key args
            = .ok (s', result))) := by
  unfold createContentJob at h
  split at h
  · cases h
  rename_i key hkey
  refine ⟨key, hkey, ?_⟩
  split at h
  · cases h
  · rename_i rid hone
    obtain ⟨result', hreplay, hpair⟩ := map_ok h
    cases hpair
    exact .inl ⟨rid, hone, rfl, hreplay⟩
  · rename_i hnone
    exact .inr ⟨hnone, h⟩

theorem createContentJob_grows
    (h : createContentJob idText amountText cfg s now ws definition args = .ok (s', result)) :
    s.Grows s' := by
  obtain ⟨key, _, ⟨rid, _, rfl, _⟩ | ⟨_, hnew⟩⟩ := createContentJob_ok h
  · exact .refl _
  · obtain ⟨hrows, hkeys, _⟩ := newContentJob_ok hnew
    refine ⟨hrows, fun rid hrid => ?_⟩
    rw [hkeys, Function.update_of_ne (Nat.ne_of_lt hrid)]

/-- A new key is the key of the new run alone. -/
theorem createContentJob_keyed (hs : s.Keyed)
    (h : createContentJob idText amountText cfg s now ws definition args = .ok (s', result)) :
    s'.Keyed := by
  have hgrows := createContentJob_grows h
  have hsane := (prepares_createContentJob h).sane hs.sane
  obtain ⟨key, _, ⟨rid, _, rfl, _⟩ | ⟨hnone, hnew⟩⟩ := createContentJob_ok h
  · exact hs
  obtain ⟨_, hkeys, _, ⟨run, hrun, hws, _⟩, _⟩ := newContentJob_ok hnew
  have hlt : s.db.runs.length < s'.db.runs.length := (List.getElem?_eq_some_iff.mp hrun).1
  -- a run with a key is old, or it is the new one
  have hcases : ∀ ws' key' rid, s'.Names ws' key' rid →
      s.Names ws' key' rid ∨ rid = s.db.runs.length ∧ key = some key' ∧ ws = ws' := by
    intro ws' key' rid hrid
    by_cases hnew : rid = s.db.runs.length
    · subst hnew
      obtain ⟨hkey', run', hrun', hws'⟩ := hrid
      rw [hkeys, Function.update_self] at hkey'
      have hsame : run' = run := Option.some.inj (hrun'.symm.trans hrun)
      subst hsame
      exact .inr ⟨rfl, hkey', hws.symm.trans hws'⟩
    · have hold : rid < s.db.runs.length := by
        by_contra hge
        have hkey' := hrid.1
        rw [hkeys, Function.update_of_ne hnew, hs.fresh rid (Nat.le_of_not_lt hge)] at hkey'
        cases hkey'
      exact .inl (hgrows.names_back hrid hold)
  have hunused : ∀ ws' key' rid, key = some key' → ws = ws' → ¬ s.Names ws' key' rid := by
    rintro ws' key' rid rfl rfl hrid
    have hmem := mem_runsWithKey.mpr hrid
    rw [hnone] at hmem
    cases hmem
  refine ⟨hsane, fun rid hrid => ?_, fun ws' key' rid rid' hrid hrid' => ?_⟩
  · have hold : s.db.runs.length < rid := Nat.lt_of_lt_of_le hlt hrid
    rw [hkeys, Function.update_of_ne (Nat.ne_of_gt hold)]
    exact hs.fresh rid (Nat.le_of_lt hold)
  · rcases hcases ws' key' rid hrid with hold | ⟨rfl, hkey, hws'⟩
    · rcases hcases ws' key' rid' hrid' with hold' | ⟨rfl, hkey, hws'⟩
      · exact hs.unique ws' key' rid rid' hold hold'
      · exact absurd hold (hunused ws' key' rid hkey hws')
    · rcases hcases ws' key' rid' hrid' with hold' | ⟨rfl, _, _⟩
      · exact absurd hold' (hunused ws' key' rid' hkey hws')
      · rfl

/-- What an answer names. -/
theorem createContentJob_names {name : String} (hs : s.Keyed)
    (hkey : storeOption args.idempotencyKey = .ok (some name))
    (h : createContentJob idText amountText cfg s now ws definition args = .ok (s', result)) :
    s'.Names ws name result.pipelineRunId ∧
    (∃ run, s'.db.runs[result.pipelineRunId]? = some run ∧
      run.contentItemId = result.contentItemId) ∧
    gatesOfRun s'.db result.pipelineRunId = [result.reviewGateId] := by
  obtain ⟨key, hstored, hcases⟩ := createContentJob_ok h
  rw [hkey] at hstored
  cases hstored
  rcases hcases with ⟨rid, hone, rfl, hreplay⟩ | ⟨_, hnew⟩
  · obtain ⟨run, hrun, hpid, hitem, hgate⟩ := replayJob_ok hreplay
    have hmem : rid ∈ runsWithKey s' ws (some name) := by
      rw [hone]
      exact List.mem_singleton_self rid
    rw [hpid]
    exact ⟨mem_runsWithKey.mp hmem, ⟨run, hrun, hitem.symm⟩, hgate⟩
  · obtain ⟨_, hkeys, hpid, ⟨run, hrun, hws, hitem⟩, hgate⟩ := newContentJob_ok hnew
    rw [hpid]
    refine ⟨⟨?_, run, hrun, hws⟩, ⟨run, hrun, hitem⟩, hgate⟩
    rw [hkeys, Function.update_self]

end Create

/-! ## Every run -/

section Runs

variable (idText : VersionId → String) (amountText : ℚ≥0 → String)

/-- The desk with everything that goes on around it; no key is used at first. -/
def contentDesk (cfg : Config) : System DeskDb DeskOp where
  init s := Fresh s.db ∧ ∀ rid, s.idempotencyKey rid = none
  allowed _ _ := True
  exec := deskExec idText amountText cfg

variable {idText amountText} {s t : DeskDb}

theorem deskExec_keyed (hs : s.Keyed) (o : DeskOp) :
    (deskExec idText amountText cfg s o).Keyed ∧ s.Grows (deskExec idText amountText cfg s o) := by
  obtain ⟨now, action⟩ := o
  cases action with
  | orchestrate action =>
      have hwrites := exec_writes cfg ⟨now, action⟩ fun _ => hs.sane
      have hgrows : s.Grows (deskExec idText amountText cfg s ⟨now, .orchestrate action⟩) :=
        ⟨hwrites.rows, fun _ _ => rfl⟩
      refine ⟨⟨exec_sane cfg _ hs.sane, fun rid hrid => ?_, fun ws key rid rid' hrid hrid' => ?_⟩,
        hgrows⟩
      · exact hs.fresh rid (hgrows.length_le.trans hrid)
      · have hold : ∀ r, DeskDb.Names _ ws key r → s.Names ws key r := fun r hr =>
          hgrows.names_back hr (by
            by_contra hge
            have hnone := hs.fresh r (Nat.le_of_not_lt hge)
            have hsome : s.idempotencyKey r = some key := hr.1
            rw [hnone] at hsome
            cases hsome)
        exact hs.unique ws key rid rid' (hold rid hrid) (hold rid' hrid')
  | createContentJob ws definition args =>
      unfold deskExec
      simp only
      split
      · exact ⟨hs, .refl s⟩
      · rename_i hcreate
        exact ⟨createContentJob_keyed hs hcreate, createContentJob_grows hcreate⟩
  | writeEligibility rows =>
      exact ⟨⟨hs.sane, hs.fresh, hs.unique⟩, ⟨.refl _, fun _ _ => rfl⟩⟩

theorem contentDesk_keyed (h : (contentDesk idText amountText cfg).Reachable s) : s.Keyed := by
  refine h.invariant (I := DeskDb.Keyed) ?_ fun s o hs _ => (deskExec_keyed hs o).1
  rintro s ⟨hfresh, hkeys⟩
  refine ⟨hfresh.sane, fun rid _ => hkeys rid, fun ws key rid rid' hrid _ => ?_⟩
  have hsome := hrid.1
  rw [hkeys] at hsome
  cases hsome

theorem contentDesk_grows (hs : s.Keyed) (h : (contentDesk idText amountText cfg).Steps s t) :
    t.Keyed ∧ s.Grows t := by
  induction h with
  | refl => exact ⟨hs, .refl s⟩
  | step _ _ ih =>
      obtain ⟨hkeyed, hgrows⟩ := deskExec_keyed ih.1 _
      exact ⟨hkeyed, ih.2.trans hgrows⟩

/-- **A content job is created once.** In every run of the desk a job that was asked for with a key
is the one that the key names; asked for again at any later time, with whatever arguments, the
answer names the same run, item and gate, and nothing changes. -/
theorem content_job_once (idText : VersionId → String) (amountText : ℚ≥0 → String) (cfg : Config)
    {s s' : DeskDb} (h : (contentDesk idText amountText cfg).Reachable s) {ws : WorkspaceId}
    {definition : DefinitionId} {args : ContentJobArgs} {name : String} {result : ContentJobResult}
    (hkey : storeOption args.idempotencyKey = .ok (some name))
    (hjob : createContentJob idText amountText cfg s now ws definition args = .ok (s', result)) :
    runsWithKey s' ws (some name) = [result.pipelineRunId] ∧
    ∀ t, (contentDesk idText amountText cfg).Steps s' t →
      runsWithKey t ws (some name) = [result.pipelineRunId] ∧
      ∀ (now' : Instant) (definition' : DefinitionId) (args' : ContentJobArgs)
        (t' : DeskDb) (result' : ContentJobResult),
        storeOption args'.idempotencyKey = .ok (some name) →
        createContentJob idText amountText cfg t now' ws definition' args' = .ok (t', result') →
          t' = t ∧ result'.pipelineRunId = result.pipelineRunId ∧
          result'.contentItemId = result.contentItemId ∧
          result'.reviewGateId = result.reviewGateId := by
  have hs := contentDesk_keyed h
  have hs' := createContentJob_keyed hs hjob
  obtain ⟨hnames, ⟨run, hrun, hitem⟩, hgate⟩ := createContentJob_names hs hkey hjob
  refine ⟨hs'.runsWithKey hnames, fun t hsteps => ?_⟩
  obtain ⟨ht, hgrows⟩ := contentDesk_grows hs' hsteps
  have hrid := ht.runsWithKey (hgrows.names hnames)
  refine ⟨hrid, fun now' definition' args' t' result' hkey' hjob' => ?_⟩
  obtain ⟨key, hstored, hcases⟩ := createContentJob_ok hjob'
  rw [hkey'] at hstored
  cases hstored
  -- the key names the run still, so the job is replayed
  rcases hcases with ⟨rid, hone, rfl, hreplay⟩ | ⟨hnone, _⟩
  · rw [hrid] at hone
    cases hone
    obtain ⟨run', hrun', hpid', hitem', hgate'⟩ := replayJob_ok hreplay
    obtain ⟨run'', hrun'', _, hsame⟩ := hgrows.rows.runs _ run hrun
    have heq : run'' = run' := Option.some.inj (hrun''.symm.trans hrun')
    subst heq
    exact ⟨rfl, hpid', hitem'.trans (hsame.trans hitem), hgrows.gatesOfRun hgate hgate'⟩
  · rw [hrid] at hnone
    cases hnone

end Runs

/-! ## A job of the small desk -/

def rainJob : ContentJobArgs where
  topic := PyStr.lit "rain"
  scriptBody := PyStr.lit "It rains."
  idempotencyKey := some (PyStr.lit "k1")

def rainDesk : Except ContentJobError (DeskDb × ContentJobResult) :=
  createContentJob toString (fun _ => "0.01") deskConfig { db := deskDb } 0 0 0 rainJob

/-- The key is used again, for something else. -/
def snowJob : ContentJobArgs := { rainJob with topic := PyStr.lit "snow" }

def snowDesk (s : DeskDb) : Except ContentJobError (DeskDb × ContentJobResult) :=
  createContentJob toString (fun _ => "0.01") deskConfig s 5 0 0 snowJob

theorem rain_job_once :
    ∃ (s' : DeskDb) (result again : ContentJobResult), rainDesk = .ok (s', result) ∧
      runsWithKey s' 0 (some "k1") = [result.pipelineRunId] ∧
      (∀ t, (contentDesk toString (fun _ => "0.01") deskConfig).Steps s' t →
        runsWithKey t 0 (some "k1") = [result.pipelineRunId]) ∧
      snowDesk s' = .ok (s', again) ∧ again.pipelineRunId = result.pipelineRunId ∧
      again.contentItemId = result.contentItemId ∧ again.reviewGateId = result.reviewGateId := by
  have hcreated : (rainDesk.bind fun p => snowDesk p.1).isOk = true := by decide +kernel
  have hkey : storeOption rainJob.idempotencyKey = .ok (some "k1") := rfl
  have hreach : (contentDesk toString (fun _ => "0.01") deskConfig).Reachable { db := deskDb } :=
    .init ⟨deskDb_fresh, fun _ => rfl⟩
  cases hjob : rainDesk with
  | error e =>
      rw [hjob] at hcreated
      cases hcreated
  | ok p =>
      rw [hjob] at hcreated
      obtain ⟨hnow, hlater⟩ :=
        content_job_once toString (fun _ => "0.01") deskConfig hreach hkey hjob
      cases hrepeated : snowDesk p.1 with
      | error e =>
          change (snowDesk p.1).isOk = true at hcreated
          rw [hrepeated] at hcreated
          cases hcreated
      | ok q =>
          obtain ⟨hunchanged, hrun, hitem, hgate⟩ :=
            (hlater p.1 .refl).2 5 0 snowJob q.1 q.2 rfl hrepeated
          refine ⟨p.1, p.2, q.2, rfl, hnow, fun t ht => (hlater t ht).1, ?_, hrun, hitem, hgate⟩
          rw [hrepeated, ← hunchanged]

end HumanGate
