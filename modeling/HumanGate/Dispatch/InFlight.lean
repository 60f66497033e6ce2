import HumanGate.Dispatch.HandOuts

set_option autoImplicit false

/-! # Assignments in flight, under interleaving

Both limits on what is in flight, that of a provider and that of a workspace, count the
`DISPATCHED` and `ACKNOWLEDGED` rows that have a given workspace and a given stored provider
(`Crew.flying`). These two fields never change. Only a statement that hands an assignment out
can raise such a count, and it raises it by one (`handOutExec_flying`).
-/

namespace HumanGate

open Lib Lib.Calendar Relation

variable {cfg : Config} {now : Instant}

/-! ## Counting -/

/-- The row is in flight, and `q` holds of its workspace and its provider. -/
def StageAssignment.flies (q : WorkspaceId → Option String → Bool) (a : StageAssignment) : Bool :=
  q a.workspaceId a.provider && a.status.inFlight

def Crew.flying (c : Crew) (q : WorkspaceId → Option String → Bool) : Nat :=
  c.assignments.countP (StageAssignment.flies q)

theorem countInflight_eq_flying (s : Db) (ws : WorkspaceId) (provider : String) :
    countInflight s ws provider
      = s.crew.flying fun ws' provider' => ws' == ws && provider' == some provider :=
  List.countP_eq_length_filter.symm

theorem inFlightCount_eq_flying (s : Db) (ws : WorkspaceId) :
    inFlightCount s ws = s.crew.flying fun ws' _ => ws' == ws :=
  List.countP_eq_length_filter.symm

@[simp] theorem flying_slot (c : Crew) (worker : Option WorkerId)
    (f : WorkerRegistration → WorkerRegistration) (q : WorkspaceId → Option String → Bool) :
    (c.slot worker f).flying q = c.flying q := by
  unfold Crew.flying
  rw [Crew.slot_assignments]

/-! ## Rows -/

/-- The workspace and the provider of a row. -/
def StageAssignment.place (a : StageAssignment) : WorkspaceId × Option String :=
  (a.workspaceId, a.provider)

theorem RowMove.place {a a' : StageAssignment} {k : MoveKind} (h : RowMove cfg now a k a') :
    a'.place = a.place := by
  cases h <;> rfl

/-- A row move that puts nothing in flight. -/
theorem RowMove.flies {a a' : StageAssignment} {k : MoveKind} (h : RowMove cfg now a k a')
    (hclaim : k ≠ .claim) (hconfirm : k ≠ .confirm) {q : WorkspaceId → Option String → Bool}
    (hfly : a'.flies q = true) : a.flies q = true := by
  unfold StageAssignment.flies at hfly ⊢
  rw [Bool.and_eq_true] at hfly ⊢
  cases h with
  | claim wid token _ => exact absurd rfl hclaim
  | confirm secs => exact absurd rfl hconfirm
  | acknowledge secs hst => exact ⟨hfly.1, by rw [hst]; rfl⟩
  | extend secs => exact hfly
  | close success result hst => exact ⟨hfly.1, hst⟩
  | requeue hst => exact ⟨hfly.1, hst⟩
  | exhaust hst => exact ⟨hfly.1, hst⟩
  | cancel hst => cases hfly.2

/-- The moves that put an assignment in flight. -/
def MoveKind.takesOff : MoveKind → Bool
  | .assign | .claim | .confirm => true
  | _ => false

theorem Move.flying_le {k : MoveKind} {c c' : Crew} (h : Move cfg now k c c')
    (hk : k.takesOff = false) (q : WorkspaceId → Option String → Bool) :
    c'.flying q ≤ c.flying q := by
  refine Table.countP_le fun i a' ha' hfly => ?_
  rcases h.row ha' with hsame | ⟨a, ha, hrow⟩ | ⟨_, hnew⟩
  · exact ⟨a', hsame, hfly⟩
  · refine ⟨a, ha, hrow.flies ?_ ?_ hfly⟩
    · rintro rfl
      cases hk
    · rintro rfl
      cases hk
  · cases hnew with
    | queue args stage heq =>
        subst heq
        simp [StageAssignment.flies, newAssignment, StageAssignmentStatus.inFlight] at hfly
    | assign args stage wid heq => cases hk

theorem Moves.flying_le {kinds : List MoveKind} {c c' : Crew} (h : Moves cfg now kinds c c')
    (hk : ∀ k ∈ kinds, k.takesOff = false) (q : WorkspaceId → Option String → Bool) :
    c'.flying q ≤ c.flying q :=
  h.invariant (I := fun c' => c'.flying q ≤ c.flying q)
    (fun k hmem _ _ hm hle => (hm.flying_le (hk k hmem) q).trans hle) le_rfl

/-- A row stays, and so do its workspace and its provider. -/
theorem Moves.place {kinds : List MoveKind} {c c' : Crew} (h : Moves cfg now kinds c c')
    {aid : AssignmentId} {a : StageAssignment} (ha : c.assignments[aid]? = some a) :
    ∃ a', c'.assignments[aid]? = some a' ∧ a'.place = a.place :=
  h.row (P := fun b => b.place = a.place) (fun _ _ _ _ hrow hb => hrow.place.trans hb) ha rfl

/-! ## Single operations -/

/-- A job that has no transaction of its own is no work. -/
theorem not_work_of_jobTxn {s : Db} {jid : JobId} {job : JobSchedule} {rid : RunId}
    (h : jobTxn s jid 0 = none) (hjob : s.jobs[jid]? = some job)
    (hwork : job.worksFor = some rid) : False := by
  unfold JobSchedule.worksFor at hwork
  unfold jobTxn at h
  simp only [hjob] at h
  cases href : job.refId with
  | gate gid => simp [href] at hwork
  | run rid' =>
      simp only [href] at h hwork
      split at h
      · cases h
      · rename_i hisWork
        simp [hisWork] at hwork

theorem exec_flying_le {s : Db} {action : Action} (h : action.isSingle s = true)
    (q : WorkspaceId → Option String → Bool) :
    (exec cfg s ⟨now, action⟩).crew.flying q ≤ s.crew.flying q := by
  by_cases hk : ∀ k ∈ action.kinds, k.takesOff = false
  · exact (exec_moves cfg s ⟨now, action⟩).flying_le hk q
  · cases action with
    | processLeasedJob jid rows jitter =>
        rcases commit_ofExcept (s := s) (t := exec cfg s ⟨now, .processLeasedJob jid rows jitter⟩)
          rfl with hsame | ⟨s', hok, heq⟩
        · rw [hsame]
        · rw [heq, crew_flush]
          have hcrew : s'.crew = s.crew := by
            rcases processLeasedJob_work hok with ⟨job, rid, _, hjob, hwork, _⟩ | hcrew
            · exact (not_work_of_jobTxn (Option.isNone_iff_eq_none.mp h) hjob hwork).elim
            · exact hcrew
          rw [hcrew]
    | claimAssignment wid token ws rows => cases h
    | dispatchStage args rows => cases h
    | acknowledge aid secs worker =>
        cases worker with
        | none => cases h
        | some wid => simp [Action.kinds, MoveKind.takesOff] at hk
    | _ => simp [Action.kinds, MoveKind.takesOff] at hk

/-! ## Statements -/

/-- The row a claim has picked. -/
def HandOutTxn.pick : HandOutTxn → Option (AssignmentId × StageAssignment)
  | .claim _ (.picked aid a) | .claim _ (.locked aid a) | .claim _ (.admitted aid a) =>
      some (aid, a)
  | _ => none

/-- The rows that claims have picked still have the workspace and the provider they had. -/
def Tracked (s : HandOutState) : Prop :=
  ∀ t ∈ s.txns, ∀ p ∈ t.pick, ∃ a, s.db.assignments[p.1]? = some a ∧ a.place = p.2.place

theorem Advances.pick {s : Db} {t t' : HandOutTxn} (h : Advances cfg s t t')
    {p : AssignmentId × StageAssignment} (hp : t'.pick = some p) :
    t.pick = some p ∨ s.assignments[p.1]? = some p.2 := by
  cases h with
  | picks req aid a ha =>
      cases hp
      exact .inr ha
  | passes req aid a _ => exact .inl hp
  | locks req aid a => exact .inl hp
  | admits req aid a _ => exact .inl hp
  | _ => cases hp

/-- Whatever a statement does, the rows stay and keep their workspace and provider. -/
theorem Handed.place {s : Db} {rows : List Nat} {t t' : HandOutTxn} {c : Crew}
    (h : Handed cfg s now rows t c t') {aid : AssignmentId} {a : StageAssignment}
    (ha : s.assignments[aid]? = some a) : ∃ a', c.assignments[aid]? = some a' ∧
      a'.place = a.place := by
  cases h with
  | nothing _ hmoves => exact hmoves.place ha
  | claimed req aid' a' _ =>
      unfold Crew.give
      rw [Crew.slot_assignments]
      by_cases heq : aid' = aid
      · subst heq
        exact ⟨_, Table.get_modify_self ha, rfl⟩
      · exact ⟨a, (Table.get_modify_ne heq).trans ha, rfl⟩
  | assigned req stage wid _ =>
      rw [Crew.slot_assignments]
      exact ⟨a, Table.get_push_of_some ha, rfl⟩

/-- **A statement raises the count by what it hands out.** -/
theorem Handed.flying_le {s : Db} {rows : List Nat} {t t' : HandOutTxn} {c : Crew}
    (h : Handed cfg s now rows t c t')
    (htrack : ∀ p ∈ t.pick, ∃ a, s.assignments[p.1]? = some a ∧ a.place = p.2.place)
    (q : WorkspaceId → Option String → Bool) :
    c.flying q ≤ s.crew.flying q
      + if (t.handsOut cfg s now rows).any (fun p => q p.1 p.2) = true then 1 else 0 := by
  cases h with
  | nothing _ hmoves =>
      have hle : c.flying q ≤ s.crew.flying q :=
        hmoves.flying_le (by simp [MoveKind.takesOff]) q
      omega
  | claimed req aid a hhands =>
      obtain ⟨b, hb, hplace⟩ := htrack (aid, a) rfl
      have hcount : (s.crew.give cfg now aid req.wid req.token).flying q
          + (if b.flies q then 1 else 0) = s.crew.flying q
          + (if ({ b.claim cfg now req.wid req.token with updatedAt := now }).flies q then 1
            else 0) := by
        unfold Crew.give
        rw [flying_slot]
        exact Table.countP_modify hb
      -- the row counts for the place that the transaction has read
      have hq : ({ b.claim cfg now req.wid req.token with updatedAt := now } :
          StageAssignment).flies q = true → q a.workspaceId a.provider = true := by
        intro hfly
        unfold StageAssignment.place at hplace
        obtain ⟨hws, hprovider⟩ := Prod.mk.inj hplace
        unfold StageAssignment.flies at hfly
        rw [Bool.and_eq_true] at hfly
        rw [← hws, ← hprovider]
        exact hfly.1
      rw [hhands, Option.any_some]
      by_cases hfly : ({ b.claim cfg now req.wid req.token with updatedAt := now } :
          StageAssignment).flies q = true
      · rw [if_pos (hq hfly)]
        rw [if_pos hfly] at hcount
        omega
      · rw [if_neg hfly] at hcount
        omega
  | assigned req stage wid hhands =>
      have hcount : ((s.crew.push (newAssignment cfg now req.args stage (some wid))).slot (some wid)
          WorkerRegistration.takeSlot).flying q = s.crew.flying q
          + (if (newAssignment cfg now req.args stage (some wid)).flies q then 1 else 0) := by
        rw [flying_slot]
        exact Table.countP_push ..
      have hfly : (newAssignment cfg now req.args stage (some wid)).flies q
          = q req.args.workspaceId (some (effectiveProvider req.args.provider)) := by
        simp [StageAssignment.flies, newAssignment, StageAssignmentStatus.inFlight]
      rw [hcount, hfly, hhands, Option.any_some]

/-! ## Steps -/

def HandOutTxn.isBegun : HandOutTxn → Bool
  | .claim _ .begun | .dispatch _ .begun => true
  | _ => false

/-- A step in full: a transaction begins, or takes its next statement, or an operation runs that
hands nothing out. -/
inductive HandOutStep (cfg : Config) (s : HandOutState) (o : HandOutOp) : HandOutState → Prop
  | begun {t : HandOutTxn} : t.isBegun = true →
      HandOutStep cfg s o { s with txns := s.txns ++ [t] }
  | quiet {db : Db} : (∀ q, db.crew.flying q ≤ s.db.crew.flying q) →
      (∃ kinds, Moves cfg o.now kinds s.db.crew db.crew) → HandOutStep cfg s o { s with db := db }
  | statement {i : Nat} {rows : List Nat} {t : HandOutTxn} : o.action = .statement i rows →
      s.txns[i]? = some t →
      HandOutStep cfg s o
        { db := (t.next cfg s.db o.now s.taken rows).1
          txns := s.txns.modify i fun _ => (t.next cfg s.db o.now s.taken rows).2 }

theorem handOutExec_step {s : HandOutState} {o : HandOutOp} (h : handOutAllowed cfg s o.action) :
    HandOutStep cfg s o (handOutExec cfg s o) := by
  have hidle : HandOutStep cfg s o s := .quiet (fun _ => le_rfl) ⟨[], .refl⟩
  obtain ⟨now, action⟩ := o
  cases action with
  | beginClaim req => exact .begun rfl
  | beginDispatch args => exact .begun rfl
  | beginJob jid jitter =>
      simp only [handOutExec]
      split
      · exact hidle
      · rename_i t ht
        refine .begun ?_
        unfold jobTxn at ht
        split at ht
        · cases ht
        · split at ht
          · split at ht <;> cases ht
            rfl
          · cases ht
  | statement i rows =>
      simp only [handOutExec]
      split
      · exact hidle
      · rename_i t ht
        exact .statement rfl ht
  | op action => exact .quiet (exec_flying_le h) ⟨_, exec_moves cfg s.db ⟨now, action⟩⟩

theorem pick_of_begun {t : HandOutTxn} (h : t.isBegun = true) : t.pick = none := by
  cases t with
  | claim req step => cases step <;> first | rfl | cases h
  | dispatch req step => rfl

theorem HandOutStep.tracked {s s' : HandOutState} {o : HandOutOp} (h : HandOutStep cfg s o s')
    (htrack : Tracked s) : Tracked s' := by
  cases h with
  | begun hbegun =>
      rename_i t
      refine Table.forall_push htrack fun p hp => ?_
      rw [pick_of_begun hbegun] at hp
      cases hp
  | quiet _ hmoves =>
      obtain ⟨kinds, hmoves⟩ := hmoves
      intro t ht p hp
      obtain ⟨a, ha, hplace⟩ := htrack t ht p hp
      obtain ⟨a', ha', hplace'⟩ := hmoves.place ha
      exact ⟨a', ha', hplace'.trans hplace⟩
  | statement haction ht =>
      rename_i i rows t
      have hhanded : Handed cfg s.db o.now rows t (t.next cfg s.db o.now s.taken rows).1.crew
          (t.next cfg s.db o.now s.taken rows).2 := next_handed s.db s.taken rows t
      have hstay : ∀ {aid : AssignmentId} {a : StageAssignment}, s.db.assignments[aid]? = some a →
          ∃ a', (t.next cfg s.db o.now s.taken rows).1.assignments[aid]? = some a' ∧
            a'.place = a.place :=
        fun ha => hhanded.place ha
      refine Table.forall_replace ?_ ?_
      · intro p hp
        have hadv : Advances cfg s.db t (t.next cfg s.db o.now s.taken rows).2 :=
          next_advances s.db s.taken rows t
        rcases hadv.pick hp with hpick | hrow
        · obtain ⟨a, ha, hplace⟩ := htrack t (Table.mem_of_get ht) p hpick
          obtain ⟨a', ha', hplace'⟩ := hstay ha
          exact ⟨a', ha', hplace'.trans hplace⟩
        · exact hstay hrow
      · intro j u _ hu p hp
        obtain ⟨a, ha, hplace⟩ := htrack u (Table.mem_of_get hu) p hp
        obtain ⟨a', ha', hplace'⟩ := hstay ha
        exact ⟨a', ha', hplace'.trans hplace⟩

theorem tracked_of_nil {s : HandOutState} (h : s.txns = []) : Tracked s := by
  intro t ht
  rw [h] at ht
  cases ht

instance (cfg : Config) (s : HandOutState) (a : HandOutAction) :
    Decidable (handOutAllowed cfg s a) := by
  unfold handOutAllowed
  split <;> infer_instance

instance (cfg : Config) (s : HandOutState) (o : HandOutOp) :
    Decidable ((handOuts cfg).allowed s o) :=
  inferInstanceAs (Decidable (handOutAllowed cfg s o.action))

end HumanGate
