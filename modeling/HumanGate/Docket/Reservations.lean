import HumanGate.Docket.Operations
import HumanGate.Spend.Books

set_option autoImplicit false

/-! # The reservation ledger

A reservation is open for as long as a worker has the stage: the open reservations of a run are
those of its assignment in flight (`Docket.Funded`). Every turn keeps this, and every operation
keeps the books, which together is the ledger (`reservation_ledger`).
-/

namespace HumanGate

open Lib Lib.Calendar Relation

variable {cfg : Config} {s t : Db} {now : Instant} {rid : RunId} {d d' : Docket}

/-! ## Funded dockets -/

/-- The assignment is in flight for the stage. -/
def StageAssignment.inFlightAt (stage : ContentStage) (a : StageAssignment) : Bool :=
  a.status.inFlight && a.stage == stage

/-- Every assignment in flight has its reservation, and there are no others. A run that is over
has no open assignment. -/
structure Docket.Funded (d : Docket) : Prop where
  reserved : ∀ stage, d.reserved stage = d.rows.countP (StageAssignment.inFlightAt stage)
  ended : ∀ run, d.run = some run → run.status.isTerminal = true → d.rows = []

/-- What is open for one assignment. -/
def StageAssignment.funds (a : StageAssignment) : ContentStage → Nat :=
  fun stage => if a.inFlightAt stage then 1 else 0

theorem StageAssignment.funds_inFlight {a : StageAssignment} (h : a.status.inFlight = true) :
    a.funds = Function.update (fun _ => 0) a.stage 1 := by
  funext stage
  by_cases hstage : stage = a.stage
  · subst hstage
    simp [StageAssignment.funds, StageAssignment.inFlightAt, h]
  · simp [StageAssignment.funds, StageAssignment.inFlightAt, h, hstage, Ne.symm hstage]

theorem StageAssignment.funds_pending {a : StageAssignment} (h : a.status.inFlight = false) :
    a.funds = fun _ => 0 := by
  funext stage
  simp [StageAssignment.funds, StageAssignment.inFlightAt, h]

namespace Docket.Funded

/-- Without an open assignment nothing is reserved. -/
theorem none_reserved (h : d.Funded) (hrows : d.rows = []) : d.reserved = fun _ => 0 := by
  funext stage
  rw [h.reserved stage, hrows]
  rfl

theorem of_none_reserved (hrows : d.rows = []) (hreserved : d.reserved = fun _ => 0) :
    d.Funded := by
  refine ⟨fun stage => ?_, fun _ _ _ => hrows⟩
  rw [hrows, hreserved]
  rfl

theorem row {run : Option PipelineRun} {a : StageAssignment} {reserved : ContentStage → Nat}
    (h : (Docket.assigned run a reserved).Funded) : reserved = a.funds := by
  funext stage
  have hcount := h.reserved stage
  simpa [Docket.assigned, StageAssignment.funds, List.countP_singleton] using hcount

/-- An open assignment is one of a run that is not over. -/
theorem row_live {run : PipelineRun} {a : StageAssignment} {reserved : ContentStage → Nat}
    (h : (Docket.assigned (some run) a reserved).Funded) : run.status.isTerminal = false := by
  cases hover : run.status.isTerminal with
  | false => rfl
  | true => cases h.ended run rfl hover

theorem assigned {run : PipelineRun} {a : StageAssignment} {reserved : ContentStage → Nat}
    (hlive : run.status.isTerminal = false) (hreserved : reserved = a.funds) :
    (Docket.assigned (some run) a reserved).Funded := by
  refine ⟨fun stage => ?_, fun run' hrun' hover => ?_⟩
  · simp [Docket.assigned, StageAssignment.funds, List.countP_singleton, hreserved]
  · cases hrun'
    rw [hlive] at hover
    cases hover

end Docket.Funded

/-- When the reservation of an assignment in flight is closed, nothing is reserved. -/
theorem StageAssignment.funds_closed {a : StageAssignment} (h : a.status.inFlight = true)
    {n : Nat} (hn : n = 0) : Function.update a.funds a.stage n = fun _ => 0 := by
  rw [StageAssignment.funds_inFlight h, Function.update_idem, hn]
  exact Function.update_eq_self a.stage (fun _ => 0)

theorem StageAssignment.funds_less {a : StageAssignment} (h : a.status.inFlight = true) :
    Function.update a.funds a.stage (a.funds a.stage - 1) = fun _ => 0 := by
  refine StageAssignment.funds_closed h ?_
  rw [StageAssignment.funds_inFlight h, Function.update_self]

theorem Docket.Route.funded {run : PipelineRun} {fromStage : ContentStage}
    (h : Docket.Route cfg now rid run fromStage (fun _ => 0) d) : d.Funded := by
  cases h with
  | ended | finished | paused | stuck | enqueued => exact .of_none_reserved rfl rfl

/-- **Every turn keeps the docket funded.** -/
theorem Docket.Turn.funded (h : Docket.Turn cfg now rid d d') (hsound : d.Sound) (hd : d.Funded) :
    d'.Funded := by
  cases h with
  | start | wait | defer | drop | revise => exact .of_none_reserved rfl (hd.none_reserved rfl)
  | giveUp | exhaust | fail => exact .of_none_reserved rfl rfl
  | hold =>
      have hnone := hd.none_reserved rfl
      simp only [Docket.queued] at hnone
      subst hnone
      exact .of_none_reserved rfl (Function.update_eq_self _ fun _ => 0)
  | queue hlive =>
      exact .assigned hlive ((hd.none_reserved rfl).trans (StageAssignment.funds_pending rfl).symm)
  | assign hlive =>
      have hnone := hd.none_reserved rfl
      simp only [Docket.queued] at hnone
      subst hnone
      refine .assigned hlive ?_
      rw [StageAssignment.funds_inFlight rfl]
      rfl
  | @claim run a a' _ hpending hsame hdispatched =>
      obtain ⟨run, rfl⟩ := hsound.run_assigned
      have hinflight : a'.status.inFlight = true := by rw [hdispatched]; rfl
      have hidle : a.status.inFlight = false := by rw [hpending]; rfl
      refine .assigned hd.row_live ?_
      rw [hd.row, StageAssignment.funds_pending hidle, StageAssignment.funds_inFlight hinflight,
        hsame.stage]
  | @claimHold run a _ hpending =>
      have hidle : a.status.inFlight = false := by rw [hpending]; rfl
      refine .assigned rfl ?_
      rw [hd.row, StageAssignment.funds_pending hidle]
      exact Function.update_eq_self _ fun _ => 0
  | @touch run a a' _ hsame _ hinflight =>
      obtain ⟨run, rfl⟩ := hsound.run_assigned
      refine .assigned hd.row_live ?_
      have hsameAt : ∀ stage, a'.inFlightAt stage = a.inFlightAt stage := by
        intro stage
        simp only [StageAssignment.inFlightAt, hinflight, hsame.stage]
      rw [hd.row]
      funext stage
      simp only [StageAssignment.funds, hsameAt]
  | @requeue run a a' _ hinflight hsame hpending =>
      have hidle : a'.status.inFlight = false := by rw [hpending]; rfl
      refine .assigned hd.row_live ?_
      rw [hd.row, StageAssignment.funds_closed hinflight rfl, StageAssignment.funds_pending hidle]
  | close _ hover =>
      -- an open assignment of a run that is over
      rw [hd.row_live] at hover
      cases hover
  | advance hinflight _ hroute =>
      rw [hd.row, StageAssignment.funds_less hinflight] at hroute
      exact hroute.funded
  | retry hinflight =>
      refine .of_none_reserved rfl ?_
      show Function.update _ _ _ = _
      rw [hd.row]
      exact StageAssignment.funds_less hinflight
  | decide hdecided =>
      have hnone := hd.none_reserved rfl
      simp only [Docket.gated] at hnone
      subst hnone
      cases hdecided with
      | routed hroute => exact hroute.funded
      | settled | rejected => exact .of_none_reserved rfl rfl
  | cancel => exact .of_none_reserved rfl rfl

/-! ## The system -/

theorem routine_funded (h : (routine cfg).Reachable s) (r : RunId) :
    (s.docket r).Sound ∧ (s.docket r).Funded := by
  refine routine_invariant (I := fun _ d => d.Funded) ?_ ?_ h r
  · intro r
    exact .of_none_reserved rfl rfl
  · intro now r d d' hturn hsound hd
    exact hturn.funded hsound hd

theorem routine_entries (h : (routine cfg).Steps s t) : KeepsBooks s t := by
  induction h with
  | refl => exact .refl
  | step _ _ ih => exact ih.trans (exec_entries ..)

theorem Fresh.balanced (h : Fresh s) : s.books.Balanced s.logs [] where
  unique := List.nodup_nil
  complete i r hr := by
    have hnone : s.reservations[i]? = some r := hr
    rw [h.reservations] at hnone
    cases hnone
  booked := ⟨[], (List.append_nil _).symm, .nil⟩

theorem Fresh.staged (h : Fresh s) : s.books.Staged := by
  intro r hr
  have hnone : r ∈ s.reservations := hr
  rw [h.reservations] at hnone
  cases hnone

/-- The open reservations of a run and a stage. -/
def Db.openReservations (s : Db) (rid : RunId) (stage : ContentStage) : Nat :=
  s.reservations.countP (SpendReservation.openAt rid stage)

/-- In flight, and the only open assignment of the run. -/
theorem Docket.Funded.inFlight (hsound : (s.docket rid).Sound) (h : (s.docket rid).Funded)
    {a : StageAssignment} (ha : a ∈ s.assignments) (hrun : a.pipelineRunId = rid)
    (hinflight : a.status.inFlight = true) : s.openReservations rid a.stage = 1 := by
  obtain ⟨aid, haid⟩ := List.getElem?_of_mem ha
  have hopen : a.openFor rid = true := by
    simp [StageAssignment.openFor, hrun, isOpen_of_inFlight hinflight]
  have hreserved := h.reserved a.stage
  rw [docket_of_row hsound.single haid hopen] at hreserved
  have hcount : (s.docket rid).reserved a.stage = 1 := by
    refine hreserved.trans ?_
    simp [Docket.assigned, StageAssignment.inFlightAt, hinflight]
  exact hcount

theorem Docket.Funded.at_most_one (hsound : (s.docket rid).Sound) (h : (s.docket rid).Funded)
    (stage : ContentStage) : s.openReservations rid stage ≤ 1 := by
  have hsingle := hsound.single
  have hle : (s.docket rid).rows.countP (StageAssignment.inFlightAt stage)
      ≤ (s.docket rid).rows.length := List.countP_le_length
  have hreserved : s.openReservations rid stage
      = (s.docket rid).rows.countP (StageAssignment.inFlightAt stage) := h.reserved stage
  unfold Docket.Single Docket.items at hsingle
  omega

/-- **The reservation ledger.** In every run: a reservation that has left `RESERVED` is never
changed again; the logs that were added are, one for one, those of the committed reservations;
no stage of a run has two open reservations; an assignment in flight has exactly one; and a run
that is over has none. -/
theorem reservation_ledger (cfg : Config) {s₀ s : Db} (hinit : (routine cfg).init s₀)
    (h : (routine cfg).Steps s₀ s) :
    (∀ t, (routine cfg).Steps s t → ∀ (i : ReservationId) (r : SpendReservation),
      s.reservations[i]? = some r → r.status ≠ .reserved → t.reservations[i]? = some r) ∧
    (∃ (ids : List ReservationId) (new : List SpendLog), s.logs = s₀.logs ++ new ∧ ids.Nodup ∧
      (∀ i, i ∈ ids ↔ ∃ r : SpendReservation, s.reservations[i]? = some r ∧
        r.status = .committed) ∧
      List.Forall₂ (fun i l => ∃ r : SpendReservation, s.reservations[i]? = some r ∧
        l.provider = r.provider ∧ l.stage = r.stage ∧ 0 ≤ l.costUsd ∧
        l.costUsd ≤ r.estimatedCostUsd) ids new) ∧
    (∀ rid stage, s.openReservations rid stage ≤ 1) ∧
    (∀ a ∈ s.assignments, a.status.inFlight = true →
      s.openReservations a.pipelineRunId a.stage = 1) ∧
    (∀ (rid : RunId) (run : PipelineRun), s.runs[rid]? = some run → run.status.isTerminal = true →
      ∀ r ∈ s.reservations, r.pipelineRunId = some rid → r.status ≠ .reserved) := by
  have hentries := routine_entries h
  have hfunded := routine_funded (System.Reachable.of_steps (.init hinit) h)
  refine ⟨?_, ?_, ?_, ?_, ?_⟩
  · -- what is settled stays settled
    intro t ht i r hr hst
    exact (routine_entries ht).closed hr hst
  · -- the log has one line for each committed reservation
    obtain ⟨ids, hbalanced⟩ := hentries.balanced ⟨[], Fresh.balanced hinit⟩
    obtain ⟨new, hlogs, hall⟩ := hbalanced.booked
    refine ⟨ids, new, hlogs, hbalanced.unique, fun i => ⟨fun hi => ?_, ?_⟩, ?_⟩
    · obtain ⟨_, r, hr, hst, _⟩ := hbalanced.mem hi
      exact ⟨r, hr, hst⟩
    · rintro ⟨r, hr, hst⟩
      exact hbalanced.complete i r hr hst
    · refine hall.imp fun i l hbooked => ?_
      obtain ⟨r, hr, _, hl⟩ := hbooked
      exact ⟨r, hr, hl.provider, hl.stage, zero_le, hl.cost⟩
  · intro rid stage
    exact (hfunded rid).2.at_most_one (hfunded rid).1 stage
  · intro a ha hinflight
    exact (hfunded _).2.inFlight (hfunded _).1 ha rfl hinflight
  · -- a run that is over holds nothing at any of its stages
    intro rid run hrun hover r hr hrid hst
    have hnone := (hfunded rid).2.none_reserved ((hfunded rid).2.ended run hrun hover)
    obtain ⟨stage, hstage⟩ := Option.isSome_iff_exists.mp
      (hentries.staged (Fresh.staged hinit) r hr)
    have hcount : s.openReservations rid stage = 0 := congrFun hnone stage
    refine List.countP_eq_zero.mp hcount r hr ?_
    simp [SpendReservation.openAt, hrid, hstage, hst]

/-- The script is written: its reservation is open while the worker has it, and when the result
arrives it is committed, with the one log of its cost. -/
theorem drafting_run_ledger :
    (runOps deskConfig deskDb (draftedOps.take 3)).openReservations 0 .scripting = 1 ∧
    ∃ (i : ReservationId) (r : SpendReservation) (l : SpendLog),
      (runOps deskConfig deskDb draftedOps).reservations[i]? = some r ∧ r.status = .committed ∧
      (runOps deskConfig deskDb draftedOps).logs = [l] ∧ l.stage = r.stage ∧
      l.costUsd ≤ r.estimatedCostUsd := by
  have hdrafting : (routine deskConfig).Steps deskDb
      (runOps deskConfig deskDb (draftedOps.take 3)) :=
    System.Steps.of_legal (draftedOps.take 3) (by decide +kernel)
  have hdrafted : (routine deskConfig).Steps deskDb (runOps deskConfig deskDb draftedOps) :=
    System.Steps.of_legal draftedOps (by decide +kernel)
  obtain ⟨_, _, _, hinflight, _⟩ := reservation_ledger deskConfig deskDb_fresh hdrafting
  obtain ⟨_, ⟨ids, new, hlogs, _, hids, hall⟩, _⟩ :=
    reservation_ledger deskConfig deskDb_fresh hdrafted
  constructor
  · obtain ⟨a, ha, hrun, hstage, hdispatched⟩ :
        ∃ a ∈ (runOps deskConfig deskDb (draftedOps.take 3)).assignments,
          a.pipelineRunId = 0 ∧ a.stage = .scripting ∧ a.status.inFlight = true := by
      decide +kernel
    have hone := hinflight a ha hdispatched
    rw [hrun, hstage] at hone
    exact hone
  · obtain ⟨l, hl⟩ := List.length_eq_one_iff.mp
      (by decide +kernel : (runOps deskConfig deskDb draftedOps).logs.length = 1)
    have hnew : new = [l] := hlogs.symm.trans hl
    subst hnew
    obtain ⟨i, _, ⟨r, hr, _, hstage, _, hcost⟩, _, rfl⟩ := List.forall₂_cons_right_iff.mp hall
    obtain ⟨r', hr', hcommitted⟩ := (hids i).mp (List.mem_cons_self ..)
    rw [hr] at hr'
    cases hr'
    exact ⟨i, r, l, hr, hcommitted, hl, hstage, hcost⟩

end HumanGate
