import Mathlib
import HumanGate.Model.Desk
import HumanGate.Run.Routing

set_option autoImplicit false

/-! # Conditions over a worker's report

What a condition of the whitelist means, and where `evaluate_condition` finds out. The operators
that order compare with a number; they let a missing value pass, but a text, a list or an object
where the number is expected raises. So a report is routed if every condition that is tried reads
something that can be ordered (`routing_readable_iff`), and a report that is not keeps its
assignment from being submitted.
-/

namespace HumanGate

open Lib Lib.Calendar

/-- The shape of a condition that a definition may carry. -/
inductive Condition.WellFormed : Condition → Prop
  | eq (field : String) (value : Json) : WellFormed ⟨field, "eq", value⟩
  | ne (field : String) (value : Json) : WellFormed ⟨field, "ne", value⟩
  | gt (field : String) (bound : ℚ) : WellFormed ⟨field, "gt", .num bound⟩
  | gte (field : String) (bound : ℚ) : WellFormed ⟨field, "gte", .num bound⟩
  | lt (field : String) (bound : ℚ) : WellFormed ⟨field, "lt", .num bound⟩
  | lte (field : String) (bound : ℚ) : WellFormed ⟨field, "lte", .num bound⟩
  | isIn (field : String) (values : List Json) : WellFormed ⟨field, "in", .arr values⟩

/-- The value that the path of a condition leads to. -/
def Condition.subject (c : Condition) (context : JsonObject) : Json :=
  (fieldPath c.field).foldl Json.getPart (.obj context)

/-- A number; `True` and `False` are 1 and 0. -/
def Json.number? : Json → Option ℚ
  | .num q => some q
  | .bool b => some (if b then 1 else 0)
  | _ => none

/-- A number, or no value at all. -/
def Json.isOrderable (value : Json) : Bool :=
  match value with
  | .null | .num _ | .bool _ => true
  | _ => false

def Condition.orders (c : Condition) : Bool := c.op ∈ ["gt", "gte", "lt", "lte"]

/-- Where the operator orders, there is a number, or no value at all. -/
def Condition.Readable (c : Condition) (context : JsonObject) : Prop :=
  c.orders = true → (c.subject context).isOrderable = true

instance (c : Condition) (context : JsonObject) : Decidable (c.Readable context) :=
  inferInstanceAs (Decidable (_ → _))

/-- What a condition says of a report. -/
def Condition.Holds (c : Condition) (context : JsonObject) : Prop :=
  let value := c.subject context
  match c.op with
  | "eq" => value.pyEq c.value = true
  | "ne" => value.pyEq c.value = false
  | "gt" => ∃ q ∈ value.number?, ∃ bound, c.value = .num bound ∧ bound < q
  | "gte" => ∃ q ∈ value.number?, ∃ bound, c.value = .num bound ∧ bound ≤ q
  | "lt" => ∃ q ∈ value.number?, ∃ bound, c.value = .num bound ∧ q < bound
  | "lte" => ∃ q ∈ value.number?, ∃ bound, c.value = .num bound ∧ q ≤ bound
  | "in" => ∃ values, c.value = .arr values ∧ ∃ v ∈ values, value.pyEq v = true
  | _ => False

/-! ## Evaluation -/

theorem orderedOp_raises (test : Ordering → Bool) {value : Json} (bound : ℚ)
    (h : value.isOrderable = false) : orderedOp test value (.num bound) = .error .typeError := by
  cases value with
  | null => exact nomatch h
  | num q => exact nomatch h
  | bool b => exact nomatch h
  | str text => rfl
  | arr values => rfl
  | obj fields => rfl

theorem orderedOp_number (test : Ordering → Bool) {value : Json} (bound : ℚ)
    (h : value.isOrderable = true) :
    orderedOp test value (.num bound)
      = .ok (value.number?.any fun q => test (compare q bound)) := by
  cases value with
  | null => rfl
  | num q => rfl
  | bool b => cases b <;> rfl
  | str text => exact nomatch h
  | arr values => exact nomatch h
  | obj fields => exact nomatch h

/-- An operator that orders: `test` reads the comparison as the relation `rel` on numbers. -/
theorem orderedOp_holds {test : Ordering → Bool} {rel : ℚ → ℚ → Prop}
    (htest : ∀ q bound, test (compare q bound) = true ↔ rel q bound) {value : Json} {bound : ℚ}
    (h : value.isOrderable = true) :
    ∃ b, orderedOp test value (.num bound) = .ok b ∧
      (b = true ↔ ∃ q ∈ value.number?, ∃ bound', Json.num bound = .num bound' ∧ rel q bound') := by
  refine ⟨_, orderedOp_number test bound h, ?_⟩
  rw [Option.any_eq_true]
  constructor
  · rintro ⟨q, hq, hcompare⟩
    exact ⟨q, hq, bound, rfl, (htest q bound).mp hcompare⟩
  · rintro ⟨q, hq, bound', hbound, hrel⟩
    cases hbound
    exact ⟨q, hq, (htest q bound).mpr hrel⟩

theorem test_gt (q bound : ℚ) : (compare q bound == .gt) = true ↔ bound < q := by
  rw [beq_iff_eq, compare_gt_iff_gt]

theorem test_gte (q bound : ℚ) : (compare q bound != .lt) = true ↔ bound ≤ q := by
  rw [bne_iff_ne, ne_eq, compare_lt_iff_lt, not_lt]

theorem test_lt (q bound : ℚ) : (compare q bound == .lt) = true ↔ q < bound := by
  rw [beq_iff_eq, compare_lt_iff_lt]

theorem test_lte (q bound : ℚ) : (compare q bound != .gt) = true ↔ q ≤ bound := by
  rw [bne_iff_ne, ne_eq, compare_gt_iff_gt]
  exact not_lt

/-- **A readable condition** is evaluated to what it says. -/
theorem evaluateCondition_holds {c : Condition} {context : JsonObject} (hwf : c.WellFormed)
    (hread : c.Readable context) :
    ∃ b, evaluateCondition (some c) context = .ok b ∧ (b = true ↔ c.Holds context) := by
  cases hwf with
  | eq field value => exact ⟨_, rfl, Iff.rfl⟩
  | ne field value => exact ⟨_, rfl, Iff.of_eq (Bool.not_eq_true' _)⟩
  | gt field bound => exact orderedOp_holds test_gt (hread rfl)
  | gte field bound => exact orderedOp_holds test_gte (hread rfl)
  | lt field bound => exact orderedOp_holds test_lt (hread rfl)
  | lte field bound => exact orderedOp_holds test_lte (hread rfl)
  | isIn field values =>
      refine ⟨_, rfl, ?_⟩
      rw [List.any_eq_true]
      constructor
      · rintro ⟨v, hv, heq⟩
        exact ⟨values, rfl, v, hv, heq⟩
      · rintro ⟨values', hvalues, v, hv, heq⟩
        cases hvalues
        exact ⟨v, hv, heq⟩

/-- Any other condition raises. -/
theorem evaluateCondition_raises {c : Condition} {context : JsonObject} (hwf : c.WellFormed)
    (hread : ¬ c.Readable context) :
    evaluateCondition (some c) context = .error .typeError := by
  have hkind : c.orders = true ∧ (c.subject context).isOrderable = false := by
    unfold Condition.Readable at hread
    simpa using hread
  obtain ⟨horders, hvalue⟩ := hkind
  cases hwf with
  | eq field value => exact nomatch horders
  | ne field value => exact nomatch horders
  | gt field bound => exact orderedOp_raises (· == .gt) bound hvalue
  | gte field bound => exact orderedOp_raises (· != .lt) bound hvalue
  | lt field bound => exact orderedOp_raises (· == .lt) bound hvalue
  | lte field bound => exact orderedOp_raises (· != .gt) bound hvalue
  | isIn field values => exact nomatch horders

/-! ## Choosing a transition -/

namespace WorkflowTransition

variable (t : WorkflowTransition) (context : JsonObject)

def WellFormed : Prop := ∀ c ∈ t.condition, c.WellFormed

def Readable : Prop := ∀ c ∈ t.condition, c.Readable context

def Holds : Prop := ∀ c ∈ t.condition, c.Holds context

end WorkflowTransition

/-- Every condition is readable that is tried before one that holds. -/
def RoutesReadably (context : JsonObject) (ts : List WorkflowTransition) : Prop :=
  ∀ before t after, ts = before ++ t :: after → (∀ u ∈ before, ¬ u.Holds context) →
    t.Readable context

theorem routesReadably_cons {context : JsonObject} {t : WorkflowTransition}
    {ts : List WorkflowTransition} :
    RoutesReadably context (t :: ts) ↔
      t.Readable context ∧ (¬ t.Holds context → RoutesReadably context ts) := by
  constructor
  · intro h
    refine ⟨h [] t ts rfl fun u hu => (nomatch hu), fun hnot before u after hsplit hbefore => ?_⟩
    refine h (t :: before) u after (by rw [hsplit]; rfl) fun v hv => ?_
    rcases List.mem_cons.mp hv with rfl | hv
    · exact hnot
    · exact hbefore v hv
  · rintro ⟨hread, hrest⟩ before u after hsplit hbefore
    cases before with
    | nil =>
        obtain ⟨rfl, _⟩ := List.cons.inj hsplit
        exact hread
    | cons first before =>
        obtain ⟨rfl, htail⟩ := List.cons.inj hsplit
        exact hrest (hbefore _ List.mem_cons_self) before u after htail fun v hv =>
          hbefore v (List.mem_cons_of_mem _ hv)

/-- The condition of a transition is evaluated to whether it holds, or raises. -/
theorem transition_evaluated {t : WorkflowTransition} (hwf : t.WellFormed) (context : JsonObject) :
    (t.Readable context ∧ ∃ b, evaluateCondition t.condition context = .ok b ∧
      (b = true ↔ t.Holds context)) ∨
    (¬ t.Readable context ∧ evaluateCondition t.condition context = .error .typeError) := by
  unfold WorkflowTransition.WellFormed at hwf
  unfold WorkflowTransition.Readable WorkflowTransition.Holds
  cases hcond : t.condition with
  | none =>
      refine .inl ⟨fun c hc => (nomatch hc), true, rfl, ?_⟩
      exact ⟨fun _ c hc => (nomatch hc), fun _ => rfl⟩
  | some c =>
      have hwf : c.WellFormed := hwf c hcond
      by_cases hread : c.Readable context
      · obtain ⟨b, heval, hb⟩ := evaluateCondition_holds hwf hread
        refine .inl ⟨fun c' hc' => ?_, b, heval, hb.trans ⟨fun h c' hc' => ?_, fun h => h c rfl⟩⟩
        · cases hc'
          exact hread
        · cases hc'
          exact h
      · exact .inr ⟨fun h => hread (h c rfl), evaluateCondition_raises hwf hread⟩

/-- **The choice** among well-formed conditions: it raises a `TypeError`, or every condition that it
tries is readable. -/
theorem firstMatching_readable (context : JsonObject) : ∀ {ts : List WorkflowTransition},
    (∀ t ∈ ts, t.WellFormed) →
    (RoutesReadably context ts ∧ ∃ choice, firstMatching context ts = .ok choice ∧
      ((∃ t ∈ ts, t.condition = none) → choice ≠ none)) ∨
    (¬ RoutesReadably context ts ∧ firstMatching context ts = .error (.condition .typeError)) := by
  intro ts
  induction ts with
  | nil =>
      intro _
      refine .inl ⟨fun before t after hsplit _ => ?_, none, rfl, fun ⟨t, ht, _⟩ => (nomatch ht)⟩
      exact absurd hsplit.symm (List.append_ne_nil_of_right_ne_nil _ (List.cons_ne_nil _ _))
  | cons t rest ih =>
      intro hwf
      have hrest := ih fun u hu => hwf u (List.mem_cons_of_mem _ hu)
      unfold firstMatching
      rcases transition_evaluated (hwf t List.mem_cons_self) context with
        ⟨hread, b, heval, hb⟩ | ⟨hread, heval⟩
      · rw [heval]
        cases b with
        | true =>
            refine .inl ⟨?_, some t, rfl, fun _ => Option.some_ne_none t⟩
            exact routesReadably_cons.mpr ⟨hread, fun hnot => absurd (hb.mp rfl) hnot⟩
        | false =>
            have hnot : ¬ t.Holds context := fun h => Bool.noConfusion (hb.mpr h)
            rcases hrest with ⟨hclean, choice, hchoice, hsome⟩ | ⟨hclean, hraise⟩
            · refine .inl ⟨routesReadably_cons.mpr ⟨hread, fun _ => hclean⟩, choice, hchoice, ?_⟩
              rintro ⟨u, hu, hnone⟩
              refine hsome ⟨u, (List.mem_cons.mp hu).resolve_left ?_, hnone⟩
              -- an unconditional transition holds
              rintro rfl
              refine hnot fun c hc => ?_
              rw [hnone] at hc
              exact absurd hc (Option.not_mem_none c)
            · exact .inr ⟨fun h => hclean ((routesReadably_cons.mp h).2 hnot), hraise⟩
      · rw [heval]
        exact .inr ⟨fun h => hread (routesReadably_cons.mp h).1, rfl⟩

/-! ## Submitting a report -/

variable {cfg : Config} {s : Db} {now : Instant}

theorem enterStage_condition (s : Db) (now : Instant) (rid : RunId) (ws : WorkspaceId)
    (row : WorkflowStage) (e : PyError) :
    (enterStage cfg s now rid ws row).raised ≠ some (.condition e) := by
  have hpause : ∀ t : Db, (pauseForReview t now rid row.stageKey row.timeoutSeconds).raised
      ≠ some (.condition e) := by
    intro t
    unfold pauseForReview
    split
    · exact fun h => nomatch h
    · split
      · exact fun h => nomatch h
      · split
        · exact fun h => nomatch h
        · exact fun h => nomatch h
        · split <;> exact fun h => nomatch h
  unfold enterStage
  dsimp only
  split
  · exact fun h => nomatch h
  · split
    · exact hpause _
    · exact fun h => nomatch h

/-- An error of a condition comes from the choice. -/
theorem advanceOrFinish_condition {rid : RunId} {fromStage : ContentStage}
    {trigger : WorkflowTransitionTrigger} {context : JsonObject} {e : PyError}
    (h : (advanceOrFinish cfg s now rid fromStage trigger context).raised = some (.condition e)) :
    ∃ run d, s.runs[rid]? = some run ∧ run.definitionId.bind cfg.definition = some d ∧
      findTransition d fromStage trigger context = .error (.condition e) := by
  have hstage : ∀ (d : WorkflowDefinition) (stage : ContentStage),
      getStageDef d stage ≠ .error (.condition e) := by
    intro d stage
    unfold getStageDef
    split <;> exact fun h => nomatch h
  unfold advanceOrFinish at h
  split at h
  · exact nomatch h
  · rename_i run hrun
    split at h
    · rename_i e' hdef
      unfold definitionOf at hdef
      split at hdef <;> cases hdef
      exact nomatch h
    · rename_i d hdef
      refine ⟨run, d, hrun, definitionOf_ok hdef, ?_⟩
      split at h
      · rename_i e' hfind
        cases h
        exact hfind
      · split at h
        · rename_i e' hrow
          cases h
          exact absurd hrow (hstage d fromStage)
        · split at h <;> exact nomatch h
      · rename_i t _
        split at h
        · rename_i e' hrow
          cases h
          exact absurd hrow (hstage d t.toStage)
        · exact (enterStage_condition _ _ _ _ _ e h).elim

variable {aid : AssignmentId} {a : StageAssignment} {run : PipelineRun} {d : WorkflowDefinition}
  {result : Option JsonObject} {errorMessage : String} {worker : Option WorkerId} {jitter : Nat}

theorem commitSpend_condition (rid : RunId) (ws : WorkspaceId) (resId : ReservationId)
    (actual : Decimal) (e : PyError) :
    commitSpend s now rid ws resId actual ≠ .error (.condition e) := by
  have hcost : ∀ reserved, settledCost reserved actual ≠ .error (.condition e) := by
    intro reserved
    unfold settledCost
    split
    · exact fun h => nomatch h
    · exact fun h => nomatch h
    · exact fun h => nomatch h
    · split
      · exact fun h => nomatch h
      · split <;> exact fun h => nomatch h
  unfold commitSpend
  split
  · exact fun h => nomatch h
  · split
    · exact fun h => nomatch h
    · exact fun h => nomatch h
    · split
      · rename_i e' hsettled
        intro h
        cases h
        exact hcost _ hsettled
      · exact fun h => nomatch h

/-- A submission raises an error of a condition only if the choice from its stage does. -/
theorem submitResult_condition {e : PyError} (ha : s.assignments[aid]? = some a)
    (hrun : s.runs[a.pipelineRunId]? = some run)
    (hd : run.definitionId.bind cfg.definition = some d)
    (h : (submitResult cfg s now aid true result errorMessage worker jitter).raised
      = some (.condition e)) :
    findTransition d a.stage .onSuccess (result.getD []) = .error (.condition e) := by
  -- no check before the routing raises the error of a condition
  have hrefusal : submitRefusal a worker now ≠ some (.condition e) := by
    unfold submitRefusal
    split
    · exact fun h => nomatch h
    · split
      · exact fun h => nomatch h
      · split <;> exact fun h => nomatch h
  unfold submitResult at h
  simp only [ha] at h
  split at h
  · rename_i e' hrefused
    cases h
    exact absurd hrefused hrefusal
  · simp only [hrun] at h
    split at h
    · rename_i e' hrecord
      unfold recordResult at hrecord
      dsimp only at hrecord
      split at hrecord
      · cases hrecord
        exact nomatch h
      · exact nomatch hrecord
    · rename_i s1 hrecord
      have hruns1 : s1.runs = s.runs := (recordResult_same hrecord).1
      rw [if_pos trivial] at h
      unfold submitSuccess at h
      dsimp only at h
      split at h
      · rename_i e' hcommit
        cases h
        split at hcommit
        · exact nomatch hcommit
        · exact (commitSpend_condition _ _ _ _ e hcommit).elim
      · rename_i s2 hcommit
        have hruns2 : s2.runs = s.runs := by
          split at hcommit
          · cases hcommit
            exact hruns1
          · exact (congrArg Board.runs (board_of_core (core_commitSpend hcommit))).trans hruns1
        unfold handleStageSuccess at h
        rw [hruns2, hrun] at h
        dsimp only at h
        split at h
        · exact nomatch h
        · obtain ⟨run', d', hrun', hd', hfind⟩ := advanceOrFinish_condition h
          rw [hruns2, hrun] at hrun'
          cases hrun'
          have hsame : d' = d := Option.some.inj (hd'.symm.trans hd)
          rw [← hsame]
          exact hfind

/-- A submission for a run that goes on succeeds only if the choice from its stage does. -/
theorem submitResult_chosen (ha : s.assignments[aid]? = some a)
    (hrun : s.runs[a.pipelineRunId]? = some run) (hlive : run.status.isTerminal = false)
    (hd : run.definitionId.bind cfg.definition = some d)
    (h : (submitResult cfg s now aid true result errorMessage worker jitter).raised = none) :
    ∃ choice, findTransition d a.stage .onSuccess (result.getD []) = .ok choice := by
  obtain ⟨a', ha', ⟨_, _, hover⟩ | ⟨s2, hruns, _, _, hcall⟩⟩ := submitResult_success h
  · rw [ha] at ha'
    cases ha'
    rw [hover run hrun] at hlive
    exact nomatch hlive
  · rw [ha] at ha'
    cases ha'
    rw [hcall] at h
    unfold advanceOrFinish definitionOf at h
    rw [hruns, hrun] at h
    simp only [hd] at h
    cases hfind : findTransition d a.stage .onSuccess (result.getD []) with
    | error e =>
        rw [hfind] at h
        exact nomatch h
    | ok choice => exact ⟨choice, rfl⟩

/-- **Where routing raises.** A well-formed condition is evaluated without an error exactly if it is
readable in the report. So in a definition of well-formed conditions with an unconditional success
edge out of a stage, a transition is chosen exactly if every condition is readable that is tried
before one that holds: then a submitted report never raises an error of a condition, and otherwise a
report for a run that goes on cannot be submitted at all. -/
theorem routing_readable_iff (cfg : Config) :
    (∀ (c : Condition) (context : JsonObject), c.WellFormed →
      ((∃ b, evaluateCondition (some c) context = .ok b) ↔ c.Readable context)) ∧
    ∀ (s : Db) (now : Instant) (aid : AssignmentId) (a : StageAssignment) (run : PipelineRun)
      (d : WorkflowDefinition) (result : Option JsonObject) (errorMessage : String)
      (worker : Option WorkerId) (jitter : Nat), s.assignments[aid]? = some a →
      s.runs[a.pipelineRunId]? = some run → run.definitionId.bind cfg.definition = some d →
      (∀ t ∈ d.transitions, t.WellFormed) →
      (∃ t ∈ d.transitionsFrom a.stage .onSuccess, t.condition = none) →
      ((∃ t, findTransition d a.stage .onSuccess (result.getD []) = .ok (some t)) ↔
        RoutesReadably (result.getD []) (d.transitionsFrom a.stage .onSuccess)) ∧
      (RoutesReadably (result.getD []) (d.transitionsFrom a.stage .onSuccess) →
        ∀ e, (submitResult cfg s now aid true result errorMessage worker jitter).raised
          ≠ some (.condition e)) ∧
      (¬ RoutesReadably (result.getD []) (d.transitionsFrom a.stage .onSuccess) →
        run.status.isTerminal = false →
        (submitResult cfg s now aid true result errorMessage worker jitter).raised ≠ none) := by
  refine ⟨fun c context hwf => ⟨fun ⟨b, hb⟩ => ?_, fun hread => ?_⟩, ?_⟩
  · by_contra hread
    rw [evaluateCondition_raises hwf hread] at hb
    exact nomatch hb
  · obtain ⟨b, hb, _⟩ := evaluateCondition_holds hwf hread
    exact ⟨b, hb⟩
  · intro s now aid a run d result errorMessage worker jitter ha hrun hd hwf huncond
    have hwf' : ∀ t ∈ d.transitionsFrom a.stage .onSuccess, t.WellFormed := fun t ht =>
      hwf t (List.mem_filter.mp ((List.mem_insertionSort _).mp ht)).1
    have hchoice := firstMatching_readable (result.getD []) hwf'
    change (_ ∧ ∃ choice, findTransition d a.stage .onSuccess (result.getD []) = .ok choice ∧ _) ∨
      _ ∧ findTransition d a.stage .onSuccess (result.getD []) = _ at hchoice
    -- the transitions are read in order, until one holds or one raises
    rcases hchoice with ⟨hclean, choice, hfind, hsome⟩ | ⟨hclean, hraise⟩
    · obtain ⟨t, ht⟩ := Option.ne_none_iff_exists'.mp (hsome huncond)
      refine ⟨⟨fun _ => hclean, fun _ => ⟨t, ht ▸ hfind⟩⟩, fun _ e he => ?_,
        fun hnot => absurd hclean hnot⟩
      have herror := submitResult_condition ha hrun hd he
      rw [hfind] at herror
      exact nomatch herror
    · refine ⟨⟨fun ⟨t, ht⟩ => ?_, fun h => absurd h hclean⟩, fun h => absurd h hclean,
        fun _ hlive hnone => ?_⟩
      · rw [hraise] at ht
        exact nomatch ht
      · obtain ⟨choice, hfind⟩ := submitResult_chosen ha hrun hlive hd hnone
        rw [hraise] at hfind
        exact nomatch hfind

/-! ## A text where a number is expected -/

/-- The report says that there are more than five hundred words. -/
def manyWords : Condition := ⟨"words", "gt", .num 500⟩

def longScriptEdge : WorkflowTransition where
  fromStage := .scripting
  toStage := .review
  trigger := .onSuccess
  condition := some manyWords
  priority := 10

/-- The desk's workflow with an edge for long scripts before the unconditional one. -/
def longScriptConfig : Config := configOf (deskWorkflowWith [longScriptEdge])

/-- A script is in work. -/
def scriptingDb : Db := runOps longScriptConfig deskDb (draftedOps.take 3)

theorem longScript_wellFormed : ∀ t ∈ (deskWorkflowWith [longScriptEdge]).transitions,
    t.WellFormed := by
  have hwf : longScriptEdge.WellFormed := by
    intro c hc
    cases hc
    exact .gt "words" 500
  have hplain : ∀ t ∈ deskTransitions, t.condition = none := by decide
  intro t ht c hc
  rcases List.mem_append.mp ht with hdesk | hlong
  · rw [hplain t hdesk] at hc
    exact nomatch hc
  · rw [List.mem_singleton.mp hlong] at hc
    exact hwf c hc

/-- The unconditional edge out of the stage. -/
def plainScriptEdge : WorkflowTransition :=
  { fromStage := .scripting, toStage := .review, trigger := .onSuccess, priority := 100 }

theorem longScript_edges :
    (deskWorkflowWith [longScriptEdge]).transitionsFrom .scripting .onSuccess
      = [longScriptEdge, plainScriptEdge] := rfl

theorem longScript_unconditional :
    ∃ t ∈ (deskWorkflowWith [longScriptEdge]).transitionsFrom .scripting .onSuccess,
      t.condition = none := by
  rw [longScript_edges]
  exact ⟨plainScriptEdge, List.mem_cons_of_mem _ List.mem_cons_self, rfl⟩

/-- The report of a worker that writes the number as a text cannot be submitted. -/
theorem text_blocks_routing :
    manyWords.WellFormed ∧
      evaluateCondition (some manyWords) [("words", .str "700")] = .error .typeError ∧
      (∀ t ∈ (deskWorkflowWith [longScriptEdge]).transitions, t.WellFormed) ∧
      (∃ t ∈ (deskWorkflowWith [longScriptEdge]).transitionsFrom .scripting .onSuccess,
        t.condition = none) ∧
      (submitResult longScriptConfig scriptingDb 3 0 true (some [("words", .str "700")]) "" none
        0).raised = some (.condition .typeError) :=
  ⟨.gt "words" 500, by decide +kernel, longScript_wellFormed, longScript_unconditional,
    by decide +kernel⟩

/-- With a number it is routed. -/
theorem number_routes :
    (∃ b, evaluateCondition (some manyWords) [("words", .num 700)] = .ok b) ∧
      RoutesReadably [("words", .num 700)]
        ((deskWorkflowWith [longScriptEdge]).transitionsFrom .scripting .onSuccess) := by
  obtain ⟨hcondition, hroute⟩ := routing_readable_iff longScriptConfig
  refine ⟨(hcondition manyWords _ (.gt "words" 500)).mpr (by decide +kernel), ?_⟩
  have hstage : (scriptingDb.assignments[0]?.map StageAssignment.stage) = some .scripting := by
    decide +kernel
  obtain ⟨a, ha, hkey⟩ := Option.map_eq_some_iff.mp hstage
  have hrun : (scriptingDb.assignments[0]?.bind fun a =>
      scriptingDb.runs[a.pipelineRunId]?.map PipelineRun.definitionId) = some (some 0) := by
    decide +kernel
  rw [ha] at hrun
  obtain ⟨run, hrun, hdef⟩ := Option.map_eq_some_iff.mp hrun
  have hd : run.definitionId.bind longScriptConfig.definition
      = some (deskWorkflowWith [longScriptEdge]) := by
    rw [hdef]
    rfl
  have hroute := (hroute scriptingDb 3 0 a run _ (some [("words", .num 700)]) "" none 0 ha hrun hd
    longScript_wellFormed (by rw [hkey]; exact longScript_unconditional)).1
  rw [hkey] at hroute
  exact hroute.mp ⟨longScriptEdge, by unfold findTransition; rw [longScript_edges]; rfl⟩

end HumanGate
