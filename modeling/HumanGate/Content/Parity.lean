import HumanGate.Model.DraftDesk

set_option autoImplicit false

/-! # The two generators agree, but for a length of too many digits

The worker embeds its own copy of the generator. The copies normalise the topic at different points,
and check the stages in another order; neither makes a difference. Where a length has more digits
than Python converts, the API catches the `ValueError` and the worker does not (`draft_parity_iff`).
-/

namespace HumanGate

open Lib DraftDesk

/-- The same triple, or an exception of the same class. -/
def SameOutcome : Except PyException StageTriple → Except PyException StageTriple → Prop
  | .ok triple, .ok triple' => triple = triple'
  | .error e, .error e' => e.className = e'.className
  | _, _ => False

/-- A draft is asked for, with a length of too many digits. -/
def Overlong (lower : PyStr → PyStr) (context : AssignmentContext) : Prop :=
  ∃ stage topic value length,
    strOrEmpty context.stage = .ok stage ∧ lower stage.strip ∈ executableStages ∧
      strOrEmpty context.topic = .ok topic ∧ topic.strip ≠ [] ∧
      context.targetLengthSeconds = some value ∧ value.int = .ok length ∧
      10 ^ maxStrDigits ≤ length.natAbs

/-! ## The topic -/

/-- Stripping once more changes nothing. -/
theorem split_strip (text : PyStr) : PyStr.split (PyStr.strip text) = PyStr.split text :=
  Words.words_strip

/-- A topic is empty once its words are joined exactly if it is when it is stripped. -/
theorem joinSpace_split_eq_nil (text : PyStr) :
    PyStr.joinSpace (PyStr.split (PyStr.strip text)) = [] ↔ PyStr.strip text = [] := by
  rw [split_strip]
  calc PyStr.joinSpace (PyStr.split text) = [] ↔ PyStr.split text = [] :=
        Words.join_eq_nil (PyStr.lit " ")
    _ ↔ PyStr.strip text = [] := Words.strip_eq_nil.symm

/-! ## The length -/

theorem lengthNote_few {length : ℤ} (h : ¬ 10 ^ maxStrDigits ≤ length.natAbs) :
    ∃ note, lengthNote (some length) = .ok note := by
  have hformat : formatInt length = .ok (PyStr.lit (toString length)) := if_neg h
  unfold lengthNote
  dsimp only
  rw [hformat]
  exact ⟨_, rfl⟩

theorem lengthNote_many {length : ℤ} (h : 10 ^ maxStrDigits ≤ length.natAbs) :
    ∃ e, lengthNote (some length) = .error e ∧ e.isValueError = true := by
  obtain ⟨e, hformat, hvalue⟩ : ∃ e, formatInt length = .error e ∧ e.isValueError = true :=
    ⟨_, if_pos h, rfl⟩
  unfold lengthNote
  dsimp only
  rw [hformat]
  exact ⟨e, rfl, hvalue⟩

/-- **The note** fails only on a length of too many digits, and then with a `ValueError`. -/
theorem lengthNote_cases {target : Option PyValue} {length : Option ℤ}
    (h : lengthOf target = .ok length) :
    (∃ note, lengthNote length = .ok note ∧
        ∀ value n, target = some value → value.int = .ok n → ¬ 10 ^ maxStrDigits ≤ n.natAbs) ∨
      ∃ e value n, lengthNote length = .error e ∧ e.isValueError = true ∧
        target = some value ∧ value.int = .ok n ∧ 10 ^ maxStrDigits ≤ n.natAbs := by
  unfold lengthOf at h
  cases target with
  | none =>
      cases h
      exact .inl ⟨_, rfl, fun _ _ h => (nomatch h)⟩
  | some value =>
      dsimp only at h
      cases hint : value.int with
      | ok n =>
          rw [hint] at h
          cases h
          by_cases hmany : 10 ^ maxStrDigits ≤ n.natAbs
          · obtain ⟨e, he, hvalue⟩ := lengthNote_many hmany
            exact .inr ⟨e, value, n, he, hvalue, rfl, hint, hmany⟩
          · obtain ⟨note, hnote⟩ := lengthNote_few hmany
            refine .inl ⟨note, hnote, fun value' n' heq hn => ?_⟩
            cases heq
            rw [hint] at hn
            cases hn
            exact hmany
      | error e =>
          rw [hint] at h
          dsimp only at h
          split at h
          · cases h
            refine .inl ⟨_, rfl, fun value' n' heq hn => ?_⟩
            cases heq
            rw [hint] at hn
            exact nomatch hn
          · exact nomatch h

/-! ## The draft -/

/-- The draft of a topic. -/
def draftOf (cleaned note : PyStr) : StageTriple :=
  (true, some
    { provider := PyStr.lit "draft_desk", scriptHook := hookOf cleaned
      scriptBody := bodyOf (hookOf cleaned) cleaned note, scriptCta := ctaOf cleaned
      estimatedCostUsd := PyStr.lit "0.01", topic := cleaned }, [])

theorem review_not_executable : PyStr.lit "review" ∉ executableStages := by decide

theorem generateScriptDraft_eq {text : PyStr} (h : PyStr.strip text ≠ []) (length : Option ℤ) :
    generateScriptDraft (PyStr.strip text) length = (lengthNote length).map fun note =>
      { scriptHook := hookOf (PyStr.joinSpace (PyStr.split (PyStr.strip text)))
        scriptBody := bodyOf (hookOf (PyStr.joinSpace (PyStr.split (PyStr.strip text))))
          (PyStr.joinSpace (PyStr.split (PyStr.strip text))) note
        scriptCta := ctaOf (PyStr.joinSpace (PyStr.split (PyStr.strip text))) } := by
  unfold generateScriptDraft
  rw [split_strip (PyStr.strip text)]
  dsimp only
  rw [if_neg (mt (joinSpace_split_eq_nil text).mp h)]
  cases lengthNote length with
  | error e => rfl
  | ok note => rfl

section Prepared

variable {lower : PyStr → PyStr} {context : AssignmentContext} {stage topic : PyStr}
  {length : Option ℤ} (hstage : strOrEmpty context.stage = .ok stage)
  (htopic : strOrEmpty context.topic = .ok topic)
  (hlength : lengthOf context.targetLengthSeconds = .ok length)

include hstage htopic hlength

theorem executeStage_draft (hexecutable : lower stage.strip ∈ executableStages)
    (hnonempty : PyStr.strip topic ≠ []) :
    executeStage lower context =
      match lengthNote length with
      | .ok note => .ok (draftOf (PyStr.joinSpace (PyStr.split (PyStr.strip topic))) note)
      | .error e => if e.isValueError then .ok (refuse e.text) else .error e := by
  unfold executeStage
  rw [hstage, htopic, hlength]
  show (if lower stage.strip ∈ executableStages then if PyStr.strip topic = [] then _ else _ else _)
      = _
  rw [if_pos hexecutable, if_neg hnonempty, generateScriptDraft_eq hnonempty]
  cases lengthNote length with
  | ok note => rfl
  | error e => rfl

theorem draftDeskExecutor_draft (hexecutable : lower stage.strip ∈ executableStages)
    (hnonempty : PyStr.strip topic ≠ []) :
    draftDeskExecutor lower context =
      match lengthNote length with
      | .ok note => .ok (draftOf (PyStr.joinSpace (PyStr.split (PyStr.strip topic))) note)
      | .error e => .error e := by
  have hreview : lower stage.strip ≠ PyStr.lit "review" := fun h =>
    review_not_executable (h ▸ hexecutable)
  unfold draftDeskExecutor
  rw [hstage, htopic, hlength]
  show (if lower stage.strip = PyStr.lit "review" then _
    else if lower stage.strip ∈ executableStages then
      if PyStr.strip topic = [] then _ else _
    else _) = _
  rw [if_neg hreview, if_pos hexecutable, if_neg hnonempty]
  cases lengthNote length with
  | ok note => rfl
  | error e => rfl

/-- What is not drafted is refused alike, whichever stage is checked first. -/
theorem refused_alike (h : lower stage.strip ∉ executableStages ∨ PyStr.strip topic = []) :
    executeStage lower context = draftDeskExecutor lower context := by
  unfold executeStage draftDeskExecutor
  rw [hstage, htopic, hlength]
  show (if lower stage.strip ∈ executableStages then if PyStr.strip topic = [] then _ else _
      else if lower stage.strip = PyStr.lit "review" then _ else _)
    = (if lower stage.strip = PyStr.lit "review" then _
      else if lower stage.strip ∈ executableStages then
        if PyStr.strip topic = [] then _ else _
      else _)
  by_cases hexecutable : lower stage.strip ∈ executableStages
  · have hreview : lower stage.strip ≠ PyStr.lit "review" := fun h =>
      review_not_executable (h ▸ hexecutable)
    have hempty : PyStr.strip topic = [] := h.resolve_left fun h => h hexecutable
    rw [if_pos hexecutable, if_neg hreview, if_pos hexecutable, if_pos hempty, if_pos hempty]
  · rw [if_neg hexecutable, if_neg hexecutable]

end Prepared

/-- The stage, the topic and the length of a context, if none of them raises. -/
def Prepared (context : AssignmentContext) (stage topic : PyStr) (length : Option ℤ) : Prop :=
  strOrEmpty context.stage = .ok stage ∧ strOrEmpty context.topic = .ok topic ∧
    lengthOf context.targetLengthSeconds = .ok length

/-- What raises before a stage is looked at raises alike. -/
theorem raised_alike (lower : PyStr → PyStr) {context : AssignmentContext}
    (h : ¬ ∃ stage topic length, Prepared context stage topic length) :
    executeStage lower context = draftDeskExecutor lower context := by
  unfold executeStage draftDeskExecutor
  cases hstage : strOrEmpty context.stage with
  | error e => rfl
  | ok stage =>
      cases htopic : strOrEmpty context.topic with
      | error e => rfl
      | ok topic =>
          cases hlength : lengthOf context.targetLengthSeconds with
          | error e => rfl
          | ok length => exact absurd ⟨stage, topic, length, hstage, htopic, hlength⟩ h

theorem Overlong.prepared {lower : PyStr → PyStr} {context : AssignmentContext}
    (h : Overlong lower context) :
    ∃ stage topic n, Prepared context stage topic (some n) ∧
      lower stage.strip ∈ executableStages ∧ PyStr.strip topic ≠ [] ∧
      10 ^ maxStrDigits ≤ n.natAbs := by
  obtain ⟨stage, topic, value, n, hstage, hexecutable, htopic, hnonempty, htarget, hint, hmany⟩ := h
  refine ⟨stage, topic, n, ⟨hstage, htopic, ?_⟩, hexecutable, hnonempty, hmany⟩
  unfold lengthOf
  rw [htarget]
  dsimp only
  rw [hint]

theorem sameOutcome_refl (outcome : Except PyException StageTriple) :
    SameOutcome outcome outcome := by
  cases outcome with
  | ok triple => rfl
  | error e => rfl

/-- **When the generators agree.** For every assignment context, with values of any type, and
whatever `str.lower` does: the API and the worker return the same triple or raise the same kind of
exception exactly if the context does not ask for a draft with a length of more than 4300 digits. -/
theorem draft_parity_iff (lower : PyStr → PyStr) (context : AssignmentContext) :
    SameOutcome (executeStage lower context) (draftDeskExecutor lower context) ↔
      ¬ Overlong lower context := by
  -- where nothing is overlong the outcomes are equal
  have hequal : executeStage lower context = draftDeskExecutor lower context →
      ¬ Overlong lower context →
      (SameOutcome (executeStage lower context) (draftDeskExecutor lower context) ↔
        ¬ Overlong lower context) := by
    intro heq hshort
    rw [heq]
    exact iff_of_true (sameOutcome_refl _) hshort
  by_cases hprepared : ∃ stage topic length, Prepared context stage topic length
  · obtain ⟨stage, topic, length, hstage, htopic, hlength⟩ := hprepared
    by_cases hdraft : lower stage.strip ∈ executableStages ∧ PyStr.strip topic ≠ []
    · have hapi := executeStage_draft hstage htopic hlength hdraft.1 hdraft.2
      have hworker := draftDeskExecutor_draft hstage htopic hlength hdraft.1 hdraft.2
      rcases lengthNote_cases hlength with ⟨note, hnote, hfew⟩ | ⟨e, value, n, hnote,
        hvalue, htarget,
        hint, hmany⟩
      · rw [hnote] at hapi hworker
        refine hequal (hapi.trans hworker.symm) ?_
        rintro ⟨_, _, value, n, _, _, _, _, htarget, hint, hmany⟩
        exact hfew value n htarget hint hmany
      · -- the API refuses, and the worker raises
        rw [hapi, hworker, hnote]
        dsimp only
        rw [if_pos hvalue]
        refine iff_of_false (fun h => h.elim) fun h => h ?_
        exact ⟨stage, topic, value, n, hstage, hdraft.1, htopic, hdraft.2, htarget, hint, hmany⟩
    · refine hequal (refused_alike hstage htopic hlength ?_) ?_
      · by_contra h
        exact hdraft ⟨not_not.mp fun hno => h (.inl hno), fun hempty => h (.inr hempty)⟩
      · intro hoverlong
        obtain ⟨stage', topic', _, ⟨hstage', htopic', _⟩, hexecutable, hnonempty, _⟩ :=
          hoverlong.prepared
        rw [hstage] at hstage'
        rw [htopic] at htopic'
        cases hstage'
        cases htopic'
        exact hdraft ⟨hexecutable, hnonempty⟩
  · refine hequal (raised_alike lower hprepared) fun hoverlong => hprepared ?_
    obtain ⟨stage, topic, n, h, _⟩ := hoverlong.prepared
    exact ⟨stage, topic, some n, h⟩

/-! ## A length of 4301 digits -/

/-- A string that is not empty and no number. -/
def wordValue (text : String) : PyValue :=
  { bool := .ok true, str := .ok (PyStr.lit text)
    int := .error (.valueError ("invalid literal for int() with base 10: '" ++ text ++ "'")) }

/-- An integer that is not zero. -/
def intValue (n : ℤ) : PyValue := { bool := .ok true, str := formatInt n, int := .ok n }

/-- A draft of `n` seconds. -/
def draftContext (n : ℤ) : AssignmentContext :=
  { stage := some (wordValue "scripting"), topic := some (wordValue "retention")
    targetLengthSeconds := some (intValue n) }

/-- The API refuses a length of 4301 digits, and the worker raises. -/
theorem long_length_raises :
    (∃ text, executeStage PyStr.lowerAscii (draftContext (10 ^ 4300)) = .ok (refuse text)) ∧
      (∃ e, draftDeskExecutor PyStr.lowerAscii (draftContext (10 ^ 4300)) = .error e) ∧
      ¬ SameOutcome (executeStage PyStr.lowerAscii (draftContext (10 ^ 4300)))
        (draftDeskExecutor PyStr.lowerAscii (draftContext (10 ^ 4300))) := by
  have hmany : 10 ^ maxStrDigits ≤ ((10 : ℤ) ^ 4300).natAbs := by
    have hten : (10 : ℤ).natAbs = 10 := rfl
    unfold maxStrDigits
    rw [Int.natAbs_pow, hten]
  generalize (10 : ℤ) ^ 4300 = n at hmany
  obtain ⟨e, hnote, hvalue⟩ := lengthNote_many hmany
  have hexecutable : PyStr.lowerAscii (PyStr.lit "scripting").strip ∈ executableStages := by
    decide +kernel
  have hnonempty : (PyStr.lit "retention").strip ≠ [] := by decide +kernel
  have hapi : executeStage PyStr.lowerAscii (draftContext n) = .ok (refuse e.text) := by
    rw [executeStage_draft rfl rfl rfl hexecutable hnonempty, hnote]
    exact if_pos hvalue
  have hworker : draftDeskExecutor PyStr.lowerAscii (draftContext n) = .error e := by
    have heq : draftDeskExecutor PyStr.lowerAscii (draftContext n) = _ :=
      draftDeskExecutor_draft rfl rfl rfl hexecutable hnonempty
    rw [heq, hnote]
  rw [hapi, hworker]
  exact ⟨⟨_, rfl⟩, ⟨_, rfl⟩, fun h => h⟩

end HumanGate
