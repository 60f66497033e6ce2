import Mathlib.Data.List.TakeWhile
import Mathlib.Tactic

set_option autoImplicit false

/-! # Answers in a log

Some entries of a log are questions, all others are answers. A log of pairs, a question and its
answer, answers every question exactly once; `answeredOnce_iff` and `answered_iff` say what is left
of that when something follows the pairs.
-/

namespace Lib.Answers

universe u

variable {α : Type u} (asks : α → Bool)

/-- The entries up to the next question. -/
def upToNext (log : List α) : List α := log.takeWhile fun c => !asks c

/-- After each question there is exactly one answer before the next question and before the end. -/
def AnsweredOnce (log : List α) : Prop :=
  ∀ before a after, log = before ++ a :: after → asks a = true → (upToNext asks after).length = 1

/-- After each question there is an answer before the next question and before the end. -/
def Answered (log : List α) : Prop :=
  ∀ before a after, log = before ++ a :: after → asks a = true → upToNext asks after ≠ []

/-- Questions, each with its answer right behind it. -/
inductive Pairs : List α → Prop
  | nil : Pairs []
  | cons {a c : α} {log : List α} (ha : asks a = true) (hc : asks c = false) (h : Pairs log) :
      Pairs (a :: c :: log)

variable {asks} {log rest : List α} {a c : α}

theorem Pairs.append (h : Pairs asks log) (h' : Pairs asks rest) : Pairs asks (log ++ rest) := by
  induction h with
  | nil => exact h'
  | cons ha hc _ ih => exact .cons ha hc ih

theorem Pairs.push (h : Pairs asks log) (ha : asks a = true) (hc : asks c = false) :
    Pairs asks (log ++ [a, c]) :=
  h.append (.cons ha hc .nil)

/-- What holds behind every question is shown from the front. -/
theorem forall_question_cons {p : List α → Prop} :
    (∀ before b after, a :: log = before ++ b :: after → asks b = true → p (upToNext asks after)) ↔
      (asks a = true → p (upToNext asks log)) ∧
        ∀ before b after, log = before ++ b :: after → asks b = true → p (upToNext asks after) := by
  constructor
  · intro h
    refine ⟨fun ha => h [] a log rfl ha, fun before b after heq hb => ?_⟩
    exact h (a :: before) b after (by rw [heq, List.cons_append]) hb
  · rintro ⟨hfirst, hrest⟩ before b after heq hb
    cases before with
    | nil =>
        cases heq
        exact hfirst hb
    | cons x before =>
        cases heq
        exact hrest before b after rfl hb

theorem answeredOnce_cons : AnsweredOnce asks (a :: log) ↔
    (asks a = true → (upToNext asks log).length = 1) ∧ AnsweredOnce asks log :=
  forall_question_cons (p := fun answers => answers.length = 1)

theorem answered_cons : Answered asks (a :: log) ↔
    (asks a = true → upToNext asks log ≠ []) ∧ Answered asks log :=
  forall_question_cons (p := fun answers => answers ≠ [])

theorem answeredOnce_nil : AnsweredOnce asks ([] : List α) := by
  intro before a after heq _
  exact absurd heq (by simp)

theorem answered_nil : Answered asks ([] : List α) := by
  intro before a after heq _
  exact absurd heq (by simp)

theorem upToNext_cons (hc : asks c = false) :
    upToNext asks (c :: log) = c :: upToNext asks log := by
  unfold upToNext
  rw [List.takeWhile_cons, hc]
  rfl

theorem upToNext_question (ha : asks a = true) : upToNext asks (a :: log) = [] := by
  unfold upToNext
  rw [List.takeWhile_cons, ha]
  rfl

/-- **Every question is answered** in pairs and what follows them exactly if it is in what
follows. -/
theorem Pairs.answered_iff (h : Pairs asks log) (rest : List α) :
    Answered asks (log ++ rest) ↔ Answered asks rest := by
  induction h with
  | nil => rfl
  | @cons a c log ha hc _ ih =>
      rw [List.cons_append, List.cons_append, answered_cons, answered_cons, ih, upToNext_cons hc]
      constructor
      · exact fun h => h.2.2
      · intro hrest
        refine ⟨fun _ => List.cons_ne_nil _ _, fun hask => ?_, hrest⟩
        exact absurd hask (by rw [hc]; exact Bool.false_ne_true)

/-- **Every question is answered once** in pairs and what follows them exactly if it is in what
follows, and that does not begin with one more answer. -/
theorem Pairs.answeredOnce_iff (h : Pairs asks log) (rest : List α) :
    AnsweredOnce asks (log ++ rest) ↔
      AnsweredOnce asks rest ∧ (log = [] ∨ upToNext asks rest = []) := by
  induction h with
  | nil => exact ⟨fun h => ⟨h, .inl rfl⟩, fun h => h.1⟩
  | @cons a c log ha hc hpairs ih =>
      have hnot : ¬ asks c = true := by
        rw [hc]
        exact Bool.false_ne_true
      have hone : (upToNext asks (c :: (log ++ rest))).length = 1 ↔
          upToNext asks (log ++ rest) = [] := by
        rw [upToNext_cons hc, List.length_cons]
        constructor
        · intro h
          exact List.length_eq_zero_iff.mp (by omega)
        · intro h
          rw [h]
          rfl
      rw [List.cons_append, List.cons_append, answeredOnce_cons, answeredOnce_cons, ih, hone]
      -- the pairs that follow begin with a question
      have hnext : upToNext asks (log ++ rest) = [] ↔ log ≠ [] ∨ upToNext asks rest = [] := by
        cases hpairs with
        | nil => exact ⟨.inr, fun h => h.resolve_left fun h => h rfl⟩
        | cons ha' hc' _ =>
            exact ⟨fun _ => .inl (List.cons_ne_nil _ _), fun _ => upToNext_question ha'⟩
      rw [hnext]
      constructor
      · rintro ⟨hfirst, _, hrest, hend⟩
        refine ⟨hrest, .inr ?_⟩
        rcases hend with rfl | hend
        · exact (hfirst ha).resolve_left fun h => h rfl
        · exact hend
      · rintro ⟨hrest, hend⟩
        have hend : upToNext asks rest = [] := hend.resolve_left (List.cons_ne_nil _ _)
        exact ⟨fun _ => .inr hend, fun hask => absurd hask hnot, hrest, .inr hend⟩

theorem Pairs.answeredOnce (h : Pairs asks log) : AnsweredOnce asks log := by
  have hall := h.answeredOnce_iff []
  rw [List.append_nil] at hall
  exact hall.mpr ⟨answeredOnce_nil, .inr rfl⟩

/-- A question at the end has no answer. -/
theorem Pairs.unanswered (h : Pairs asks log) (ha : asks a = true) :
    ¬ Answered asks (log ++ [a]) := by
  intro hall
  have hlast := (answered_cons.mp ((h.answered_iff [a]).mp hall)).1 ha
  exact hlast rfl

/-- One more answer at the end is one too many, if there is a question. -/
theorem Pairs.answeredOnce_answer (h : Pairs asks log) (hc : asks c = false) :
    AnsweredOnce asks (log ++ [c]) ↔ log = [] := by
  have hnot : ¬ asks c = true := by
    rw [hc]
    exact Bool.false_ne_true
  rw [h.answeredOnce_iff [c], upToNext_cons hc]
  constructor
  · rintro ⟨_, hempty | hnone⟩
    · exact hempty
    · exact absurd hnone (List.cons_ne_nil _ _)
  · intro hempty
    exact ⟨answeredOnce_cons.mpr ⟨fun hask => absurd hask hnot, answeredOnce_nil⟩, .inl hempty⟩

theorem Pairs.answered_answer (h : Pairs asks log) (hc : asks c = false) :
    Answered asks (log ++ [c]) := by
  have hnot : ¬ asks c = true := by
    rw [hc]
    exact Bool.false_ne_true
  exact (h.answered_iff [c]).mpr (answered_cons.mpr ⟨fun hask => absurd hask hnot, answered_nil⟩)

/-- Once is at least once. -/
theorem AnsweredOnce.answered (h : AnsweredOnce asks log) : Answered asks log := by
  intro before a after heq ha hnone
  have hone := h before a after heq ha
  rw [hnone] at hone
  exact nomatch hone

end Lib.Answers
