import Mathlib.Data.List.TakeWhile
import Mathlib.Tactic

set_option autoImplicit false

/-! # Searching rows whose order leaves ties

A query that orders its rows by a key says nothing about rows of one key. A search through the rows
for the first that is picked has one outcome, whatever the order of the rows of one key, exactly if
the rows that it could stop at are all picked alike (`settled_iff`).
-/

namespace Lib.Ties

universe u v w

variable {α : Type u} {β : Type v} {κ : Type w} [LinearOrder κ] (key : α → κ) (pick : α → Option β)

/-- An answer to a query that orders `rows` by their key. -/
structure Answer (rows l : List α) : Prop where
  perm : l.Perm rows
  ordered : l.Pairwise fun a b => key a ≤ key b

/-- A row that a search could stop at: no row of a smaller key is picked. -/
structure Reached (rows : List α) (a : α) : Prop where
  mem : a ∈ rows
  picked : pick a ≠ none
  passed : ∀ c ∈ rows, key c < key a → pick c = none

/-- The rows of one key that a search could stop at are picked alike. -/
def Settled (rows : List α) : Prop :=
  ∀ a b, Reached key pick rows a → Reached key pick rows b → key a = key b → pick a = pick b

variable {key pick}

theorem Reached.congr {rows l : List α} {a : α} (h : Reached key pick l a) (hl : l.Perm rows) :
    Reached key pick rows a :=
  ⟨hl.mem_iff.mp h.mem, h.picked, fun c hc => h.passed c (hl.mem_iff.mpr hc)⟩

/-- Rows with different keys are settled. -/
theorem Settled.of_nodup {rows : List α} (h : ∀ a ∈ rows, ∀ b ∈ rows, key a = key b → a = b) :
    Settled key pick rows := by
  intro a b ha hb hkey
  rw [h a ha.mem b hb.mem hkey]

/-- All that could be stopped at have one key. -/
theorem Reached.key_eq {rows : List α} {a b : α} (ha : Reached key pick rows a)
    (hb : Reached key pick rows b) : key a = key b := by
  apply le_antisymm
  · exact not_lt.mp fun hlt => hb.picked (ha.passed b hb.mem hlt)
  · exact not_lt.mp fun hlt => ha.picked (hb.passed a ha.mem hlt)

/-- The search through ordered rows stops at a row that it could stop at, or picks none. -/
theorem findSome_reached (pick : α → Option β) {l : List α}
    (hl : l.Pairwise fun a b => key a ≤ key b) :
    (l.findSome? pick = none ∧ ∀ a ∈ l, pick a = none) ∨
      ∃ a, Reached key pick l a ∧ l.findSome? pick = pick a := by
  induction l with
  | nil => exact .inl ⟨rfl, fun a ha => nomatch ha⟩
  | cons first rest ih =>
      obtain ⟨hfirst, hrest⟩ := List.pairwise_cons.mp hl
      cases hpick : pick first with
      | some x =>
          have hstop : (first :: rest).findSome? pick = some x := by
            rw [List.findSome?_cons, hpick]
          refine .inr ⟨first, ⟨List.mem_cons_self, by rw [hpick]; exact Option.some_ne_none x, ?_⟩,
            by rw [hstop, hpick]⟩
          intro c hc hlt
          rcases List.mem_cons.mp hc with rfl | hc
          · exact absurd hlt (lt_irrefl _)
          · exact absurd hlt (not_lt.mpr (hfirst c hc))
      | none =>
          have hstop : (first :: rest).findSome? pick = rest.findSome? pick := by
            rw [List.findSome?_cons, hpick]
          have hcons : ∀ {P : α → Prop}, P first → (∀ c ∈ rest, P c) →
              ∀ c ∈ first :: rest, P c := by
            intro P hP hall c hc
            rcases List.mem_cons.mp hc with rfl | hc
            · exact hP
            · exact hall c hc
          rw [hstop]
          rcases ih hrest with ⟨hnone, hall⟩ | ⟨a, ha, heq⟩
          · exact .inl ⟨hnone, hcons hpick hall⟩
          · exact .inr ⟨a, ⟨List.mem_cons_of_mem _ ha.mem, ha.picked,
              hcons (fun _ => hpick) ha.passed⟩, heq⟩

/-- Settled rows: every answer is searched alike. -/
theorem Settled.agrees {rows l l' : List α} (h : Settled key pick rows) (hl : Answer key rows l)
    (hl' : Answer key rows l') : l.findSome? pick = l'.findSome? pick := by
  have hnone : ∀ {l l' : List α} {a : α}, Answer key rows l → Answer key rows l' →
      (∀ b ∈ l, pick b = none) → ¬ Reached key pick l' a := by
    intro l l' a hl hl' hall ha
    have hmem : a ∈ l := hl.perm.mem_iff.mpr (hl'.perm.mem_iff.mp ha.mem)
    exact ha.picked (hall a hmem)
  rcases findSome_reached pick hl.ordered with ⟨heq, hall⟩ | ⟨a, ha, heq⟩
  · rcases findSome_reached pick hl'.ordered with ⟨heq', _⟩ | ⟨b, hb, _⟩
    · rw [heq, heq']
    · exact absurd hb (hnone hl hl' hall)
  · rcases findSome_reached pick hl'.ordered with ⟨_, hall⟩ | ⟨b, hb, heq'⟩
    · exact absurd ha (hnone hl' hl hall)
    · have ha := ha.congr hl.perm
      have hb := hb.congr hl'.perm
      rw [heq, heq', h a b ha hb (ha.key_eq hb)]

/-- An answer puts any row before the other rows of its key. -/
theorem exists_answer_first {rows : List α} {a : α} (ha : Reached key pick rows a) :
    ∃ l, Answer key rows l ∧ l.findSome? pick = pick a := by
  classical
  let r : α → α → Prop := fun x y => key x ≤ key y
  have hr : ∀ x y, r x y ∨ r y x := fun x y => le_total (key x) (key y)
  have : Std.Total r := ⟨hr⟩
  have : IsTrans α r := ⟨fun x y z hxy hyz => le_trans hxy hyz⟩
  let others := (rows.erase a).insertionSort r
  have hperm : (others.orderedInsert r a).Perm rows :=
    (List.perm_orderedInsert r a others).trans
      (((List.perm_insertionSort r _).cons a).trans (List.perm_cons_erase ha.mem).symm)
  refine ⟨others.orderedInsert r a, ⟨hperm, ?_⟩, ?_⟩
  · exact (List.pairwise_insertionSort r (rows.erase a)).orderedInsert a others
  · -- the rows before it have smaller keys
    rw [List.orderedInsert_eq_take_drop, List.findSome?_append]
    have hbefore : (others.takeWhile fun b => ¬ r a b).findSome? pick = none := by
      rw [List.findSome?_eq_none_iff]
      intro b hb
      have hlt : ¬ r a b := by simpa using List.mem_takeWhile_imp hb
      have hmem : b ∈ others := (List.takeWhile_prefix _).subset hb
      have hrow : b ∈ rows := List.mem_of_mem_erase ((List.mem_insertionSort r).mp hmem)
      exact ha.passed b hrow (not_le.mp hlt)
    obtain ⟨x, hx⟩ := Option.ne_none_iff_exists'.mp ha.picked
    rw [hbefore, Option.none_or, List.findSome?_cons, hx]

/-- **Where ties do not matter**: all answers are searched alike exactly if the rows are settled. -/
theorem settled_iff {rows : List α} :
    (∀ l l', Answer key rows l → Answer key rows l' → l.findSome? pick = l'.findSome? pick) ↔
      Settled key pick rows := by
  constructor
  · intro h a b ha hb _
    obtain ⟨l, hl, hla⟩ := exists_answer_first ha
    obtain ⟨l', hl', hlb⟩ := exists_answer_first hb
    rw [← hla, ← hlb]
    exact h l l' hl hl'
  · intro h l l' hl hl'
    exact h.agrees hl hl'

end Lib.Ties
