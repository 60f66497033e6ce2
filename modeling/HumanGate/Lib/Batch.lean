import Mathlib.Tactic

set_option autoImplicit false

/-! # Batches

A batch is a list of items, each carried out by a step that may fail. `all` is the plain loop:
the first failure ends it. `failures` are the items that fail when every failure is caught and
the loop goes on from the state before it. The two are compared: without failures the loop goes
through, with one it does not, and it always goes through the items that do not fail.
-/

namespace Lib.Batch

universe u v w

variable {σ : Type u} {ι : Type v} {ε : Type w} (step : σ → ι → Except ε σ)

/-- One item after the other, up to the first failure. -/
def all (s : σ) : List ι → Except ε σ
  | [] => .ok s
  | i :: rest =>
      match step s i with
      | .error e => .error e
      | .ok s1 => all s1 rest

/-- The items that fail, when a failure is caught and leaves the state as it was. -/
def failures (s : σ) : List ι → List ι
  | [] => []
  | i :: rest =>
      match step s i with
      | .error _ => i :: failures s rest
      | .ok s1 => failures s1 rest

variable {step}

theorem failures_sublist (items : List ι) : ∀ s : σ, (failures step s items).Sublist items := by
  induction items with
  | nil => intro s; exact .slnil
  | cons i rest ih =>
      intro s
      unfold failures
      split
      · exact (ih s).cons_cons i
      · exact (ih _).cons i

/-- With a failure among its items, the loop fails. -/
theorem all_error (items : List ι) : ∀ s : σ, failures step s items ≠ [] →
    ∃ e, all step s items = .error e := by
  induction items with
  | nil => intro s h; exact absurd rfl h
  | cons i rest ih =>
      intro s h
      unfold failures at h
      unfold all
      split at h
      · rename_i e _
        exact ⟨e, rfl⟩
      · exact ih _ h

/-- The loop goes through the items that do not fail. -/
theorem all_others [DecidableEq ι] (items : List ι) : ∀ s : σ, items.Nodup →
    ∃ s', all step s (items.filter fun i => i ∉ failures step s items) = .ok s' := by
  induction items with
  | nil => intro s _; exact ⟨s, rfl⟩
  | cons i rest ih =>
      intro s hnodup
      obtain ⟨hi, hrest⟩ := List.nodup_cons.mp hnodup
      unfold failures
      split
      · -- the failing item occurs once, so the rest is filtered as before
        obtain ⟨s', hs'⟩ := ih s hrest
        refine ⟨s', ?_⟩
        rw [List.filter_cons_of_neg (by simp), ← hs']
        congr 1
        refine List.filter_congr fun j hj => ?_
        have hne : j ≠ i := fun h => hi (h ▸ hj)
        simp [hne]
      · rename_i s1 hstep
        obtain ⟨s', hs'⟩ := ih s1 hrest
        have hout : i ∉ failures step s1 rest := fun h => hi ((failures_sublist rest s1).subset h)
        refine ⟨s', ?_⟩
        rw [List.filter_cons_of_pos (by simpa using hout)]
        unfold all
        rw [hstep]
        exact hs'

/-- The loop up to an item, the item, and the rest. -/
theorem all_append {s s' : σ} {i : ι} {after : List ι} (before : List ι)
    (h : all step s (before ++ i :: after) = .ok s') :
    ∃ s1 s2, all step s before = .ok s1 ∧ step s1 i = .ok s2 ∧ all step s2 after = .ok s' := by
  induction before generalizing s with
  | nil =>
      rw [List.nil_append] at h
      unfold all at h
      split at h
      · cases h
      · rename_i s2 hstep
        exact ⟨s, s2, rfl, hstep, h⟩
  | cons j rest ih =>
      rw [List.cons_append] at h
      unfold all at h
      split at h
      · cases h
      · rename_i s0 hstep
        obtain ⟨s1, s2, hbefore, hi, hafter⟩ := ih h
        refine ⟨s1, s2, ?_, hi, hafter⟩
        unfold all
        rw [hstep]
        exact hbefore

/-- What the step keeps for every item of the batch, the loop keeps. -/
theorem all_invariant {I : σ → Prop} (items : List ι) {s s' : σ}
    (hstep : ∀ i ∈ items, ∀ s s', step s i = .ok s' → I s → I s')
    (h : all step s items = .ok s') (hs : I s) : I s' := by
  induction items generalizing s with
  | nil =>
      cases h
      exact hs
  | cons i rest ih =>
      unfold all at h
      split at h
      · cases h
      · rename_i s1 hi
        exact ih (fun j hj => hstep j (List.mem_cons_of_mem _ hj)) h
          (hstep i List.mem_cons_self s s1 hi hs)

end Lib.Batch
