import Mathlib.Data.List.Chain
import Mathlib.Data.List.Nodup
import Mathlib.Logic.Relation

set_option autoImplicit false

/-! # Itineraries

A walk through a graph that makes records wherever it stays (`Itinerary`). The records of the
whole walk are the records of its stays, one after the other. In a graph without cycles every
node is visited once, so what a stay may record bounds what is recorded at a node at all
(`Itinerary.filter_records`).

A stay that numbers its records from one on, and only goes on below a bound, makes at most as many
as the bound (`Climbs.length_le`).
-/

namespace Lib

open Relation

universe u v

/-! ## Climbing numbers -/

/-- Positive numbers that increase and are below the bound, except for the last one. -/
structure Climbs (bound : Nat) (ns : List Nat) : Prop where
  positive : ∀ n ∈ ns, 0 < n
  increasing : ns.Pairwise (· < ·)
  below : ∀ n ∈ ns.dropLast, n < bound

namespace Climbs

variable {bound n : Nat} {ns : List Nat}

theorem nil (bound : Nat) : Climbs bound [] := by
  constructor <;> simp

/-- The next number is above the others, which are below the bound. -/
theorem push (h : Climbs bound ns) (hn : 0 < n) (hlast : ∀ m ∈ ns, m < n ∧ m < bound) :
    Climbs bound (ns ++ [n]) where
  positive m hm := by
    rcases List.mem_append.mp hm with hm | hm
    · exact h.positive m hm
    · rw [List.mem_singleton.mp hm]
      exact hn
  increasing := by
    rw [List.pairwise_append]
    refine ⟨h.increasing, List.pairwise_singleton _ n, fun m hm k hk => ?_⟩
    rw [List.mem_singleton.mp hk]
    exact (hlast m hm).1
  below m hm := by
    rw [List.dropLast_concat] at hm
    exact (hlast m hm).2

/-- What comes before the last number is below it, and below the bound. -/
theorem before_last (h : Climbs bound (ns ++ [n])) : ∀ m ∈ ns, m < n ∧ m < bound := by
  intro m hm
  constructor
  · exact (List.pairwise_append.mp h.increasing).2.2 m hm n (List.mem_singleton_self n)
  · refine h.below m ?_
    rwa [List.dropLast_concat]

/-- An increasing list of numbers from `lo` on and below `hi`. -/
theorem length_add_le {lo hi : Nat} (hns : ns.Pairwise (· < ·)) (hlo : ∀ m ∈ ns, lo ≤ m)
    (hhi : ∀ m ∈ ns, m < hi) : ns = [] ∨ ns.length + lo ≤ hi := by
  induction ns generalizing lo with
  | nil => exact .inl rfl
  | cons n rest ih =>
      obtain ⟨hn, hrest⟩ := List.pairwise_cons.mp hns
      have hge := hlo n List.mem_cons_self
      have hlt := hhi n List.mem_cons_self
      rw [List.length_cons]
      have hrest' : rest = [] ∨ rest.length + (n + 1) ≤ hi :=
        ih hrest hn fun m hm => hhi m (List.mem_cons_of_mem n hm)
      rcases hrest' with rfl | hle
      · rw [List.length_nil]
        omega
      · omega

/-- **At most `bound` numbers** climb below the bound, or one. -/
theorem length_le (h : Climbs bound ns) : ns.length ≤ max 1 bound := by
  have hinit : ns.dropLast = [] ∨ ns.dropLast.length + 1 ≤ bound :=
    length_add_le (h.increasing.sublist (List.dropLast_sublist ns))
      (fun m hm => h.positive m ((List.dropLast_sublist ns).subset hm)) h.below
  have hlen : ns.dropLast.length = ns.length - 1 := List.length_dropLast
  rcases hinit with hnil | hle
  · rw [hnil, List.length_nil] at hlen
    omega
  · omega

end Climbs

/-! ## Itineraries -/

variable {α : Type u} {β : Type v}

/-- The stays of a walk along `R`, each with its records, of which `P` holds. -/
structure Itinerary (R : α → α → Prop) (P : α → List β → Prop) (stays : List (α × List β)) :
    Prop where
  path : (stays.map Prod.fst).IsChain R
  kept : ∀ v ∈ stays, P v.1 v.2

/-- What is recorded on the whole walk. -/
def records (stays : List (α × List β)) : List β := stays.flatMap Prod.snd

@[simp] theorem records_append (stays more : List (α × List β)) :
    records (stays ++ more) = records stays ++ records more := List.flatMap_append

@[simp] theorem records_singleton (a : α) (now : List β) : records [(a, now)] = now := by
  simp [records]

namespace Itinerary

variable {R : α → α → Prop} {P : α → List β → Prop} {stays before : List (α × List β)} {a b : α}
  {now : List β}

theorem start (h : P a now) : Itinerary R P [(a, now)] where
  path := List.isChain_singleton a
  kept v hv := by
    rw [List.mem_singleton.mp hv]
    exact h

/-- The last stay. -/
theorem last (h : Itinerary R P (before ++ [(a, now)])) : P a now :=
  h.kept (a, now) (List.mem_append_right _ (List.mem_singleton_self _))

/-- The walk stays where it is. -/
theorem stay {later : List β} (h : Itinerary R P (before ++ [(a, now)])) (hlater : P a later) :
    Itinerary R P (before ++ [(a, later)]) where
  path := by
    have hpath := h.path
    rw [List.map_append] at hpath ⊢
    exact hpath
  kept v hv := by
    rcases List.mem_append.mp hv with hv | hv
    · exact h.kept v (List.mem_append_left _ hv)
    · rw [List.mem_singleton.mp hv]
      exact hlater

/-- The walk goes on to another node. -/
theorem move {later : List β} (h : Itinerary R P (before ++ [(a, now)])) (hab : R a b)
    (hlater : P b later) : Itinerary R P ((before ++ [(a, now)]) ++ [(b, later)]) where
  path := by
    rw [List.map_append, List.isChain_append]
    refine ⟨h.path, List.isChain_singleton b, fun x hx y hy => ?_⟩
    rw [List.map_append, List.map_singleton, List.getLast?_append, List.getLast?_singleton] at hx
    cases hx
    cases hy
    exact hab
  kept v hv := by
    rcases List.mem_append.mp hv with hv | hv
    · exact h.kept v hv
    · rw [List.mem_singleton.mp hv]
      exact hlater

/-- Without cycles, no node is visited twice. -/
theorem nodup (h : Itinerary R P stays) (hacyclic : ∀ a, ¬ TransGen R a a) :
    (stays.map Prod.fst).Nodup := by
  have hchain : (stays.map Prod.fst).IsChain (TransGen R) := h.path.imp fun _ _ => .single
  refine hchain.pairwise.imp fun hab heq => ?_
  rw [heq] at hab
  exact hacyclic _ hab

/-- Without cycles, what is recorded at a node is recorded on one stay. -/
theorem filter_records [DecidableEq α] (h : Itinerary R P stays)
    (hacyclic : ∀ a, ¬ TransGen R a a) (site : β → α)
    (hsite : ∀ v ∈ stays, ∀ x ∈ v.2, site x = v.1) (a : α) :
    (records stays).filter (fun x => site x = a) = [] ∨
      ∃ now, P a now ∧ (records stays).filter (fun x => site x = a) = now := by
  have hnodup := h.nodup hacyclic
  have hkept := h.kept
  clear h
  induction stays with
  | nil => exact .inl rfl
  | cons v rest ih =>
      rw [List.map_cons, List.nodup_cons] at hnodup
      obtain ⟨hnew, hrest⟩ := hnodup
      have hrest := ih (fun w hw => hsite w (List.mem_cons_of_mem v hw)) hrest
        fun w hw => hkept w (List.mem_cons_of_mem v hw)
      have hv := hsite v List.mem_cons_self
      have hsplit : records (v :: rest) = v.2 ++ records rest := List.flatMap_cons
      rw [hsplit, List.filter_append]
      by_cases hva : v.1 = a
      · -- the other stays are elsewhere
        have hnone : (records rest).filter (fun x => site x = a) = [] := by
          rw [List.filter_eq_nil_iff]
          intro x hx
          obtain ⟨w, hw, hxw⟩ := List.mem_flatMap.mp hx
          have hxw := hsite w (List.mem_cons_of_mem v hw) x hxw
          rw [decide_eq_true_eq, hxw]
          intro hwa
          exact hnew (List.mem_map.mpr ⟨w, hw, hwa.trans hva.symm⟩)
        have hall : v.2.filter (fun x => site x = a) = v.2 := by
          rw [List.filter_eq_self]
          intro x hx
          rw [decide_eq_true_eq, hv x hx, hva]
        rw [hnone, hall, List.append_nil]
        refine .inr ⟨v.2, ?_, rfl⟩
        rw [← hva]
        exact hkept v List.mem_cons_self
      · have hnone : v.2.filter (fun x => site x = a) = [] := by
          rw [List.filter_eq_nil_iff]
          intro x hx
          rw [decide_eq_true_eq, hv x hx]
          exact hva
        rw [hnone, List.nil_append]
        exact hrest

end Itinerary

end Lib
