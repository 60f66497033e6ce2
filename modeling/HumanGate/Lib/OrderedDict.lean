import Mathlib.Tactic

set_option autoImplicit false

/-! # Dictionaries that remember an order

A dictionary with the order of its entries, as Python's `OrderedDict`: an entry that is assigned and
moved to the end, one that is changed in place, the oldest one taken out, and a filter that keeps
the order. No key occurs twice, and a lookup is membership.
-/

namespace Lib

universe u v

/-- The entries, oldest first. -/
structure OrderedDict (κ : Type u) (ν : Type v) where
  entries : List (κ × ν)
  nodup : (entries.map Prod.fst).Nodup

namespace OrderedDict

variable {κ : Type u} {ν : Type v}

def empty : OrderedDict κ ν := ⟨[], List.nodup_nil⟩

/-- The entries that `keep` says, in their order. -/
def filter (keep : κ × ν → Bool) (d : OrderedDict κ ν) : OrderedDict κ ν where
  entries := d.entries.filter keep
  nodup := d.nodup.sublist (List.filter_sublist.map Prod.fst)

/-- `popitem(last=False)`. -/
def popFirst (d : OrderedDict κ ν) : OrderedDict κ ν where
  entries := d.entries.tail
  nodup := d.nodup.sublist ((List.tail_sublist _).map Prod.fst)

variable [DecidableEq κ]

def get (d : OrderedDict κ ν) (k : κ) : Option ν :=
  (d.entries.find? fun e => e.1 == k).map Prod.snd

/-- Assign a value and move its key to the end. -/
def putLast (d : OrderedDict κ ν) (k : κ) (v : ν) : OrderedDict κ ν where
  entries := d.entries.filter (fun e => e.1 != k) ++ [(k, v)]
  nodup := by
    rw [List.map_append, List.map_cons, List.map_nil, List.nodup_append]
    refine ⟨d.nodup.sublist (List.filter_sublist.map Prod.fst), List.nodup_singleton k, ?_⟩
    intro a ha b hb
    obtain ⟨e, he, rfl⟩ := List.mem_map.mp ha
    rw [List.mem_singleton.mp hb]
    simpa using (List.mem_filter.mp he).2

/-- Change the value of a key in its place. -/
def modify (d : OrderedDict κ ν) (k : κ) (f : ν → ν) : OrderedDict κ ν where
  entries := d.entries.map fun e => if e.1 = k then (e.1, f e.2) else e
  nodup := by
    have hkeys : (d.entries.map fun e => if e.1 = k then (e.1, f e.2) else e).map Prod.fst
        = d.entries.map Prod.fst := by
      rw [List.map_map]
      refine List.map_congr_left fun e _ => ?_
      show (if e.1 = k then (e.1, f e.2) else e).1 = e.1
      split <;> rfl
    rw [hkeys]
    exact d.nodup

/-! ## Lookups -/

variable {d : OrderedDict κ ν} {k k' : κ} {v : ν}

/-- **A lookup** is membership. -/
theorem get_eq_some : d.get k = some v ↔ (k, v) ∈ d.entries := by
  unfold get
  constructor
  · intro h
    obtain ⟨e, he, rfl⟩ := Option.map_eq_some_iff.mp h
    have hkey : e.1 = k := by simpa using List.find?_some he
    rw [← hkey]
    exact List.mem_of_find?_eq_some he
  · intro h
    have hfound : (d.entries.find? fun e => e.1 == k) = some (k, v) := by
      cases hfind : d.entries.find? fun e => e.1 == k with
      | none =>
          have hnone := List.find?_eq_none.mp hfind (k, v) h
          simp at hnone
      | some e =>
          have hkey : e.1 = (k, v).1 := by simpa using List.find?_some hfind
          rw [List.inj_on_of_nodup_map d.nodup (List.mem_of_find?_eq_some hfind) h hkey]
    rw [hfound]
    rfl

theorem get_eq_none : d.get k = none ↔ ∀ v, (k, v) ∉ d.entries := by
  constructor
  · intro h v hv
    rw [get_eq_some.mpr hv] at h
    exact nomatch h
  · intro h
    cases hget : d.get k with
    | none => rfl
    | some v => exact absurd (get_eq_some.mp hget) (h v)

theorem mem_putLast {e : κ × ν} :
    e ∈ (d.putLast k v).entries ↔ e = (k, v) ∨ e ∈ d.entries ∧ e.1 ≠ k := by
  unfold putLast
  simp only [List.mem_append, List.mem_filter, bne_iff_ne, List.mem_singleton]
  exact or_comm

theorem mem_modify {f : ν → ν} {e : κ × ν} :
    e ∈ (d.modify k f).entries ↔
      (∃ v, (k, v) ∈ d.entries ∧ e = (k, f v)) ∨ e ∈ d.entries ∧ e.1 ≠ k := by
  unfold modify
  rw [List.mem_map]
  constructor
  · rintro ⟨⟨k₀, v₀⟩, he, rfl⟩
    by_cases hk : k₀ = k
    · subst hk
      exact .inl ⟨v₀, he, if_pos rfl⟩
    · rw [if_neg hk]
      exact .inr ⟨he, hk⟩
  · rintro (⟨v₀, hv, rfl⟩ | ⟨he, hk⟩)
    · exact ⟨(k, v₀), hv, if_pos rfl⟩
    · exact ⟨e, he, if_neg hk⟩

theorem get_putLast : (d.putLast k v).get k' = if k' = k then some v else d.get k' := by
  have hmem : ∀ w, (d.putLast k v).get k' = some w ↔
      (k', w) = (k, v) ∨ (k', w) ∈ d.entries ∧ k' ≠ k := fun w => by
    rw [get_eq_some, mem_putLast]
  refine Option.ext fun w => ?_
  rw [hmem w]
  by_cases hk : k' = k
  · rw [if_pos hk]
    subst hk
    simp [eq_comm]
  · rw [if_neg hk, get_eq_some]
    simp [hk]

theorem get_modify {f : ν → ν} :
    (d.modify k f).get k' = if k' = k then (d.get k).map f else d.get k' := by
  refine Option.ext fun w => ?_
  rw [get_eq_some, mem_modify]
  by_cases hk : k' = k
  · rw [if_pos hk, Option.map_eq_some_iff]
    subst hk
    constructor
    · rintro (⟨v₀, hv, he⟩ | ⟨_, hne⟩)
      · exact ⟨v₀, get_eq_some.mpr hv, (congrArg Prod.snd he).symm⟩
      · exact absurd rfl hne
    · rintro ⟨v₀, hv, rfl⟩
      exact .inl ⟨v₀, get_eq_some.mp hv, rfl⟩
  · rw [if_neg hk, get_eq_some]
    simp [hk]

theorem length_modify (f : ν → ν) : (d.modify k f).entries.length = d.entries.length :=
  List.length_map _

theorem length_putLast_le : (d.putLast k v).entries.length ≤ d.entries.length + 1 := by
  unfold putLast
  rw [List.length_append, List.length_singleton]
  exact Nat.add_le_add_right (List.length_filter_le _ _) 1

end OrderedDict

end Lib
