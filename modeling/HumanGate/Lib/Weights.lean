import Mathlib

set_option autoImplicit false

/-! # Weights

Lists of weighted labels over an ordered field. A `Partition` has no negative weight and the total
1; such a list is its own normal form (`Partition.shares_eq`), mixes of two are again one
(`Partition.mix`), and the weighted mean of a value that every label of it agrees on is that value
(`Partition.mean_eq_of_forall`).
-/

namespace Lib.Weights

variable {ι K : Type} [Field K]

def total (w : List (ι × K)) : K :=
  (w.map Prod.snd).sum

def scale (c : K) (w : List (ι × K)) : List (ι × K) :=
  w.map fun p => (p.1, p.2 * c)

/-- `u` and `v` side by side, each scaled by a factor of its own. -/
def mix (u : List (ι × K)) (c : K) (v : List (ι × K)) (d : K) : List (ι × K) :=
  scale c u ++ scale d v

/-- The sum of the values of `f`, each taken by its weight. -/
def mean (f : ι → K) (w : List (ι × K)) : K :=
  (w.map fun p => f p.1 * p.2).sum

/-- Every label of `w` is one of `S`. -/
def Within (S : ι → Prop) (w : List (ι × K)) : Prop :=
  ∀ p ∈ w, S p.1

variable {w u v : List (ι × K)} {c d t : K} {S : ι → Prop}

@[simp] theorem total_nil : total ([] : List (ι × K)) = 0 := rfl

@[simp] theorem total_cons (p : ι × K) (w : List (ι × K)) : total (p :: w) = p.2 + total w := by
  simp [total]

@[simp] theorem total_append (u v : List (ι × K)) : total (u ++ v) = total u + total v := by
  simp [total]

@[simp] theorem total_scale (c : K) (w : List (ι × K)) : total (scale c w) = total w * c := by
  induction w with
  | nil => simp [scale]
  | cons p w ih =>
      rw [scale, List.map_cons, total_cons, total_cons, ← scale, ih]
      ring

/-- A running sum is the sum of what it adds. -/
theorem foldl_add {α : Type} (f : α → K) (l : List α) (acc : K) :
    l.foldl (fun s a => s + f a) acc = acc + (l.map f).sum := by
  induction l generalizing acc with
  | nil => simp
  | cons a l ih =>
      rw [List.foldl_cons, ih, List.map_cons, List.sum_cons]
      ring

/-- A value that every label agrees on is taken as often as the weights add up to. -/
theorem mean_eq_mul (f : ι → K) (x : K) (hf : ∀ p ∈ w, f p.1 = x) : mean f w = x * total w := by
  induction w with
  | nil => simp [mean]
  | cons p w ih =>
      have hp : f p.1 = x := hf p (by simp)
      have hw : mean f w = x * total w := ih fun q hq => hf q (by simp [hq])
      calc mean f (p :: w) = f p.1 * p.2 + mean f w := by simp [mean]
        _ = x * total (p :: w) := by rw [hp, hw, total_cons]; ring

theorem Within.scale (hw : Within S w) : Within S (scale c w) := by
  intro q hq
  obtain ⟨p, hp, rfl⟩ := List.mem_map.mp hq
  exact hw p hp

theorem Within.mix (hu : Within S u) (hv : Within S v) : Within S (mix u c v d) := by
  intro q hq
  rcases List.mem_append.mp hq with hq | hq
  · exact hu.scale q hq
  · exact hv.scale q hq

/-! ## Partitions -/

variable [LinearOrder K]

/-- No weight is negative, and together they are 1. -/
structure Partition (w : List (ι × K)) : Prop where
  nonneg : ∀ p ∈ w, 0 ≤ p.2
  total_eq_one : total w = 1

/-- The weights with the negative ones cut to 0. -/
def clip (w : List (ι × K)) : List (ι × K) :=
  w.map fun p => (p.1, max 0 p.2)

/-- The clipped weights, each as its share of their total. -/
def shares (w : List (ι × K)) : List (ι × K) :=
  w.map fun p => (p.1, max 0 p.2 / total (clip w))

theorem shares_eq_scale (w : List (ι × K)) : shares w = scale (total (clip w))⁻¹ (clip w) := by
  simp [shares, scale, clip, div_eq_mul_inv]

theorem clip_of_nonneg (h : ∀ p ∈ w, 0 ≤ p.2) : clip w = w := by
  induction w with
  | nil => rfl
  | cons p w ih =>
      have hp : max 0 p.2 = p.2 := max_eq_right (h p (by simp))
      have hw : clip w = w := ih fun q hq => h q (by simp [hq])
      rw [clip, List.map_cons, ← clip, hw, hp]

theorem Within.shares (hw : Within S w) : Within S (shares w) := by
  intro q hq
  obtain ⟨p, hp, rfl⟩ := List.mem_map.mp hq
  exact hw p hp

theorem Partition.mean_eq_of_forall (hw : Partition w) (f : ι → K) (x : K)
    (hf : ∀ p ∈ w, f p.1 = x) : mean f w = x := by
  rw [mean_eq_mul f x hf, hw.total_eq_one, mul_one]

/-- A partition is its own normal form. -/
theorem Partition.shares_eq (hw : Partition w) : shares w = w := by
  rw [shares_eq_scale, clip_of_nonneg hw.nonneg, hw.total_eq_one, inv_one]
  simp [Weights.scale]

variable [IsStrictOrderedRing K]

theorem Partition.single (i : ι) : Partition [(i, (1 : K))] where
  nonneg := by simp
  total_eq_one := by simp

theorem total_clip_pos (hnonneg : ∀ p ∈ w, 0 ≤ p.2) {p : ι × K} (hp : p ∈ w) (hpos : 0 < p.2) :
    0 < total (clip w) := by
  rw [clip_of_nonneg hnonneg]
  have hle : p.2 ≤ total w :=
    List.single_le_sum (by simpa using fun x i hx => hnonneg (i, x) hx) _ (List.mem_map_of_mem hp)
  exact hpos.trans_le hle

/-- Whatever has a positive clipped total becomes a partition by taking shares. -/
theorem partition_shares (h : 0 < total (clip w)) : Partition (shares w) where
  nonneg := by
    intro q hq
    obtain ⟨p, hp, rfl⟩ := List.mem_map.mp hq
    exact div_nonneg (le_max_left _ _) h.le
  total_eq_one := by
    rw [shares_eq_scale, total_scale, mul_inv_cancel₀ h.ne']

/-- Two partitions, mixed by factors that add up to 1, are a partition. -/
theorem Partition.mix (hu : Partition u) (hv : Partition v) (hc : 0 ≤ c) (hd : 0 ≤ d)
    (hcd : c + d = 1) : Partition (mix u c v d) where
  nonneg := by
    intro q hq
    rcases List.mem_append.mp hq with hq | hq
    · obtain ⟨p, hp, rfl⟩ := List.mem_map.mp hq
      exact mul_nonneg (hu.nonneg p hp) hc
    · obtain ⟨p, hp, rfl⟩ := List.mem_map.mp hq
      exact mul_nonneg (hv.nonneg p hp) hd
  total_eq_one := by
    calc total (Weights.mix u c v d) = total u * c + total v * d := by
          rw [Weights.mix, total_append, total_scale, total_scale]
      _ = 1 := by rw [hu.total_eq_one, hv.total_eq_one, one_mul, one_mul, hcd]

end Lib.Weights
