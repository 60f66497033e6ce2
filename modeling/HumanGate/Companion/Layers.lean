import Mathlib
import HumanGate.Model.LayerMask

set_option autoImplicit false

/-! # The arm layer

The solid texels from the first row of the arm layer down form regions of texels that touch. The
largest one is the body, every other one is arm, and a fainter texel goes with the solid texel that
is nearest to it. -/

namespace HumanGate

open Lib LeonLayerMask

variable {K : Type} [Field K] [LinearOrder K]

/-! ## Texels that touch -/

/-- The texel lies in the texture, from row `top` down. -/
def InRows (top width height t : ℕ) : Prop :=
  top * width ≤ t ∧ t < width * height

/-- Two texels touch along a side or at a corner. -/
def Touching (width t n : ℕ) : Prop :=
  t ≠ n ∧ |((t % width : ℕ) : ℤ) - (n % width : ℕ)| ≤ 1 ∧
    |((t / width : ℕ) : ℤ) - (n / width : ℕ)| ≤ 1

/-- The texels of the rows that `keep` holds of, where they touch. -/
def texelGraph (keep : ℕ → Bool) (top width height : ℕ) : SimpleGraph ℕ where
  Adj t n := (InRows top width height t ∧ keep t = true) ∧
    (InRows top width height n ∧ keep n = true) ∧ Touching width t n
  symm := ⟨fun t n ⟨ht, hn, hne, hx, hy⟩ =>
    ⟨hn, ht, hne.symm, by rwa [abs_sub_comm], by rwa [abs_sub_comm]⟩⟩
  loopless := ⟨fun _ h => h.2.2.1 rfl⟩

section Neighbours

variable {top width height : ℕ}

theorem inRows_iff (hw : 0 < width) (t : ℕ) :
    InRows top width height t ↔ top ≤ t / width ∧ t / width < height := by
  unfold InRows
  rw [Nat.le_div_iff_mul_le hw, Nat.div_lt_iff_lt_mul hw, Nat.mul_comm width height]

theorem texel_div_mod (hw : 0 < width) (ny nx : ℕ) (hx : nx < width) :
    (ny * width + nx) / width = ny ∧ (ny * width + nx) % width = nx := by
  constructor
  · rw [Nat.mul_comm, Nat.mul_add_div hw, Nat.div_eq_of_lt hx, Nat.add_zero]
  · rw [Nat.mul_comm, Nat.mul_add_mod, Nat.mod_eq_of_lt hx]

/-- A step of at most one in each direction. -/
theorem mem_steps (d : ℤ) : d ∈ ([-1, 0, 1] : List ℤ) ↔ |d| ≤ 1 := by
  rw [abs_le]
  simp only [List.mem_cons, List.not_mem_nil, or_false]
  omega

/-- The neighbours by the column and the row they lie in. -/
theorem mem_neighbours_iff {t n : ℕ} :
    n ∈ neighbours top width height t ↔ ∃ ny nx : ℕ, n = ny * width + nx ∧ nx < width ∧
      top ≤ ny ∧ ny < height ∧ ¬ (nx = t % width ∧ ny = t / width) ∧
      |(nx : ℤ) - (t % width : ℕ)| ≤ 1 ∧ |(ny : ℤ) - (t / width : ℕ)| ≤ 1 := by
  unfold neighbours
  simp only [List.mem_flatMap]
  constructor
  · rintro ⟨dy, hdy, hn⟩
    split at hn
    · cases hn
    rename_i hrow
    obtain ⟨dx, hdx, hsome⟩ := List.mem_filterMap.mp hn
    split at hsome
    · cases hsome
    rename_i hcol
    -- a step that stays in range ends in natural numbers
    obtain ⟨ny, hny⟩ : ∃ ny : ℕ, (t / width : ℤ) + dy = ny :=
      Int.eq_ofNat_of_zero_le (by omega)
    obtain ⟨nx, hnx⟩ : ∃ nx : ℕ, (t % width : ℤ) + dx = nx :=
      Int.eq_ofNat_of_zero_le (by omega)
    have hx : (nx : ℤ) - (t % width : ℕ) = dx := by
      push_cast
      omega
    have hy : (ny : ℤ) - (t / width : ℕ) = dy := by
      push_cast
      omega
    rw [hny, hnx] at hsome
    rw [hny] at hrow
    rw [hnx] at hcol
    refine ⟨ny, nx, ?_, by omega, by omega, by omega, ?_, ?_, ?_⟩
    · exact (Option.some.inj hsome).symm
    · rintro ⟨rfl, rfl⟩
      exact hcol (.inl ⟨by omega, by omega⟩)
    · rw [hx]
      exact (mem_steps dx).mp hdx
    · rw [hy]
      exact (mem_steps dy).mp hdy
  · rintro ⟨ny, nx, rfl, hx, htop, hheight, hne, hdx, hdy⟩
    have hny : (t / width : ℤ) + ((ny : ℤ) - (t / width : ℕ)) = ny := by
      push_cast
      omega
    have hnx : (t % width : ℤ) + ((nx : ℤ) - (t % width : ℕ)) = nx := by
      push_cast
      omega
    refine ⟨_, (mem_steps _).mpr hdy, ?_⟩
    rw [hny, if_neg (by omega)]
    refine List.mem_filterMap.mpr ⟨_, (mem_steps _).mpr hdx, ?_⟩
    rw [hnx, if_neg (by omega)]
    rfl

theorem InRows.width_pos {t : ℕ} (h : InRows top width height t) : 0 < width := by
  rcases Nat.eq_zero_or_pos width with rfl | hw
  · have hlt := h.2
    omega
  · exact hw

/-- The neighbours are the texels of the rows that touch. -/
theorem mem_neighbours {t n : ℕ} (ht : InRows top width height t) :
    n ∈ neighbours top width height t ↔ InRows top width height n ∧ Touching width t n := by
  have hw := ht.width_pos
  rw [mem_neighbours_iff, inRows_iff hw]
  unfold Touching
  constructor
  · rintro ⟨ny, nx, rfl, hx, htop, hheight, hne, hdx, hdy⟩
    obtain ⟨hdiv, hmod⟩ := texel_div_mod hw ny nx hx
    rw [hdiv, hmod]
    refine ⟨⟨htop, hheight⟩, ?_, by rwa [abs_sub_comm], by rwa [abs_sub_comm]⟩
    rintro rfl
    exact hne ⟨hmod.symm, hdiv.symm⟩
  · rintro ⟨⟨htop, hheight⟩, hne, hdx, hdy⟩
    refine ⟨n / width, n % width, (Nat.div_add_mod' n width).symm, Nat.mod_lt n hw, htop, hheight,
      ?_, by rwa [abs_sub_comm], by rwa [abs_sub_comm]⟩
    rintro ⟨hmod, hdiv⟩
    rw [← Nat.div_add_mod' t width, ← Nat.div_add_mod' n width, hmod, hdiv] at hne
    exact hne rfl

/-- What a kept texel reaches is kept. -/
theorem texelGraph_kept {keep : ℕ → Bool} {s t : ℕ}
    (h : (texelGraph keep top width height).Reachable s t)
    (hs : InRows top width height s ∧ keep s = true) :
    InRows top width height t ∧ keep t = true := by
  rw [SimpleGraph.reachable_iff_reflTransGen] at h
  cases h with
  | refl => exact hs
  | tail _ hadj => exact hadj.2.1

theorem texelGraph_reached {keep : ℕ → Bool} {sources : List ℕ} {t : ℕ}
    (hkept : ∀ s ∈ sources, InRows top width height s ∧ keep s = true)
    (h : Flood.Reached (texelGraph keep top width height) sources t) :
    InRows top width height t ∧ keep t = true := by
  obtain ⟨s, hs, hreach⟩ := h
  exact texelGraph_kept hreach (hkept s hs)

/-- The loops over the neighbours walk the graph of the kept texels. -/
theorem texelGraph_adj {keep : ℕ → Bool} {sources : List ℕ} {t : ℕ}
    (hkept : ∀ s ∈ sources, InRows top width height s ∧ keep s = true)
    (h : Flood.Reached (texelGraph keep top width height) sources t) (n : ℕ) :
    (texelGraph keep top width height).Adj t n ↔
      n ∈ neighbours top width height t ∧ keep n = true := by
  have ht := texelGraph_reached hkept h
  rw [mem_neighbours ht.1]
  constructor
  · rintro ⟨_, ⟨hrows, hkeep⟩, htouch⟩
    exact ⟨⟨hrows, htouch⟩, hkeep⟩
  · rintro ⟨⟨hrows, htouch⟩, hkeep⟩
    exact ⟨ht, ⟨hrows, hkeep⟩, htouch⟩

/-- The fuel of the loops is enough: they queue a texel once. -/
theorem texelGraph_flooded {L : Type} {colour : Option L → Option L} {keep : ℕ → Bool}
    {label : ℕ → Option L} {sources : List ℕ} (hnodup : sources.Nodup)
    (hkept : ∀ s ∈ sources, InRows top width height s ∧ keep s = true)
    (hlabel : ∀ s ∈ sources, label s ≠ none ∧ colour (label s) = label s)
    (hclear : ∀ t, Flood.Reached (texelGraph keep top width height) sources t →
      t ∈ sources ∨ label t = none) :
    Flood.Flooded (texelGraph keep top width height) label sources
      (Flood.run (neighbours top width height) keep colour (width * height)
        ⟨label, [], sources⟩) := by
  have hground : Flood.Ground (neighbours top width height) keep colour
      (texelGraph keep top width height) label sources := by
    refine ⟨hnodup, fun s hs => (hlabel s hs).1, fun s hs => (hlabel s hs).2, hclear, ?_⟩
    exact fun t ht n => texelGraph_adj hkept ht n
  refine hground.flooded (U := Finset.range (width * height)) (fun t ht => ?_) ?_
  · exact Finset.mem_range.mpr (texelGraph_reached hkept ht).1.2
  · rw [Finset.card_range]

end Neighbours

/-! ## Regions -/

section Regions

variable {alpha : List ℤ} {top width height : ℕ}

/-- How many texels the region of a texel has. -/
noncomputable def regionSize (G : SimpleGraph ℕ) (t : ℕ) : ℕ :=
  {v | G.Reachable t v}.ncard

/-- The regions of the texels below `start`, each by its first texel. -/
structure Labelled (keep : ℕ → Bool) (top width height : ℕ) (r : Regions) (start : ℕ)
    (roots : List ℕ) : Prop where
  sorted : roots.Pairwise (· < ·)
  kept : ∀ x ∈ roots, x < start ∧ InRows top width height x ∧ keep x = true
  label : ∀ t i, r.label t = some i ↔
    ∃ x, roots[i]? = some x ∧ (texelGraph keep top width height).Reachable x t
  least : ∀ x ∈ roots, ∀ t, (texelGraph keep top width height).Reachable x t → x ≤ t
  done : ∀ t, InRows top width height t → keep t = true → t < start → r.label t ≠ none
  sizes : r.regionSizes = roots.map (regionSize (texelGraph keep top width height))

namespace Labelled

variable {keep : ℕ → Bool} {r : Regions} {start : ℕ} {roots : List ℕ}

theorem empty : Labelled keep top width height ⟨fun _ => none, []⟩ (top * width) [] := by
  constructor
  · exact .nil
  · exact fun x hx => absurd hx List.not_mem_nil
  · simp
  · exact fun x hx => absurd hx List.not_mem_nil
  · intro t ht _ hlt
    have hle := ht.1
    omega
  · rfl

/-- A texel that starts no region. -/
theorem skip (h : Labelled keep top width height r start roots)
    (hskip : keep start = true → r.label start ≠ none) :
    Labelled keep top width height r (start + 1) roots := by
  refine { h with kept := fun x hx => ?_, done := fun t ht hkeep hlt => ?_ }
  · obtain ⟨hlt, hrest⟩ := h.kept x hx
    exact ⟨Nat.lt_succ_of_lt hlt, hrest⟩
  · rcases Nat.lt_succ_iff_lt_or_eq.mp hlt with hlt | rfl
    · exact h.done t ht hkeep hlt
    · exact hskip hkeep

/-- Two kept texels have one label just where they are connected. -/
theorem label_reachable (h : Labelled keep top width height r start roots) {t v : ℕ} {i : ℕ}
    (ht : r.label t = some i) (htv : (texelGraph keep top width height).Reachable t v) :
    r.label v = some i := by
  obtain ⟨x, hx, hreach⟩ := (h.label t i).mp ht
  exact (h.label v i).mpr ⟨x, hx, hreach.trans htv⟩

/-- The flood from a texel without a label finds its region. -/
theorem flood (h : Labelled keep top width height r start roots)
    (hrows : InRows top width height start) (hkeep : keep start = true)
    (hnone : r.label start = none) :
    Flood.Flooded (texelGraph keep top width height)
      (Function.update r.label start (some roots.length)) [start]
      (Flood.run (neighbours top width height) keep (fun _ => some roots.length) (width * height)
        ⟨Function.update r.label start (some roots.length), [], [start]⟩) := by
  refine texelGraph_flooded (List.nodup_singleton start) ?_ ?_ ?_
  · intro s hs
    rw [List.mem_singleton.mp hs]
    exact ⟨hrows, hkeep⟩
  · intro s hs
    rw [List.mem_singleton.mp hs, Function.update_self]
    exact ⟨Option.some_ne_none _, rfl⟩
  · rintro t ⟨s, hs, hreach⟩
    rw [List.mem_singleton.mp hs] at hreach
    by_cases hts : t = start
    · exact .inl (List.mem_singleton.mpr hts)
    · refine .inr ?_
      rw [Function.update_of_ne hts]
      -- a label would be that of `start`
      cases hlabel : r.label t with
      | none => rfl
      | some i =>
          rw [h.label_reachable hlabel hreach.symm] at hnone
          cases hnone

/-- What a flooded region is labelled with. -/
theorem flooded_label {flood : Flood ℕ ℕ} (hflood : Flood.Flooded (texelGraph keep top width height)
      (Function.update r.label start (some roots.length)) [start] flood) (t : ℕ) :
    ((texelGraph keep top width height).Reachable start t → flood.label t = some roots.length) ∧
    (¬ (texelGraph keep top width height).Reachable start t → flood.label t = r.label t) := by
  constructor
  · intro hreach
    obtain ⟨s, hs, hlabel⟩ :=
      hflood.nearest t ⟨start, List.mem_singleton_self start, hreach⟩
    rw [hlabel, List.mem_singleton.mp hs.source, Function.update_self]
  · intro hreach
    have hts : t ≠ start := by
      rintro rfl
      exact hreach (.refl t)
    rw [hflood.outside t, Function.update_of_ne hts]
    rintro ⟨s, hs, hreach'⟩
    rw [List.mem_singleton.mp hs] at hreach'
    exact hreach hreach'

/-- The texels of the region are counted once each. -/
theorem flooded_size {flood : Flood ℕ ℕ} {G : SimpleGraph ℕ} {label : ℕ → Option ℕ}
    (hflood : Flood.Flooded G label [start] flood) :
    (flood.read ++ flood.queue).length = regionSize G start := by
  have hset : {v | G.Reachable start v} = (flood.read.toFinset : Set ℕ) := by
    ext v
    rw [Set.mem_ofPred_eq, Finset.mem_coe, List.mem_toFinset, hflood.mem]
    constructor
    · exact fun hreach => ⟨start, List.mem_singleton_self start, hreach⟩
    · rintro ⟨s, hs, hreach⟩
      rwa [List.mem_singleton.mp hs] at hreach
  unfold regionSize
  rw [hset, Set.ncard_coe_finset, List.toFinset_card_of_nodup hflood.nodup, hflood.dry,
    List.append_nil]

/-- The labels with one more region. -/
theorem label_push (h : Labelled keep top width height r start roots)
    (hnone : r.label start = none) {flood : Flood ℕ ℕ}
    (hflood : Flood.Flooded (texelGraph keep top width height)
      (Function.update r.label start (some roots.length)) [start] flood) (t i : ℕ) :
    flood.label t = some i ↔ ∃ x, (roots ++ [start])[i]? = some x ∧
      (texelGraph keep top width height).Reachable x t := by
  have hold : ∀ x ∈ roots, ¬ (texelGraph keep top width height).Reachable start x := by
    intro x hx hreach
    obtain ⟨i, hi⟩ := List.mem_iff_getElem?.mp hx
    have hlabel : r.label start = some i := (h.label start i).mpr ⟨x, hi, hreach.symm⟩
    rw [hnone] at hlabel
    cases hlabel
  by_cases hreach : (texelGraph keep top width height).Reachable start t
  · rw [(flooded_label hflood t).1 hreach]
    constructor
    · intro hi
      cases hi
      exact ⟨start, List.getElem?_concat_length, hreach⟩
    · rintro ⟨x, hx, hxt⟩
      rcases Nat.lt_trichotomy i roots.length with hlt | rfl | hgt
      · rw [List.getElem?_append_left hlt] at hx
        exact absurd (hreach.trans hxt.symm) (hold x (List.mem_of_getElem? hx))
      · rfl
      · have hlen : (roots ++ [start]).length ≤ i := by
          rw [List.length_append, List.length_singleton]
          omega
        rw [List.getElem?_eq_none hlen] at hx
        cases hx
  · rw [(flooded_label hflood t).2 hreach, h.label]
    constructor
    · rintro ⟨x, hx, hxt⟩
      obtain ⟨hlt, _⟩ := List.getElem?_eq_some_iff.mp hx
      exact ⟨x, by rwa [List.getElem?_append_left hlt], hxt⟩
    · rintro ⟨x, hx, hxt⟩
      rcases Nat.lt_or_ge i roots.length with hlt | hge
      · exact ⟨x, by rwa [List.getElem?_append_left hlt] at hx, hxt⟩
      · rw [List.getElem?_append_right hge] at hx
        rw [List.mem_singleton.mp (List.mem_of_getElem? hx)] at hxt
        exact absurd hxt hreach

/-- A region is found, with the next label. -/
theorem push (h : Labelled keep top width height r start roots)
    (hrows : InRows top width height start) (hkeep : keep start = true)
    (hnone : r.label start = none) {flood : Flood ℕ ℕ}
    (hflood : Flood.Flooded (texelGraph keep top width height)
      (Function.update r.label start (some roots.length)) [start] flood) :
    Labelled keep top width height
      ⟨flood.label, r.regionSizes ++ [(flood.read ++ flood.queue).length]⟩ (start + 1)
      (roots ++ [start]) := by
  refine ⟨?_, fun x hx => ?_, h.label_push hnone hflood, fun x hx t hxt => ?_,
    fun t ht hkeep' hlt => ?_, ?_⟩
  · refine List.pairwise_append.mpr ⟨h.sorted, List.pairwise_singleton _ _, fun x hx y hy => ?_⟩
    rw [List.mem_singleton.mp hy]
    exact (h.kept x hx).1
  · rcases List.mem_append.mp hx with hx | hx
    · obtain ⟨hlt, hrest⟩ := h.kept x hx
      exact ⟨Nat.lt_succ_of_lt hlt, hrest⟩
    · rw [List.mem_singleton.mp hx]
      exact ⟨Nat.lt_succ_self start, hrows, hkeep⟩
  · rcases List.mem_append.mp hx with hx | hx
    · exact h.least x hx t hxt
    · rw [List.mem_singleton.mp hx] at hxt ⊢
      by_contra hlt
      have ht := texelGraph_kept hxt ⟨hrows, hkeep⟩
      -- a smaller texel of the region has a label, and so `start` has
      cases hlabel : r.label t with
      | none => exact h.done t ht.1 ht.2 (by omega) hlabel
      | some i =>
          rw [h.label_reachable hlabel hxt.symm] at hnone
          cases hnone
  · by_cases hreach : (texelGraph keep top width height).Reachable start t
    · have hlabel := (flooded_label hflood t).1 hreach
      exact ne_of_eq_of_ne hlabel (Option.some_ne_none _)
    · have hlabel := (flooded_label hflood t).2 hreach
      refine ne_of_eq_of_ne hlabel ?_
      rcases Nat.lt_succ_iff_lt_or_eq.mp hlt with hlt | rfl
      · exact h.done t ht hkeep' hlt
      · exact absurd (.refl t) hreach
  · rw [h.sizes, List.map_append, List.map_singleton, flooded_size hflood]

theorem step (h : Labelled (solid alpha) top width height r start roots)
    (hrows : InRows top width height start) :
    ∃ roots', Labelled (solid alpha) top width height
      (labelRegion alpha top width height r start) (start + 1) roots' := by
  unfold labelRegion
  split
  · rename_i hskip
    refine ⟨roots, h.skip fun hkeep hnone => ?_⟩
    simp [hkeep, hnone] at hskip
  · rename_i hnew
    have hkeep : solid alpha start = true := by
      by_contra hnot
      simp [hnot] at hnew
    have hnone : r.label start = none := by
      cases hlabel : r.label start with
      | none => rfl
      | some i => simp [hlabel] at hnew
    have hlen : r.regionSizes.length = roots.length := by
      rw [h.sizes, List.length_map]
    simp only [hlen]
    exact ⟨_, h.push hrows hkeep hnone (h.flood hrows hkeep hnone)⟩

end Labelled

/-- The texels of the rows, from `start` on. -/
theorem foldl_labelRegion (n : ℕ) {r : Regions} {start : ℕ} {roots : List ℕ}
    (h : Labelled (solid alpha) top width height r start roots) (htop : top * width ≤ start)
    (hsize : start + n ≤ width * height) :
    ∃ roots', Labelled (solid alpha) top width height
      ((List.range' start n).foldl (labelRegion alpha top width height) r) (start + n) roots' := by
  induction n generalizing r start roots with
  | zero => exact ⟨roots, h⟩
  | succ n ih =>
      obtain ⟨roots', hstep⟩ := h.step ⟨htop, by omega⟩
      obtain ⟨roots'', hrest⟩ := ih hstep (by omega) (by omega)
      refine ⟨roots'', ?_⟩
      rw [List.range'_succ, List.foldl_cons]
      rwa [show start + (n + 1) = start + 1 + n by omega]

/-- The regions of the texture: one for each root. -/
theorem labelRegions_labelled (htop : top ≤ height) :
    ∃ roots, Labelled (solid alpha) top width height (labelRegions alpha top width height)
      (width * height) roots := by
  have hle : top * width ≤ width * height := by
    rw [Nat.mul_comm width height]
    exact Nat.mul_le_mul_right width htop
  have hempty : Labelled (solid alpha) top width height ⟨fun _ => none, []⟩ (top * width) [] :=
    .empty
  obtain ⟨roots, h⟩ := foldl_labelRegion (width * height - top * width) hempty (le_refl _)
    (by omega)
  refine ⟨roots, ?_⟩
  rwa [show top * width + (width * height - top * width) = width * height by omega] at h

/-! ### The largest region -/

/-- The first of the largest sizes below `n`. -/
structure FirstLargest (sizes : List ℕ) (n body : ℕ) : Prop where
  lt : body < n
  largest : ∀ i < n, sizes.getD i 0 ≤ sizes.getD body 0
  first : ∀ i < body, sizes.getD i 0 < sizes.getD body 0

theorem foldl_largest {sizes : List ℕ} (n : ℕ) {start body : ℕ}
    (h : FirstLargest sizes start body) :
    FirstLargest sizes (start + n) ((List.range' start n).foldl
      (fun body i => if sizes.getD body 0 < sizes.getD i 0 then i else body) body) := by
  induction n generalizing start body with
  | zero => exact h
  | succ n ih =>
      rw [List.range'_succ, List.foldl_cons, show start + (n + 1) = start + 1 + n by omega]
      refine ih ?_
      have hlt := h.lt
      split
      · rename_i hlarger
        refine ⟨Nat.lt_succ_self start, fun i hi => ?_, fun i hi => ?_⟩
        · rcases Nat.lt_succ_iff_lt_or_eq.mp hi with hi | rfl
          · have hle := h.largest i hi
            omega
          · exact le_refl _
        · have hle := h.largest i hi
          omega
      · rename_i hsmaller
        refine ⟨by omega, fun i hi => ?_, h.first⟩
        rcases Nat.lt_succ_iff_lt_or_eq.mp hi with hi | rfl
        · exact h.largest i hi
        · omega

theorem largest_first {sizes : List ℕ} (h : sizes ≠ []) :
    FirstLargest sizes sizes.length (largest sizes) := by
  have hpos := List.length_pos_of_ne_nil h
  have hstart : FirstLargest sizes 1 0 := by
    refine ⟨Nat.zero_lt_one, fun i hi => ?_, fun i hi => absurd hi (Nat.not_lt_zero i)⟩
    rw [Nat.lt_one_iff.mp hi]
  have hfold := foldl_largest (sizes.length - 1) hstart
  rwa [show 1 + (sizes.length - 1) = sizes.length by omega] at hfold

/-- The body: of the largest regions of solid texels, the one that starts first. -/
structure IsBody (alpha : List ℤ) (top width height body : ℕ) : Prop where
  rows : InRows top width height body
  solid : solid alpha body = true
  largest : ∀ t, InRows top width height t → LeonLayerMask.solid alpha t = true →
    regionSize (texelGraph (LeonLayerMask.solid alpha) top width height) t ≤
      regionSize (texelGraph (LeonLayerMask.solid alpha) top width height) body
  first : ∀ t, InRows top width height t → LeonLayerMask.solid alpha t = true → t < body →
    regionSize (texelGraph (LeonLayerMask.solid alpha) top width height) t <
      regionSize (texelGraph (LeonLayerMask.solid alpha) top width height) body

theorem regionSize_congr {G : SimpleGraph ℕ} {x t : ℕ} (h : G.Reachable x t) :
    regionSize G t = regionSize G x := by
  unfold regionSize
  congr 1
  ext v
  exact ⟨fun hv => h.trans hv, fun hv => h.symm.trans hv⟩

namespace Labelled

variable {r : Regions} {roots : List ℕ}

/-- The root of the region of a solid texel. -/
theorem root (h : Labelled (solid alpha) top width height r (width * height) roots) {t : ℕ}
    (ht : InRows top width height t) (hsolid : solid alpha t = true) :
    ∃ i x, r.label t = some i ∧ roots[i]? = some x ∧
      (texelGraph (solid alpha) top width height).Reachable x t := by
  cases hlabel : r.label t with
  | none => exact absurd hlabel (h.done t ht hsolid ht.2)
  | some i =>
      obtain ⟨x, hx, hreach⟩ := (h.label t i).mp hlabel
      exact ⟨i, x, rfl, hx, hreach⟩

theorem size_getD (h : Labelled (solid alpha) top width height r (width * height) roots)
    {i x : ℕ} (hx : roots[i]? = some x) :
    r.regionSizes.getD i 0 = regionSize (texelGraph (solid alpha) top width height) x := by
  rw [h.sizes, List.getD_eq_getElem?_getD, List.getElem?_map, hx]
  rfl

/-- The root with the label that `largest` takes is the body. -/
theorem body (h : Labelled (solid alpha) top width height r (width * height) roots)
    (hne : r.regionSizes ≠ []) :
    ∃ x, roots[largest r.regionSizes]? = some x ∧ IsBody alpha top width height x := by
  have hfirst := largest_first hne
  have hlen : r.regionSizes.length = roots.length := by
    rw [h.sizes, List.length_map]
  obtain ⟨x, hx⟩ : ∃ x, roots[largest r.regionSizes]? = some x :=
    ⟨_, List.getElem?_eq_getElem (hlen ▸ hfirst.lt)⟩
  obtain ⟨_, hrows, hsolid⟩ := h.kept x (List.mem_of_getElem? hx)
  refine ⟨x, hx, hrows, hsolid, fun t ht hsolid => ?_, fun t ht hsolid hlt => ?_⟩
  · obtain ⟨i, y, _, hy, hreach⟩ := h.root ht hsolid
    obtain ⟨hi, _⟩ := List.getElem?_eq_some_iff.mp hy
    have hle := hfirst.largest i (hlen ▸ hi)
    rwa [h.size_getD hy, h.size_getD hx, ← regionSize_congr hreach] at hle
  · obtain ⟨i, y, _, hy, hreach⟩ := h.root ht hsolid
    have hyx : y < x := Nat.lt_of_le_of_lt (h.least y (List.mem_of_getElem? hy) t hreach) hlt
    -- the roots are in order, and so the region has the smaller label
    have hi : i < largest r.regionSizes := by
      by_contra hge
      rcases Nat.lt_or_eq_of_le (Nat.le_of_not_lt hge) with hgt | heq
      · obtain ⟨hxlt, hxget⟩ := List.getElem?_eq_some_iff.mp hx
        obtain ⟨hylt, hyget⟩ := List.getElem?_eq_some_iff.mp hy
        have horder := List.pairwise_iff_getElem.mp h.sorted _ _ hxlt hylt hgt
        omega
      · rw [heq, hy] at hx
        have hsame := Option.some.inj hx
        omega
    have hltsize := hfirst.first i hi
    rwa [h.size_getD hy, h.size_getD hx, ← regionSize_congr hreach] at hltsize

end Labelled

end Regions

/-! ## The halo -/

section Halo

variable {alpha : List ℤ} {top width height : ℕ} {r : Regions} {roots : List ℕ}

/-- The solid texels of the rows, in order. -/
noncomputable def solidTexels (alpha : List ℤ) (top width height : ℕ) : List ℕ :=
  (List.range' (top * width) (width * height - top * width)).filter (solid alpha)

theorem mem_solidTexels {t : ℕ} :
    t ∈ solidTexels alpha top width height ↔ InRows top width height t ∧ solid alpha t = true := by
  unfold solidTexels InRows
  rw [List.mem_filter, List.mem_range'_1]
  constructor
  · rintro ⟨⟨hle, hlt⟩, hsolid⟩
    exact ⟨⟨hle, by omega⟩, hsolid⟩
  · rintro ⟨⟨hle, hlt⟩, hsolid⟩
    exact ⟨⟨hle, by omega⟩, hsolid⟩

theorem visible_of_solid {t : ℕ} (h : solid alpha t = true) : visible alpha t = true := by
  unfold solid visible solidAlpha at *
  simp only [Bool.not_eq_true', decide_eq_false_iff_not] at *
  omega

/-- The solid texels are those with a label. -/
theorem Labelled.isSome (h : Labelled (solid alpha) top width height r (width * height) roots)
    {t : ℕ} (ht : InRows top width height t) : (r.label t).isSome = solid alpha t := by
  cases hsolid : solid alpha t with
  | true =>
      obtain ⟨i, x, hlabel, _⟩ := h.root ht hsolid
      rw [hlabel]
      rfl
  | false =>
      cases hlabel : r.label t with
      | none => rfl
      | some i =>
          obtain ⟨x, hx, hreach⟩ := (h.label t i).mp hlabel
          obtain ⟨_, hkept⟩ := h.kept x (List.mem_of_getElem? hx)
          rw [(texelGraph_kept hreach hkept).2] at hsolid
          cases hsolid

theorem growHalo_flooded (h : Labelled (solid alpha) top width height r (width * height) roots) :
    ∃ flood, growHalo alpha top width height r.label = flood.label ∧
      Flood.Flooded (texelGraph (visible alpha) top width height) r.label
        (solidTexels alpha top width height) flood := by
  have hqueue : (List.range' (top * width) (width * height - top * width)).filter
      (fun t => (r.label t).isSome) = solidTexels alpha top width height := by
    refine List.filter_congr fun t ht => ?_
    obtain ⟨hle, hlt⟩ := List.mem_range'_1.mp ht
    exact h.isSome ⟨hle, by omega⟩
  refine ⟨Flood.run (neighbours top width height) (visible alpha) id (width * height)
    ⟨r.label, [], solidTexels alpha top width height⟩, ?_, texelGraph_flooded ?_ ?_ ?_ ?_⟩
  · unfold growHalo
    simp only [hqueue]
  · exact List.Nodup.filter _ List.nodup_range'
  · intro s hs
    obtain ⟨hrows, hsolid⟩ := mem_solidTexels.mp hs
    exact ⟨hrows, visible_of_solid hsolid⟩
  · intro s hs
    obtain ⟨hrows, hsolid⟩ := mem_solidTexels.mp hs
    refine ⟨?_, rfl⟩
    obtain ⟨i, x, hlabel, _⟩ := h.root hrows hsolid
    rw [hlabel]
    exact Option.some_ne_none i
  · intro t _
    cases hlabel : r.label t with
    | none => exact .inr rfl
    | some i =>
        obtain ⟨x, hx, hreach⟩ := (h.label t i).mp hlabel
        obtain ⟨_, hkept⟩ := h.kept x (List.mem_of_getElem? hx)
        exact .inl (mem_solidTexels.mpr (texelGraph_kept hreach hkept))

end Halo

/-! ## The mask -/

section Mask

variable {alpha : List ℤ} {top width height : ℕ}

/-- The mask with its body: the other regions are arm, and a fainter texel goes with a nearest solid
one, along visible texels. What no solid texel reaches is not arm. -/
structure IsMask (alpha : List ℤ) (top width height body : ℕ) (arm : List Bool) : Prop where
  region : ∀ t, InRows top width height t → solid alpha t = true →
    (arm.getD t false = true ↔ ¬ (texelGraph (solid alpha) top width height).Reachable body t)
  halo : ∀ t, Flood.Reached (texelGraph (visible alpha) top width height)
      (solidTexels alpha top width height) t →
    ∃ s, Flood.Nearest (texelGraph (visible alpha) top width height)
      (solidTexels alpha top width height) s t ∧ arm.getD t false = arm.getD s false
  clear : ∀ t, ¬ Flood.Reached (texelGraph (visible alpha) top width height)
      (solidTexels alpha top width height) t → arm.getD t false = false

theorem firstRowAtOrBelow_le (limit : K) (height : ℕ) (alignment : PhotoAlignment K) :
    firstRowAtOrBelow limit height alignment ≤ height := by
  unfold firstRowAtOrBelow
  cases hfind : (List.range height).find? fun row => decide (limit ≤ designY row alignment) with
  | none => exact le_refl _
  | some row => exact (List.mem_range.mp (List.mem_of_find?_eq_some hfind)).le

theorem getD_map_range {size t : ℕ} (f : ℕ → Bool) :
    ((List.range size).map f).getD t false = (decide (t < size) && f t) := by
  rw [List.getD_eq_getElem?_getD, List.getElem?_map]
  by_cases ht : t < size
  · rw [List.getElem?_range ht]
    simp [ht]
  · rw [List.getElem?_eq_none (by simpa using ht)]
    simp [ht]

/-- What the mask says of a texel once the halo is grown. -/
theorem isMask {r : Regions} {roots : List ℕ} {body : ℕ}
    (h : Labelled (solid alpha) top width height r (width * height) roots)
    (hbody : roots[largest r.regionSizes]? = some body) :
    IsMask alpha top width height body ((List.range (width * height)).map fun t =>
      decide (top * width ≤ t) && (growHalo alpha top width height r.label t).isSome &&
        decide (growHalo alpha top width height r.label t ≠ some (largest r.regionSizes))) := by
  obtain ⟨flood, hgrow, hflood⟩ := growHalo_flooded h
  have hkept : ∀ s ∈ solidTexels alpha top width height,
      InRows top width height s ∧ visible alpha s = true := by
    intro s hs
    obtain ⟨hrows, hsolid⟩ := mem_solidTexels.mp hs
    exact ⟨hrows, visible_of_solid hsolid⟩
  rw [hgrow]
  -- in the rows, the mask compares the labels
  have harm : ∀ t, InRows top width height t → ((List.range (width * height)).map fun t =>
      decide (top * width ≤ t) && (flood.label t).isSome &&
        decide (flood.label t ≠ some (largest r.regionSizes))).getD t false =
      ((flood.label t).isSome && decide (flood.label t ≠ some (largest r.regionSizes))) := by
    intro t ht
    rw [getD_map_range]
    simp [ht.1, ht.2]
  constructor
  · intro t ht hsolid
    have hmem := mem_solidTexels.mpr ⟨ht, hsolid⟩
    obtain ⟨s, hs, hlabel⟩ := hflood.nearest t ⟨t, hmem, .refl t⟩
    rw [hs.eq_self hmem] at hlabel
    obtain ⟨i, x, hi, hx, hreach⟩ := h.root ht hsolid
    rw [harm t ht, hlabel, hi]
    simp only [Option.isSome_some, Bool.true_and, decide_eq_true_eq, ne_eq, Option.some.injEq]
    refine not_congr ⟨?_, fun hbt => ?_⟩
    · rintro rfl
      rw [hbody] at hx
      rwa [Option.some.inj hx]
    · have hlabel' := (h.label t (largest r.regionSizes)).mpr ⟨body, hbody, hbt⟩
      rw [hi] at hlabel'
      exact Option.some.inj hlabel'
  · intro t ht
    obtain ⟨s, hs, hlabel⟩ := hflood.nearest t ht
    have hrows := (texelGraph_reached hkept ht).1
    obtain ⟨s', hs', hlabel'⟩ := hflood.nearest s ⟨s, hs.source, .refl s⟩
    rw [hs'.eq_self hs.source] at hlabel'
    refine ⟨s, hs, ?_⟩
    rw [harm t hrows, harm s (mem_solidTexels.mp hs.source).1, hlabel, hlabel']
  · intro t ht
    rw [getD_map_range, hflood.outside t ht]
    cases hlabel : r.label t with
    | none => simp
    | some i =>
        -- a label means a solid texel, which reaches itself
        obtain ⟨x, hx, hreach⟩ := (h.label t i).mp hlabel
        obtain ⟨_, hkept'⟩ := h.kept x (List.mem_of_getElem? hx)
        have hmem := mem_solidTexels.mpr (texelGraph_kept hreach hkept')
        exact absurd ⟨t, hmem, .refl t⟩ ht

/-- The first row that the arm layer may draw. -/
def armTop (height : ℕ) (alignment : PhotoAlignment K) : ℕ :=
  firstRowAtOrBelow (armLayerTopY - armLayerOverlap) height alignment

/-- **The mask finds the arms.** On a texture of the right size, either no texel of the rows is
solid and nothing is arm, or there is a body: the first of the largest regions. A solid texel is arm
just where it is not connected to the body, and a fainter one goes with a nearest solid texel. -/
theorem armTexels_mask (alpha : List ℤ) {width height : ℕ} (alignment : PhotoAlignment K)
    (hsize : alpha.length = width * height) :
    ∃ arm, armTexels alpha width height alignment = .ok arm ∧ arm.length = width * height ∧
      ((solidTexels alpha (armTop height alignment) width height = [] ∧
          ∀ t, arm.getD t false = false) ∨
        ∃ body, IsBody alpha (armTop height alignment) width height body ∧
          IsMask alpha (armTop height alignment) width height body arm) := by
  generalize htop : armTop height alignment = top
  unfold armTop at htop
  have hle : top ≤ height := htop ▸ firstRowAtOrBelow_le _ height alignment
  obtain ⟨roots, h⟩ : ∃ roots, Labelled (solid alpha) top width height
      (labelRegions alpha top width height) (width * height) roots := labelRegions_labelled hle
  unfold armTexels
  simp only [hsize, ne_eq, not_true_eq_false, if_false, htop]
  by_cases hempty : (labelRegions alpha top width height).regionSizes = []
  · -- no region: nothing is solid, and the mask is empty
    rw [hempty, List.isEmpty_nil, if_pos rfl]
    refine ⟨_, rfl, List.length_replicate, .inl ⟨?_, fun t => ?_⟩⟩
    · refine List.eq_nil_iff_forall_not_mem.mpr fun t ht => ?_
      obtain ⟨hrows, hsolid⟩ := mem_solidTexels.mp ht
      obtain ⟨i, x, _, hx, _⟩ := h.root hrows hsolid
      have hroots := h.sizes
      rw [hempty] at hroots
      rw [List.map_eq_nil_iff.mp hroots.symm] at hx
      cases hx
    · rw [List.getD_eq_getElem?_getD]
      by_cases ht : t < width * height
      · rw [List.getElem?_replicate_of_lt ht]
        rfl
      · rw [List.getElem?_eq_none (by simpa using ht)]
        rfl
  · -- the largest region is the body, and the mask is the rest with its halo
    rw [if_neg (by simpa using hempty)]
    obtain ⟨body, hget, hbody⟩ := h.body hempty
    refine ⟨_, rfl, ?_, .inr ⟨body, hbody, isMask h hget⟩⟩
    rw [List.length_map, List.length_range]

end Mask

/-! ## The layers -/

section Layers

variable {alpha : List ℤ} {top width height : ℕ}

/-- There is one body. -/
theorem IsBody.unique {x y : ℕ} (hx : IsBody alpha top width height x)
    (hy : IsBody alpha top width height y) : x = y := by
  rcases Nat.lt_trichotomy x y with hlt | heq | hlt
  · have hsmaller := hy.first x hx.rows hx.solid hlt
    have hle := hx.largest y hy.rows hy.solid
    omega
  · exact heq
  · have hsmaller := hx.first y hy.rows hy.solid hlt
    have hle := hy.largest x hx.rows hx.solid
    omega

/-- What is arm lies in the rows. -/
theorem IsMask.inRows {body t : ℕ} {arm : List Bool} (h : IsMask alpha top width height body arm)
    (ht : arm.getD t false = true) : InRows top width height t := by
  by_contra hrows
  have hclear := h.clear t fun hreached => hrows (texelGraph_reached (fun s hs => by
    obtain ⟨hin, hsolid⟩ := mem_solidTexels.mp hs
    exact ⟨hin, visible_of_solid hsolid⟩) hreached).1
  rw [ht] at hclear
  cases hclear

variable [IsStrictOrderedRing K]

theorem fromLandmarks_scale {crownY soleY centreX : K} {alignment : PhotoAlignment K}
    (h : PhotoAlignment.fromLandmarks crownY soleY centreX = .ok alignment) :
    0 < alignment.scale := by
  unfold PhotoAlignment.fromLandmarks at h
  simp only at h
  split at h
  · cases h
  · rename_i hspan
    cases h
    have hpos : 0 < soleY - crownY := by
      linarith [not_le.mp hspan]
    exact div_pos hpos (by norm_num)

theorem designY_mono {alignment : PhotoAlignment K} (hscale : 0 < alignment.scale) {m n : ℕ}
    (hmn : m ≤ n) : designY m alignment ≤ designY n alignment := by
  unfold designY
  have hcast : (m : K) ≤ n := Nat.cast_le.mpr hmn
  exact div_le_div_of_nonneg_right (by linarith) hscale.le

/-- The rows from `armTop` on lie at or below the upper end of the overlap band. -/
theorem armTop_designY {alignment : PhotoAlignment K} (hscale : 0 < alignment.scale) {t : ℕ}
    (ht : InRows (armTop height alignment) width height t) :
    armLayerTopY - armLayerOverlap ≤ designY (t / width) alignment := by
  obtain ⟨hle, hlt⟩ := (inRows_iff ht.width_pos t).mp ht
  unfold armTop firstRowAtOrBelow at hle
  cases hfind : (List.range height).find? fun row =>
      decide (armLayerTopY - armLayerOverlap ≤ designY row alignment) with
  | none =>
      rw [hfind, Option.getD_none] at hle
      omega
  | some row =>
      rw [hfind, Option.getD_some] at hle
      have hrow : armLayerTopY - armLayerOverlap ≤ designY row alignment := by
        simpa using List.find?_some hfind
      exact hrow.trans (designY_mono hscale hle)

omit [IsStrictOrderedRing K] in
theorem layerOf_getElem? {source : List (BitVec 32)} {arm : List Bool}
    {alignment : PhotoAlignment K} {layer : LeonMeshRig.Layer} {t : ℕ} {pixel : BitVec 32}
    (h : source[t]? = some pixel) :
    (ProductionLeonTexture.layerOf source width arm alignment layer)[t]? =
      some (if covers layer arm t width alignment then pixel else 0) := by
  unfold ProductionLeonTexture.layerOf
  rw [List.getElem?_mapIdx, h]
  rfl

/-- What the two layers of a texture draw: together all of it, twice only in the overlap band, and
of the solid pixels the regions other than the body in the arm layer. -/
structure IsSplit (pixels : List (BitVec 32)) (width height : ℕ) (alignment : PhotoAlignment K)
    (bodyLayer armLayer : List (BitVec 32)) : Prop where
  whole : ∀ (t : ℕ) (pixel : BitVec 32), pixels[t]? = some pixel →
    bodyLayer[t]? = some pixel ∨ armLayer[t]? = some pixel
  clear : ∀ (t : ℕ) (pixel : BitVec 32), pixels[t]? = some pixel →
    (bodyLayer[t]? = some pixel ∨ bodyLayer[t]? = some 0) ∧
    (armLayer[t]? = some pixel ∨ armLayer[t]? = some 0)
  overlap : ∀ (t : ℕ) (pixel : BitVec 32), pixels[t]? = some pixel → pixel ≠ 0 →
    bodyLayer[t]? = some pixel → armLayer[t]? = some pixel →
    armLayerTopY - armLayerOverlap ≤ designY (t / width) alignment ∧
      designY (t / width) alignment < armLayerTopY
  regions : ∀ body, IsBody (ProductionLeonTexture.alphaOf pixels) (armTop height alignment) width
      height body →
    ∀ (t : ℕ) (pixel : BitVec 32), pixels[t]? = some pixel →
      InRows (armTop height alignment) width height t →
      solid (ProductionLeonTexture.alphaOf pixels) t = true →
      (armLayer[t]? = some pixel ↔ ¬ (texelGraph (solid (ProductionLeonTexture.alphaOf pixels))
        (armTop height alignment) width height).Reachable body t) ∧
      (armLayerTopY ≤ designY (t / width) alignment →
        (bodyLayer[t]? = some pixel ↔ (texelGraph (solid (ProductionLeonTexture.alphaOf pixels))
          (armTop height alignment) width height).Reachable body t))

omit [Field K] [LinearOrder K] [IsStrictOrderedRing K] in
theorem solid_ne_zero {pixels : List (BitVec 32)} {t : ℕ} {pixel : BitVec 32}
    (h : pixels[t]? = some pixel)
    (hsolid : solid (ProductionLeonTexture.alphaOf pixels) t = true) : pixel ≠ 0 := by
  rintro rfl
  unfold solid alphaAt solidAlpha ProductionLeonTexture.alphaOf at hsolid
  rw [List.getD_eq_getElem?_getD, List.getElem?_map, h] at hsolid
  simp at hsolid

/-- A pixel that is not clear is drawn just where its layer covers it. -/
theorem some_ite_iff {c : Bool} {pixel : BitVec 32} (h : pixel ≠ 0) :
    some (if c then pixel else 0) = some pixel ↔ c = true := by
  cases c with
  | true => simp
  | false => simpa using h.symm

/-- **The layers redraw the texture**, aligned by its landmarks. -/
theorem split_layers {crownY soleY centreX : K} {alignment : PhotoAlignment K}
    (halign : PhotoAlignment.fromLandmarks crownY soleY centreX = .ok alignment)
    (pixels : List (BitVec 32)) {width height : ℕ} (hsize : pixels.length = width * height) :
    ∃ bodyLayer armLayer,
      ProductionLeonTexture.split pixels width height alignment = .ok (bodyLayer, armLayer) ∧
      IsSplit pixels width height alignment bodyLayer armLayer := by
  have hscale := fromLandmarks_scale halign
  have hlen : (ProductionLeonTexture.alphaOf pixels).length = width * height := by
    unfold ProductionLeonTexture.alphaOf
    rw [List.length_map, hsize]
  obtain ⟨arm, harm, _, hmask⟩ := armTexels_mask (ProductionLeonTexture.alphaOf pixels) alignment
    hlen
  have hrows : ∀ t, arm.getD t false = true → InRows (armTop height alignment) width height t := by
    intro t ht
    rcases hmask with ⟨_, hnone⟩ | ⟨body, _, hmask⟩
    · rw [hnone t] at ht
      cases ht
    · exact hmask.inRows ht
  have hsplit : ProductionLeonTexture.split pixels width height alignment =
      .ok (ProductionLeonTexture.layerOf pixels width arm alignment .body,
        ProductionLeonTexture.layerOf pixels width arm alignment .arms) := by
    unfold ProductionLeonTexture.split
    rw [harm]
    rfl
  refine ⟨_, _, hsplit, ?_, ?_, ?_, ?_⟩
  · intro t pixel hpixel
    rw [layerOf_getElem? hpixel, layerOf_getElem? hpixel]
    unfold covers
    cases arm.getD t false <;> simp
  · intro t pixel hpixel
    rw [layerOf_getElem? hpixel, layerOf_getElem? hpixel]
    constructor
    · cases covers .body arm t width alignment <;> simp
    · cases covers .arms arm t width alignment <;> simp
  · -- drawn twice: a texel of the mask that lies above the cut
    intro t pixel hpixel hpos hbody harms
    rw [layerOf_getElem? hpixel, some_ite_iff hpos] at hbody harms
    have ht : arm.getD t false = true := harms
    unfold covers at hbody
    refine ⟨armTop_designY hscale (hrows t ht), ?_⟩
    simp only [ht, Bool.not_true, Bool.false_or] at hbody
    exact of_decide_eq_true hbody
  · -- below the cut a solid pixel goes with its region
    intro body hbody t pixel hpixel ht hsolid
    have hpos := solid_ne_zero hpixel hsolid
    rcases hmask with ⟨hempty, _⟩ | ⟨body', hbody', hmask⟩
    · have hmem := mem_solidTexels.mpr ⟨ht, hsolid⟩
      rw [hempty] at hmem
      cases hmem
    rw [hbody.unique hbody', layerOf_getElem? hpixel, layerOf_getElem? hpixel, some_ite_iff hpos,
      some_ite_iff hpos]
    have hregion := hmask.region t ht hsolid
    refine ⟨hregion, fun hcut => ?_⟩
    unfold covers
    rw [← not_iff_not, ← hregion]
    simp [hcut]

/-- A small texture: an arm with a faint hand, and the body. -/
def smallTexture : List (BitVec 32) :=
  List.replicate 12 0xFF000000#32 ++
    [0xFF000000#32, 0#32, 0xFF000000#32, 0xFF000000#32,
     0xFF000000#32, 0#32, 0xFF000000#32, 0xFF000000#32,
     0x05000000#32, 0#32, 0xFF000000#32, 0xFF000000#32] ++
    [0#32, 0#32, 0xFF000000#32, 0xFF000000#32, 0#32, 0#32, 0xFF000000#32, 0xFF000000#32]

def smallAlignment : PhotoAlignment ℚ :=
  ⟨1 / 100, 2 - 192 / 100, 0⟩

theorem small_texture_mask :
    ∃ arm, armTexels (ProductionLeonTexture.alphaOf smallTexture) 4 8 smallAlignment = .ok arm ∧
      arm.length = 4 * 8 ∧
      ((solidTexels (ProductionLeonTexture.alphaOf smallTexture) (armTop 8 smallAlignment) 4 8 =
          [] ∧ ∀ t, arm.getD t false = false) ∨
        ∃ body, IsBody (ProductionLeonTexture.alphaOf smallTexture) (armTop 8 smallAlignment) 4 8
            body ∧
          IsMask (ProductionLeonTexture.alphaOf smallTexture) (armTop 8 smallAlignment) 4 8 body
            arm) :=
  armTexels_mask _ smallAlignment rfl

/-- The arm is the column on the left, with its faint end. -/
example : armTexels (ProductionLeonTexture.alphaOf smallTexture) 4 8 smallAlignment =
    .ok ((List.range 32).map fun t => decide (t = 12 ∨ t = 16 ∨ t = 20)) := by
  decide +kernel

theorem small_texture_split :
    ∃ bodyLayer armLayer, ProductionLeonTexture.split smallTexture 4 8 smallAlignment =
        .ok (bodyLayer, armLayer) ∧
      IsSplit smallTexture 4 8 smallAlignment bodyLayer armLayer := by
  have halign : PhotoAlignment.fromLandmarks (44 / 100 : ℚ) (732 / 100) 2 = .ok smallAlignment := by
    unfold PhotoAlignment.fromLandmarks smallAlignment LeonRig.designW
    norm_num
  exact split_layers halign smallTexture rfl

end Layers

end HumanGate
