import Mathlib
import HumanGate.Lib.Outcome
import HumanGate.Model.MeshRig

set_option autoImplicit false

/-! # The skin of the mesh

Every vertex gets weights that are not negative and add up to 1, whatever its place and layer, so
nothing throws and the rest pose leaves the mesh where it is. Above the armpit both layers are bound
alike; from there down the body has no weight on an arm and the arms have none on spine or leg.
-/

namespace HumanGate

open Lib Lib.Weights

namespace LeonMeshRig

variable {K : Type} [Field K] [LinearOrder K] [IsStrictOrderedRing K]
variable {t x y : K} {u v w : VertexWeights K} {S : MeshBone → Prop} {left : Bool}

/-! ## The blends -/

omit [IsStrictOrderedRing K] in
theorem normalized_eq (h : 0 < total (clip w)) : normalized w = .ok (shares w) := by
  have htotal : w.foldl (fun total p => total + max 0 p.2) 0 = total (clip w) := by
    rw [foldl_add (fun p : MeshBone × K => max 0 p.2) w 0, zero_add, total, clip, List.map_map]
    rfl
  unfold normalized
  simp only [htotal]
  rw [if_neg (not_not.mpr h)]
  rfl

omit [IsStrictOrderedRing K] in
theorem smooth_of_mem (h0 : ¬ t ≤ 0) (h1 : ¬ 1 ≤ t) : smooth t = t * t * (3 - 2 * t) := by
  unfold smooth
  rw [if_neg h0, if_neg h1]

theorem smooth_nonneg (t : K) : 0 ≤ smooth t := by
  by_cases h0 : t ≤ 0
  · simp [smooth, h0]
  · by_cases h1 : 1 ≤ t
    · simp [smooth, h0, h1]
    · rw [smooth_of_mem h0 h1]
      push Not at h0 h1
      have hfactor : 0 < 3 - 2 * t := by linarith
      positivity

theorem smooth_le_one (t : K) : smooth t ≤ 1 := by
  by_cases h0 : t ≤ 0
  · simp [smooth, h0]
  · by_cases h1 : 1 ≤ t
    · simp [smooth, h0, h1]
    · rw [smooth_of_mem h0 h1]
      push Not at h0 h1
      -- what is left to 1 is `(1 - t)² (1 + 2t)`
      have hrest : 1 - t * t * (3 - 2 * t) = (1 - t) * (1 - t) * (1 + 2 * t) := by ring
      have hleft : 0 ≤ (1 - t) * (1 - t) * (1 + 2 * t) :=
        mul_nonneg (mul_self_nonneg _) (by linarith)
      linarith

/-- The weights are made, are a partition, and bind to bones of `S` only. -/
def Spreads (S : MeshBone → Prop) (r : Except MeshError (VertexWeights K)) : Prop :=
  ∃ w, r = .ok w ∧ Partition w ∧ Within S w

omit [LinearOrder K] [IsStrictOrderedRing K] in
theorem within_one {a : MeshBone} (ha : S a) : Within S (one a : VertexWeights K) := by
  intro p hp
  rw [List.mem_singleton.mp hp]
  exact ha

theorem spreads_one {a : MeshBone} (ha : S a) : Spreads S (.ok (one a : VertexWeights K)) :=
  ⟨one a, rfl, Partition.single a, within_one ha⟩

theorem spreads_of_partition (hw : Partition w) (hS : Within S w) : Spreads S (normalized w) := by
  have hpos : 0 < total (clip w) := by
    rw [clip_of_nonneg hw.nonneg, hw.total_eq_one]
    exact one_pos
  exact ⟨w, by rw [normalized_eq hpos, hw.shares_eq], hw, hS⟩

theorem spreads_blend (hu : Partition u) (hv : Partition v) (huS : Within S u) (hvS : Within S v)
    (ht0 : 0 ≤ t) (ht1 : t ≤ 1) : Spreads S (blend u (1 - t) v t) :=
  spreads_of_partition (hu.mix hv (sub_nonneg.mpr ht1) ht0 (sub_add_cancel 1 t)) (huS.mix hvS)

theorem spreads_two {a b : MeshBone} (ha : S a) (hb : S b) (s : K) :
    Spreads S (two a (1 - smooth s) b (smooth s)) := by
  have hw : Partition [(a, 1 - smooth s), (b, smooth s)] :=
    { nonneg := by
        intro p hp
        rcases List.mem_pair.mp hp with rfl | rfl
        · exact sub_nonneg.mpr (smooth_le_one s)
        · exact smooth_nonneg s
      total_eq_one := by simp }
  refine spreads_of_partition hw ?_
  intro p hp
  rcases List.mem_pair.mp hp with rfl | rfl
  · exact ha
  · exact hb

/-- The middle weight is at least a half, which keeps the total positive. -/
theorem spreads_three {a b c : MeshBone} (ha : S a) (hb : S b) (hc : S c) (ht0 : 0.5 ≤ t)
    (ht1 : t ≤ 1) : Spreads S (three a ((1 - t) * 0.35) b (1 - |t - 0.5|) c (t * 0.65)) := by
  have hhead : 0 ≤ (1 - t) * 0.35 := mul_nonneg (sub_nonneg.mpr ht1) (by norm_num)
  have hmid : 0 < 1 - |t - 0.5| := by
    rw [abs_of_nonneg (sub_nonneg.mpr ht0)]
    norm_num at ht0 ⊢
    linarith
  have hlast : 0 ≤ t * 0.65 := mul_nonneg (le_trans (by norm_num) ht0) (by norm_num)
  have hnonneg : ∀ p ∈ [(a, (1 - t) * 0.35), (b, 1 - |t - 0.5|), (c, t * 0.65)], 0 ≤ p.2 := by
    simp only [List.mem_cons, List.not_mem_nil, or_false]
    rintro p (rfl | rfl | rfl)
    · exact hhead
    · exact hmid.le
    · exact hlast
  have hpos := total_clip_pos hnonneg (p := (b, 1 - |t - 0.5|)) (by simp) hmid
  refine ⟨_, normalized_eq hpos, partition_shares hpos, Within.shares ?_⟩
  simp only [Within, List.mem_cons, List.not_mem_nil, or_false]
  rintro p (rfl | rfl | rfl)
  · exact ha
  · exact hb
  · exact hc

/-! ## The chains -/

/-- The bones of the hanging arms. -/
def armChain : List MeshBone :=
  [.armL, .forearmL, .handL, .armR, .forearmR, .handR]

/-- The bones below the chest. -/
def legChain : List MeshBone :=
  [.spine, .hips, .thighL, .shinL, .footL, .thighR, .shinR, .footR]

theorem spreads_centerWeightsFor (y : K) :
    Spreads (fun b => b ∉ armChain) (centerWeightsFor y) := by
  unfold centerWeightsFor
  split
  · exact spreads_one (by decide)
  split
  · exact spreads_two (by decide) (by decide) _
  · exact spreads_two (by decide) (by decide) _

theorem spreads_legWeightsFor (y : K) (left : Bool) :
    Spreads (fun b => b ∉ armChain) (legWeightsFor y left) := by
  unfold legWeightsFor
  extract_lets thigh shin foot
  have hthigh : thigh ∉ armChain := by simp only [thigh]; cases left <;> decide
  have hshin : shin ∉ armChain := by simp only [shin]; cases left <;> decide
  have hfoot : foot ∉ armChain := by simp only [foot]; cases left <;> decide
  split
  · exact spreads_two (by decide) hthigh _
  split
  · exact spreads_two hthigh hshin _
  split
  · exact spreads_two hshin hfoot _
  · exact spreads_one (by decide)

theorem spreads_sideWeightsFor (y : K) (left : Bool) :
    Spreads (fun b => b ∉ legChain) (sideWeightsFor y left) := by
  unfold sideWeightsFor
  extract_lets arm forearm hand
  have harm : arm ∉ legChain := by simp only [arm]; cases left <;> decide
  have hforearm : forearm ∉ legChain := by simp only [forearm]; cases left <;> decide
  have hhand : hand ∉ legChain := by simp only [hand]; cases left <;> decide
  -- shoulder, upper arm, elbow, forearm, wrist, hand
  split
  · exact spreads_two (by decide) harm _
  split
  · exact spreads_one harm
  split
  · exact spreads_two harm hforearm _
  split
  · exact spreads_one hforearm
  split
  · exact spreads_two hforearm hhand _
  · exact spreads_one hhand

theorem spreads_armSideWeightsFor (y : K) (left : Bool) :
    Spreads (fun b => b ∉ legChain) (armSideWeightsFor y left) := by
  unfold armSideWeightsFor
  split
  · exact spreads_sideWeightsFor y left
  split
  · exact spreads_one (by decide)
  · obtain ⟨limb, hlimb, hpart, hwithin⟩ := spreads_sideWeightsFor y left
    have hroot : Within (fun b => b ∉ legChain) (one .root : VertexWeights K) :=
      within_one (by decide)
    rw [hlimb]
    exact spreads_blend hpart (Partition.single _) hwithin hroot (smooth_nonneg _) (smooth_le_one _)

/-! ## The edge -/

omit [IsStrictOrderedRing K] in
/-- The loop stops at the first row that is not above `y`. -/
theorem seekRow_spec (y : K) (rows : List ℚ) (i : ℕ) (h : ∃ v ∈ rows, ¬ (v : K) < y) :
    ∃ k, ∃ hk : k < rows.length, seekRow y rows i = .ok (i + k) ∧ y ≤ (rows[k] : K) ∧
      ∀ j, ∀ hj : j < k, (rows[j] : K) < y := by
  induction rows generalizing i with
  | nil => simp at h
  | cons v rows ih =>
      by_cases hv : (v : K) < y
      · have hrest : ∃ v ∈ rows, ¬ (v : K) < y := by
          obtain ⟨v', hv', hnot⟩ := h
          rcases List.mem_cons.mp hv' with rfl | hmem
          · exact absurd hv hnot
          · exact ⟨v', hmem, hnot⟩
        obtain ⟨k, hk, hok, hle, hbefore⟩ := ih (i + 1) hrest
        refine ⟨k + 1, by simpa using hk, ?_, hle, ?_⟩
        · rw [seekRow, if_pos hv, hok]
          congr 1
          omega
        · intro j hj
          cases j with
          | zero => exact hv
          | succ j => exact hbefore j (by omega)
      · refine ⟨0, by simp, ?_, not_lt.mp hv, ?_⟩
        · rw [seekRow, if_neg hv]
          rfl
        · intro j hj
          omega

omit [LinearOrder K] [IsStrictOrderedRing K] in
theorem readAt_eq {table : List ℚ} {i : ℕ} (hi : i < table.length) :
    readAt table i = .ok (table[i] : K) := by
  rw [readAt, List.getElem?_eq_getElem hi]

theorem bodyEdgeWidths_bounds : ∀ v ∈ bodyEdgeWidths, 69.5 ≤ v ∧ v ≤ 93.25 := by
  decide +kernel

theorem bodyEdgeWidth_mem {i : ℕ} (hi : i < bodyEdgeWidths.length) :
    (69.5 : K) ≤ bodyEdgeWidths[i] ∧ (bodyEdgeWidths[i] : K) ≤ 93.25 := by
  obtain ⟨hlow, hhigh⟩ := bodyEdgeWidths_bounds _ (List.getElem_mem hi)
  have hlow' : ((69.5 : ℚ) : K) ≤ bodyEdgeWidths[i] := by exact_mod_cast hlow
  have hhigh' : (bodyEdgeWidths[i] : K) ≤ ((93.25 : ℚ) : K) := by exact_mod_cast hhigh
  norm_num at hlow' hhigh' ⊢
  exact ⟨hlow', hhigh'⟩

/-- A value between two others stays within their bounds. -/
theorem between {lo hi a b : K} (ha : lo ≤ a ∧ a ≤ hi) (hb : lo ≤ b ∧ b ≤ hi) (ht0 : 0 ≤ t)
    (ht1 : t ≤ 1) : lo ≤ a + t * (b - a) ∧ a + t * (b - a) ≤ hi := by
  have hsplit : a + t * (b - a) = (1 - t) * a + t * b := by ring
  have hrest : 0 ≤ 1 - t := sub_nonneg.mpr ht1
  rw [hsplit]
  constructor
  · calc lo = (1 - t) * lo + t * lo := by ring
      _ ≤ (1 - t) * a + t * b := by gcongr; exacts [ha.1, hb.1]
  · calc (1 - t) * a + t * b ≤ (1 - t) * hi + t * hi := by gcongr; exacts [ha.2, hb.2]
      _ = hi := by ring

/-- The half-width is found at every row, between the least and the greatest of its table. -/
theorem bodyEdgeHalfWidth_spec (y : K) :
    ∃ edge, bodyEdgeHalfWidth y = .ok edge ∧ 69.5 ≤ edge ∧ edge ≤ 93.25 := by
  have hwidths : bodyEdgeWidths.length = 63 := by decide
  have hrows : bodyEdgeY.length = 63 := by decide
  unfold bodyEdgeHalfWidth
  simp (disch := omega) only [readAt_eq, bind, Except.bind, pure, Except.pure]
  split
  · exact ⟨_, rfl, bodyEdgeWidth_mem _⟩
  rename_i hfirst
  split
  · exact ⟨_, rfl, bodyEdgeWidth_mem _⟩
  rename_i hlast
  rw [not_le] at hfirst hlast
  -- the last row stops the loop at the latest
  obtain ⟨k, hk, hseek, hle, hbefore⟩ := seekRow_spec y (bodyEdgeY.drop 1) 1
    ⟨446, by decide, not_lt.mpr hlast.le⟩
  rw [List.length_drop] at hk
  rw [List.getElem_drop] at hle
  have hlt : (bodyEdgeY[k] : K) < y := by
    cases k with
    | zero => exact hfirst
    | succ j =>
        have hj := hbefore j (by omega)
        rw [List.getElem_drop] at hj
        simpa only [Nat.add_comm 1 j] using hj
  rw [hseek]
  simp (disch := omega) only [readAt_eq, Nat.add_sub_cancel_left]
  have hstep : (0 : K) < bodyEdgeY[1 + k] - bodyEdgeY[k] := sub_pos.mpr (hlt.trans_le hle)
  refine ⟨_, rfl, between (bodyEdgeWidth_mem _) (bodyEdgeWidth_mem _) ?_ ?_⟩
  · exact div_nonneg (sub_nonneg.mpr hlt.le) hstep.le
  · rw [div_le_one hstep]
    exact sub_le_sub_right hle _

/-! ## Every point -/

omit [IsStrictOrderedRing K] in
theorem Spreads.any {r : Except MeshError (VertexWeights K)} (h : Spreads S r) :
    ∃ w, r = .ok w ∧ Partition w := by
  obtain ⟨w, hok, hpart, _⟩ := h
  exact ⟨w, hok, hpart⟩

/-- From the end of the shared skin down, the body is bound to no arm. -/
theorem spreads_body (x : K) (hy : sharedSkinEndY ≤ y) :
    Spreads (fun b => b ∉ armChain) (weightsFor .body x y) := by
  have hlow : (205 : K) < sharedSkinEndY := by norm_num [sharedSkinEndY]
  unfold weightsFor
  rw [if_neg (by linarith), if_neg (by linarith)]
  simp only [if_pos hy]
  split
  · exact spreads_centerWeightsFor y
  · exact spreads_legWeightsFor y _

/-- From there down the arms are bound to neither spine nor leg. -/
theorem spreads_arms (x : K) (hy : sharedSkinEndY ≤ y) :
    Spreads (fun b => b ∉ legChain) (weightsFor .arms x y) := by
  have hlow : (205 : K) < sharedSkinEndY := by norm_num [sharedSkinEndY]
  unfold weightsFor
  rw [if_neg (by linarith), if_neg (by linarith)]
  simp only [if_pos hy]
  exact spreads_armSideWeightsFor y _

omit [IsStrictOrderedRing K] in
/-- Above it the layer is not looked at. -/
theorem weightsFor_shared (layer layer' : Layer) (x : K) (hy : y < sharedSkinEndY) :
    weightsFor layer x y = weightsFor layer' x y := by
  unfold weightsFor
  simp only [if_neg (not_le.mpr hy)]

/-- Between the two chains the skin is a blend of the one with the other. -/
theorem weightsFor_shared_partition (layer : Layer) (x : K) (hy : y < sharedSkinEndY) :
    ∃ w, weightsFor layer x y = .ok w ∧ Partition w := by
  unfold weightsFor
  split
  · exact (spreads_one (S := fun _ => True) trivial).any
  split
  · extract_lets t
    split
    · exact (spreads_two (S := fun _ => True) trivial trivial _).any
    · rename_i hhalf
      exact (spreads_three (S := fun _ => True) trivial trivial trivial (not_lt.mp hhalf)
        (smooth_le_one _)).any
  extract_lets side left
  rw [if_neg (not_le.mpr hy)]
  obtain ⟨edge, hedge, _, _⟩ := bodyEdgeHalfWidth_spec y
  obtain ⟨center, hcenter, hcpart⟩ := (spreads_centerWeightsFor y).any
  obtain ⟨limb, hlimb, hlpart⟩ := (spreads_sideWeightsFor y left).any
  rw [hedge, hcenter, hlimb]
  simp only [Bind.bind, Except.bind, pure, Except.pure]
  split
  · exact ⟨center, rfl, hcpart⟩
  split
  · exact ⟨limb, rfl, hlpart⟩
  · exact (spreads_blend (S := fun _ => True) hcpart hlpart (fun _ _ => trivial)
      (fun _ _ => trivial) (smooth_nonneg _) (smooth_le_one _)).any

/-- Every point of either layer is bound, by weights that are a partition. -/
theorem weightsFor_partition (layer : Layer) (x y : K) :
    ∃ w, weightsFor layer x y = .ok w ∧ Partition w := by
  by_cases hy : y < sharedSkinEndY
  · exact weightsFor_shared_partition layer x hy
  · cases layer with
    | body => exact (spreads_body x (not_lt.mp hy)).any
    | arms => exact (spreads_arms x (not_lt.mp hy)).any

/-! ## The rest pose -/

/-- A binding takes a vertex into the bone, and the rest transform takes it back out. -/
theorem Binding.new_inverse {name : String} {m : Mat2D K} {β : Binding K}
    (h : Binding.new name m = .ok β) (x y : K) :
    m.mapX (β.localX x y) (β.localY x y) = x ∧ m.mapY (β.localX x y) (β.localY x y) = y := by
  unfold Binding.new at h
  split at h
  · simp at h
  · rename_i hdet
    have hdet0 : m.det ≠ 0 := by
      intro hzero
      rw [hzero, abs_zero] at hdet
      exact hdet (by norm_num)
    have hinv : (m.a * m.d - m.b * m.c) * (1 / m.det) = 1 := mul_one_div_cancel hdet0
    obtain rfl := Except.ok.inj h
    simp only [Mat2D.mapX, Mat2D.mapY, Binding.localX, Binding.localY]
    constructor
    · linear_combination (x - m.tx) * hinv
    · linear_combination (y - m.ty) * hinv

omit [IsStrictOrderedRing K] in
theorem bindingsOf_ok {rig : MeshBone → Option (Mat2D K)} {β : MeshBone → Binding K}
    (h : bindingsOf rig = .ok β) (b : MeshBone) : binding rig b = .ok (β b) := by
  unfold bindingsOf at h
  -- one bone after another
  repeat obtain ⟨_, _, h⟩ := bind_ok h
  obtain rfl := Except.ok.inj h
  cases b <;> assumption

/-- Where the bone `b` carries the vertex `v` in a pose. -/
def carry (β : MeshBone → Binding K) (pose : MeshBone → Mat2D K) (v : K × K)
    (b : MeshBone) : K × K :=
  ((pose b).mapX ((β b).localX v.1 v.2) ((β b).localY v.1 v.2),
    (pose b).mapY ((β b).localX v.1 v.2) ((β b).localY v.1 v.2))

omit [LinearOrder K] [IsStrictOrderedRing K] in
/-- A vertex is drawn at the weighted mean of where its bones carry it. -/
theorem deform_eq (β : MeshBone → Binding K) (pose : MeshBone → Mat2D K) (v : K × K)
    (w : VertexWeights K) :
    deform β pose v w = (mean (fun b => (carry β pose v b).1) w,
      mean (fun b => (carry β pose v b).2) w) := by
  have hrun : ∀ (w : VertexWeights K) (acc : K × K),
      w.foldl (fun acc p => (acc.1 + (carry β pose v p.1).1 * p.2,
        acc.2 + (carry β pose v p.1).2 * p.2)) acc
        = (acc.1 + mean (fun b => (carry β pose v b).1) w,
          acc.2 + mean (fun b => (carry β pose v b).2) w) := by
    intro w
    induction w with
    | nil => intro acc; simp [mean]
    | cons p w ih =>
        intro acc
        rw [List.foldl_cons, ih]
        simp only [mean, List.map_cons, List.sum_cons, add_assoc]
  have hzero := hrun w (0, 0)
  rw [zero_add, zero_add] at hzero
  exact hzero

section Rest

variable {rig : MeshBone → Option (Mat2D K)} {β : MeshBone → Binding K} {pose : MeshBone → Mat2D K}

theorem carry_rest (hβ : bindingsOf rig = .ok β) (hrest : ∀ b, rig b = some (pose b)) (v : K × K)
    (b : MeshBone) : carry β pose v b = v := by
  have hb := bindingsOf_ok hβ b
  rw [binding, hrest b] at hb
  obtain ⟨hx, hy⟩ := Binding.new_inverse hb v.1 v.2
  exact Prod.ext hx hy

/-- At rest a vertex is where it was bound. -/
theorem deform_rest (hβ : bindingsOf rig = .ok β) (hrest : ∀ b, rig b = some (pose b)) (v : K × K)
    (hw : Partition w) : deform β pose v w = v := by
  have hx : mean (fun b => (carry β pose v b).1) w = v.1 :=
    hw.mean_eq_of_forall _ _ fun p _ => by rw [carry_rest hβ hrest]
  have hy : mean (fun b => (carry β pose v b).2) w = v.2 :=
    hw.mean_eq_of_forall _ _ fun p _ => by rw [carry_rest hβ hrest]
  rw [deform_eq, hx, hy]

end Rest

/-! ## The mesh -/

omit [IsStrictOrderedRing K] in
/-- What is drawn for a vertex, by the weights of its place. -/
theorem updateFromSolvedRig_getElem? {mesh : LeonMeshRig K} (pose : MeshBone → Mat2D K) {i : ℕ}
    {v : K × K} (hv : mesh.canonicalVertices[i]? = some v) :
    ∃ w, weightsFor mesh.layer v.1 v.2 = .ok w ∧
      (mesh.updateFromSolvedRig pose).deformedVertices[i]?
        = some (deform mesh.bindings pose v w) := by
  have hbound := mapM_ok mesh.bound
  obtain ⟨hi, rfl⟩ := List.getElem?_eq_some_iff.mp hv
  have hlen := hbound.length_eq
  refine ⟨mesh.weights[i], hbound.get hi (by omega), ?_⟩
  rw [updateFromSolvedRig, List.getElem?_zipWith, hv, List.getElem?_eq_getElem (by omega)]

/-- At rest the whole mesh is where it was bound. -/
theorem updateFromSolvedRig_rest {rig : MeshBone → Option (Mat2D K)} {mesh : LeonMeshRig K}
    {pose : MeshBone → Mat2D K} (hβ : bindingsOf rig = .ok mesh.bindings)
    (hrest : ∀ b, rig b = some (pose b)) :
    (mesh.updateFromSolvedRig pose).deformedVertices = mesh.canonicalVertices := by
  apply List.ext_getElem?
  intro i
  cases hv : mesh.canonicalVertices[i]? with
  | none =>
      rw [List.getElem?_eq_none_iff] at hv ⊢
      have hlen : (mesh.updateFromSolvedRig pose).deformedVertices.length
          = min mesh.canonicalVertices.length mesh.weights.length := List.length_zipWith
      omega
  | some v =>
      obtain ⟨w, hw, hdrawn⟩ := updateFromSolvedRig_getElem? pose hv
      obtain ⟨w', hw', hpart⟩ := weightsFor_partition mesh.layer v.1 v.2
      obtain rfl := Except.ok.inj (hw.symm.trans hw')
      rw [hdrawn, deform_rest hβ hrest v hpart]

/-! ## Making a mesh -/

/-- A rig of invertible bones is all that a mesh of sound measures needs: no vertex of it throws. -/
theorem create_ok {rig : MeshBone → Option (Mat2D K)} {β : MeshBone → Binding K}
    {manifest : MeshManifest K} {alignment : PhotoAlignment K} (hcols : 0 < manifest.cols)
    (hrows : 0 < manifest.rows) (hβ : bindingsOf rig = .ok β)
    (halign : PhotoAlignment.fromLandmarks manifest.crownY manifest.soleY manifest.centreX
      = .ok alignment) (layer : Layer) :
    ∃ mesh, create rig manifest layer = .ok mesh ∧ mesh.layer = layer ∧ mesh.bindings = β ∧
      mesh.canonicalVertices = manifest.grid alignment := by
  have hsize : ¬ (manifest.cols ≤ 0 ∨ manifest.rows ≤ 0) := by omega
  have hbind : ∃ mesh, bindVertices layer β (manifest.grid alignment) = .ok mesh ∧
      mesh.layer = layer ∧ mesh.bindings = β ∧
      mesh.canonicalVertices = manifest.grid alignment := by
    obtain ⟨ws, hws⟩ := mapM_isOk (l := manifest.grid alignment) fun v _ =>
      (weightsFor_partition layer v.1 v.2).imp fun _ h => h.1
    unfold bindVertices
    split
    · rename_i e he
      rw [hws] at he
      simp at he
    · exact ⟨_, rfl, rfl, rfl, rfl⟩
  obtain ⟨mesh, hmesh, hfields⟩ := hbind
  refine ⟨mesh, ?_, hfields⟩
  rw [create, if_neg hsize, hβ, halign]
  exact hmesh

/-- Neither turned nor scaled. -/
def Upright (m : Mat2D K) : Prop :=
  m.a = 1 ∧ m.b = 0 ∧ m.c = 0 ∧ m.d = 1

section Skeleton

omit [LinearOrder K] [IsStrictOrderedRing K]

theorem upright_setTransform (x y : K) : Upright (Mat2D.setTransform x y 1 0 1 1 0 0) := by
  simp [Upright, Mat2D.setTransform]

theorem Upright.bone {m : Mat2D K} (hm : Upright m) (x y : K) : Upright (LeonRig.bone m x y) := by
  obtain ⟨ha, hb, hc, hd⟩ := hm
  simp [Upright, LeonRig.bone, Mat2D.concat, Mat2D.setTransform, ha, hb, hc, hd]

/-- Leon's skeleton stands upright in every bone. -/
theorem upright_build (b : MeshBone) : Upright (LeonRig.build b : Mat2D K) := by
  unfold LeonRig.build
  -- from the bone up to the root
  cases b <;> (repeat apply Upright.bone) <;> exact upright_setTransform _ _

end Skeleton

theorem Upright.new_ok {m : Mat2D K} (hm : Upright m) (name : String) :
    ∃ β, Binding.new name m = .ok β := by
  obtain ⟨ha, hb, hc, hd⟩ := hm
  have hdet : m.det = 1 := by rw [Mat2D.det, ha, hb, hd]; ring
  unfold Binding.new
  rw [if_neg (by rw [hdet]; norm_num)]
  exact ⟨_, rfl⟩

theorem bindingsOf_leonRig :
    ∃ β : MeshBone → Binding K, bindingsOf (fun b => some (LeonRig.build b)) = .ok β := by
  have hbinding : ∀ b : MeshBone, ∃ β : Binding K,
      binding (fun b => some (LeonRig.build b)) b = .ok β :=
    fun b => (upright_build b).new_ok b.name
  choose β hβ using hbinding
  unfold bindingsOf
  simp only [hβ]
  exact ⟨_, rfl⟩

/-- Leon's own rig carries a mesh of any sound measures, in both layers over the same vertices. -/
theorem create_leonRig (manifest : MeshManifest K) (hcols : 0 < manifest.cols)
    (hrows : 0 < manifest.rows) (hspan : 1 < manifest.soleY - manifest.crownY) :
    ∃ β alignment, bindingsOf (fun b => some (LeonRig.build b)) = .ok β ∧
      PhotoAlignment.fromLandmarks manifest.crownY manifest.soleY manifest.centreX = .ok alignment ∧
      ∀ layer, ∃ mesh, create (fun b => some (LeonRig.build b)) manifest layer = .ok mesh ∧
        mesh.layer = layer ∧ mesh.bindings = β ∧
        mesh.canonicalVertices = manifest.grid alignment := by
  obtain ⟨β, hβ⟩ := bindingsOf_leonRig (K := K)
  obtain ⟨alignment, halign⟩ : ∃ alignment, PhotoAlignment.fromLandmarks manifest.crownY
      manifest.soleY manifest.centreX = .ok alignment := by
    unfold PhotoAlignment.fromLandmarks
    simp only [if_neg (not_le.mpr hspan)]
    exact ⟨_, rfl⟩
  exact ⟨β, alignment, hβ, halign, create_ok hcols hrows hβ halign⟩

/-- The weights are a partition of unity at every point of both layers, and a mesh at rest is drawn
where it was bound. Above the end of the shared skin two layers of a rig are bound alike and drawn
alike in every pose; from there down the body is bound to no bone of an arm, and the arms to none of
spine or leg. -/
theorem mesh_skinning (rig : MeshBone → Option (Mat2D K)) :
    (∀ (layer : Layer) (x y : K), ∃ w, weightsFor layer x y = .ok w ∧ (∀ p ∈ w, 0 ≤ p.2) ∧
      (w.map Prod.snd).sum = 1) ∧
    (∀ (mesh : LeonMeshRig K) (pose : MeshBone → Mat2D K), bindingsOf rig = .ok mesh.bindings →
      (∀ b, rig b = some (pose b)) →
      (mesh.updateFromSolvedRig pose).deformedVertices = mesh.canonicalVertices) ∧
    (∀ x y : K, y < sharedSkinEndY → weightsFor .body x y = weightsFor .arms x y) ∧
    (∀ (body arms : LeonMeshRig K) (pose : MeshBone → Mat2D K) (i j : ℕ) (v : K × K),
      body.layer = .body → arms.layer = .arms → bindingsOf rig = .ok body.bindings →
      bindingsOf rig = .ok arms.bindings → body.canonicalVertices[i]? = some v →
      arms.canonicalVertices[j]? = some v → v.2 < sharedSkinEndY →
      (body.updateFromSolvedRig pose).deformedVertices[i]?
        = (arms.updateFromSolvedRig pose).deformedVertices[j]?) ∧
    (∀ (x y : K) (w : VertexWeights K), sharedSkinEndY ≤ y → weightsFor .body x y = .ok w →
      ∀ p ∈ w, p.1 ∉ armChain) ∧
    (∀ (x y : K) (w : VertexWeights K), sharedSkinEndY ≤ y → weightsFor .arms x y = .ok w →
      ∀ p ∈ w, p.1 ∉ legChain) := by
  refine ⟨?_, ?_, ?_, ?_, ?_, ?_⟩
  · -- the weights are a partition of unity
    intro layer x y
    obtain ⟨w, hw, hpart⟩ := weightsFor_partition layer x y
    exact ⟨w, hw, hpart.nonneg, hpart.total_eq_one⟩
  · intro mesh pose hβ hrest
    exact updateFromSolvedRig_rest hβ hrest
  · intro x y hy
    exact weightsFor_shared .body .arms x hy
  · -- so in the shared skin both layers draw a vertex alike
    intro body arms pose i j v _ _ hbody harms hi hj hy
    have hβ : body.bindings = arms.bindings := Except.ok.inj (hbody.symm.trans harms)
    obtain ⟨w, hw, hdrawn⟩ := updateFromSolvedRig_getElem? pose hi
    obtain ⟨w', hw', hdrawn'⟩ := updateFromSolvedRig_getElem? pose hj
    rw [weightsFor_shared body.layer arms.layer v.1 hy] at hw
    obtain rfl := Except.ok.inj (hw.symm.trans hw')
    rw [hdrawn, hdrawn', hβ]
  · -- below it the body keeps off the arms
    intro x y w hy hw
    obtain ⟨w', hw', _, hwithin⟩ := spreads_body x hy
    obtain rfl := Except.ok.inj (hw.symm.trans hw')
    exact hwithin
  · intro x y w hy hw
    obtain ⟨w', hw', _, hwithin⟩ := spreads_arms x hy
    obtain rfl := Except.ok.inj (hw.symm.trans hw')
    exact hwithin

/-- The mesh of the production texture. -/
def productionManifest : MeshManifest ℚ :=
  { cols := 48, rows := 84, sourceWidth := 360, sourceHeight := 640
    crownY := 20, soleY := 619, centreX := 180 }

theorem grid_head (manifest : MeshManifest K) (alignment : PhotoAlignment K) :
    ∃ x, (manifest.grid alignment)[0]? = some (x, -alignment.originY / alignment.scale) := by
  unfold MeshManifest.grid
  rw [List.range_succ_eq_map]
  simp [List.range_succ_eq_map]

/-- The production mesh, with the quarter turn of every bone as a pose. -/
theorem production_skinning :
    ∃ body arms : LeonMeshRig ℚ,
      create (fun b => some (LeonRig.build b)) productionManifest .body = .ok body ∧
      create (fun b => some (LeonRig.build b)) productionManifest .arms = .ok arms ∧
      (arms.updateFromSolvedRig LeonRig.build).deformedVertices = arms.canonicalVertices ∧
      (body.updateFromSolvedRig fun _ => ⟨0, 1, -1, 0, 0, 0⟩).deformedVertices[0]?
        = (arms.updateFromSolvedRig fun _ => ⟨0, 1, -1, 0, 0, 0⟩).deformedVertices[0]? ∧
      weightsFor .body (100 : ℚ) 200 = weightsFor .arms 100 200 ∧
      (∃ w, weightsFor .body (100 : ℚ) 300 = .ok w ∧ ∀ p ∈ w, p.1 ∉ armChain) ∧
      (∃ w, weightsFor .arms (100 : ℚ) 300 = .ok w ∧ ∀ p ∈ w, p.1 ∉ legChain) := by
  have hspan : 1 < productionManifest.soleY - productionManifest.crownY := by decide +kernel
  obtain ⟨β, alignment, hβ, halign, hmesh⟩ :=
    create_leonRig productionManifest (by decide) (by decide) hspan
  obtain ⟨body, hbody, hbodyLayer, rfl, hvertices⟩ := hmesh .body
  obtain ⟨arms, harms, harmsLayer, harmsβ, hvertices'⟩ := hmesh .arms
  obtain ⟨hpart, hrest, hshared, hpose, hlow, hlow'⟩ :=
    mesh_skinning (fun b => some (LeonRig.build b : Mat2D ℚ))
  obtain ⟨x, hhead⟩ := grid_head productionManifest alignment
  have htop : -alignment.originY / alignment.scale < sharedSkinEndY := by
    unfold PhotoAlignment.fromLandmarks at halign
    simp only [if_neg (not_le.mpr hspan)] at halign
    obtain rfl := Except.ok.inj halign
    decide +kernel
  obtain ⟨w, hw, _, _⟩ := hpart .body 100 300
  obtain ⟨w', hw', _, _⟩ := hpart .arms 100 300
  refine ⟨body, arms, hbody, harms, ?_, ?_, ?_, ⟨w, hw, ?_⟩, ⟨w', hw', ?_⟩⟩
  · exact hrest arms LeonRig.build (by rw [hβ, harmsβ]) fun b => rfl
  · exact hpose body arms _ 0 0 _ hbodyLayer harmsLayer hβ (by rw [hβ, harmsβ])
      (by rw [hvertices, hhead]) (by rw [hvertices', hhead]) htop
  · exact hshared 100 200 (by decide +kernel)
  · exact hlow 100 300 w (by decide +kernel) hw
  · exact hlow' 100 300 w' (by decide +kernel) hw'

end LeonMeshRig

end HumanGate
