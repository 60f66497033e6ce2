import Mathlib
import HumanGate.Lib.Weights

set_option autoImplicit false

/-! # The mesh of Leon

`LeonMeshRig` with what it uses of the rig, over an ordered field: a vertex is bound to bones by
weights that depend on where it lies and on the layer, and is drawn where the bones' current
transforms take it. A pose is the solved world transform of every bone of the mesh; `none` in a rig
is a bone it does not have.
-/

namespace HumanGate

open Lib.Weights

inductive MeshError where
  | illegalArgument (message : String)
  | illegalState (message : String)
  | arrayIndexOutOfBounds (index : ℕ)
  deriving DecidableEq, Repr

/-! ## Transforms -/

/-- The affine matrix `[a c tx; b d ty]`. -/
structure Mat2D (K : Type) where
  a : K
  b : K
  c : K
  d : K
  tx : K
  ty : K
  deriving DecidableEq, Repr

namespace Mat2D

variable {K : Type} [Field K]

/-- `cos` and `sin` are those of the rotation. -/
def setTransform (x y cos sin scaleX scaleY pivotX pivotY : K) : Mat2D K :=
  let a := cos * scaleX
  let b := sin * scaleX
  let c := -sin * scaleY
  let d := cos * scaleY
  { a, b, c, d, tx := x - (a * pivotX + c * pivotY), ty := y - (b * pivotX + d * pivotY) }

def concat (parent child : Mat2D K) : Mat2D K where
  a := parent.a * child.a + parent.c * child.b
  b := parent.b * child.a + parent.d * child.b
  c := parent.a * child.c + parent.c * child.d
  d := parent.b * child.c + parent.d * child.d
  tx := parent.a * child.tx + parent.c * child.ty + parent.tx
  ty := parent.b * child.tx + parent.d * child.ty + parent.ty

def mapX (m : Mat2D K) (x y : K) : K :=
  m.a * x + m.c * y + m.tx

def mapY (m : Mat2D K) (x y : K) : K :=
  m.b * x + m.d * y + m.ty

def det (m : Mat2D K) : K :=
  m.a * m.d - m.b * m.c

end Mat2D

/-! ## Bones -/

/-- The bones the mesh is bound to. -/
inductive MeshBone where
  | root | hips | spine | chest | neck | head
  | armL | forearmL | handL | armR | forearmR | handR
  | thighL | shinL | footL | thighR | shinR | footR
  deriving DecidableEq, Repr

def MeshBone.name : MeshBone → String
  | root => "root"
  | hips => "hips"
  | spine => "spine"
  | chest => "chest"
  | neck => "neck"
  | head => "head"
  | armL => "arm_l"
  | forearmL => "forearm_l"
  | handL => "hand_l"
  | armR => "arm_r"
  | forearmR => "forearm_r"
  | handR => "hand_r"
  | thighL => "thigh_l"
  | shinL => "shin_l"
  | footL => "foot_l"
  | thighR => "thigh_r"
  | shinR => "shin_r"
  | footR => "foot_r"

namespace LeonRig

variable {K : Type} [Field K]

def designW : K := 384
def centreX : K := 192
def groundY : K := 740
def hipY : K := 398
def spineY : K := 348
def chestY : K := 206
def neckY : K := 178
def headY : K := 112
def shoulderX : K := 95
def armY : K := chestY + 6
def elbowX : K := 103
def elbowY : K := 285
def wristX : K := 112
def wristY : K := 355

/-- `Bone.solve` of a bone at rest: not rotated and of scale 1. -/
def bone (parent : Mat2D K) (x y : K) : Mat2D K :=
  Mat2D.concat parent (Mat2D.setTransform x y 1 0 1 1 0 0)

/-- The skeleton of `LeonRig.build`, solved at rest. -/
def build : MeshBone → Mat2D K :=
  let root := Mat2D.setTransform centreX groundY 1 0 1 1 0 0
  let hips := bone root 0 (hipY - groundY)
  let spine := bone hips 0 (spineY - hipY)
  let chest := bone spine 0 (chestY - spineY)
  let neck := bone chest 0 (neckY - chestY)
  let head := bone neck 0 (headY - neckY)
  let shoulderL := bone chest (-shoulderX) (-4)
  let armL := bone shoulderL 0 10
  let forearmL := bone armL (-(elbowX - shoulderX)) (elbowY - armY)
  let handL := bone forearmL (-(wristX - elbowX)) (wristY - elbowY)
  let shoulderR := bone chest shoulderX (-4)
  let armR := bone shoulderR 0 10
  let forearmR := bone armR (elbowX - shoulderX) (elbowY - armY)
  let handR := bone forearmR (wristX - elbowX) (wristY - elbowY)
  let thighL := bone hips (-36) 8
  let shinL := bone thighL 0 142
  let footL := bone shinL 0 144
  let thighR := bone hips 36 8
  let shinR := bone thighR 0 142
  let footR := bone shinR 0 144
  fun
    | .root => root
    | .hips => hips
    | .spine => spine
    | .chest => chest
    | .neck => neck
    | .head => head
    | .armL => armL
    | .forearmL => forearmL
    | .handL => handL
    | .armR => armR
    | .forearmR => forearmR
    | .handR => handR
    | .thighL => thighL
    | .shinL => shinL
    | .footL => footL
    | .thighR => thighR
    | .shinR => shinR
    | .footR => footR

end LeonRig

/-! ## Weights -/

namespace LeonMeshRig

variable {K : Type} [Field K] [LinearOrder K]

/-- The bindings and values of a vertex, in step. -/
abbrev VertexWeights (K : Type) := List (MeshBone × K)

def smooth (t : K) : K :=
  if t ≤ 0 then 0
  else if 1 ≤ t then 1
  else t * t * (3 - 2 * t)

def normalized (w : VertexWeights K) : Except MeshError (VertexWeights K) :=
  let total := w.foldl (fun total p => total + max 0 p.2) 0
  if ¬ 0 < total then .error (.illegalState "invalid Leon mesh weights")
  else .ok (w.map fun p => (p.1, max 0 p.2 / total))

omit [LinearOrder K] in
def one (a : MeshBone) : VertexWeights K :=
  [(a, 1)]

def two (a : MeshBone) (aw : K) (b : MeshBone) (bw : K) : Except MeshError (VertexWeights K) :=
  normalized [(a, aw), (b, bw)]

def three (a : MeshBone) (aw : K) (b : MeshBone) (bw : K) (c : MeshBone) (cw : K) :
    Except MeshError (VertexWeights K) :=
  normalized [(a, aw), (b, bw), (c, cw)]

def blend (a : VertexWeights K) (aw : K) (b : VertexWeights K) (bw : K) :
    Except MeshError (VertexWeights K) :=
  normalized (mix a aw b bw)

/-! ## The edge of the body -/

/-- `BODY_EDGE_Y`. -/
def bodyEdgeY : List ℚ :=
  [268, 271, 274, 277, 280, 283, 286, 289, 292, 295, 298, 301, 304, 307,
    310, 313, 316, 319, 322, 325, 328, 331, 334, 337, 340, 343, 346, 349,
    352, 355, 358, 361, 364, 367, 370, 373, 376, 379, 382, 385, 388, 391,
    394, 397, 400, 403, 406, 409, 412, 415, 418, 421, 424, 427, 430, 431,
    432, 433, 436, 439, 442, 445, 446]

/-- `BODY_EDGE_HALF_WIDTH`. -/
def bodyEdgeWidths : List ℚ :=
  [70, 70.75, 71.25, 70.25, 69.5, 70.75, 72.5, 74, 73.5, 73.5, 74.25, 75.5,
    76, 77, 76.5, 77, 77, 77.5, 78.25, 80, 80.5, 81.5, 81.5, 81.75, 83.5,
    83.5, 83.5, 82.25, 83.5, 84.5, 85, 85.75, 87, 88.5, 88.5, 89.75, 90.75,
    90.25, 91, 92.5, 92, 91, 89, 88.5, 88, 86.75, 86.75, 86.75, 87, 86.25,
    86.5, 86.5, 85.75, 84.5, 84.5, 85, 85, 93.25, 93, 92, 91, 90.5, 90.25]

omit [LinearOrder K] in
/-- Reads a table; past its end there is nothing to read. -/
def readAt (table : List ℚ) (i : ℕ) : Except MeshError K :=
  match table[i]? with
  | some v => .ok (v : K)
  | none => .error (.arrayIndexOutOfBounds i)

/-- `while (BODY_EDGE_Y[i] < y) i++`, on what the table holds from `i` on. -/
def seekRow (y : K) : List ℚ → ℕ → Except MeshError ℕ
  | [], i => .error (.arrayIndexOutOfBounds i)
  | v :: rows, i => if (v : K) < y then seekRow y rows (i + 1) else .ok i

def bodyEdgeHalfWidth (y : K) : Except MeshError K := do
  if y ≤ (← readAt bodyEdgeY 0) then
    readAt bodyEdgeWidths 0
  else
    let last := bodyEdgeY.length - 1
    if (← readAt bodyEdgeY last) ≤ y then
      readAt bodyEdgeWidths last
    else
      let i ← seekRow y (bodyEdgeY.drop 1) 1
      let t := (y - (← readAt bodyEdgeY (i - 1)))
        / ((← readAt bodyEdgeY i) - (← readAt bodyEdgeY (i - 1)))
      return (← readAt bodyEdgeWidths (i - 1))
        + t * ((← readAt bodyEdgeWidths i) - (← readAt bodyEdgeWidths (i - 1)))

/-! ## The bands -/

inductive Layer where
  | body
  | arms
  deriving DecidableEq, Repr

section Constants

omit [LinearOrder K]

def designCentreX : K := LeonRig.designW * 0.5
def shoulderBlendHalfWidth : K := 16
def gapBlendHalfWidth : K := 2.5
def armpitY : K := 262
def gapOpenY : K := 274
def sharedSkinEndY : K := 292
def armLayerBottomY : K := 470
def armLayerBottomBlend : K := 15

end Constants

def centerWeightsFor (y : K) : Except MeshError (VertexWeights K) :=
  if y < 285 then .ok (one .chest)
  else if y < 345 then
    let t := smooth ((y - 285) / 60)
    two .chest (1 - t) .spine t
  else
    let t := smooth ((y - 345) / 50)
    two .spine (1 - t) .hips t

def sideWeightsFor (y : K) (left : Bool) : Except MeshError (VertexWeights K) :=
  let arm := if left then MeshBone.armL else .armR
  let forearm := if left then MeshBone.forearmL else .forearmR
  let hand := if left then MeshBone.handL else .handR
  if y < 235 then
    let t := smooth ((y - 205) / 30)
    two .chest (1 - t) arm t
  else if y < LeonRig.elbowY - 15 then .ok (one arm)
  else if y < LeonRig.elbowY + 15 then
    let t := smooth ((y - (LeonRig.elbowY - 15)) / 30)
    two arm (1 - t) forearm t
  else if y < LeonRig.wristY - 15 then .ok (one forearm)
  else if y < LeonRig.wristY + 15 then
    let t := smooth ((y - (LeonRig.wristY - 15)) / 30)
    two forearm (1 - t) hand t
  else .ok (one hand)

def armSideWeightsFor (y : K) (left : Bool) : Except MeshError (VertexWeights K) :=
  if y < armLayerBottomY - armLayerBottomBlend then sideWeightsFor y left
  else
    let anchored := one .root
    if armLayerBottomY + armLayerBottomBlend ≤ y then .ok anchored
    else do
      let t := smooth ((y - (armLayerBottomY - armLayerBottomBlend)) / (2 * armLayerBottomBlend))
      blend (← sideWeightsFor y left) (1 - t) anchored t

def legWeightsFor (y : K) (left : Bool) : Except MeshError (VertexWeights K) :=
  let thigh := if left then MeshBone.thighL else .thighR
  let shin := if left then MeshBone.shinL else .shinR
  let foot := if left then MeshBone.footL else .footR
  if y < 515 then
    let t := smooth ((y - 395) / 120)
    two .hips (1 - t) thigh t
  else if y < 655 then
    let t := smooth ((y - 515) / 140)
    two thigh (1 - t) shin t
  else if y < 748 then
    let t := smooth ((y - 655) / 93)
    two shin (1 - t) foot t
  else .ok (one .root)

/-- Half the width over which body and arm are blended at the row `y`. -/
def blendHalfWidth (y : K) : K :=
  if y ≤ armpitY then shoulderBlendHalfWidth
  else if gapOpenY ≤ y then gapBlendHalfWidth
  else shoulderBlendHalfWidth
    + (gapBlendHalfWidth - shoulderBlendHalfWidth) * ((y - armpitY) / (gapOpenY - armpitY))

def weightsFor (layer : Layer) (x y : K) : Except MeshError (VertexWeights K) :=
  if y < 150 then .ok (one .head)
  else if y < 205 then
    let t := smooth ((y - 150) / 55)
    if t < 0.5 then two .head (1 - t) .neck t
    else three .head ((1 - t) * 0.35) .neck (1 - |t - 0.5|) .chest (t * 0.65)
  else
    let side := |x - designCentreX|
    let left : Bool := x < designCentreX
    if sharedSkinEndY ≤ y then
      -- below the armpit each layer follows only its own chain
      match layer with
      | .arms => armSideWeightsFor y left
      | .body => if y < 395 then centerWeightsFor y else legWeightsFor y left
    else do
      let edge ← bodyEdgeHalfWidth y
      let half := blendHalfWidth y
      if side ≤ edge - half then centerWeightsFor y
      else
        let limb ← sideWeightsFor y left
        if edge + half ≤ side then return limb
        else
          let t := smooth ((side - (edge - half)) / (2 * half))
          blend (← centerWeightsFor y) (1 - t) limb t

/-! ## Bindings -/

/-- The inverse of a bone's world transform at rest. -/
structure Binding (K : Type) where
  invA : K
  invB : K
  invC : K
  invD : K
  invTx : K
  invTy : K
  deriving DecidableEq, Repr

/-- The constructor of `Binding`, for the bone `name` whose solved transform is `m`. -/
def Binding.new (name : String) (m : Mat2D K) : Except MeshError (Binding K) :=
  if |m.det| < 0.000001 then .error (.illegalState ("non-invertible rest bone " ++ name))
  else
    let invDet := 1 / m.det
    let invA := m.d * invDet
    let invB := -m.b * invDet
    let invC := -m.c * invDet
    let invD := m.a * invDet
    .ok { invA, invB, invC, invD
          invTx := -(invA * m.tx + invC * m.ty)
          invTy := -(invB * m.tx + invD * m.ty) }

omit [LinearOrder K] in
def Binding.localX (β : Binding K) (x y : K) : K :=
  β.invA * x + β.invC * y + β.invTx

omit [LinearOrder K] in
def Binding.localY (β : Binding K) (x y : K) : K :=
  β.invB * x + β.invD * y + β.invTy

def binding (rig : MeshBone → Option (Mat2D K)) (bone : MeshBone) : Except MeshError (Binding K) :=
  match rig bone with
  | none => .error (.illegalArgument ("missing Leon mesh bone " ++ bone.name))
  | some m => Binding.new bone.name m

/-- The bindings of the constructor, in its order. -/
def bindingsOf (rig : MeshBone → Option (Mat2D K)) : Except MeshError (MeshBone → Binding K) := do
  let root ← binding rig .root
  let hips ← binding rig .hips
  let spine ← binding rig .spine
  let chest ← binding rig .chest
  let neck ← binding rig .neck
  let head ← binding rig .head
  let armL ← binding rig .armL
  let forearmL ← binding rig .forearmL
  let handL ← binding rig .handL
  let armR ← binding rig .armR
  let forearmR ← binding rig .forearmR
  let handR ← binding rig .handR
  let thighL ← binding rig .thighL
  let shinL ← binding rig .shinL
  let footL ← binding rig .footL
  let thighR ← binding rig .thighR
  let shinR ← binding rig .shinR
  let footR ← binding rig .footR
  return fun
    | .root => root
    | .hips => hips
    | .spine => spine
    | .chest => chest
    | .neck => neck
    | .head => head
    | .armL => armL
    | .forearmL => forearmL
    | .handL => handL
    | .armR => armR
    | .forearmR => forearmR
    | .handR => handR
    | .thighL => thighL
    | .shinL => shinL
    | .footL => footL
    | .thighR => thighR
    | .shinR => shinR
    | .footR => footR

end LeonMeshRig

/-! ## The mesh -/

open LeonMeshRig in
/-- A mesh, each vertex bound by the weights of its place in the layer. -/
structure LeonMeshRig (K : Type) [Field K] [LinearOrder K] where
  layer : Layer
  canonicalVertices : List (K × K)
  deformedVertices : List (K × K)
  weights : List (VertexWeights K)
  bindings : MeshBone → Binding K
  bound : canonicalVertices.mapM (fun v => weightsFor layer v.1 v.2) = .ok weights

variable {K : Type} [Field K] [LinearOrder K]

structure PhotoAlignment (K : Type) where
  scale : K
  originX : K
  originY : K

/-- The message names the landmarks, which is left out here. -/
def PhotoAlignment.fromLandmarks (crownY soleY centreX : K) : Except MeshError (PhotoAlignment K) :=
  let span := soleY - crownY
  if span ≤ 1 then .error (.illegalArgument "soleY must be below crownY")
  else
    let scale := span / (732 - 44)
    .ok {
      scale
      originX := centreX - LeonRig.designW * 0.5 * scale
      originY := crownY - 44 * scale }

/-- What the manifest says of the texture's mesh. -/
structure MeshManifest (K : Type) where
  cols : ℤ
  rows : ℤ
  sourceWidth : ℤ
  sourceHeight : ℤ
  crownY : K
  soleY : K
  centreX : K

omit [LinearOrder K] in
/-- The corners of the grid in design space, row by row. -/
def MeshManifest.grid (m : MeshManifest K) (alignment : PhotoAlignment K) : List (K × K) :=
  (List.range (m.rows.toNat + 1)).flatMap fun row =>
    let sourceY : K := m.sourceHeight * (row / m.rows)
    let designY := (sourceY - alignment.originY) / alignment.scale
    (List.range (m.cols.toNat + 1)).map fun col =>
      let sourceX : K := m.sourceWidth * (col / m.cols)
      let designX := (sourceX - alignment.originX) / alignment.scale
      (designX, designY)

namespace LeonMeshRig

/-- The vertices bound by the weights of their places, drawn where they are. -/
def bindVertices (layer : Layer) (bindings : MeshBone → Binding K) (vertices : List (K × K)) :
    Except MeshError (LeonMeshRig K) :=
  match h : vertices.mapM (fun v => weightsFor layer v.1 v.2) with
  | .error e => .error e
  | .ok weights =>
      .ok { layer, canonicalVertices := vertices, deformedVertices := vertices, weights, bindings
            bound := h }

/-- The constructor, on the rig as `resetAnimation` and `solve` leave it. -/
def create (rig : MeshBone → Option (Mat2D K)) (manifest : MeshManifest K) (layer : Layer) :
    Except MeshError (LeonMeshRig K) := do
  if manifest.cols ≤ 0 ∨ manifest.rows ≤ 0 then
    throw (.illegalArgument "mesh size must be positive")
  let bindings ← bindingsOf rig
  let alignment ← PhotoAlignment.fromLandmarks manifest.crownY manifest.soleY manifest.centreX
  bindVertices layer bindings (manifest.grid alignment)

omit [LinearOrder K] in
/-- Where the vertex `v` bound by `w` is drawn in a pose. -/
def deform (bindings : MeshBone → Binding K) (pose : MeshBone → Mat2D K) (v : K × K)
    (w : VertexWeights K) : K × K :=
  w.foldl (fun acc p =>
    let β := bindings p.1
    let localX := β.localX v.1 v.2
    let localY := β.localY v.1 v.2
    let world := pose p.1
    (acc.1 + world.mapX localX localY * p.2, acc.2 + world.mapY localX localY * p.2)) (0, 0)

def updateFromSolvedRig (mesh : LeonMeshRig K) (pose : MeshBone → Mat2D K) : LeonMeshRig K :=
  { mesh with deformedVertices :=
      List.zipWith (deform mesh.bindings pose) mesh.canonicalVertices mesh.weights }

end LeonMeshRig

end HumanGate
