import Mathlib
import HumanGate.Lib.Flood
import HumanGate.Model.MeshRig

set_option autoImplicit false

/-! # Which texels are the arms

`LeonLayerMask`, and the two layers that the production texture is split into. A texel is its index
in the row-major texture of `width * height` texels; rows above `top` belong to no region. -/

namespace HumanGate

open Lib

namespace LeonLayerMask

variable {K : Type} [Field K] [LinearOrder K]

def solidAlpha : ℤ := 16

omit [LinearOrder K] in
def designY (row : ℕ) (alignment : PhotoAlignment K) : K :=
  (row + 0.5 - alignment.originY) / alignment.scale

def firstRowAtOrBelow (designYLimit : K) (height : ℕ) (alignment : PhotoAlignment K) : ℕ :=
  ((List.range height).find? fun row => decide (designYLimit ≤ designY row alignment)).getD height

section Constants

omit [LinearOrder K]

def armLayerTopY : K := 283
def armLayerOverlap : K := (2 : ℕ)

end Constants

/-- The eight texels around `t`, row by row, that are in the texture from row `top` down. -/
def neighbours (top width height t : ℕ) : List ℕ :=
  let x : ℤ := t % width
  let y : ℤ := t / width
  [-1, 0, 1].flatMap fun dy =>
    let ny := y + dy
    if ny < top ∨ height ≤ ny then []
    else [-1, 0, 1].filterMap fun dx =>
      let nx := x + dx
      if (dx = 0 ∧ dy = 0) ∨ nx < 0 ∨ width ≤ nx then none
      else some (ny * width + nx).toNat

def alphaAt (alpha : List ℤ) (t : ℕ) : ℤ :=
  alpha.getD t 0

def solid (alpha : List ℤ) (t : ℕ) : Bool :=
  !decide (alphaAt alpha t < solidAlpha)

def visible (alpha : List ℤ) (t : ℕ) : Bool :=
  !decide (alphaAt alpha t = 0)

/-! ## The regions -/

/-- The label of each texel, and how many texels have each label. -/
structure Regions where
  label : ℕ → Option ℕ
  regionSizes : List ℕ

/-- A solid texel without a label starts a region, which is flooded. -/
def labelRegion (alpha : List ℤ) (top width height : ℕ) (r : Regions) (start : ℕ) : Regions :=
  if (r.label start).isSome || !solid alpha start then r
  else
    let id := r.regionSizes.length
    let flood := Flood.run (neighbours top width height) (solid alpha) (fun _ => some id)
      (width * height) ⟨Function.update r.label start (some id), [], [start]⟩
    -- `tail` counts what was queued
    ⟨flood.label, r.regionSizes ++ [(flood.read ++ flood.queue).length]⟩

def labelRegions (alpha : List ℤ) (top width height : ℕ) : Regions :=
  (List.range' (top * width) (width * height - top * width)).foldl
    (labelRegion alpha top width height) ⟨fun _ => none, []⟩

/-- The index of the largest size, the first of them. -/
def largest (sizes : List ℕ) : ℕ :=
  (List.range' 1 (sizes.length - 1)).foldl
    (fun body i => if sizes.getD body 0 < sizes.getD i 0 then i else body) 0

/-- The fainter texels take the labels around them, ring by ring. -/
def growHalo (alpha : List ℤ) (top width height : ℕ) (label : ℕ → Option ℕ) : ℕ → Option ℕ :=
  let queue := (List.range' (top * width) (width * height - top * width)).filter
    fun t => (label t).isSome
  (Flood.run (neighbours top width height) (visible alpha) id (width * height)
    ⟨label, [], queue⟩).label

/-! ## The mask -/

def armTexels (alpha : List ℤ) (width height : ℕ) (alignment : PhotoAlignment K) :
    Except MeshError (List Bool) :=
  let size := width * height
  if alpha.length ≠ size then .error (.illegalArgument "alpha size mismatch")
  else
    let top := firstRowAtOrBelow (armLayerTopY - armLayerOverlap) height alignment
    let regions := labelRegions alpha top width height
    if regions.regionSizes.isEmpty then .ok (List.replicate size false)
    else
      let body := largest regions.regionSizes
      let label := growHalo alpha top width height regions.label
      .ok ((List.range size).map fun t =>
        decide (top * width ≤ t) && (label t).isSome && decide (label t ≠ some body))

def covers (layer : LeonMeshRig.Layer) (armTexels : List Bool) (t width : ℕ)
    (alignment : PhotoAlignment K) :
    Bool :=
  match layer with
  | .arms => armTexels.getD t false
  | .body =>
      -- both layers draw the overlap band
      !armTexels.getD t false || decide (designY (t / width) alignment < armLayerTopY)

end LeonLayerMask

namespace ProductionLeonTexture

variable {K : Type} [Field K] [LinearOrder K]

/-- What the layer keeps of the texture; the rest is transparent. -/
def layerOf (source : List (BitVec 32)) (width : ℕ) (arm : List Bool)
    (alignment : PhotoAlignment K) (layer : LeonMeshRig.Layer) : List (BitVec 32) :=
  source.mapIdx fun t pixel =>
    if LeonLayerMask.covers layer arm t width alignment then pixel else 0

/-- The alpha of each pixel. -/
def alphaOf (pixels : List (BitVec 32)) : List ℤ :=
  pixels.map fun (pixel : BitVec 32) => ((pixel >>> 24).toNat : ℤ)

/-- The body layer and the arm layer of the pixels of a texture. -/
def split (pixels : List (BitVec 32)) (width height : ℕ) (alignment : PhotoAlignment K) :
    Except MeshError (List (BitVec 32) × List (BitVec 32)) := do
  let arm ← LeonLayerMask.armTexels (alphaOf pixels) width height alignment
  return (layerOf pixels width arm alignment .body, layerOf pixels width arm alignment .arms)

end ProductionLeonTexture

end HumanGate
