/-
Axis-aligned boxes.

Corners are compared with `min` and `max`, which a NaN never wins: a box grown
over a point with a NaN coordinate keeps its extent on that axis.
-/
import SceneEngine.Mat.Affine

namespace SceneEngine

/-- The box between two corners. -/
structure Box (α : Type) where
  lower : Vec α 3
  upper : Vec α 3
deriving DecidableEq

namespace Box

variable {α : Type} [Scalar α]

/-- The box with two opposite corners, in any order. -/
def ofCorners (a b : Vec α 3) : Box α :=
  ⟨.ofFn fun k => min a[k] b[k], .ofFn fun k => max a[k] b[k]⟩

/-- The box of the given size centred on the origin. -/
def ofExtents (width height depth : α) : Box α :=
  let half := Vec.of3 (Scalar.abs width) (Scalar.abs height) (Scalar.abs depth) * (Scalar.half : α)
  ⟨-half, half⟩

/-- The box without extent at the origin. -/
def empty : Box α := ⟨.zero, .zero⟩

/-- The least box that holds `b` and the point `p`. -/
def extend (b : Box α) (p : Vec α 3) : Box α :=
  ⟨.ofFn fun k => min b.lower[k] p[k], .ofFn fun k => max b.upper[k] p[k]⟩

/-- The least box that holds all points, if there are any. -/
def ofPoints? : List (Vec α 3) → Option (Box α)
  | [] => none
  | p :: rest => some (rest.foldl extend ⟨p, p⟩)

def center (b : Box α) : Vec α 3 := (b.lower + b.upper) * (Scalar.half : α)

def size (b : Box α) : Vec α 3 := b.upper - b.lower

/-- Whether two boxes overlap. Boxes that only touch do not. -/
def intersects (a b : Box α) : Bool :=
  (List.finRange 3).all fun k => decide (a.lower[k] < b.upper[k]) && decide (b.lower[k] < a.upper[k])

/-- How far two boxes reach into each other along an axis. -/
def overlapDepth (a b : Box α) (k : Fin 3) : α :=
  min a.upper[k] b.upper[k] - max a.lower[k] b.lower[k]

/-- The volume two boxes share, zero as soon as they part on one axis. -/
def intersectionVolume (a b : Box α) : α :=
  go 1 (List.finRange 3)
where
  /-- The product of the depths on the remaining axes with `volume`. -/
  go (volume : α) : List (Fin 3) → α
    | [] => volume
    | k :: rest =>
      let depth := a.overlapDepth b k
      if depth ≤ 0 then 0 else go (volume * depth) rest

/-- Whether the point lies in the box or on its surface. -/
def contains (b : Box α) (p : Vec α 3) : Bool :=
  (List.finRange 3).all fun k => decide (b.lower[k] ≤ p[k]) && decide (p[k] ≤ b.upper[k])

/-- The box moved by `offset`. -/
def translate (b : Box α) (offset : Vec α 3) : Box α := ⟨b.lower + offset, b.upper + offset⟩

/-- The least box that holds both. -/
def union (a b : Box α) : Box α := (a.extend b.lower).extend b.upper

/-- The eight corners. -/
def corners (b : Box α) : List (Vec α 3) :=
  (List.range 8).map fun bits =>
    .ofFn fun k => if bits.testBit k.val then b.upper[k] else b.lower[k]

/-- The least box around the images of the corners. -/
def transform (b : Box α) (m : Mat α 4 4) : Box α :=
  (ofPoints? (b.corners.map m.transformPoint)).getD b

/-- Whether two boxes have alike corners, within the tolerance of their scalar. -/
def alike {ω : Type} [Scalar ω] [Widening α ω] (a b : Box α) : Bool :=
  a.lower.alike b.lower && a.upper.alike b.upper

end Box

end SceneEngine
