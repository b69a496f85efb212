/-
Where an entity stands: position, rotation and scale, with the model and normal
matrix they give.

The matrices are kept beside the fields. Every setter marks them stale, a stale
cache is never read, and `Transform.refresh` brings it up to date. A model without
an inverse is cached without a normal matrix.
-/
import SceneEngine.Mat.Affine

namespace SceneEngine

/-- Matrices computed from a transform at some earlier time. -/
structure MatrixCache (α : Type) where
  stale : Bool
  model : Mat α 4 4
  /-- Absent when the model had no inverse. -/
  normal : Option (Mat α 3 3)
deriving DecidableEq

/-- Position, rotation in degrees (about Z, then Y, then X) and scale. -/
structure Transform (α : Type) where
  position : Vec α 3
  rotation : Vec α 3
  scale : Vec α 3
  cache : MatrixCache α
deriving DecidableEq

namespace Transform

variable {α ω : Type} [Scalar α]

def new (position rotation scale : Vec α 3) : Transform α :=
  ⟨position, rotation, scale, ⟨true, .identity, none⟩⟩

/-- Unturned and of unit scale. -/
def ofPosition (position : Vec α 3) : Transform α := new position .zero (.splat 1)

/-- At the origin. -/
def origin : Transform α := ofPosition .zero

/-! ## Setters -/

def invalidate (t : Transform α) : Transform α := { t with cache := { t.cache with stale := true } }

def setPosition (t : Transform α) (position : Vec α 3) : Transform α :=
  { t with position }.invalidate

def setRotation (t : Transform α) (rotation : Vec α 3) : Transform α :=
  { t with rotation }.invalidate

def setScale (t : Transform α) (scale : Vec α 3) : Transform α := { t with scale }.invalidate

def move (t : Transform α) (offset : Vec α 3) : Transform α := t.setPosition (t.position + offset)

def rotate (t : Transform α) (degrees : Vec α 3) : Transform α := t.setRotation (t.rotation + degrees)

def grow (t : Transform α) (amount : Vec α 3) : Transform α := t.setScale (t.scale + amount)

/-! ## Wrapping -/

/-- Brings an angle beyond a full turn back by two turns. -/
def wrapAngle (degrees : α) : α :=
  let turn : α := (360 : Nat)
  let twoTurns : α := (720 : Nat)
  if degrees < -turn then degrees + twoTurns
  else if turn < degrees then degrees - twoTurns
  else degrees

def wrapRotation (degrees : Vec α 3) : Vec α 3 := degrees.map wrapAngle

/-! ## Matrices -/

def displacementMatrix (t : Transform α) : Mat α 4 4 := .displacement t.position

variable [Scalar ω] [Widening α ω]

/-- The model matrix of the current fields. -/
def computeModel (t : Transform α) : Mat α 4 4 := .model t.position t.rotation.toRadians t.scale

def modelMatrix (t : Transform α) : Mat α 4 4 :=
  if t.cache.stale then t.computeModel else t.cache.model

/-- The inverse transpose of the model's linear part. -/
def normalMatrix (tolerance : Tolerance ω) (t : Transform α) :
    Except (NumericError ω) (Mat α 3 3) :=
  match t.cache.stale, t.cache.normal with
  | false, some normal => .ok normal
  | _, _ => t.modelMatrix.normalMatrix tolerance

/-- Recomputes the matrices if they are stale, and says whether the model just
computed has a normal matrix. -/
def refresh (tolerance : Tolerance ω) (t : Transform α) :
    Transform α × Except (NumericError ω) Unit :=
  if t.cache.stale then
    let model := t.computeModel
    let normal := model.normalMatrix tolerance
    ({ t with cache := ⟨false, model, normal.toOption⟩ }, normal.map fun _ => ())
  else (t, .ok ())

/-! ## Directions -/

def rotationMatrix (t : Transform α) : Mat α 4 4 := .rotationEuler t.rotation.toRadians

/-- Where local `-Z` points. -/
def forward (t : Transform α) : Vec α 3 := t.rotationMatrix.transformDirection (.of3 0 0 (-1))

/-- Where local `X` points. -/
def right (t : Transform α) : Vec α 3 := t.rotationMatrix.transformDirection (.of3 1 0 0)

/-- Where local `Y` points. -/
def up (t : Transform α) : Vec α 3 := t.rotationMatrix.transformDirection (.of3 0 1 0)

/-! ## Comparison and text -/

/-- Whether the fields are alike; the cache does not count. -/
def approxEq (tolerance : Tolerance ω) (t u : Transform α) : Bool :=
  t.position.approxEq tolerance u.position && t.rotation.approxEq tolerance u.rotation &&
    t.scale.approxEq tolerance u.scale

/-- Whether two transforms are alike within the tolerance of their scalar. -/
def alike (t u : Transform α) : Bool := t.approxEq (Widening.tolerance α) u

/-- Three lines, each coordinate written by `text`. -/
def toText (text : α → String) (t : Transform α) : String :=
  "Position: " ++ t.position.toText text ++ "\nRotation: " ++ t.rotation.toText text ++
    "\nScale: " ++ t.scale.toText text

end Transform

end SceneEngine
