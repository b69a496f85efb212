/-
What can go wrong in a computation that has no number to give back.
-/
import SceneEngine.Binary.Shortest

namespace SceneEngine

/-- Why a projection cannot be built. -/
inductive ProjectionFault where
  | fieldOfView
  | aspectRatio
  | nearPlane
  | farPlane
  | emptyBox
  | viewport
deriving DecidableEq, Repr

namespace ProjectionFault

def message : ProjectionFault → String
  | fieldOfView => "field of view must be in (0, pi)"
  | aspectRatio => "aspect ratio must be positive"
  | nearPlane => "near plane must be positive"
  | farPlane => "far plane must lie beyond near plane"
  | emptyBox => "orthographic box has zero extent"
  | viewport => "viewport must have positive size"

end ProjectionFault

/-- A degenerate computation. Sizes are reported in the measuring type `ω`. -/
inductive NumericError (ω : Type) where
  /-- The matrix has no inverse; its determinant is zero when it lacks rank. -/
  | singularMatrix (determinant : ω)
  /-- The vector has no direction. -/
  | zeroLengthVector (length : ω)
  /-- The up vector is parallel to the view direction. -/
  | degenerateBasis
  /-- The homogeneous point has no place in space. -/
  | pointAtInfinity
  | invalidProjection (fault : ProjectionFault)
deriving DecidableEq

namespace NumericError

def message : NumericError F64 → String
  | singularMatrix determinant => "matrix is singular (determinant " ++ determinant.toText ++ ")"
  | zeroLengthVector length => "cannot normalize vector of length " ++ length.toText
  | degenerateBasis => "look-at basis is degenerate: up vector is parallel to view direction"
  | pointAtInfinity => "point at infinity (w = 0) cannot be dehomogenized"
  | invalidProjection fault => "invalid projection: " ++ fault.message

end NumericError

end SceneEngine
