/-
Vectors of any dimension.

A vector holds its coordinates; every operation is given by the coordinates of
its result (`Vec.getElem_ofFn`), and two vectors with the same coordinates are
equal (`Vec.ext`). The first four coordinates are also called `x`, `y`, `z` and
`w`.
-/
import SceneEngine.Tolerance
import SceneEngine.NumericError

namespace SceneEngine

/-- A vector with `n` coordinates. -/
structure Vec (α : Type) (n : Nat) where
  coords : Vector α n
deriving DecidableEq

namespace Vec

variable {α : Type} {n : Nat}

instance : GetElem (Vec α n) (Fin n) α fun _ _ => True where
  getElem v i _ := v.coords.get i

/-- The vector with the given coordinates. -/
def ofFn (g : Fin n → α) : Vec α n := ⟨Vector.ofFn g⟩

@[simp] theorem getElem_ofFn (g : Fin n → α) (i : Fin n) : (ofFn g)[i] = g i :=
  Vector.getElem_ofFn i.isLt

@[ext] theorem ext {v w : Vec α n} (h : ∀ i : Fin n, v[i] = w[i]) : v = w := by
  cases v; cases w
  congr
  exact Vector.ext fun i hi => h ⟨i, hi⟩

/-- The vector with the listed coordinates, if there are `n`. -/
def ofList? (xs : List α) : Option (Vec α n) :=
  if h : xs.length = n then some ⟨⟨xs.toArray, h⟩⟩ else none

/-- The coordinate `i`, if there is one. -/
def get? (v : Vec α n) (i : Nat) : Option α := v.coords[i]?

/-- The vector with coordinate `i` replaced. -/
def set (v : Vec α n) (i : Fin n) (x : α) : Vec α n :=
  ofFn fun j => if j = i then x else v[j]

/-- The vector with coordinate `i` replaced, if there is one. -/
def set? (v : Vec α n) (i : Nat) (x : α) : Option (Vec α n) :=
  if h : i < n then some (v.set ⟨i, h⟩ x) else none

def toList (v : Vec α n) : List α := v.coords.toList

def map {β : Type} (g : α → β) (v : Vec α n) : Vec β n := ofFn fun i => g v[i]

/-- All coordinates equal to `x`. -/
def splat (x : α) : Vec α n := ofFn fun _ => x

def of2 (x y : α) : Vec α 2 := ⟨#v[x, y]⟩

def of3 (x y z : α) : Vec α 3 := ⟨#v[x, y, z]⟩

def of4 (x y z w : α) : Vec α 4 := ⟨#v[x, y, z, w]⟩

def x (v : Vec α (n + 1)) : α := v[(⟨0, by omega⟩ : Fin (n + 1))]

def y (v : Vec α (n + 2)) : α := v[(⟨1, by omega⟩ : Fin (n + 2))]

def z (v : Vec α (n + 3)) : α := v[(⟨2, by omega⟩ : Fin (n + 3))]

def w (v : Vec α (n + 4)) : α := v[(⟨3, by omega⟩ : Fin (n + 4))]

/-- Coordinates in brackets, each written by `text`. -/
def toText (text : α → String) (v : Vec α n) : String :=
  "[" ++ String.intercalate ", " (v.toList.map text) ++ "]"

/-! ## Arithmetic -/

section Scalar

variable [Scalar α]

def zero : Vec α n := splat 0

instance : Add (Vec α n) := ⟨fun v w => ofFn fun i => v[i] + w[i]⟩

instance : Sub (Vec α n) := ⟨fun v w => ofFn fun i => v[i] - w[i]⟩

instance : Neg (Vec α n) := ⟨fun v => ofFn fun i => -v[i]⟩

instance : HMul (Vec α n) α (Vec α n) := ⟨fun v k => ofFn fun i => v[i] * k⟩

instance : HDiv (Vec α n) α (Vec α n) := ⟨fun v k => ofFn fun i => v[i] / k⟩

def dot (v w : Vec α n) : α := Scalar.sum fun i : Fin n => v[i] * w[i]

def lengthSquared (v : Vec α n) : α := v.dot v

def length (v : Vec α n) : α := Scalar.sqrt v.lengthSquared

def distance (v w : Vec α n) : α := (v - w).length

/-- The right-handed cross product. -/
def cross (v w : Vec α 3) : Vec α 3 :=
  of3 (v.y * w.z - v.z * w.y) (v.z * w.x - v.x * w.z) (v.x * w.y - v.y * w.x)

/-- From `v` at `t = 0` to `w` at `t = 1`, along a line. -/
def lerp (v w : Vec α n) (t : α) : Vec α n := ofFn fun i => v[i] + (w[i] - v[i]) * t

/-- The reflection of `v` about the plane with unit normal `normal`. -/
def reflect (v normal : Vec α n) : Vec α n :=
  let twice := v.dot normal * Scalar.two
  ofFn fun i => v[i] - normal[i] * twice

/-- The greatest coordinate, none of an empty vector. -/
def greatest? (v : Vec α n) : Option α :=
  match v.toList with
  | [] => none
  | x :: rest => some (rest.foldl Scalar.maxOf x)

/-! ## Homogeneous coordinates -/

/-- The point with `w = 1`. -/
def homogenize (v : Vec α 3) : Vec α 4 := of4 v.x v.y v.z 1

/-- Drops `w`. -/
def truncate (v : Vec α 4) : Vec α 3 := of3 v.x v.y v.z

end Scalar

/-! ## Comparison -/

section Measured

variable {ω : Type} [Scalar α] [Scalar ω] [Widening α ω]

/-- Whether all coordinates are alike. -/
def approxEq (t : Tolerance ω) (v w : Vec α n) : Bool :=
  (List.finRange n).all fun i => t.approxEq v[i] w[i]

/-- Whether two vectors are alike within the tolerance of their scalar. -/
def alike (v w : Vec α n) : Bool := v.approxEq (Widening.tolerance α) w

/-- The unit vector in the same direction. -/
def normalize (t : Tolerance ω) (v : Vec α n) : Except (NumericError ω) (Vec α n) :=
  let size := v.length
  if t.isZero size || !Scalar.isFinite (widen size : ω) then
    .error (.zeroLengthVector (widen size))
  else .ok (v / size)

/-- The point of space a homogeneous point stands for: division by `w`. -/
def dehomogenize (t : Tolerance ω) (v : Vec α 4) : Except (NumericError ω) (Vec α 3) :=
  if t.isZero v.w then .error .pointAtInfinity
  else .ok (of3 (v.x / v.w) (v.y / v.w) (v.z / v.w))

/-- Degrees to radians, coordinate by coordinate. -/
def toRadians (v : Vec α n) : Vec α n := v.map Scalar.toRadians

/-- Radians to degrees, coordinate by coordinate. -/
def toDegrees (v : Vec α n) : Vec α n := v.map Scalar.toDegrees

end Measured

end Vec

end SceneEngine
