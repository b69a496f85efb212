/-
What contact does to a velocity.
-/
import SceneEngine.Vec

namespace SceneEngine.Contact

variable {α : Type} [Scalar α]

/-- The unit vector along axis `k`. -/
def axisNormal (k : Fin 3) : Vec α 3 := Vec.zero.set k 1

/-- A velocity thrown back on every blocked axis, at a share of its speed. -/
def bounce (bounciness : α) (blocked : Vec Bool 3) (velocity : Vec α 3) : Vec α 3 :=
  (List.finRange 3).foldl (fun v k => if blocked[k] then v.reflect (axisNormal k) else v)
    (velocity * bounciness)

/-- A velocity stopped on every blocked axis and slowed by friction on the others. -/
def slide (friction : α) (blocked : Vec Bool 3) (velocity : Vec α 3) : Vec α 3 :=
  let keep := 1 - Scalar.clamp friction 0 1
  .ofFn fun k => if blocked[k] then 0 else velocity[k] * keep

/-- A body bounces when it arrives from the air faster than `threshold`; otherwise it
slides under its own friction and that of what it touches. -/
def respond (bounciness threshold : α) (velocity : Vec α 3) (blocked : Vec Bool 3)
    (wasOnGround : Bool) (ownFriction contactFriction : α) : Vec α 3 :=
  if !wasOnGround && decide (threshold < velocity.length) then bounce bounciness blocked velocity
  else slide (ownFriction + contactFriction) blocked velocity

end SceneEngine.Contact
