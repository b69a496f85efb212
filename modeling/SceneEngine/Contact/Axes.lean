/-
What blocks a moving body, axis by axis.

Each axis is tried alone: the box moved from the previous position along that axis
only, against the other body where it stands at the start of the step.
-/
import SceneEngine.Contact.Pairs

namespace SceneEngine.Contact

/-- What a moving body ran into. -/
structure AxisContacts where
  blocked : Vec Bool 3
  /-- Whether the last body that blocked an axis begins below the mover on it. -/
  fromBelow : Vec Bool 3
  /-- The friction of all bodies in the way. -/
  friction : F32
  blockedBy : List EntityId
deriving DecidableEq

namespace AxisContacts

def none : AxisContacts := ⟨.splat false, .splat false, 0, []⟩

/-- Whether any axis is blocked. -/
def isBlocked (c : AxisContacts) : Bool := c.blocked.toList.any id

end AxisContacts

/-- The box of a body moved along axis `k` only. -/
def Solid.alongAxis (s : Solid) (k : Fin 3) : Box F32 :=
  s.bounds.translate (s.previous.set k s.position[k])

/-- Whether `other` is in the way of `mover` on axis `k`. -/
def blocks (mover other : Solid) (k : Fin 3) : Bool :=
  !Scalar.same mover.position[k] mover.previous[k] && (mover.alongAxis k).intersects other.current

/-- Adds what `other` does to `mover`. -/
def meet (mover other : Solid) (c : AxisContacts) : AxisContacts :=
  let touched := (List.finRange 3).any (blocks mover other)
  { blocked := .ofFn fun k => c.blocked[k] || blocks mover other k
    fromBelow := .ofFn fun k =>
      if blocks mover other k then decide (other.current.lower[k] < (mover.alongAxis k).lower[k])
      else c.fromBelow[k]
    friction := if touched then c.friction + other.friction else c.friction
    blockedBy := if touched then c.blockedBy ++ [other.entity] else c.blockedBy }

variable {n : Nat}

/-- What body `i` ran into, over the given pairs in their order. -/
def contactsOf (bodies : Vector Solid n) (pairs : List (Pair n)) (i : Fin n) : AxisContacts :=
  if (bodies.get i).dynamic then
    pairs.foldl (fun c (a, b) =>
      if a = i then meet (bodies.get i) (bodies.get b) c
      else if b = i then meet (bodies.get i) (bodies.get a) c
      else c) .none
  else .none

/-- Where a body comes to rest: at its previous coordinate on every blocked axis. -/
def Solid.restingPosition (s : Solid) (c : AxisContacts) : Vec F32 3 :=
  .ofFn fun k => if c.blocked[k] then s.previous[k] else s.position[k]

/-- The box of a body where it comes to rest. -/
def Solid.restingBox (s : Solid) (c : AxisContacts) : Box F32 :=
  if s.dynamic then s.bounds.translate (s.restingPosition c) else s.current

/-- Whether a body comes to rest on another. -/
def AxisContacts.onGround (c : AxisContacts) : Bool := c.blocked.y && c.fromBelow.y

end SceneEngine.Contact
