/-
A body: what moves an entity.

Forces add up between steps. A step turns them into acceleration and velocity and
clears them; a fixed body loses all motion instead.
-/
import SceneEngine.Config

namespace SceneEngine

structure Body where
  mass : F32
  /-- The share of velocity lost per step while touching another body. -/
  friction : F32
  /-- The share lost to the air; absent, the configured one. -/
  airFriction : Option F32
  /-- In units per second. -/
  velocity : Vec F32 3
  /-- Found by the last step. -/
  acceleration : Vec F32 3
  /-- Summed since the last step. -/
  force : Vec F32 3
  /-- A fixed body never moves and blocks others. -/
  fixed : Bool
  affectedByGravity : Bool
  /-- Where the body was before the last step. -/
  previousPosition : Vec F32 3
deriving DecidableEq

namespace Body

/-- Whether a body can have this mass. -/
def isMass (mass : F32) : Bool := decide (0 < mass) && mass.isFinite

/-- A moving body with gravity and without friction. -/
def new (mass : F32) : Except SceneError Body :=
  if isMass mass then
    .ok ⟨mass, 0, none, .zero, .zero, .zero, false, true, .zero⟩
  else .error .invalidMass

/-- A body of unit mass that never moves. -/
def immovable : Body := ⟨1, 0, none, .zero, .zero, .zero, true, false, .zero⟩

def setMass (b : Body) (mass : F32) : Except SceneError Body :=
  if isMass mass then .ok { b with mass } else .error .invalidMass

def addForce (b : Body) (force : Vec F32 3) : Body := { b with force := b.force + force }

/-- The share of velocity this body loses to the air. A negative one of its own does
not count. -/
def effectiveAirFriction (b : Body) (config : PhysicsConfig) : F32 :=
  match b.airFriction with
  | some own => if 0 ≤ own then own else config.airFriction
  | none => config.airFriction

/-- Force over mass, and gravity. -/
def netAcceleration (b : Body) (config : PhysicsConfig) : Vec F32 3 :=
  let push := b.force * config.forceScale / b.mass
  if b.affectedByGravity then push + config.gravity * config.gravityScale else push

/-- One step of `dt` seconds. -/
def integrate (b : Body) (config : PhysicsConfig) (dt : F32) : Body :=
  if b.fixed then { b with velocity := .zero, acceleration := .zero, force := .zero }
  else
    let acceleration := b.netAcceleration config
    let velocity := b.velocity + acceleration * dt
    { b with
      acceleration
      velocity := velocity - velocity * b.effectiveAirFriction config
      force := .zero }

/-- Whether two bodies are alike: vectors within the tolerance of single precision,
numbers exactly. -/
def alike (b c : Body) : Bool :=
  Scalar.same b.mass c.mass && Scalar.same b.friction c.friction &&
    sameOption b.airFriction c.airFriction && b.velocity.alike c.velocity &&
    b.acceleration.alike c.acceleration && b.force.alike c.force && b.fixed == c.fixed &&
    b.affectedByGravity == c.affectedByGravity && b.previousPosition.alike c.previousPosition
where
  /-- Both absent, or equal as numbers. -/
  sameOption : Option F32 → Option F32 → Bool
    | none, none => true
    | some x, some y => Scalar.same x y
    | _, _ => false

end Body

end SceneEngine
