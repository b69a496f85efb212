/-
Rendering: once a tick the visible entities and the active camera become a frame.
-/
import SceneEngine.Channel
import SceneEngine.World

namespace SceneEngine

/-- A renderer's end of the scene: where its frames go and how many went. -/
structure Rendering where
  frames : Channel Frame
  /-- The number of the next frame. -/
  next : Nat
deriving DecidableEq

namespace Rendering

/-- The name the system is registered under. -/
def systemName : String := "RenderSystem"

/-- What the system asks for. -/
def required : List Kind := [.transform, .drawable]

def new (capacity : Nat) : Rendering := ⟨.new capacity, 0⟩

/-- The entity with the lowest id that has both a camera and a transform. -/
def cameraEntity? (w : World) : Option (EntityId × Camera F32 × Transform F32) :=
  match w.storage.column? .camera with
  | none => none
  | some cameras =>
    let placed := cameras.toList.filterMap fun (e, c) => (w.get? .transform e).map (e, c, ·)
    placed.foldl (fun best entry =>
      match best with
      | none => some entry
      | some b => if entry.1 < b.1 then some entry else some b) none

/-- The matrices of the active camera; none when there is no camera or its view or
projection cannot be built. -/
def activeCamera (w : World) : Option FrameCamera := do
  let (entity, camera, t) ← cameraEntity? w
  let view ← (camera.view w.tolerance t).toOption
  let projection ← (camera.projection w.tolerance).toOption
  return ⟨entity, view, projection, t.position⟩

/-- The draw of one entity; none when it is hidden or has no normal matrix. -/
def packet (w : World) (e : EntityId) : Except SceneError (Option Packet) := do
  let d ← w.component .drawable e
  if !d.visible then return none
  let t ← w.component .transform e
  match t.normalMatrix w.tolerance with
  | .ok normal => return some ⟨e, d.mesh, d.material, t.modelMatrix, normal⟩
  | .error _ => return none

/-- The draws of the members of a system, in ascending order. -/
def packets (w : World) (id : SystemId) : Except SceneError (List Packet) := do
  let drawn ← (← w.members id).mapM (packet w)
  return drawn.filterMap fun p => p

/-- Builds a frame and sends it. The world is only read. -/
def step (r : Rendering) (id : SystemId) (w : World) : Except SceneError Rendering := do
  let packets ← packets w id
  return { frames := r.frames.send ⟨r.next, activeCamera w, packets⟩, next := r.next + 1 }

/-- The state of the system as text. -/
def describe (r : Rendering) : String := "RenderSystem \x7b frame: " ++ toString r.next ++ ", .. \x7d"

end Rendering

end SceneEngine
