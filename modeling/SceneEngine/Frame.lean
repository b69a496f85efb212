/-
What a renderer is given: for each frame a camera and a list of draws.
-/
import SceneEngine.SceneError
import SceneEngine.Mat

namespace SceneEngine

/-- Marks an entity as drawn, with a mesh and a material the renderer knows. -/
structure Drawable where
  mesh : Nat
  material : Nat
  visible : Bool
deriving DecidableEq

/-- One draw of one entity. -/
structure Packet where
  entity : EntityId
  mesh : Nat
  material : Nat
  model : Mat F32 4 4
  normal : Mat F32 3 3
deriving DecidableEq

/-- A packet's matrices as columns, those of the normal matrix padded to four. -/
structure InstanceData where
  model : Mat F32 4 4
  normal : Mat F32 3 4
deriving DecidableEq

namespace Packet

def instanceData (p : Packet) : InstanceData where
  model := p.model.transpose
  normal := .ofRows fun k =>
    let column := p.normal.transpose[k]
    .of4 column.x column.y column.z 0

end Packet

/-- The camera a frame is seen through. -/
structure FrameCamera where
  entity : EntityId
  view : Mat F32 4 4
  projection : Mat F32 4 4
  position : Vec F32 3
deriving DecidableEq

structure Frame where
  /-- Frames are counted from zero. -/
  number : Nat
  camera : Option FrameCamera
  /-- In ascending order of entities. -/
  packets : List Packet
deriving DecidableEq

end SceneEngine
