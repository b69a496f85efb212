import SceneEngine.Bench
import SceneEngine.Config.Document
import SceneEngine.Engine
import SceneEngine.Proofs.Contact.FirstContact
import SceneEngine.Proofs.Engine.Progress
import SceneEngine.Proofs.Mat.Elimination
import SceneEngine.Proofs.World.Refinement
import SceneEngine.Transform.Interpolation
import SceneEngine.Proofs.Entities.Reuse
import SceneEngine.Proofs.Contact.Outcome
import SceneEngine.Proofs.Contact.Clearance
import SceneEngine.Proofs.Engine.Step
import SceneEngine.Proofs.Clock
import SceneEngine.Proofs.World.Failure
import SceneEngine.Proofs.Engine.Kept
import SceneEngine.Proofs.Engine.Likeness
import SceneEngine.Proofs.Transform
import SceneEngine.Proofs.Storage.FiniteMap
import SceneEngine.Proofs.World.Lives
import SceneEngine.Proofs.World.Newcomers
import SceneEngine.Proofs.Channel
import SceneEngine.Proofs.Engine.Acceptance
import SceneEngine.Proofs.Engine.Deliveries
import SceneEngine.Proofs.World.Numbering
import SceneEngine.Proofs.Contact.Resolution
import SceneEngine.Proofs.World.Values
import SceneEngine.Proofs.Contact.Report
import SceneEngine.Proofs.Box.Thickness
import SceneEngine.Proofs.Box.Hull
import SceneEngine.Proofs.Config.Ranges
import SceneEngine.Proofs.Mat.Model
import SceneEngine.Proofs.Contact.Ground
import SceneEngine.Proofs.Contact.RestingOverlaps
import SceneEngine.Proofs.Mat.Rank
import SceneEngine.Proofs.Mat.Shape
import SceneEngine.Proofs.Binary.Rounding
import SceneEngine.Proofs.Engine.Leftover
import SceneEngine.Proofs.Transform.Wrapping
import SceneEngine.Proofs.Engine.Wrapping
import SceneEngine.Proofs.Vec
import SceneEngine.Proofs.Contact.Response
import SceneEngine.Proofs.Mat.Affine
import SceneEngine.Proofs.Mat.Rotation
import SceneEngine.Proofs.Mat.Transpose
import SceneEngine.Proofs.Mat.Normal
import SceneEngine.Proofs.Mat.View
import SceneEngine.Proofs.Camera
import SceneEngine.Proofs.Camera.Viewport
import SceneEngine.Proofs.Camera.Projection
import SceneEngine.Proofs.Mat.Overflow
import SceneEngine.Proofs.Engine.Sight
import SceneEngine.Proofs.Engine.Frames
import SceneEngine.Proofs.Mat.Layout
import SceneEngine.Proofs.Contact.Candidates
import SceneEngine.Proofs.Config.RoundTrip
