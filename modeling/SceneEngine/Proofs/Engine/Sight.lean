/-
Which frames show a camera.

A frame shows the placed camera with the lowest id, if that has a view and a projection, and is sent
without one otherwise: no frame is held back for it. With Proofs/Camera/Sight.lean this tells frames by
where the camera stands. Within reach only the projection can be what is missing; a camera whose step
forward is lost to rounding is left out of every frame, whatever its projection (`step_sight`).
-/
import SceneEngine.Proofs.Camera.Sight
import SceneEngine.Proofs.Engine.Likeness

namespace SceneEngine

variable {w : World} {e : EntityId} {c : Camera F32} {t : Transform F32}

/-- The camera that a frame would show: the one with the lowest id of all that have a place. -/
structure World.FirstCamera (w : World) (e : EntityId) (c : Camera F32) (t : Transform F32) : Prop where
  camera : w.get? .camera e = some c
  place : w.get? .transform e = some t
  lowest : ∀ x, (w.get? .camera x).isSome = true → (w.get? .transform x).isSome = true → e ≤ x

theorem World.FirstCamera.found (h : w.FirstCamera e c t) (hs : w.storage.Sound) :
    Rendering.cameraEntity? w = some (e, c, t) :=
  (cameraEntity?_eq_some_iff hs).mpr ⟨⟨h.camera, h.place⟩, h.lowest⟩

namespace Rendering

/-- A camera is shown when both its matrices can be built. -/
theorem activeCamera_of_ok {v p : Mat F32 4 4} (hfound : cameraEntity? w = some (e, c, t))
    (hview : c.view w.tolerance t = .ok v) (hprojection : c.projection w.tolerance = .ok p) :
    activeCamera w = some ⟨e, v, p, t.position⟩ := by
  simp [activeCamera, hfound, hview, hprojection, Except.toOption]

theorem activeCamera_of_error {error : NumericError F64} (hfound : cameraEntity? w = some (e, c, t))
    (hview : c.view w.tolerance t = .error error) : activeCamera w = none := by
  simp [activeCamera, hfound, hview, Except.toOption]

/-- What is drawn does not depend on the camera, and a frame is sent in any case. -/
theorem exists_frame {id : SystemId} (hc : w.Coherent) (ha : w.Asks id required) (r : Rendering) :
    ∃ packets, r.step id w = .ok ⟨r.frames.send ⟨r.next, activeCamera w, packets⟩, r.next + 1⟩ := by
  obtain ⟨r', hstep⟩ := exists_step hc ha r
  obtain ⟨packets, -, rfl⟩ := step_eq_ok_iff.mp hstep
  exact ⟨packets, hstep⟩

/-- A camera within reach has a view, and one that is out of reach has none. So a frame shows the first
camera when it is within reach and its projection is valid, and no camera when its step is lost. -/
theorem step_sight (c : Camera F32) (t : Transform F32) (hrotation : t.rotation.Finite) :
    (t.WithinReach → ∃ v, c.view Tolerance.single t = .ok v) ∧
    (t.OutOfReach → t.LosesStep) ∧
    (t.LosesStep → c.view Tolerance.single t = .error (.zeroLengthVector 0)) ∧
    ∀ (w : World) (id : SystemId) (r : Rendering) (e : EntityId),
      w.Reachable → w.tolerance = .single → w.Asks id required → w.FirstCamera e c t →
      ∃ shown packets, r.step id w = .ok ⟨r.frames.send ⟨r.next, shown, packets⟩, r.next + 1⟩ ∧
        (t.WithinReach → ∀ p, c.projection Tolerance.single = .ok p →
          ∃ v, c.view Tolerance.single t = .ok v ∧ shown = some ⟨e, v, p, t.position⟩) ∧
        (t.LosesStep → shown = none) := by
  refine ⟨Camera.exists_view c hrotation, fun hfar => hfar.losesStep hrotation,
    fun hlost => hlost.view c, ?_⟩
  intro w id r e hw htolerance ha hfirst
  have hc := hw.coherent
  have hfound := hfirst.found hc.storage
  obtain ⟨packets, hstep⟩ := exists_frame hc ha r
  refine ⟨activeCamera w, packets, hstep, fun hnear p hp => ?_, fun hlost => ?_⟩
  · obtain ⟨v, hv⟩ := Camera.exists_view c hrotation hnear
    rw [← htolerance] at hv hp
    exact ⟨v, htolerance ▸ hv, activeCamera_of_ok hfound hv hp⟩
  · have hnone := hlost.view c
    rw [← htolerance] at hnone
    exact activeCamera_of_error hfound hnone

/-- A world with a renderer and one entity, which is a camera and stands at `t`. -/
def staged (t : Transform F32) : World :=
  let empty : World := ⟨.withLimit 1, .new 4, .empty, .single⟩
  let watched := empty.after (World.registerSystemFor systemName required)
  let peopled := watched.after (World.serve (.create none))
  (peopled.after (World.serve (.add .transform 0 t))).after (World.serve (.add .camera 0 .standard))

theorem reachable_staged (t : Transform F32) : (staged t).Reachable := by
  have hnew : World.new ⟨1, 4⟩ .single = .ok ⟨.withLimit 1, .new 4, .empty, .single⟩ := rfl
  exact .serve _ (.serve _ (.serve _ (.registerSystemFor _ _ (.new hnew))))

/-- At the origin the camera is shown, a hundred million out on every axis it is not. -/
theorem step_sight_two_places :
    let near : Transform F32 := .origin
    let far : Transform F32 := .ofPosition (.splat ((100000000 : Nat) : F32))
    (∃ v p packets, (new 1).step 0 (staged near) =
      .ok ⟨(Channel.new 1).send ⟨0, some ⟨0, v, p, .zero⟩, packets⟩, 1⟩) ∧
    ∃ packets, (new 1).step 0 (staged far) = .ok ⟨(Channel.new 1).send ⟨0, none, packets⟩, 1⟩ := by
  intro near far
  have hfirst (t : Transform F32) (hcamera : (staged t).get? .camera 0 = some .standard)
      (hplace : (staged t).get? .transform 0 = some t) : (staged t).FirstCamera 0 .standard t :=
    ⟨hcamera, hplace, fun x _ _ => Nat.zero_le x⟩
  constructor
  · obtain ⟨-, -, -, hframe⟩ := step_sight .standard near (by decide +kernel)
    obtain ⟨shown, packets, hstep, hshown, -⟩ := hframe (staged near) 0 (new 1) 0 (reachable_staged near)
      (by decide +kernel) (by decide +kernel) (hfirst near (by decide +kernel) (by decide +kernel))
    obtain ⟨p, hp⟩ : ∃ p, (Camera.standard : Camera F32).projection Tolerance.single = .ok p := by
      have hsome :
          ((Camera.standard : Camera F32).projection Tolerance.single).toOption.isSome = true := by
        decide +kernel
      cases hresult : (Camera.standard : Camera F32).projection Tolerance.single with
      | ok p => exact ⟨p, rfl⟩
      | error error => rw [hresult] at hsome; cases hsome
    obtain ⟨v, -, rfl⟩ := hshown (by decide +kernel) p hp
    exact ⟨v, p, packets, hstep⟩
  · obtain ⟨-, hlost, -, hframe⟩ := step_sight .standard far (by decide +kernel)
    obtain ⟨shown, packets, hstep, -, hshown⟩ := hframe (staged far) 0 (new 1) 0 (reachable_staged far)
      (by decide +kernel) (by decide +kernel) (hfirst far (by decide +kernel) (by decide +kernel))
    obtain rfl := hshown (hlost ⟨by decide +kernel, by decide +kernel⟩)
    exact ⟨packets, hstep⟩

end Rendering

end SceneEngine
