/-
What a frame shows of a world.

A frame draws every entity that is to be seen, each once and in ascending order, by what its
components are at that time, and looks through the camera with the lowest id (`Frame.Depicts`).
The renderer has all entities with the components it asks for, and a search over the slots of a
column finds the lowest id whatever their order, so this takes nothing but a world in step.
-/
import SceneEngine.Proofs.Engine.Sight
import SceneEngine.Proofs.World.ByOperations

namespace SceneEngine

variable {w : World} {id : SystemId} {tolerances : Set (Tolerance F64)}

/-- A draw of a live and visible entity as it is now, its normal matrix by this tolerance. -/
structure Packet.Portrays (w : World) (p : Packet) (t : Transform F32) (tolerance : Tolerance F64) :
    Prop where
  alive : w.isAlive p.entity = true
  transform : w.get? .transform p.entity = some t
  drawable : ∃ d, w.get? .drawable p.entity = some d ∧ d.visible = true ∧
    p.mesh = d.mesh ∧ p.material = d.material
  model : p.model = .model t.position t.rotation.toRadians t.scale
  normal : (Mat.model t.position t.rotation.toRadians t.scale).normalMatrix tolerance = .ok p.normal

/-- What a frame of the world should be, when refreshes have gone by these tolerances. -/
structure Frame.Depicts (tolerances : Set (Tolerance F64)) (w : World) (frame : Frame) : Prop where
  ascending : (frame.packets.map Packet.entity).Pairwise (· < ·)
  /-- Drawn is what is live and visible and has a normal matrix, by the tolerance of the world or
  by that of the last refresh. -/
  drawn : ∀ p : Packet, p ∈ frame.packets ↔ ∃ t tolerance,
    t.ReadBy tolerances w.tolerance tolerance ∧ p.Portrays w t tolerance
  camera : ∀ c : FrameCamera, frame.camera = some c ↔ w.isAlive c.entity = true ∧ ∃ camera t,
    w.FirstCamera c.entity camera t ∧ camera.view w.tolerance t = .ok c.view ∧
    camera.projection w.tolerance = .ok c.projection ∧ c.position = t.position
  unseen : frame.camera = none ↔
    (¬ ∃ x, w.isAlive x = true ∧ (w.get? .camera x).isSome = true ∧
      (w.get? .transform x).isSome = true) ∨
    ∃ x camera t, w.FirstCamera x camera t ∧
      ((∃ error, camera.view w.tolerance t = .error error) ∨
        ∃ error, camera.projection w.tolerance = .error error)

/-- When all refreshes go by the tolerance of the world, drawn is what has a normal matrix by it. -/
theorem Frame.Depicts.mem_packets_iff {frame : Frame} (h : frame.Depicts {w.tolerance} w)
    (p : Packet) : p ∈ frame.packets ↔ ∃ t, p.Portrays w t w.tolerance := by
  simp only [h.drawn, Transform.readBy_singleton, exists_eq_left]

namespace Rendering

/-! ## Draws -/

/-- The draw of an entity that has what the renderer asks for. -/
def draw (w : World) (x : EntityId) : Option Packet := do
  let d ← w.get? .drawable x
  let t ← w.get? .transform x
  if d.visible then
    (t.normalMatrix w.tolerance).toOption.map fun normal =>
      ⟨x, d.mesh, d.material, t.modelMatrix, normal⟩
  else none

theorem draw_eq_some_iff {x : EntityId} {p : Packet} : draw w x = some p ↔ p.entity = x ∧ ∃ t d,
    w.get? .transform x = some t ∧ w.get? .drawable x = some d ∧ d.visible = true ∧
    t.normalMatrix w.tolerance = .ok p.normal ∧ p.mesh = d.mesh ∧ p.material = d.material ∧
    p.model = t.modelMatrix := by
  constructor
  · intro h
    cases hd : w.get? .drawable x with
    | none => simp [draw, hd] at h
    | some d =>
      cases ht : w.get? .transform x with
      | none => simp [draw, hd, ht] at h
      | some t =>
        cases hvisible : d.visible with
        | false => simp [draw, hd, ht, hvisible] at h
        | true =>
          cases hnormal : t.normalMatrix w.tolerance with
          | error error => simp [draw, hd, ht, hnormal, Except.toOption] at h
          | ok normal =>
            simp only [draw, hd, ht, hvisible, hnormal, Except.toOption, Option.bind_eq_bind,
              Option.bind_some, if_true, Option.map_some, Option.some.injEq] at h
            subst h
            exact ⟨rfl, t, d, rfl, rfl, hvisible, hnormal, rfl, rfl, rfl⟩
  · rintro ⟨rfl, t, d, ht, hd, hvisible, hnormal, hmesh, hmaterial, hmodel⟩
    simp [draw, hd, ht, hvisible, hnormal, Except.toOption, ← hmesh, ← hmaterial, ← hmodel]

theorem packet_eq_draw {x : EntityId} (ht : (w.get? .transform x).isSome = true)
    (hd : (w.get? .drawable x).isSome = true) : packet w x = .ok (draw w x) := by
  obtain ⟨t, ht⟩ := Option.isSome_iff_exists.mp ht
  obtain ⟨d, hd⟩ := Option.isSome_iff_exists.mp hd
  cases hv : d.visible <;> cases hn : t.normalMatrix w.tolerance <;>
    simp [packet, draw, World.component, ht, hd, hv, hn, bind, Except.bind, pure, Except.pure,
      Except.toOption]

theorem exists_packets (hc : w.Coherent) (ha : w.AsksExactly id required) :
    ∃ ids, w.members id = .ok ids ∧ packets w id = .ok (ids.filterMap (draw w)) := by
  obtain ⟨ids, hm, hids⟩ := ha.asks.members hc
  have hdrawn : ids.mapM (packet w) = .ok (ids.map (draw w)) := by
    rw [mapM_eq_ok_iff, List.map_map]
    exact List.map_congr_left fun x hx => packet_eq_draw (hids x hx .transform (by simp [required]))
      (hids x hx .drawable (by simp [required]))
  refine ⟨ids, hm, ?_⟩
  simp [packets, hm, hdrawn, bind, Except.bind, pure, Except.pure, List.filterMap_map]

/-! ## The camera -/

theorem cameraEntity?_eq_some_iff (hs : w.storage.Sound) {x : EntityId} {c : Camera F32}
    {t : Transform F32} : cameraEntity? w = some (x, c, t) ↔ w.FirstCamera x c t := by
  rw [World.cameraEntity?_eq_some_iff hs]
  exact ⟨fun ⟨⟨hc, ht⟩, hlowest⟩ => ⟨hc, ht, hlowest⟩,
    fun h => ⟨⟨h.camera, h.place⟩, h.lowest⟩⟩

/-- No camera is found only where none has a place. -/
theorem not_placed_of_eq_none (hs : w.storage.Sound) (h : cameraEntity? w = none) {x : EntityId}
    (hcamera : (w.get? .camera x).isSome = true) : w.get? .transform x = none := by
  obtain ⟨c, hc⟩ := Option.isSome_iff_exists.mp hcamera
  rw [World.cameraEntity?_eq] at h
  cases hcol : w.storage.column? .camera with
  | none => simp [World.get?, Storage.get?, hcol] at hc
  | some cameras =>
    rw [hcol, Option.bind_some, List.argmin_eq_none] at h
    cases ht : w.get? .transform x with
    | none => rfl
    | some t =>
      have hmem := (World.mem_placedCameras_iff hs hcol).mpr ⟨hc, ht⟩
      rw [h] at hmem
      cases hmem

theorem activeCamera_eq_some_iff (hc : w.Coherent) {c : FrameCamera} :
    activeCamera w = some c ↔ ∃ camera t, w.FirstCamera c.entity camera t ∧
      camera.view w.tolerance t = .ok c.view ∧ camera.projection w.tolerance = .ok c.projection ∧
      c.position = t.position := by
  constructor
  · intro h
    cases hfound : cameraEntity? w with
    | none => simp [activeCamera, hfound] at h
    | some entry =>
      obtain ⟨x, camera, t⟩ := entry
      cases hview : camera.view w.tolerance t with
      | error error => simp [activeCamera, hfound, hview, Except.toOption] at h
      | ok view =>
        cases hprojection : camera.projection w.tolerance with
        | error error => simp [activeCamera, hfound, hview, hprojection, Except.toOption] at h
        | ok projection =>
          rw [activeCamera_of_ok hfound hview hprojection, Option.some.injEq] at h
          subst h
          exact ⟨camera, t, (cameraEntity?_eq_some_iff hc.storage).mp hfound, hview, hprojection, rfl⟩
  · rintro ⟨camera, t, hfirst, hview, hprojection, hposition⟩
    rw [activeCamera_of_ok (hfirst.found hc.storage) hview hprojection, ← hposition]

theorem activeCamera_eq_none_iff (hc : w.Coherent) : activeCamera w = none ↔
    (¬ ∃ x, w.isAlive x = true ∧ (w.get? .camera x).isSome = true ∧
      (w.get? .transform x).isSome = true) ∨
    ∃ x camera t, w.FirstCamera x camera t ∧
      ((∃ error, camera.view w.tolerance t = .error error) ∨
        ∃ error, camera.projection w.tolerance = .error error) := by
  cases hfound : cameraEntity? w with
  | none =>
    refine ⟨fun _ => .inl ?_, fun _ => by simp [activeCamera, hfound]⟩
    rintro ⟨x, -, hcamera, hplace⟩
    rw [not_placed_of_eq_none hc.storage hfound hcamera] at hplace
    cases hplace
  | some entry =>
    obtain ⟨x, camera, t⟩ := entry
    have hfirst := (cameraEntity?_eq_some_iff hc.storage).mp hfound
    have hplaced : ∃ x, w.isAlive x = true ∧ (w.get? .camera x).isSome = true ∧
        (w.get? .transform x).isSome = true :=
      ⟨x, hc.isAlive (Option.isSome_of_eq_some hfirst.place), Option.isSome_of_eq_some hfirst.camera,
        Option.isSome_of_eq_some hfirst.place⟩
    constructor
    · intro h
      refine .inr ⟨x, camera, t, hfirst, ?_⟩
      cases hview : camera.view w.tolerance t with
      | error error => exact .inl ⟨error, rfl⟩
      | ok view =>
        cases hprojection : camera.projection w.tolerance with
        | error error => exact .inr ⟨error, rfl⟩
        | ok projection => simp [activeCamera_of_ok hfound hview hprojection] at h
    · rintro (hnone | ⟨x', camera', t', hfirst', hfails⟩)
      · exact absurd hplaced hnone
      · -- There is one first camera.
        have hfound' := hfirst'.found hc.storage
        rw [hfound, Option.some.injEq, Prod.mk.injEq, Prod.mk.injEq] at hfound'
        obtain ⟨rfl, rfl, rfl⟩ := hfound'
        obtain ⟨error, hview⟩ | ⟨error, hprojection⟩ := hfails
        · exact activeCamera_of_error hfound hview
        · simp [activeCamera, hfound, hprojection, Except.toOption]

/-! ## Frames -/

/-- The frame that is sent next. -/
def frame (r : Rendering) (id : SystemId) (w : World) : Except SceneError Frame :=
  (packets w id).map fun packets => ⟨r.next, activeCamera w, packets⟩

theorem step_eq (r : Rendering) (id : SystemId) (w : World) :
    r.step id w = (r.frame id w).map fun frame => ⟨r.frames.send frame, r.next + 1⟩ := by
  unfold step frame
  cases packets w id <;> rfl

theorem exists_depicts (h : w.Placed tolerances) (ha : w.AsksExactly id required) (r : Rendering) :
    ∃ frame, r.frame id w = .ok frame ∧ frame.number = r.next ∧ frame.Depicts tolerances w := by
  obtain ⟨ids, hm, hpackets⟩ := exists_packets h.coherent ha
  refine ⟨⟨r.next, activeCamera w, ids.filterMap (draw w)⟩, by rw [frame, hpackets]; rfl, rfl, ?_⟩
  refine ⟨?_, fun p => ?_, fun c => ?_, activeCamera_eq_none_iff h.coherent⟩
  · rw [List.pairwise_map]
    refine (h.coherent.members_ascending hm).filterMap _ fun x y hxy p hp q hq => ?_
    rw [(draw_eq_some_iff.mp hp).1, (draw_eq_some_iff.mp hq).1]
    exact hxy
  · rw [List.mem_filterMap]
    simp only [draw_eq_some_iff]
    constructor
    · rintro ⟨x, -, rfl, t, d, ht, hd, hvisible, hnormal, hmesh, hmaterial, hmodel⟩
      obtain ⟨tolerance, hread, hcomputed⟩ :=
        ((h.currentBy ht).normalMatrix_eq_ok_iff _ _).mp hnormal
      exact ⟨t, tolerance, hread, h.coherent.isAlive (Option.isSome_of_eq_some ht), ht,
        ⟨d, hd, hvisible, hmesh, hmaterial⟩, hmodel.trans (h.currentBy ht).modelMatrix_eq, hcomputed⟩
    · rintro ⟨t, tolerance, hread, hp⟩
      obtain ⟨d, hd, hvisible, hmesh, hmaterial⟩ := hp.drawable
      have hmem : p.entity ∈ ids := (ha.mem_iff (by decide) h.coherent hm).mpr fun k hk => by
        simp only [required, List.mem_cons, List.not_mem_nil, or_false] at hk
        rcases hk with rfl | rfl
        · exact Option.isSome_of_eq_some hp.transform
        · exact Option.isSome_of_eq_some hd
      have hcurrent := h.currentBy hp.transform
      have hnormal := (hcurrent.normalMatrix_eq_ok_iff _ _).mpr ⟨tolerance, hread, hp.normal⟩
      exact ⟨p.entity, hmem, rfl, t, d, hp.transform, hd, hvisible, hnormal, hmesh, hmaterial,
        hp.model.trans hcurrent.modelMatrix_eq.symm⟩
  · rw [activeCamera_eq_some_iff h.coherent]
    constructor
    · rintro ⟨camera, t, hfirst, hshown⟩
      exact ⟨h.coherent.isAlive (Option.isSome_of_eq_some hfirst.place), camera, t, hfirst, hshown⟩
    · exact And.right

end Rendering

end SceneEngine
