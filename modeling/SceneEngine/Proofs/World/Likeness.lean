/-
Worlds that differ only in how they keep their components.

The order of slots in a column tells of past removals, and the bit of a kind of what was
registered before it. Two worlds are `Alike` when every entity has the same components in
both. Their systems then have the same members (`Alike.members_eq`), so a snapshot of one
is a snapshot of the other (`Alike.gather_eq`), and so is what is drawn of them
(`Alike.packets_eq`). The camera is searched slot by slot, but it is the one with the
lowest id that is found (`cameraEntity?_eq_some_iff`).
-/
import Mathlib.Data.List.MinMax
import Mathlib.Data.List.Sort
import SceneEngine.Contact.Solid
import SceneEngine.Proofs.World.Parts
import SceneEngine.Proofs.World.Systems
import SceneEngine.World.Rendering

namespace SceneEngine

namespace World

/-- Every entity has the same components in both worlds, and comparisons are made alike. -/
structure Alike (w v : World) : Prop where
  parts : ∀ x, v.parts x = w.parts x
  tolerance : v.tolerance = w.tolerance

variable {w v : World} {id jd : SystemId}

theorem Alike.get?_eq (h : w.Alike v) (k : Kind) (x : EntityId) : v.get? k x = w.get? k x :=
  congrFun (h.parts x) k

/-- What is not live has no component. -/
theorem Coherent.get?_eq_none (h : w.Coherent) {x : EntityId} (hx : x ∉ w.livingEntities) (k : Kind) :
    w.get? k x = none := by
  refine h.get?_of_dead (Option.eq_none_iff_forall_ne_some.mpr fun s hs => hx ?_) k
  exact EntityTable.mem_livingIds.mpr ⟨s, hs⟩

/-- What is not live has no name. -/
theorem Coherent.name?_eq_none (h : w.Coherent) {x : EntityId} (hx : x ∉ w.livingEntities) :
    w.entities.name? x = none := by
  refine Option.eq_none_iff_forall_ne_some.mpr fun n hn => hx ?_
  exact EntityTable.mem_livingIds.mpr (EntityTable.isAlive_iff.mp (h.entities.named_alive x n hn))

/-- Components need only be compared of live entities and registered kinds. -/
theorem Coherent.parts_eq (hw : w.Coherent) (hv : v.Coherent)
    (hliving : v.livingEntities = w.livingEntities)
    (h : ∀ x ∈ w.livingEntities, ∀ k, k ∈ w.storage.kinds ∨ k ∈ v.storage.kinds →
      v.get? k x = w.get? k x) (x : EntityId) : v.parts x = w.parts x := by
  funext k
  by_cases hx : x ∈ w.livingEntities
  · by_cases hk : k ∈ w.storage.kinds ∨ k ∈ v.storage.kinds
    · exact h x hx k hk
    · rw [not_or] at hk
      exact (Storage.get?_eq_none_of_not_mem hk.2).trans (Storage.get?_eq_none_of_not_mem hk.1).symm
  · exact (hv.get?_eq_none (hliving ▸ hx) k).trans (hw.get?_eq_none hx k).symm

/-! ## Members and what is made of them -/

theorem Alike.members_eq {kinds : List Kind} (h : w.Alike v) (hne : kinds ≠ []) (hw : w.Coherent)
    (hv : v.Coherent) (ha : w.AsksExactly id kinds) (hb : v.AsksExactly jd kinds) :
    v.members jd = w.members id := by
  obtain ⟨ids, hm, _⟩ := ha.asks.members hw
  obtain ⟨jds, hn, _⟩ := hb.asks.members hv
  have hmem : ∀ x, x ∈ jds ↔ x ∈ ids := fun x => by
    rw [hb.mem_iff hne hv hn, ha.mem_iff hne hw hm]
    simp only [h.get?_eq]
  rw [hm, hn, (hv.members_ascending hn).eq_of_mem_iff (hw.members_ascending hm) hmem]

theorem Alike.gather_eq (h : w.Alike v) (hw : w.Coherent) (hv : v.Coherent) {kinds : List Kind}
    (hne : kinds ≠ []) (ha : w.AsksExactly id kinds) (hb : v.AsksExactly jd kinds) :
    Contact.gather v jd = Contact.gather w id := by
  have hsnapshot : Contact.snapshot v = Contact.snapshot w := by
    funext x
    simp only [Contact.snapshot, component, h.get?_eq]
  rw [Contact.gather, h.members_eq hne hw hv ha hb, hsnapshot, Contact.gather]

theorem Alike.packets_eq (h : w.Alike v) (hw : w.Coherent) (hv : v.Coherent) {kinds : List Kind}
    (hne : kinds ≠ []) (ha : w.AsksExactly id kinds) (hb : v.AsksExactly jd kinds) :
    Rendering.packets v jd = Rendering.packets w id := by
  have hpacket : Rendering.packet v = Rendering.packet w := by
    funext x
    simp only [Rendering.packet, component, h.get?_eq, h.tolerance]
  rw [Rendering.packets, h.members_eq hne hw hv ha hb, hpacket, Rendering.packets]

/-! ## The camera -/

/-- The cameras that have a place, in the order of their slots. -/
def placedCameras (w : World) (cameras : Column .camera) :
    List (EntityId × Camera F32 × Transform F32) :=
  cameras.toList.filterMap fun (x, c) => (w.get? .transform x).map (x, c, ·)

theorem cameraEntity?_eq (w : World) : Rendering.cameraEntity? w =
    (w.storage.column? .camera).bind fun cameras => (w.placedCameras cameras).argmin Prod.fst := by
  unfold Rendering.cameraEntity?
  cases w.storage.column? .camera with
  | none => rfl
  | some cameras =>
    dsimp only [Option.bind_some]
    rw [List.argmin, placedCameras]
    congr 1
    funext best entry
    cases best <;> rfl

theorem mem_placedCameras_iff (hs : w.storage.Sound) {cameras : Column .camera}
    (hcol : w.storage.column? .camera = some cameras) {x : EntityId} {c : Camera F32}
    {t : Transform F32} : (x, c, t) ∈ w.placedCameras cameras ↔
      w.get? .camera x = some c ∧ w.get? .transform x = some t := by
  have hget : w.get? .camera x = cameras.get? x := by rw [get?, Storage.get?, hcol, Option.bind_some]
  rw [hget, ← (hs.column hcol).mem_toList_iff, placedCameras, List.mem_filterMap]
  constructor
  · rintro ⟨⟨y, d⟩, hmem, hplaced⟩
    simp only [Option.map_eq_some_iff, Prod.mk.injEq] at hplaced
    obtain ⟨u, hu, rfl, rfl, rfl⟩ := hplaced
    exact ⟨hmem, hu⟩
  · rintro ⟨hmem, ht⟩
    exact ⟨(x, c), hmem, by simp [ht]⟩

/-- The camera that is found has the lowest id of all that have a place. -/
theorem cameraEntity?_eq_some_iff (hs : w.storage.Sound) {x : EntityId} {c : Camera F32}
    {t : Transform F32} : Rendering.cameraEntity? w = some (x, c, t) ↔
      (w.get? .camera x = some c ∧ w.get? .transform x = some t) ∧
      ∀ y, (w.get? .camera y).isSome = true → (w.get? .transform y).isSome = true → x ≤ y := by
  rw [cameraEntity?_eq]
  cases hcol : w.storage.column? .camera with
  | none =>
    have hnone : w.get? .camera x = none := by rw [get?, Storage.get?, hcol, Option.bind_none]
    simp [hnone]
  | some cameras =>
    rw [Option.bind_some]
    constructor
    · intro hmin
      refine ⟨(mem_placedCameras_iff hs hcol).mp (List.argmin_mem hmin), fun y hc ht => ?_⟩
      obtain ⟨d, hd⟩ := Option.isSome_iff_exists.mp hc
      obtain ⟨u, hu⟩ := Option.isSome_iff_exists.mp ht
      exact List.le_of_mem_argmin ((mem_placedCameras_iff hs hcol).mpr ⟨hd, hu⟩) hmin
    · rintro ⟨hx, hlowest⟩
      have hmem := (mem_placedCameras_iff hs hcol).mpr hx
      cases hmin : (w.placedCameras cameras).argmin Prod.fst with
      | none => simp [List.argmin_eq_none.mp hmin] at hmem
      | some best =>
        obtain ⟨y, d, u⟩ := best
        have hy := (mem_placedCameras_iff hs hcol).mp (List.argmin_mem hmin)
        have hle : x ≤ y := hlowest y (by simp [hy.1]) (by simp [hy.2])
        obtain rfl : y = x := le_antisymm (List.le_of_mem_argmin hmem hmin) hle
        rw [hx.1, hx.2, Option.some.injEq, Option.some.injEq] at hy
        rw [hy.1, hy.2]

theorem Alike.activeCamera_eq (h : w.Alike v) (hw : w.storage.Sound) (hv : v.storage.Sound) :
    Rendering.activeCamera v = Rendering.activeCamera w := by
  have hcamera : Rendering.cameraEntity? v = Rendering.cameraEntity? w :=
    Option.ext fun ⟨x, c, t⟩ => by
      rw [cameraEntity?_eq_some_iff hv, cameraEntity?_eq_some_iff hw]
      simp only [h.get?_eq]
  rw [Rendering.activeCamera, hcamera, h.tolerance, Rendering.activeCamera]

end World

end SceneEngine
