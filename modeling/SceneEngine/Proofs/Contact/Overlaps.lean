/-
The overlaps a contact step sees are those there are.

An overlap is a matter of the world alone: two solid members whose boxes share a positive
volume. A step looks for overlaps among candidate pairs of a snapshot. It finds each of
them once and in ascending order, since the snapshot keeps the order of ids and, as long
as no box has a NaN, no pair that overlaps is left out by the broad phase.
-/
import SceneEngine.Proofs.Contact.BroadPhase
import SceneEngine.Proofs.Contact.Settling

namespace SceneEngine

/-- By the first entity, then by the other. -/
def ContactEvent.Before (a b : ContactEvent) : Prop :=
  a.entity < b.entity ∨ a.entity = b.entity ∧ a.other < b.other

namespace Contact

variable {w : World} {id : SystemId} {e : EntityId}

/-! ## Overlaps in a world -/

/-- `b` is the box of a solid member of the system where it stands. -/
def Stands (w : World) (id : SystemId) (e : EntityId) (b : Box F32) : Prop :=
  ∃ ids c t, w.members id = .ok ids ∧ e ∈ ids ∧ w.get? .collider e = some c ∧ c.solid = true ∧
    w.get? .transform e = some t ∧ b = c.worldBounds t.position

/-- Two solid members, the lower id first, share the positive volume `v`. -/
def Overlap (w : World) (id : SystemId) (e f : EntityId) (v : F32) : Prop :=
  e < f ∧ ∃ a b, Stands w id e a ∧ Stands w id f b ∧ v = a.intersectionVolume b ∧ 0 < v

/-- The pairs that overlap. -/
def overlapping (w : World) (id : SystemId) : Set (EntityId × EntityId) :=
  {p | ∃ v, Overlap w id p.1 p.2 v}

/-! ## Overlaps in a snapshot -/

section Snapshot

variable {ids : List EntityId} {solids : Array Solid}

theorem Gathered.stands_iff (h : Gathered w id ids solids) {b : Box F32} :
    Stands w id e b ↔ ∃ s ∈ solids, s.entity = e ∧ s.current = b := by
  constructor
  · rintro ⟨ids', c, t, hm, he, hc, hsolid, ht, rfl⟩
    have hsame : ids = ids' := Except.ok.inj (h.members.symm.trans hm)
    refine ⟨.ofComponents e c t (w.get? .body e), ?_, rfl, rfl⟩
    exact (h.mem_iff _).mpr
      ⟨e, hsame ▸ he, snapshot_eq_some_iff.mpr ⟨c, t, hc, hsolid, ht, rfl⟩⟩
  · rintro ⟨s, hs, rfl, rfl⟩
    obtain ⟨e, he, hsnap⟩ := (h.mem_iff s).mp hs
    obtain ⟨c, t, hc, hsolid, ht, rfl⟩ := snapshot_eq_some_iff.mp hsnap
    exact ⟨ids, c, t, h.members, he, hc, hsolid, ht, rfl⟩

theorem Gathered.standing (h : Gathered w id ids solids) {s : Solid} (hs : s ∈ solids)
    (hnum : s.current.Numeric) : s.Standing := by
  obtain ⟨e, _, hsnap⟩ := (h.mem_iff s).mp hs
  obtain ⟨c, t, _, _, _, rfl⟩ := snapshot_eq_some_iff.mp hsnap
  exact ⟨⟨_, rfl⟩, hnum⟩

/-- Bodies come in ascending order of their entities. -/
theorem Gathered.strictMono (h : Gathered w id ids solids) (hids : ids.Pairwise (· < ·)) :
    StrictMono fun i => (solids.toVector.get i).entity := by
  intro i j hij
  have hasc := List.pairwise_map.mp (hids.sublist h.entities)
  exact List.pairwise_iff_getElem.mp hasc i j (by simp) (by simp) hij

end Snapshot

section Pairs

variable {n : Nat} {bodies : Vector Solid n} {event : ContactEvent}

/-- The event of a pair whose first body has the lower id. -/
theorem overlap_eq_some_iff {a b : Solid} (hlt : a.entity < b.entity) :
    (if 0 < a.current.intersectionVolume b.current then
        some (⟨min a.entity b.entity, max a.entity b.entity, a.current.intersectionVolume b.current⟩ :
          ContactEvent)
      else none) = some event ↔
      event.entity = a.entity ∧ event.other = b.entity ∧
        event.overlap = a.current.intersectionVolume b.current ∧ 0 < event.overlap := by
  rw [Option.ite_none_right_eq_some, min_eq_left hlt.le, max_eq_right hlt.le, Option.some.injEq]
  constructor
  · rintro ⟨hpos, rfl⟩
    exact ⟨rfl, rfl, rfl, hpos⟩
  · rintro ⟨he, ho, hv, hpos⟩
    exact ⟨hv ▸ hpos, by rw [← he, ← ho, ← hv]⟩

theorem mem_overlaps_allPairs (hasc : StrictMono fun i => (bodies.get i).entity) :
    event ∈ overlaps bodies (allPairs bodies) ↔ ∃ i j, i < j ∧
      event.entity = (bodies.get i).entity ∧ event.other = (bodies.get j).entity ∧
      event.overlap = (bodies.get i).current.intersectionVolume (bodies.get j).current ∧
      0 < event.overlap := by
  simp only [overlaps, List.mem_filterMap, mem_allPairs]
  constructor
  · rintro ⟨⟨i, j⟩, hij, h⟩
    exact ⟨i, j, hij, (overlap_eq_some_iff (hasc hij)).mp h⟩
  · rintro ⟨i, j, hij, h⟩
    exact ⟨(i, j), hij, (overlap_eq_some_iff (hasc hij)).mpr h⟩

/-- Events come in the order of their pairs, and entities compare as the places of their
bodies do. -/
theorem overlaps_allPairs_pairwise (hasc : StrictMono fun i => (bodies.get i).entity) :
    (overlaps bodies (allPairs bodies)).Pairwise ContactEvent.Before := by
  rw [overlaps, List.pairwise_filterMap]
  refine (allPairs_pairwise bodies).imp_of_mem ?_
  rintro ⟨i, j⟩ ⟨k, l⟩ hij hkl ⟨hle, hne⟩ a ha b hb
  obtain ⟨hae, hao, _⟩ := (overlap_eq_some_iff (hasc (mem_allPairs.mp hij))).mp ha
  obtain ⟨hbe, hbo, _⟩ := (overlap_eq_some_iff (hasc (mem_allPairs.mp hkl))).mp hb
  rw [ContactEvent.Before, hae, hao, hbe, hbo]
  simp only [Pair.le, decide_eq_true_eq, ne_eq, Prod.mk.injEq] at hle hne
  rcases hle with hik | ⟨rfl, hjl⟩
  · exact .inl (hasc hik)
  · exact .inr ⟨rfl, hasc (lt_of_le_of_ne hjl fun h => hne ⟨rfl, h⟩)⟩

end Pairs

/-! ## What a step finds -/

/-- No body of the snapshot has a NaN in its box where it stands. -/
def NumericBodies (w : World) (id : SystemId) : Prop :=
  ∀ solids, gather w id = .ok solids → ∀ s ∈ solids, s.current.Numeric

instance (w : World) (id : SystemId) : Decidable (NumericBodies w id) :=
  match hg : gather w id with
  | .error _ => .isTrue fun _ h => by simp [hg] at h
  | .ok solids =>
    decidable_of_iff (∀ s ∈ solids.toList, s.current.Numeric) (by simp [NumericBodies, hg])

section Found

variable {solids : Array Solid}

theorem found_eq_overlaps_allPairs (hg : gather w id = .ok solids) (hnum : NumericBodies w id) :
    found w id = overlaps solids.toVector (allPairs solids.toVector) := by
  obtain ⟨ids, h⟩ := exists_gathered hg
  have hstanding : ∀ i, (solids.toVector.get i).Standing := fun i => by
    have hs : solids.toVector.get i ∈ solids := Array.getElem_mem i.isLt
    exact h.standing hs (hnum solids hg _ hs)
  have hcand := candidatePairs_eq_filter fun i => (hstanding i).forward
  simp only [found, hg, hcand, overlaps_filter_of_standing hstanding]

theorem found_pairwise (hc : w.Coherent) (hg : gather w id = .ok solids)
    (hnum : NumericBodies w id) : (found w id).Pairwise ContactEvent.Before := by
  obtain ⟨ids, h⟩ := exists_gathered hg
  rw [found_eq_overlaps_allPairs hg hnum]
  exact overlaps_allPairs_pairwise (h.strictMono (hc.members_ascending h.members))

/-- A step finds exactly the overlaps of the world. -/
theorem mem_found_iff (hc : w.Coherent) (hg : gather w id = .ok solids) (hnum : NumericBodies w id)
    {event : ContactEvent} :
    event ∈ found w id ↔ Overlap w id event.entity event.other event.overlap := by
  obtain ⟨ids, h⟩ := exists_gathered hg
  have hasc := h.strictMono (hc.members_ascending h.members)
  rw [found_eq_overlaps_allPairs hg hnum, mem_overlaps_allPairs hasc]
  constructor
  · rintro ⟨i, j, hij, he, ho, hv, hpos⟩
    have hi : Stands w id _ _ := h.stands_iff.mpr ⟨_, Array.getElem_mem i.isLt, rfl, rfl⟩
    have hj : Stands w id _ _ := h.stands_iff.mpr ⟨_, Array.getElem_mem j.isLt, rfl, rfl⟩
    rw [Overlap, he, ho]
    exact ⟨hasc hij, _, _, hi, hj, hv, hpos⟩
  · rintro ⟨hlt, a, b, ha, hb, hv, hpos⟩
    obtain ⟨s, hs, hse, rfl⟩ := h.stands_iff.mp ha
    obtain ⟨t, ht, hte, rfl⟩ := h.stands_iff.mp hb
    obtain ⟨i, hi, rfl⟩ := Array.getElem_of_mem hs
    obtain ⟨j, hj, rfl⟩ := Array.getElem_of_mem ht
    -- The lower id stands at the lower place, so this is one of all pairs.
    rw [← hse, ← hte] at hlt
    exact ⟨⟨i, hi⟩, ⟨j, hj⟩, hasc.lt_iff_lt.mp hlt, hse.symm, hte.symm, hv, hpos⟩

end Found

end Contact

end SceneEngine
