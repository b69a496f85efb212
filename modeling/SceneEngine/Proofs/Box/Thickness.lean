/-
Two tests for an overlap, read without rounding.

Boxes intersect when each begins before the other ends, on every axis. They share a volume when
the later beginning comes before the earlier end, and then each box also begins before its own
end. So the tests differ on flat boxes: one that lies within another intersects it, and the
volume they share is zero. For boxes as they are made, which never end before they begin, this
is the only difference (`volume_pos_iff_intersects`).
-/
import Mathlib.Tactic.NormNum
import SceneEngine.Proofs.Box
import SceneEngine.Proofs.Exact

namespace SceneEngine.Box

open scoped Exact

section Field

variable {K : Type} [LinearOrder K] {a b : Box K}

/-! ## Boxes as they are made -/

/-- Ends nowhere before it begins. -/
def Ordered (b : Box K) : Prop := ∀ k : Fin 3, b.lower[k] ≤ b.upper[k]

/-- Has no thickness on some axis. -/
def Flat (b : Box K) : Prop := ∃ k : Fin 3, b.lower[k] = b.upper[k]

theorem Ordered.not_flat_iff (h : b.Ordered) : ¬ b.Flat ↔ ∀ k : Fin 3, b.lower[k] < b.upper[k] := by
  rw [Flat, not_exists]
  exact forall_congr' fun k => (h k).lt_iff_ne.symm

variable [Field K] [FieldFunctions K]

/-- The boxes there are: those of corners, of a size or around points, moved and united. -/
inductive Made : Box K → Prop
  | ofCorners (p q : Vec K 3) : Made (.ofCorners p q)
  | ofExtents (width height depth : K) : Made (.ofExtents width height depth)
  | ofPoints {points : List (Vec K 3)} {b : Box K} (h : ofPoints? points = some b) : Made b
  | translate {b : Box K} (h : Made b) (offset : Vec K 3) : Made (b.translate offset)
  | union {a b : Box K} (ha : Made a) (hb : Made b) : Made (a.union b)

theorem Ordered.extend (h : b.Ordered) (p : Vec K 3) : (b.extend p).Ordered := by
  intro k
  simp only [Box.extend, Vec.getElem_ofFn]
  exact (min_le_left _ _).trans ((h k).trans (le_max_left _ _))

theorem ordered_foldl_extend (points : List (Vec K 3)) (h : b.Ordered) :
    (points.foldl Box.extend b).Ordered := by
  induction points generalizing b with
  | nil => exact h
  | cons p rest ih => exact ih (h.extend p)

variable [IsStrictOrderedRing K]

theorem ordered_ofExtents (width height depth : K) : (ofExtents width height depth).Ordered := by
  have hhalf : (0 : K) ≤ Scalar.half := by
    show (0 : K) ≤ 1 / (1 + 1)
    positivity
  have hsize : ∀ k : Fin 3, 0 ≤ (Vec.of3 |width| |height| |depth|)[k]
    | 0 => abs_nonneg width
    | 1 => abs_nonneg height
    | 2 => abs_nonneg depth
  intro k
  have hlower : (ofExtents width height depth).lower[k] = -(ofExtents width height depth).upper[k] :=
    Vec.getElem_ofFn _ k
  have hupper : (ofExtents width height depth).upper[k] =
      (Vec.of3 |width| |height| |depth|)[k] * Scalar.half := Vec.getElem_ofFn _ k
  rw [hlower, hupper]
  exact neg_le_self (mul_nonneg (hsize k) hhalf)

theorem Made.ordered (h : b.Made) : b.Ordered := by
  induction h with
  | ofCorners p q =>
    intro k
    simp only [Box.ofCorners, Vec.getElem_ofFn]
    exact min_le_max
  | ofExtents width height depth => exact ordered_ofExtents width height depth
  | @ofPoints points b h =>
    cases points with
    | nil => cases h
    | cons p rest =>
      obtain rfl := Option.some.inj h
      exact ordered_foldl_extend rest fun k => le_refl _
  | translate _ offset ih =>
    intro k
    rw [lower_translate, upper_translate]
    exact add_le_add_left (ih k) _
  | union _ _ iha _ => exact (iha.extend _).extend _

/-! ## The two tests -/

theorem go_pos_iff (l : List (Fin 3)) {volume : K} (hvolume : 0 < volume) :
    0 < intersectionVolume.go a b volume l ↔ ∀ k ∈ l, 0 < a.overlapDepth b k := by
  induction l generalizing volume with
  | nil => simpa [intersectionVolume.go] using hvolume
  | cons k rest ih =>
    simp only [intersectionVolume.go]
    split
    · next hdepth =>
      refine iff_of_false (lt_irrefl 0) fun hall => ?_
      exact absurd (hall k (by simp)) (not_lt.mpr hdepth)
    · next hdepth =>
      rw [not_le] at hdepth
      rw [ih (mul_pos hvolume hdepth)]
      simp [hdepth]

theorem volume_pos_iff : 0 < a.intersectionVolume b ↔ ∀ k, 0 < a.overlapDepth b k := by
  rw [intersectionVolume, go_pos_iff _ one_pos]
  simp

/-- The part two boxes share has a thickness on an axis when both boxes have one, and each
begins before the other ends. -/
theorem overlapDepth_pos_iff {k : Fin 3} : 0 < a.overlapDepth b k ↔
    (a.lower[k] < b.upper[k] ∧ b.lower[k] < a.upper[k]) ∧
      a.lower[k] < a.upper[k] ∧ b.lower[k] < b.upper[k] := by
  have hdepth : 0 < a.overlapDepth b k ↔ max a.lower[k] b.lower[k] < min a.upper[k] b.upper[k] :=
    sub_pos
  rw [hdepth, max_lt_iff, lt_min_iff, lt_min_iff]
  tauto

/-- **The tests for an overlap differ on flat boxes only.** Without rounding, boxes as they are
made end nowhere before they begin, and two of them share a positive volume if they intersect
and neither is flat. -/
theorem volume_pos_iff_intersects (ha : a.Made) (hb : b.Made) : a.Ordered ∧ b.Ordered ∧
    (0 < a.intersectionVolume b ↔ a.intersects b = true ∧ ¬ a.Flat ∧ ¬ b.Flat) := by
  refine ⟨ha.ordered, hb.ordered, ?_⟩
  rw [volume_pos_iff, intersects_iff, ha.ordered.not_flat_iff, hb.ordered.not_flat_iff]
  simp only [overlapDepth_pos_iff, forall_and]

end Field

/-- A cube that reaches half into another. -/
theorem volume_pos_iff_intersects_halfway :
    ∃ (_ : FieldFunctions ℚ) (a b : Box ℚ), a.Made ∧ b.Made ∧ a.intersects b = true ∧
      ¬ a.Flat ∧ ¬ b.Flat ∧ 0 < a.intersectionVolume b := by
  let functions : FieldFunctions ℚ := .arithmetic
  let cube : Box ℚ := .ofExtents 1 1 1
  let moved : Box ℚ := cube.translate (.of3 (1 / 2) 0 0)
  have hcube : cube.Made := .ofExtents 1 1 1
  have hmoved : moved.Made := hcube.translate _
  have hmeet : cube.intersects moved = true := by decide +kernel
  have hthick : ¬ cube.Flat ∧ ¬ moved.Flat := by
    unfold Flat
    decide +kernel
  obtain ⟨_, _, hpos⟩ := volume_pos_iff_intersects hcube hmoved
  exact ⟨functions, cube, moved, hcube, hmoved, hmeet, hthick.1, hthick.2, hpos.mpr ⟨hmeet, hthick⟩⟩

/-- A plate within a cube: they intersect, and share no volume. -/
theorem flat_box_intersects :
    ∃ (_ : FieldFunctions ℚ) (a b : Box ℚ), a.Made ∧ b.Made ∧
      ¬ (a.intersects b = true ↔ 0 < a.intersectionVolume b) := by
  let functions : FieldFunctions ℚ := .arithmetic
  let plate : Box ℚ := .ofExtents 1 0 1
  let cube : Box ℚ := .ofExtents 1 1 1
  have hmeet : plate.intersects cube = true := by decide +kernel
  have hnone : ¬ 0 < plate.intersectionVolume cube := by decide +kernel
  exact ⟨functions, plate, cube, .ofExtents 1 0 1, .ofExtents 1 1 1, fun h => hnone (h.mp hmeet)⟩

end SceneEngine.Box
