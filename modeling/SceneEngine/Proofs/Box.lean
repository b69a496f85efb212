/-
Boxes in single precision, as long as none of their coordinates is a NaN.

The two tests for an overlap say the same in one direction: where the shared volume
comes out positive, the boxes intersect, since a depth that was a NaN or no number
above zero cannot be hidden in the product (`intersects_of_volume_pos`). A union
covers the boxes it is made of and every box that takes each axis from one of the two
(`covers_translate`), and boxes whose covers are apart on an axis do not intersect.
-/
import SceneEngine.Box
import SceneEngine.Proofs.Binary.Order

namespace SceneEngine.Box

/-! ## Overlap -/

theorem intersects_iff {α : Type} [Scalar α] {a b : Box α} :
    a.intersects b = true ↔ ∀ k : Fin 3, a.lower[k] < b.upper[k] ∧ b.lower[k] < a.upper[k] := by
  simp [intersects]

theorem intersects_comm {α : Type} [Scalar α] (a b : Box α) : a.intersects b = b.intersects a := by
  rw [Bool.eq_iff_iff, intersects_iff, intersects_iff]
  exact forall_congr' fun k => And.comm

@[simp] theorem lower_translate {α : Type} [Scalar α] (b : Box α) (p : Vec α 3) (k : Fin 3) :
    (b.translate p).lower[k] = b.lower[k] + p[k] := Vec.getElem_ofFn _ k

@[simp] theorem upper_translate {α : Type} [Scalar α] (b : Box α) (p : Vec α 3) (k : Fin 3) :
    (b.translate p).upper[k] = b.upper[k] + p[k] := Vec.getElem_ofFn _ k

variable {a b : Box F32}

/-- No coordinate is a NaN. -/
def Numeric (b : Box F32) : Prop :=
  ∀ k : Fin 3, b.lower[k].isNaN = false ∧ b.upper[k].isNaN = false

instance (b : Box F32) : Decidable b.Numeric :=
  inferInstanceAs (Decidable (∀ k : Fin 3, b.lower[k].isNaN = false ∧ b.upper[k].isNaN = false))

/-- A NaN stays in the product. -/
theorem not_pos_go_of_isNaN (l : List (Fin 3)) {volume : F32} (h : volume.isNaN = true) :
    ¬ 0 < intersectionVolume.go a b volume l := by
  induction l generalizing volume with
  | nil =>
    intro hpos
    have := (Binary.lt_iff.mp hpos).2.1
    simp [intersectionVolume.go, h] at this
  | cons k rest ih =>
    simp only [intersectionVolume.go]
    split
    · exact Binary.lt_irrefl 0
    · exact ih (Binary.isNaN_mul_left h)

/-- A product of depths is positive only when all of them are. -/
theorem overlapDepth_pos_of_go_pos (l : List (Fin 3)) {volume : F32}
    (h : 0 < intersectionVolume.go a b volume l) : ∀ k ∈ l, 0 < a.overlapDepth b k := by
  induction l generalizing volume with
  | nil => simp
  | cons k rest ih =>
    simp only [intersectionVolume.go] at h
    split at h
    · exact absurd h (Binary.lt_irrefl 0)
    · next hdepth =>
      have hnum : (a.overlapDepth b k).isNaN = false := by
        rw [← Bool.not_eq_true]
        exact fun hnan => not_pos_go_of_isNaN rest (Binary.isNaN_mul_right hnan) h
      have hpos : 0 < a.overlapDepth b k := by
        refine Decidable.byContradiction fun hlt => hdepth ?_
        exact Binary.le_of_not_lt hnum rfl hlt
      intro j hj
      rcases List.mem_cons.mp hj with rfl | hj
      · exact hpos
      · exact ih h j hj

/-- Boxes that share a positive volume intersect. -/
theorem intersects_of_volume_pos (ha : a.Numeric) (hb : b.Numeric)
    (h : 0 < a.intersectionVolume b) : a.intersects b = true := by
  refine intersects_iff.mpr fun k => ?_
  have hdepth := overlapDepth_pos_of_go_pos (List.finRange 3) h k (List.mem_finRange k)
  have hlt : (a.lower[k].greatest b.lower[k]).lt (a.upper[k].least b.upper[k]) = true :=
    Binary.lt_of_sub_pos hdepth
  constructor
  · exact Binary.lt_of_le_of_lt (Binary.le_greatest_left (ha k).1)
      (Binary.lt_of_lt_of_le hlt (Binary.least_le_right (hb k).2))
  · exact Binary.lt_of_le_of_lt (Binary.le_greatest_right (hb k).1)
      (Binary.lt_of_lt_of_le hlt (Binary.least_le_left (ha k).2))

/-- How deep two boxes reach into each other does not depend on which is named first; only
a depth of zero may differ in its sign. -/
theorem samePlace_overlapDepth (ha : a.Numeric) (hb : b.Numeric) (k : Fin 3) :
    (a.overlapDepth b k).SamePlace (b.overlapDepth a k) := by
  have hinf : 0 < Format.single.infinity := by decide
  have hupper := Binary.samePlace_least_comm (ha k).2 (hb k).2
  have hlower := Binary.samePlace_greatest_comm (ha k).1 (hb k).1
  have hu := (Binary.le_iff.mp (Binary.least_le_left (y := b.upper[k]) (ha k).2)).1
  have hl := (Binary.le_iff.mp (Binary.le_greatest_left (y := b.lower[k]) (ha k).1)).2.1
  exact hupper.sub hinf hlower hu hl

theorem volume_go_comm (ha : a.Numeric) (hb : b.Numeric) (volume : F32) (l : List (Fin 3)) :
    intersectionVolume.go a b volume l = intersectionVolume.go b a volume l := by
  induction l generalizing volume with
  | nil => rfl
  | cons k rest ih =>
    have hplace := samePlace_overlapDepth ha hb k
    have hle : a.overlapDepth b k ≤ 0 ↔ b.overlapDepth a k ≤ 0 := Bool.eq_iff_iff.mp (hplace.le_left 0)
    simp only [intersectionVolume.go]
    rcases Binary.eq_or_zero_of_key_eq hplace.2 with heq | ⟨hzero, _⟩
    · rw [heq, ih]
    · have hnone : a.overlapDepth b k ≤ 0 :=
        Binary.le_iff.mpr ⟨Binary.isNaN_of_zero hzero, rfl, by simp [Binary.key, hzero]; decide⟩
      rw [if_pos hnone, if_pos (hle.mp hnone)]

/-- The volume two boxes share does not depend on which is named first. -/
theorem intersectionVolume_comm (ha : a.Numeric) (hb : b.Numeric) :
    a.intersectionVolume b = b.intersectionVolume a :=
  volume_go_comm ha hb 1 (List.finRange 3)

/-! ## Covers -/

/-- Reaches at least as far on every axis, both ways. -/
def Covers (outer inner : Box F32) : Prop :=
  ∀ k : Fin 3, outer.lower[k] ≤ inner.lower[k] ∧ inner.upper[k] ≤ outer.upper[k]

theorem Covers.numeric (h : a.Covers b) : b.Numeric :=
  fun k => ⟨(Binary.le_iff.mp (h k).1).2.1, (Binary.le_iff.mp (h k).2).1⟩

/-- What covers boxes that intersect meets on every axis. -/
theorem Covers.meets {outer outer' : Box F32} (ha : outer.Covers a) (hb : outer'.Covers b)
    (h : a.intersects b = true) (k : Fin 3) : outer.lower[k] ≤ outer'.upper[k] := by
  have hlt := (intersects_iff.mp h k).1
  exact Binary.le_trans (ha k).1 (Binary.le_trans (Binary.le_of_lt hlt) (hb k).2)

@[simp] theorem lower_union (a b : Box F32) (k : Fin 3) :
    (a.union b).lower[k] = (a.lower[k].least b.lower[k]).least b.upper[k] := by
  simp [union, extend]
  rfl

@[simp] theorem upper_union (a b : Box F32) (k : Fin 3) :
    (a.union b).upper[k] = (a.upper[k].greatest b.lower[k]).greatest b.upper[k] := by
  simp [union, extend]
  rfl

/-- A NaN never wins, so what is no NaN in `a` is covered whatever `b` is. -/
theorem covers_union_left (ha : a.Numeric) (b : Box F32) : (a.union b).Covers a := by
  intro k
  have hlow := Binary.least_le_left (y := b.lower[k]) (ha k).1
  have hup := Binary.le_greatest_left (y := b.lower[k]) (ha k).2
  rw [lower_union, upper_union]
  exact ⟨Binary.le_trans (Binary.least_le_left (Binary.le_iff.mp hlow).1) hlow,
    Binary.le_trans hup (Binary.le_greatest_left (Binary.le_iff.mp hup).2.1)⟩

theorem covers_union_right (a : Box F32) (hb : b.Numeric) : (a.union b).Covers b := by
  intro k
  have hlow := Binary.least_le_right (x := a.lower[k]) (hb k).1
  rw [lower_union, upper_union]
  exact ⟨Binary.le_trans (Binary.least_le_left (Binary.le_iff.mp hlow).1) hlow,
    Binary.le_greatest_right (hb k).2⟩

/-- A union is never turned inside out. -/
theorem lower_union_le_upper (a : Box F32) (hb : b.Numeric) (k : Fin 3) :
    (a.union b).lower[k] ≤ (a.union b).upper[k] := by
  rw [lower_union]
  exact Binary.le_trans (Binary.least_le_right (hb k).2) (covers_union_right a hb k).2

/-- The box around a movement covers the box at every place that has each coordinate
from the start of the movement or from its end. -/
theorem covers_translate {p q r : Vec F32 3} (hp : (b.translate p).Numeric)
    (hq : (b.translate q).Numeric) (h : ∀ k : Fin 3, r[k] = p[k] ∨ r[k] = q[k]) :
    ((b.translate p).union (b.translate q)).Covers (b.translate r) := by
  intro k
  rw [lower_translate b r, upper_translate b r]
  rcases h k with hk | hk <;> rw [hk, ← lower_translate, ← upper_translate]
  · exact covers_union_left hp _ k
  · exact covers_union_right _ hq k

end SceneEngine.Box
