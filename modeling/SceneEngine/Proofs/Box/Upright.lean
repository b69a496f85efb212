/-
Boxes are never turned inside out.

Whatever corners, sizes or points a box is made of, and wherever it is moved, on no axis does it
end before it begins (`Formed.upright`), rounding and NaNs included. A corner that is a NaN compares
with nothing, so a box without one begins at most where it ends.
-/
import SceneEngine.Proofs.Binary.Special
import SceneEngine.Proofs.Box

namespace SceneEngine.Box

/-- The boxes there are in single precision. -/
inductive Formed : Box F32 → Prop
  | empty : Formed .empty
  | ofCorners (p q : Vec F32 3) : Formed (.ofCorners p q)
  | ofExtents (width height depth : F32) : Formed (.ofExtents width height depth)
  | ofPoints {points : List (Vec F32 3)} {b : Box F32} (h : ofPoints? points = some b) : Formed b
  | translate {b : Box F32} (h : Formed b) (offset : Vec F32 3) : Formed (b.translate offset)
  | union {a b : Box F32} (ha : Formed a) (hb : Formed b) : Formed (a.union b)
  | transform {b : Box F32} (h : Formed b) (m : Mat F32 4 4) : Formed (b.transform m)

/-- Ends nowhere before it begins. -/
def Upright (b : Box F32) : Prop := ∀ k : Fin 3, ¬ b.upper[k] < b.lower[k]

variable {a b : Box F32}

theorem Upright.lower_le_upper (h : b.Upright) (hnum : b.Numeric) (k : Fin 3) :
    b.lower[k] ≤ b.upper[k] := Binary.le_of_not_lt (hnum k).1 (hnum k).2 (h k)

theorem upright_point (p : Vec F32 3) : Upright ⟨p, p⟩ := fun _ => Binary.lt_irrefl _

theorem upright_ofCorners (p q : Vec F32 3) : (ofCorners p q).Upright := by
  intro k
  have hlower : (ofCorners p q).lower[k] = p[k].least q[k] := Vec.getElem_ofFn _ k
  have hupper : (ofCorners p q).upper[k] = p[k].greatest q[k] := Vec.getElem_ofFn _ k
  rw [hlower, hupper]
  cases hq : q[k].isNaN with
  | true =>
    simp only [Binary.least, Binary.greatest, hq, if_true]
    exact Binary.lt_irrefl _
  | false =>
    exact Binary.not_lt_of_le (Binary.le_trans (Binary.least_le_right hq) (Binary.le_greatest_right hq))

theorem Upright.extend (h : b.Upright) (p : Vec F32 3) : (b.extend p).Upright := by
  intro k
  have hlower : (b.extend p).lower[k] = b.lower[k].least p[k] := Vec.getElem_ofFn _ k
  have hupper : (b.extend p).upper[k] = b.upper[k].greatest p[k] := Vec.getElem_ofFn _ k
  rw [hlower, hupper]
  cases hp : p[k].isNaN with
  | true =>
    simp only [Binary.least, Binary.greatest, hp, if_true]
    exact h k
  | false =>
    exact Binary.not_lt_of_le (Binary.le_trans (Binary.least_le_right hp) (Binary.le_greatest_right hp))

theorem upright_ofPoints {points : List (Vec F32 3)} (h : ofPoints? points = some b) : b.Upright := by
  have hfold : ∀ (points : List (Vec F32 3)) {b : Box F32},
      b.Upright → (points.foldl Box.extend b).Upright := by
    intro points
    induction points with
    | nil => exact fun hb => hb
    | cons p rest ih => exact fun hb => ih (hb.extend p)
  cases points with
  | nil => cases h
  | cons p rest =>
    obtain rfl := Option.some.inj h
    exact hfold rest (upright_point p)

/-- Half a size is no NaN only when it has the sign of the size. -/
theorem negative_half {x : F32} (h : (x.mul Scalar.half).isNaN = false) (hx : x.negative = false) :
    (x.mul Scalar.half).negative = false := by
  have hnan : (Scalar.half : F32).isNaN = false := by decide +kernel
  have hzero : (Scalar.half : F32).isZero = false := by decide +kernel
  have hsign : (Scalar.half : F32).negative = false := by decide +kernel
  unfold Binary.mul at h ⊢
  cases hxnan : x.isNaN with
  | true => simp [hxnan] at h
  | false =>
    simp only [hxnan, hnan, hzero, hsign, hx, Bool.or_false, Bool.false_eq_true, if_false] at h ⊢
    split
    · next hinf =>
      rw [if_pos hinf] at h
      cases hxzero : x.isZero with
      | true =>
        rw [hxzero, if_pos rfl] at h
        exact absurd h (by decide)
      | false => rfl
    · rfl

/-- Half a size is not below zero, so the other side of zero is not above it. -/
theorem upright_ofExtents (width height depth : F32) : (ofExtents width height depth).Upright := by
  intro k hlt
  have hsize : (Vec.of3 width.abs height.abs depth.abs)[k].negative = false := by
    match k with
    | 0 => rfl
    | 1 => rfl
    | 2 => rfl
  have hupper : (ofExtents width height depth).upper[k] =
      (Vec.of3 width.abs height.abs depth.abs)[k].mul Scalar.half := Vec.getElem_ofFn _ k
  have hlower : (ofExtents width height depth).lower[k] = (ofExtents width height depth).upper[k].neg :=
    Vec.getElem_ofFn _ k
  rw [hlower, hupper] at hlt
  obtain ⟨hnan, -, hkey⟩ := Binary.lt_iff.mp hlt
  have hnonneg := Binary.key_nonneg (negative_half hnan hsize)
  rw [Binary.key_neg] at hkey
  omega

theorem Upright.translate (h : b.Upright) (offset : Vec F32 3) : (b.translate offset).Upright := by
  intro k hlt
  rw [lower_translate, upper_translate] at hlt
  obtain ⟨hupper, hlower, -⟩ := Binary.lt_iff.mp hlt
  have hnan : ∀ {x : F32}, (x + offset[k]).isNaN = false → x.isNaN = false := by
    intro x hx
    cases hn : x.isNaN with
    | false => rfl
    | true => exact absurd (Binary.isNaN_add_left hn) (Bool.eq_false_iff.mp hx)
  have hle := Binary.le_of_not_lt (hnan hlower) (hnan hupper) (h k)
  exact Binary.not_lt_of_le (Binary.add_le_add_right (by decide) (by decide) hle hlower hupper) hlt

theorem Formed.upright (h : b.Formed) : b.Upright := by
  induction h with
  | empty => exact upright_point _
  | ofCorners p q => exact upright_ofCorners p q
  | ofExtents width height depth => exact upright_ofExtents width height depth
  | ofPoints h => exact upright_ofPoints h
  | translate _ offset ih => exact ih.translate offset
  | union _ _ iha _ => exact (iha.extend _).extend _
  | @transform b _ m ih =>
    unfold Box.transform
    cases hcorners : ofPoints? (b.corners.map m.transformPoint) with
    | none => exact ih
    | some c => exact upright_ofPoints hcorners

end SceneEngine.Box
