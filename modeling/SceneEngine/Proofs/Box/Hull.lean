/-
The least box around things.

A box is told by what it contains: the least one around some points contains them, and every
other box that does reaches at least as far (`LeastAround`). There is at most one, so a box that
is grown point by point does not depend on the order of the points, and holds no more than
it has to.

A box that a matrix takes along becomes a solid of another shape, and the eight corners are all
that is looked at of it. They are enough: along each axis the image of a point is a sum of one
term for each coordinate of the point, which is least at one end of the coordinate or the other,
whatever the signs of the entries. So no point of the box goes further than some corner
does (`exists_corner_le`), and the corners are points of the box themselves.
-/
import SceneEngine.Proofs.Box.Thickness
import SceneEngine.Proofs.Mat.Affine

namespace SceneEngine.Box

open scoped Exact

section Field

variable {K : Type} [Field K] [LinearOrder K] [FieldFunctions K] {a b c : Box K} {p : Vec K 3}

theorem contains_iff : b.contains p = true ↔ ∀ k : Fin 3, b.lower[k] ≤ p[k] ∧ p[k] ≤ b.upper[k] := by
  simp [contains]

/-! ## The least box around points -/

/-- Reaches at least as far on every axis, both ways. -/
def Encloses (outer inner : Box K) : Prop :=
  ∀ k : Fin 3, outer.lower[k] ≤ inner.lower[k] ∧ inner.upper[k] ≤ outer.upper[k]

theorem Encloses.antisymm (h : a.Encloses b) (h' : b.Encloses a) : a = b := by
  have hlower : a.lower = b.lower := Vec.ext fun k => le_antisymm (h k).1 (h' k).1
  have hupper : a.upper = b.upper := Vec.ext fun k => le_antisymm (h' k).2 (h k).2
  cases a
  cases b
  exact congrArg₂ Box.mk hlower hupper

/-- Contains the points, and lies in every box that does. -/
structure LeastAround (points : Set (Vec K 3)) (b : Box K) : Prop where
  contains : ∀ p ∈ points, b.contains p = true
  least : ∀ c : Box K, (∀ p ∈ points, c.contains p = true) → c.Encloses b

theorem LeastAround.unique {points : Set (Vec K 3)} (ha : LeastAround points a)
    (hb : LeastAround points b) : a = b :=
  (hb.least a ha.contains).antisymm (ha.least b hb.contains)

theorem leastAround_singleton (p : Vec K 3) : LeastAround {p} ⟨p, p⟩ where
  contains := by
    rintro q rfl
    exact contains_iff.mpr fun k => ⟨le_refl _, le_refl _⟩
  least c hc := contains_iff.mp (hc p rfl)

theorem LeastAround.extend {points : Set (Vec K 3)} (h : LeastAround points b) (p : Vec K 3) :
    LeastAround (insert p points) (b.extend p) := by
  have hlower : ∀ k : Fin 3, (b.extend p).lower[k] = min b.lower[k] p[k] := fun k => Vec.getElem_ofFn _ k
  have hupper : ∀ k : Fin 3, (b.extend p).upper[k] = max b.upper[k] p[k] := fun k => Vec.getElem_ofFn _ k
  constructor
  · rintro q (rfl | hq) <;> refine contains_iff.mpr fun k => ?_ <;> rw [hlower, hupper]
    · exact ⟨min_le_right _ _, le_max_right _ _⟩
    · obtain ⟨hlow, hup⟩ := contains_iff.mp (h.contains q hq) k
      exact ⟨(min_le_left _ _).trans hlow, hup.trans (le_max_left _ _)⟩
  · intro c hc k
    obtain ⟨hlow, hup⟩ := h.least c (fun q hq => hc q (.inr hq)) k
    obtain ⟨hplow, hpup⟩ := contains_iff.mp (hc p (.inl rfl)) k
    rw [hlower, hupper]
    exact ⟨le_min hlow hplow, max_le hup hpup⟩

theorem LeastAround.foldl_extend {points : Set (Vec K 3)} (h : LeastAround points b)
    (rest : List (Vec K 3)) : LeastAround (points ∪ {q | q ∈ rest}) (rest.foldl Box.extend b) := by
  induction rest generalizing points b with
  | nil => simpa using h
  | cons p rest ih =>
    have hpoints : points ∪ {q | q ∈ p :: rest} = insert p points ∪ {q | q ∈ rest} := by
      ext q
      simp only [Set.mem_union, Set.mem_ofPred_eq, List.mem_cons, Set.mem_insert_iff]
      tauto
    rw [hpoints]
    exact ih (h.extend p)

theorem exists_ofPoints? {points : List (Vec K 3)} (h : points ≠ []) :
    ∃ b, ofPoints? points = some b ∧ LeastAround {p | p ∈ points} b := by
  cases points with
  | nil => exact absurd rfl h
  | cons p rest =>
    have hpoints : {q | q ∈ p :: rest} = ({p} : Set (Vec K 3)) ∪ {q | q ∈ rest} := by
      ext q
      simp
    exact ⟨_, rfl, hpoints ▸ (leastAround_singleton p).foldl_extend rest⟩

/-- Neither the order of the points counts nor how often one comes up. -/
theorem ofPoints?_congr {points others : List (Vec K 3)} (h : ∀ p, p ∈ points ↔ p ∈ others) :
    ofPoints? points = ofPoints? others := by
  by_cases hnil : points = []
  · have hothers : others = [] := List.eq_nil_iff_forall_not_mem.mpr fun p hp => by
      simpa [hnil] using (h p).mpr hp
    rw [hnil, hothers]
  · have hothers : others ≠ [] := by
      obtain ⟨p, hp⟩ := List.exists_mem_of_ne_nil points hnil
      exact List.ne_nil_of_mem ((h p).mp hp)
    obtain ⟨b, hb, hleast⟩ := exists_ofPoints? hnil
    obtain ⟨c, hc, hleast'⟩ := exists_ofPoints? hothers
    have hsame : {p | p ∈ points} = {p | p ∈ others} := Set.ext h
    rw [hb, hc, hleast.unique (hsame ▸ hleast')]

/-! ## Corners -/

/-- The corner at the upper end of some axes and at the lower end of the others. -/
def corner (b : Box K) (upper : Fin 3 → Bool) : Vec K 3 :=
  .ofFn fun k => if upper k then b.upper[k] else b.lower[k]

omit [Field K] [LinearOrder K] [FieldFunctions K] in
theorem getElem_corner (b : Box K) (upper : Fin 3 → Bool) (k : Fin 3) :
    (b.corner upper)[k] = if upper k then b.upper[k] else b.lower[k] := Vec.getElem_ofFn _ k

omit [Field K] [LinearOrder K] [FieldFunctions K] in
theorem mem_corners_iff {q : Vec K 3} : q ∈ b.corners ↔ ∃ upper, b.corner upper = q := by
  rw [corners, List.mem_map]
  constructor
  · rintro ⟨bits, -, rfl⟩
    exact ⟨fun k => bits.testBit k.val, rfl⟩
  · rintro ⟨upper, rfl⟩
    have hbits : ∀ upper : Fin 3 → Bool, ∃ bits ∈ List.range 8,
        ∀ k : Fin 3, bits.testBit k.val = upper k := by
      decide
    obtain ⟨bits, hmem, hbit⟩ := hbits upper
    exact ⟨bits, hmem, by simp only [hbit, corner]⟩

theorem Ordered.contains_corner (h : b.Ordered) (upper : Fin 3 → Bool) :
    b.contains (b.corner upper) = true := by
  refine contains_iff.mpr fun k => ?_
  rw [getElem_corner]
  split
  · exact ⟨h k, le_refl _⟩
  · exact ⟨le_refl _, h k⟩

variable [IsStrictOrderedRing K]

/-- A sum of one term for each coordinate is least at a corner. -/
theorem exists_corner_le (hp : b.contains p = true) (row : Vec K 3) :
    ∃ upper, row.dot (b.corner upper) ≤ row.dot p := by
  -- To the upper end where the term falls, to the lower end where it grows.
  refine ⟨fun k => decide (row[k] < 0), ?_⟩
  rw [Vec.dot, Vec.dot, Exact.sum_eq, Exact.sum_eq]
  refine Finset.sum_le_sum fun k _ => ?_
  obtain ⟨hlow, hup⟩ := contains_iff.mp hp k
  rw [getElem_corner]
  by_cases hneg : row[k] < 0
  · rw [if_pos (decide_eq_true hneg)]
    exact mul_le_mul_of_nonpos_left hup hneg.le
  · rw [if_neg (by simpa using hneg)]
    exact mul_le_mul_of_nonneg_left hlow (not_lt.mp hneg)

theorem exists_le_corner (hp : b.contains p = true) (row : Vec K 3) :
    ∃ upper, row.dot p ≤ row.dot (b.corner upper) := by
  have hneg : ∀ q : Vec K 3, (-row).dot q = -row.dot q := fun q => by
    rw [Vec.dot_eq, Vec.dot_eq, Vec.toFun_neg, neg_dotProduct]
  obtain ⟨upper, hle⟩ := exists_corner_le hp (-row)
  rw [hneg, hneg, neg_le_neg_iff] at hle
  exact ⟨upper, hle⟩

/-! ## Boxes taken along -/

omit [IsStrictOrderedRing K] in
theorem getElem_transformPoint (m : Mat K 4 4) (p : Vec K 3) (k : Fin 3) :
    (m.transformPoint p)[k] = m.upperLeft[k].dot p + m.displacementPart[k] := by
  rw [Mat.transformPoint_eq, Vec.getElem_add, Mat.getElem_mulVec]

/-- What contains the images of the corners contains those of all points. -/
theorem contains_transformPoint {m : Mat K 4 4}
    (hc : ∀ upper, c.contains (m.transformPoint (b.corner upper)) = true) (hp : b.contains p = true) :
    c.contains (m.transformPoint p) = true := by
  refine contains_iff.mpr fun k => ?_
  obtain ⟨near, hnear⟩ := exists_corner_le hp m.upperLeft[k]
  obtain ⟨far, hfar⟩ := exists_le_corner hp m.upperLeft[k]
  have hlow := (contains_iff.mp (hc near) k).1
  have hup := (contains_iff.mp (hc far) k).2
  rw [getElem_transformPoint] at hlow hup ⊢
  exact ⟨hlow.trans (add_le_add_left hnear _), (add_le_add_left hfar _).trans hup⟩

theorem Ordered.leastAround_transform (h : b.Ordered) (m : Mat K 4 4) :
    LeastAround (m.transformPoint '' {p | b.contains p = true}) (b.transform m) := by
  have hcorner : ∀ upper, m.transformPoint (b.corner upper) ∈ b.corners.map m.transformPoint :=
    fun upper => List.mem_map_of_mem (mem_corners_iff.mpr ⟨upper, rfl⟩)
  obtain ⟨around, haround, hleast⟩ := exists_ofPoints? (List.ne_nil_of_mem (hcorner fun _ => false))
  have htransform : b.transform m = around := by rw [transform, haround, Option.getD_some]
  rw [htransform]
  constructor
  · rintro _ ⟨p, hp, rfl⟩
    exact contains_transformPoint (fun upper => hleast.contains _ (hcorner upper)) hp
  · intro c hc
    refine hleast.least c fun q hq => ?_
    obtain ⟨p, hp, rfl⟩ := List.mem_map.mp hq
    obtain ⟨upper, rfl⟩ := mem_corners_iff.mp hp
    exact hc _ ⟨_, h.contains_corner upper, rfl⟩

/-- **Boxes are as tight as they can be.** Without rounding, a box that is taken along by any
matrix becomes the least box around the images of all its points. The box of some points is the
least box around them, whatever their order, and there is none of no points. -/
theorem transform_tightest (h : b.Ordered) (m : Mat K 4 4) :
    ((∀ p, b.contains p = true → (b.transform m).contains (m.transformPoint p) = true) ∧
      ∀ c : Box K, (∀ p, b.contains p = true → c.contains (m.transformPoint p) = true) →
        c.Encloses (b.transform m)) ∧
    ∀ points : List (Vec K 3), (ofPoints? points = none ↔ points = []) ∧
      (∀ around, ofPoints? points = some around → (∀ p ∈ points, around.contains p = true) ∧
        ∀ c : Box K, (∀ p ∈ points, c.contains p = true) → c.Encloses around) ∧
      ∀ others, (∀ p, p ∈ points ↔ p ∈ others) → ofPoints? others = ofPoints? points := by
  have htransform := h.leastAround_transform m
  refine ⟨⟨fun p hp => htransform.contains _ ⟨p, hp, rfl⟩, fun c hc => htransform.least c ?_⟩,
    fun points => ⟨⟨fun hnone => ?_, fun hnil => by rw [hnil]; rfl⟩, fun around haround => ?_,
      fun others hsame => (ofPoints?_congr hsame).symm⟩⟩
  · rintro _ ⟨p, hp, rfl⟩
    exact hc p hp
  · by_contra hne
    obtain ⟨b, hb, _⟩ := exists_ofPoints? hne
    rw [hnone] at hb
    cases hb
  · have hne : points ≠ [] := by
      rintro rfl
      cases haround
    obtain ⟨b, hb, hleast⟩ := exists_ofPoints? hne
    obtain rfl := Option.some.inj (haround.symm.trans hb)
    exact ⟨hleast.contains, hleast.least⟩

end Field

/-- A cube by a matrix that mirrors, shears and makes flat, and a point within it. -/
theorem transform_tightest_sheared :
    ∃ (_ : FieldFunctions ℚ) (b around : Box ℚ) (m : Mat ℚ 4 4) (p : Vec ℚ 3), b.Ordered ∧
      m = .ofRows4 (.of4 (-1) 2 0 5) (.of4 0 0 0 1) (.of4 1 0 3 0) (.of4 7 7 7 7) ∧
      b.contains p = true ∧ b.transform m = around ∧ around = ⟨.of3 2 1 (-4), .of3 8 1 4⟩ ∧
      around.contains (m.transformPoint p) = true ∧
      ∀ c : Box ℚ, (∀ p, b.contains p = true → c.contains (m.transformPoint p) = true) →
        c.Encloses around := by
  let functions : FieldFunctions ℚ := .arithmetic
  let cube : Box ℚ := .ofExtents 2 2 2
  let m : Mat ℚ 4 4 := .ofRows4 (.of4 (-1) 2 0 5) (.of4 0 0 0 1) (.of4 1 0 3 0) (.of4 7 7 7 7)
  have hcube : cube.Ordered := ordered_ofExtents 2 2 2
  have hinside : cube.contains (.of3 (1 / 2) 0 (-1 / 3)) = true := by decide +kernel
  have hshape : cube.transform m = ⟨.of3 2 1 (-4), .of3 8 1 4⟩ := by decide +kernel
  obtain ⟨⟨hcontains, hleast⟩, -⟩ := transform_tightest hcube m
  exact ⟨functions, cube, _, m, _, hcube, rfl, hinside, rfl, hshape, hcontains _ hinside, hleast⟩

end SceneEngine.Box
