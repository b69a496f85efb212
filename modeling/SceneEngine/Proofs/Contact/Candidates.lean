/-
Which pairs are looked at, told without the sweep.

The boxes around movements are never turned inside out, so two of them reach each other along
the X axis exactly when some place of the axis lies in both, their ends included
(`reaches_iff_meet`). What the sweep finds is then a plain choice among all pairs, listed in
ascending order. Bodies that begin at one place, at a zero of either sign for instance, may be
swept in any order.
-/
import SceneEngine.Proofs.Box.Upright
import SceneEngine.Proofs.Contact.Pairs

namespace SceneEngine.Contact

/-- The box around a movement is made as all boxes are. -/
theorem Solid.formed_swept {c : Collider} (h : c.bounds.Formed) (e : EntityId) (t : Transform F32)
    (b : Option Body) : (ofComponents e c t b).swept.Formed :=
  .union (.translate h _) (.translate h _)

/-- Some place of the X axis lies in the swept boxes of both bodies, their ends included. -/
def MeetAlongX (a b : Solid) : Prop :=
  ∃ x : F32, (a.swept.lower.x ≤ x ∧ x ≤ a.swept.upper.x) ∧
    b.swept.lower.x ≤ x ∧ x ≤ b.swept.upper.x

variable {n : Nat} {bodies : Vector Solid n}

theorem forward_of_formed (hformed : ∀ i, (bodies.get i).swept.Formed)
    (hnum : ∀ i, (bodies.get i).swept.Numeric) : Forward bodies :=
  fun i => (hformed i).upright.lower_le_upper (hnum i) 0

theorem reaches_iff_meet {a b : Solid} (ha : a.swept.lower.x ≤ a.swept.upper.x)
    (hb : b.swept.lower.x ≤ b.swept.upper.x) : reaches a b = true ↔ MeetAlongX a b := by
  simp only [reaches, Bool.and_eq_true, decide_eq_true_eq]
  have hanum : a.swept.lower.x.isNaN = false := (Binary.le_iff.mp ha).1
  have hbnum : b.swept.lower.x.isNaN = false := (Binary.le_iff.mp hb).1
  constructor
  · rintro ⟨hab, hba⟩
    -- The later beginning lies in both.
    by_cases hle : a.swept.lower.x ≤ b.swept.lower.x
    · exact ⟨b.swept.lower.x, ⟨hle, hba⟩, Binary.le_refl hbnum, hb⟩
    · have hge := Binary.le_of_lt (Binary.lt_of_not_le hbnum hanum hle)
      exact ⟨a.swept.lower.x, ⟨Binary.le_refl hanum, ha⟩, hge, hab⟩
  · rintro ⟨x, ⟨hax, hxa⟩, hbx, hxb⟩
    exact ⟨Binary.le_trans hax hxb, Binary.le_trans hbx hxa⟩

theorem matters_iff {i j : Fin n} : matters bodies i j = true ↔
    (bodies.get i).dynamic = true ∨ (bodies.get j).dynamic = true ∨
      ∀ k : Fin 3, (bodies.get i).current.lower[k] < (bodies.get j).current.upper[k] ∧
        (bodies.get j).current.lower[k] < (bodies.get i).current.upper[k] := by
  rw [matters, Bool.or_eq_true, Bool.or_eq_true, Box.intersects_iff, or_assoc]

theorem mem_candidatePairs (h : Forward bodies) {p : Pair n} :
    p ∈ candidatePairs bodies ↔ p.1 < p.2 ∧ near bodies p = true := by
  rw [candidatePairs_eq_filter h, List.mem_filter, mem_allPairs]

/-- By their first bodies, then by their second, and none twice. -/
theorem candidatePairs_ascending (h : Forward bodies) :
    (candidatePairs bodies).Pairwise fun p q => p.1 < q.1 ∨ p.1 = q.1 ∧ p.2 < q.2 := by
  rw [candidatePairs_eq_filter h]
  refine ((allPairs_pairwise bodies).filter _).imp fun {p q} hpq => ?_
  obtain ⟨hle, hne⟩ := hpq
  rw [Pair.le, decide_eq_true_eq] at hle
  rw [ne_eq, Prod.ext_iff] at hne
  omega

/-- **The candidates are a choice among all pairs.** For bodies whose swept boxes have no NaN,
the candidate pairs are listed in strictly ascending order, and they are the pairs of a lower and
a higher body that meet along the X axis and of which one moves, or which overlap where they
stand. The order in which bodies that begin at one place are swept has no effect. -/
theorem candidatePairs_chosen (hformed : ∀ i, (bodies.get i).swept.Formed)
    (hnum : ∀ i, (bodies.get i).swept.Numeric) :
    ((candidatePairs bodies).Pairwise fun p q => p.1 < q.1 ∨ p.1 = q.1 ∧ p.2 < q.2) ∧
    (∀ i j : Fin n, (i, j) ∈ candidatePairs bodies ↔
      i < j ∧ MeetAlongX (bodies.get i) (bodies.get j) ∧
        ((bodies.get i).dynamic = true ∨ (bodies.get j).dynamic = true ∨
          ∀ k : Fin 3, (bodies.get i).current.lower[k] < (bodies.get j).current.upper[k] ∧
            (bodies.get j).current.lower[k] < (bodies.get i).current.upper[k])) ∧
    ∀ order : List (Fin n), order.Perm (List.finRange n) → Ascending bodies order →
      sortBy Pair.le (sweep bodies order) = candidatePairs bodies := by
  have hforward := forward_of_formed hformed hnum
  refine ⟨candidatePairs_ascending hforward, fun i j => ?_, fun order hperm hasc => ?_⟩
  · rw [mem_candidatePairs hforward, near, Bool.and_eq_true,
      reaches_iff_meet (hforward i) (hforward j), matters_iff]
  · rw [sortBy_sweep hforward hperm hasc, candidatePairs_eq_filter hforward]

/-- A cube that begins at `x`. -/
def cubeFrom (x : F32) : Collider := .new (.ofCorners (.of3 x 0 0) (.of3 1 1 1))

/-- A body that moves and one that stands, which begin at zeros of different signs, and one that
is far away. -/
def zeroCube : Fin 3 → Solid
  | 0 => .ofComponents 0 (cubeFrom 0) .origin (some { Body.immovable with fixed := false })
  | 1 => .ofComponents 1 (cubeFrom (-0)) (.ofPosition (.of3 (-0) 0 0)) none
  | 2 => .ofComponents 2 (cubeFrom 0) (.ofPosition (.of3 (.ofNat 9) 0 0)) none

def zeroCubes : Vector Solid 3 := .ofFn zeroCube

theorem formed_zeroCubes (i : Fin 3) : (zeroCubes.get i).swept.Formed := by
  have hcube : ∀ x, (cubeFrom x).bounds.Formed := fun x => .ofCorners _ _
  have hget : zeroCubes.get i = zeroCube i := Vector.getElem_ofFn i.isLt
  rw [hget]
  match i with
  | 0 => exact Solid.formed_swept (hcube 0) _ _ _
  | 1 => exact Solid.formed_swept (hcube (-0)) _ _ _
  | 2 => exact Solid.formed_swept (hcube 0) _ _ _

/-- Either of the two that begin at a zero may be swept first. -/
theorem candidatePairs_chosen_zeros :
    ∃ bodies : Vector Solid 3, (∀ i, (bodies.get i).swept.Formed) ∧ (∀ i, (bodies.get i).swept.Numeric) ∧
      (bodies.get 0).swept.lower.x = Binary.signedZero false ∧
      (bodies.get 1).swept.lower.x = Binary.signedZero true ∧
      (0, 1) ∈ candidatePairs bodies ∧ (0, 2) ∉ candidatePairs bodies ∧
      sortBy Pair.le (sweep bodies [0, 1, 2]) = candidatePairs bodies ∧
      sortBy Pair.le (sweep bodies [1, 0, 2]) = candidatePairs bodies := by
  have hnum : ∀ i, (zeroCubes.get i).swept.Numeric := by decide +kernel
  obtain ⟨-, hmem, horder⟩ := candidatePairs_chosen formed_zeroCubes hnum
  have hmeet : MeetAlongX (zeroCubes.get 0) (zeroCubes.get 1) := ⟨0, by decide +kernel⟩
  have hmoves : (zeroCubes.get 0).dynamic = true := rfl
  have hfar : (0, 2) ∉ candidatePairs zeroCubes := by
    intro h
    obtain ⟨-, ⟨x, ⟨-, hle⟩, hge, -⟩, -⟩ := (hmem 0 2).mp h
    exact absurd (Binary.le_trans hge hle) (by decide +kernel)
  refine ⟨zeroCubes, formed_zeroCubes, hnum, by decide +kernel, by decide +kernel,
    (hmem 0 1).mpr ⟨by decide, hmeet, .inl hmoves⟩, hfar, horder _ ?_ ?_, horder _ ?_ ?_⟩
  · decide
  · unfold Ascending
    decide +kernel
  · decide
  · unfold Ascending
    decide +kernel

end SceneEngine.Contact
