/-
Normals stay normal.

A normal matrix is the transpose of an inverse of the linear part, so what it does to one
side of a dot product undoes what the model does to the other (`dual_iff`). Nothing else
does: it is the only matrix that keeps every normal in step with every direction.
-/
import SceneEngine.Proofs.Mat.Affine
import SceneEngine.Proofs.Mat.Transpose

namespace SceneEngine.Mat

open scoped Exact Matrix

variable {K : Type} [Field K] [LinearOrder K] [FieldFunctions K] {n : Nat}

theorem toMatrix_transpose {α : Type} {r c : Nat} (m : Mat α r c) :
    m.transpose.toMatrix = m.toMatrixᵀ := by
  ext i j
  exact getElem_ofFn _ i j

/-- Acting on the two sides of a dot product they leave it as it is. -/
def Dual (normal linear : Mat K n n) : Prop := ∀ a b : Vec K n, (normal * a).dot (linear * b) = a.dot b

theorem dual_iff {normal linear : Mat K n n} :
    Dual normal linear ↔ normal.toMatrixᵀ * linear.toMatrix = 1 := by
  have hdot : ∀ a b : Vec K n, (normal * a).dot (linear * b) =
      (a.toFun ᵥ* (normal.toMatrixᵀ * linear.toMatrix)) ⬝ᵥ b.toFun := fun a b => by
    rw [Vec.dot_eq, toFun_mulVec, toFun_mulVec, Matrix.dotProduct_mulVec, Matrix.vecMul_mulVec]
  constructor
  · intro h
    ext i j
    have hij := h (.ofFn (Pi.single i 1)) (.ofFn (Pi.single j 1))
    rw [hdot, Vec.dot_eq, Vec.toFun_ofFn, Vec.toFun_ofFn, Matrix.single_one_vecMul,
      dotProduct_single_one, dotProduct_single_one] at hij
    exact hij.trans Matrix.one_eq_pi_single.symm
  · intro h a b
    rw [hdot, h, Matrix.vecMul_one, Vec.dot_eq]

variable {t : Tolerance K}

theorem exists_of_normalMatrix {m : Mat K 4 4} {normal : Mat K 3 3}
    (h : m.normalMatrix t = .ok normal) :
    ∃ i, (m.upperLeft.eliminate t).inverse = some i ∧ normal = i.transpose := by
  obtain ⟨i, hi, rfl⟩ := normalMatrix_eq_ok_iff.mp h
  exact ⟨i, inverse_eq_ok_iff_some.mp hi, rfl⟩

variable [IsStrictOrderedRing K]

theorem inverse_mul_of_eliminate (habs : 0 ≤ t.absolute) (hrel : 0 ≤ t.relative) {m i : Mat K n n}
    (h : (m.eliminate t).inverse = some i) : i.toMatrix * m.toMatrix = 1 := by
  have hrun := Elimination.Reduces.run habs hrel m
  obtain ⟨hr, rfl⟩ := inverse_eliminate_eq_some_iff.mp h
  exact hrun.inverse_mul (Nat.le_antisymm hrun.rank_le hr)

/-- **Normals go with surfaces.** Over an ordered field and under any tolerance, a normal matrix
that is returned keeps the dot product of every normal with every direction that the model
takes along, and no other matrix does. So what is perpendicular to a surface is
perpendicular to its image, whatever rotation, scale and shear there are, and nothing else
becomes so. -/
theorem normalMatrix_dual (habs : 0 ≤ t.absolute) (hrel : 0 ≤ t.relative) {m : Mat K 4 4}
    {normal : Mat K 3 3} (h : m.normalMatrix t = .ok normal) :
    (∀ a b : Vec K 3, (normal * a).dot (m.transformDirection b) = a.dot b) ∧
    (∀ a b : Vec K 3, (normal * a).dot (m.transformDirection b) = 0 ↔ a.dot b = 0) ∧
    ∀ other : Mat K 3 3, (∀ a b : Vec K 3, (other * a).dot (m.transformDirection b) = a.dot b) →
      other = normal := by
  obtain ⟨i, hi, rfl⟩ := exists_of_normalMatrix h
  have hleft := inverse_mul_of_eliminate habs hrel hi
  have hdual : Dual i.transpose m.upperLeft := by
    rw [dual_iff, toMatrix_transpose, Matrix.transpose_transpose]
    exact hleft
  simp only [transformDirection_eq]
  refine ⟨hdual, fun a b => by rw [hdual], fun other hother => toMatrix_injective ?_⟩
  have hsame : other.toMatrixᵀ = i.toMatrix :=
    left_inv_eq_right_inv (dual_iff.mp hother) (mul_eq_one_comm.mp hleft)
  rw [toMatrix_transpose, ← hsame, Matrix.transpose_transpose]

/-- A model that shears, scales unevenly and moves, and the normal of a surface it takes along. -/
theorem normalMatrix_dual_shear :
    ∃ (_ : FieldFunctions ℚ) (m : Mat ℚ 4 4) (normal : Mat ℚ 3 3),
      m = ofRows4 (.of4 2 1 0 7) (.of4 0 4 0 8) (.of4 0 0 (-1) 9) (.of4 0 0 0 1) ∧
      normal = ⟨.of3 (.of3 (1 / 2) 0 0) (.of3 (-1 / 8) (1 / 4) 0) (.of3 0 0 (-1))⟩ ∧
      m.normalMatrix ⟨1 / 100, 1 / 100⟩ = .ok normal ∧
      (normal * (.of3 1 (-1) 0 : Vec ℚ 3)).dot (m.transformDirection (.of3 1 1 5)) = 0 ∧
      ∀ a b : Vec ℚ 3, (normal * a).dot (m.transformDirection b) = a.dot b := by
  let functions : FieldFunctions ℚ := .arithmetic
  let m : Mat ℚ 4 4 := ofRows4 (.of4 2 1 0 7) (.of4 0 4 0 8) (.of4 0 0 (-1) 9) (.of4 0 0 0 1)
  let normal : Mat ℚ 3 3 := ⟨.of3 (.of3 (1 / 2) 0 0) (.of3 (-1 / 8) (1 / 4) 0) (.of3 0 0 (-1))⟩
  have hnormal : m.normalMatrix ⟨1 / 100, 1 / 100⟩ = .ok normal := by decide +kernel
  obtain ⟨hdual, hperpendicular, _⟩ :=
    normalMatrix_dual (t := ⟨1 / 100, 1 / 100⟩) (by norm_num) (by norm_num) hnormal
  exact ⟨functions, m, normal, rfl, rfl, hnormal, (hperpendicular _ _).mpr (by decide +kernel), hdual⟩

end SceneEngine.Mat
