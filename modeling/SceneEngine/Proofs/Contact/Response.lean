/-
Contact takes speed from a body and never gives any.

A bounce reflects the slowed velocity about one axis after the other. Reflecting about an
axis turns the sign of one coordinate, so after a loop over distinct axes each coordinate is
turned if its axis is blocked (`getElem_bounce`). A slide stops the blocked coordinates and
keeps a share of the others; the friction it takes may be any number, but is brought between
zero and one before it is taken off. Either way a coordinate is multiplied by a factor
between minus one and one, negative or zero where the axis is blocked
(`respond_never_gains`).
-/
import Mathlib.Tactic.NormNum
import Mathlib.Tactic.Ring
import SceneEngine.Contact.Response
import SceneEngine.Proofs.Vec

namespace SceneEngine.Contact

open scoped Exact

section Field

variable {K : Type} [Field K] [LinearOrder K] [FieldFunctions K]

/-! ## Bouncing -/

theorem getElem_axisNormal (j k : Fin 3) : (axisNormal j : Vec K 3)[k] = if k = j then 1 else 0 := by
  simp only [axisNormal, Vec.set, Vec.zero, Vec.splat, Vec.getElem_ofFn]

theorem dot_axisNormal (v : Vec K 3) (j : Fin 3) : v.dot (axisNormal j) = v[j] := by
  refine (Exact.sum_eq _).trans ?_
  simp only [getElem_axisNormal, mul_ite, mul_one, mul_zero, Finset.sum_ite_eq', Finset.mem_univ,
    if_true]

/-- Reflecting about an axis turns the sign of its coordinate alone. -/
theorem getElem_reflect_axisNormal (v : Vec K 3) (j k : Fin 3) :
    (v.reflect (axisNormal j))[k] = if k = j then -v[k] else v[k] := by
  simp only [Vec.reflect, Vec.getElem_ofFn, dot_axisNormal, getElem_axisNormal, Exact.two_eq]
  split
  · next hk =>
    rw [hk]
    ring
  · ring

theorem getElem_foldl_reflect (blocked : Vec Bool 3) {axes : List (Fin 3)} (h : axes.Nodup)
    (v : Vec K 3) (k : Fin 3) :
    (axes.foldl (fun v j => if blocked[j] then v.reflect (axisNormal j) else v) v)[k] =
      if k ∈ axes ∧ blocked[k] then -v[k] else v[k] := by
  induction axes generalizing v with
  | nil => simp
  | cons j rest ih =>
    obtain ⟨hj, hrest⟩ := List.nodup_cons.mp h
    rw [List.foldl_cons, ih hrest]
    by_cases hkj : k = j
    · -- Its own axis comes up once, here.
      rw [hkj, if_neg (fun hmem => hj hmem.1)]
      by_cases hb : blocked[j] = true
      · rw [if_pos hb, getElem_reflect_axisNormal, if_pos rfl, if_pos ⟨List.mem_cons_self, hb⟩]
      · rw [if_neg hb, if_neg (fun hmem => hb hmem.2)]
    · -- Reflecting about another axis leaves the coordinate.
      have hsame : (if blocked[j] then v.reflect (axisNormal j) else v)[k] = v[k] := by
        split
        · rw [getElem_reflect_axisNormal, if_neg hkj]
        · rfl
      rw [hsame]
      simp only [List.mem_cons, hkj, false_or]

theorem getElem_bounce (bounciness : K) (blocked : Vec Bool 3) (velocity : Vec K 3) (k : Fin 3) :
    (bounce bounciness blocked velocity)[k] =
      if blocked[k] then -bounciness * velocity[k] else bounciness * velocity[k] := by
  have hslowed : (velocity * bounciness)[k] = velocity[k] * bounciness := Vec.getElem_ofFn _ k
  rw [bounce, getElem_foldl_reflect blocked (List.nodup_finRange 3), hslowed]
  simp only [List.mem_finRange, true_and]
  split <;> ring

/-! ## Sliding -/

/-- The share of its speed that friction leaves to a body. -/
def kept (friction : K) : K := 1 - Scalar.clamp friction 0 1

theorem getElem_slide (friction : K) (blocked : Vec Bool 3) (velocity : Vec K 3) (k : Fin 3) :
    (slide friction blocked velocity)[k] = if blocked[k] then 0 else kept friction * velocity[k] := by
  rw [slide, Vec.getElem_ofFn, mul_comm]
  rfl

variable [IsStrictOrderedRing K]

/-- However large or negative the friction, it leaves between nothing and everything. -/
theorem kept_mem (friction : K) : 0 ≤ kept friction ∧ kept friction ≤ 1 := by
  unfold kept Scalar.clamp
  split
  · simp
  · next hlow =>
    split
    · simp
    · next hhigh =>
      exact ⟨sub_nonneg.mpr (not_lt.mp hhigh), sub_le_self 1 (not_lt.mp hlow)⟩

/-! ## Either way -/

variable {velocity after : Vec K 3} {blocked : Vec Bool 3} {thrown carried : K}

/-- A velocity multiplied by one factor on the blocked axes and by another on the free ones
grows on no axis when neither factor exceeds one in size. -/
theorem abs_le_of_factors
    (h : ∀ k : Fin 3, after[k] = if blocked[k] then thrown * velocity[k] else carried * velocity[k])
    (hthrown : |thrown| ≤ 1) (hcarried : |carried| ≤ 1) (k : Fin 3) : |after[k]| ≤ |velocity[k]| := by
  have hslower {factor : K} (hfactor : |factor| ≤ 1) : |factor * velocity[k]| ≤ |velocity[k]| := by
    rw [abs_mul]
    exact mul_le_of_le_one_left (abs_nonneg _) hfactor
  rw [h k]
  split
  · exact hslower hthrown
  · exact hslower hcarried

/-- With a factor that is not positive a blocked coordinate does not go on as it went. -/
theorem mul_nonpos_of_factors
    (h : ∀ k : Fin 3, after[k] = if blocked[k] then thrown * velocity[k] else carried * velocity[k])
    (hthrown : thrown ≤ 0) {k : Fin 3} (hk : blocked[k] = true) : after[k] * velocity[k] ≤ 0 := by
  rw [h k, if_pos hk, mul_assoc]
  exact mul_nonpos_of_nonpos_of_nonneg hthrown (mul_self_nonneg _)

theorem dot_self_le_of_abs_le (h : ∀ k : Fin 3, |after[k]| ≤ |velocity[k]|) :
    after.dot after ≤ velocity.dot velocity := by
  rw [Vec.dot_eq, Vec.dot_eq]
  exact Finset.sum_le_sum fun k _ => abs_le_iff_mul_self_le.mp (h k)

/-- **Contact never adds to a velocity.** Over an ordered field a body that arrives from the air
faster than the threshold bounces: it has `-bounciness` times its velocity on the blocked
axes and `bounciness` times it on the others. Any other slides: it has none on the blocked
axes and on the others the share that friction leaves, which is between zero and one
whatever the two frictions are. So on no blocked axis does it keep moving as it moved, and
with a bounciness of at most one no coordinate grows in size, nor does the speed. -/
theorem respond_never_gains {bounciness : K} (hb : 0 ≤ bounciness) (threshold : K)
    (velocity : Vec K 3) (blocked : Vec Bool 3) (wasOnGround : Bool) (ownFriction contactFriction : K) :
    let after := respond bounciness threshold velocity blocked wasOnGround ownFriction contactFriction
    let share := kept (ownFriction + contactFriction)
    ((wasOnGround = false ∧ threshold < velocity.length ∧
        ∀ k : Fin 3, after[k] =
          if blocked[k] then -bounciness * velocity[k] else bounciness * velocity[k]) ∨
      ((wasOnGround = true ∨ velocity.length ≤ threshold) ∧ 0 ≤ share ∧ share ≤ 1 ∧
        ∀ k : Fin 3, after[k] = if blocked[k] then 0 else share * velocity[k])) ∧
    (∀ k : Fin 3, blocked[k] = true → after[k] * velocity[k] ≤ 0) ∧
    (bounciness ≤ 1 →
      (∀ k : Fin 3, |after[k]| ≤ |velocity[k]|) ∧ after.dot after ≤ velocity.dot velocity) := by
  intro after share
  by_cases hair : wasOnGround = false ∧ threshold < velocity.length
  · have hbounced : after = bounce bounciness blocked velocity := by
      simp only [after, respond, hair.1, hair.2, Bool.not_false, decide_true, Bool.and_self, if_true]
    have hfactors : ∀ k : Fin 3, after[k] =
        if blocked[k] then -bounciness * velocity[k] else bounciness * velocity[k] := fun k => by
      rw [hbounced, getElem_bounce]
    refine ⟨.inl ⟨hair.1, hair.2, hfactors⟩,
      fun k hk => mul_nonpos_of_factors hfactors (neg_nonpos.mpr hb) hk, fun hone => ?_⟩
    have hsize : |bounciness| ≤ 1 := (abs_of_nonneg hb).trans_le hone
    have hall := abs_le_of_factors hfactors ((abs_neg bounciness).trans_le hsize) hsize
    exact ⟨hall, dot_self_le_of_abs_le hall⟩
  · have hslid : after = slide (ownFriction + contactFriction) blocked velocity := by
      have hnot : ¬ (!wasOnGround && decide (threshold < velocity.length)) = true := by
        simpa using hair
      exact if_neg hnot
    have hstopped : ∀ k : Fin 3, after[k] = if blocked[k] then 0 else share * velocity[k] := fun k => by
      rw [hslid, getElem_slide]
    have hfactors : ∀ k : Fin 3, after[k] =
        if blocked[k] then 0 * velocity[k] else share * velocity[k] := by
      simpa only [zero_mul] using hstopped
    obtain ⟨hlow, hhigh⟩ := kept_mem (ownFriction + contactFriction)
    have hall := abs_le_of_factors hfactors (abs_zero.trans_le zero_le_one)
      ((abs_of_nonneg hlow).trans_le hhigh)
    rw [not_and_or, Bool.not_eq_false, not_lt] at hair
    exact ⟨.inr ⟨hair, hlow, hhigh, hstopped⟩,
      fun k hk => mul_nonpos_of_factors hfactors (le_refl 0) hk,
      fun _ => ⟨hall, dot_self_le_of_abs_le hall⟩⟩

/-- A body that flies into a corner, and one that lands there with more friction than there is. -/
theorem respond_never_gains_corner :
    ∃ (_ : FieldFunctions ℚ) (velocity : Vec ℚ 3) (blocked : Vec Bool 3),
      velocity = .of3 3 (-4) 12 ∧ velocity.length = 13 ∧ blocked = .of3 true true false ∧
      respond (1 / 2) 1 velocity blocked false 0 0 = .of3 (-3 / 2) 2 6 ∧
      respond (1 / 2) 1 velocity blocked true 3 (-1 / 2) = .of3 0 0 0 ∧
      (∀ k : Fin 3, |(respond (1 / 2) 1 velocity blocked false 0 0)[k]| ≤ |velocity[k]|) ∧
      ∀ k : Fin 3, |(respond (1 / 2) 1 velocity blocked true 3 (-1 / 2))[k]| ≤ |velocity[k]| := by
  let functions : FieldFunctions ℚ :=
    { FieldFunctions.arithmetic with sqrt := fun x => if x = 169 then 13 else 0 }
  let velocity : Vec ℚ 3 := .of3 3 (-4) 12
  let blocked : Vec Bool 3 := .of3 true true false
  have hb : (0 : ℚ) ≤ 1 / 2 := by norm_num
  have hone : (1 / 2 : ℚ) ≤ 1 := by norm_num
  have hflies := respond_never_gains hb 1 velocity blocked false 0 0
  have hlands := respond_never_gains hb 1 velocity blocked true 3 (-1 / 2)
  exact ⟨functions, velocity, blocked, rfl, by decide +kernel, rfl, by decide +kernel,
    by decide +kernel, (hflies.2.2 hone).1, (hlands.2.2 hone).1⟩

end Field

end SceneEngine.Contact
