/-
From where a camera can see.

A view is made of the eye and of the point one step ahead, and the way back is the difference of the
two. In single precision that step is rounded to the last place of the eye. Below `2 ^ 24` this takes
off half a unit from each coordinate at most, which is less than the step is long: what is left
reaches backward, and the upward axis still stands across it (`exists_view`). Beyond `2 ^ 25` in every
coordinate the step does not move the eye at all (`OutOfReach.losesStep`), and there is no view of an
eye that does not move (`LosesStep.view`).

What the directions of a transform are near to is a rotation of the real space, whose axes are
unit vectors at right angles; that is all that is used of them.
-/
import SceneEngine.Proofs.Camera
import SceneEngine.Proofs.Mat.Nearness

namespace SceneEngine

open scoped Exact
open Binary (roundoff roundoff_eq)

namespace Transform

/-! ## Places -/

/-- No coordinate is as large as `2 ^ 24`. -/
def WithinReach (t : Transform F32) : Prop :=
  ∀ i : Fin 3, Scalar.abs t.position[i] < ((2 ^ 24 : Nat) : F32)

/-- Every coordinate is finite, and larger than `2 ^ 25`. -/
structure OutOfReach (t : Transform F32) : Prop where
  finite : t.position.Finite
  large : ∀ i : Fin 3, ((2 ^ 25 : Nat) : F32) < Scalar.abs t.position[i]

/-- A finite place that one step forward does not change. -/
structure LosesStep (t : Transform F32) : Prop where
  finite : t.position.Finite
  unmoved : t.position + t.forward = t.position

instance (t : Transform F32) : Decidable t.WithinReach :=
  inferInstanceAs (Decidable (∀ i : Fin 3, Scalar.abs t.position[i] < ((2 ^ 24 : Nat) : F32)))

/-! ## Directions -/

/-- Degrees become radians in the wider type, and a finite angle stays finite. -/
theorem isFinite_toRadians {x : F32} (hx : x.isFinite = true) :
    (Scalar.toRadians x).isFinite = true := by
  obtain ⟨hwide, -, hcount⟩ := Binary.widen_exact hx
  let product : F64 := (x.convert : F64).mul Scalar.degree
  have hdegree : (Scalar.degree : F64).isFinite = true := by decide
  have hproduct : product.magnitude ≤ (x.convert : F64).magnitude := by
    simp only [product, Binary.mul, Binary.isNaN_of_isFinite hwide, Binary.isNaN_of_isFinite hdegree,
      Binary.isInfinite_of_isFinite hwide, Binary.isInfinite_of_isFinite hdegree,
      Bool.false_eq_true, if_false, Bool.or_self]
    refine Binary.nearest_le (by decide) (Format.one_shiftLeft_pos _) ?_
    have hone : (Scalar.degree : F64).unitCount ≤ 1 <<< Format.double.unitBits := by decide
    rw [Nat.mul_comm]
    exact Nat.mul_le_mul_right _ hone
  have hfin := Binary.isFinite_of_le hwide hproduct
  have hnarrow : (Scalar.toRadians x).magnitude ≤ x.magnitude := by
    have hvalue : Scalar.toRadians x = product.convert := rfl
    simp only [hvalue, Binary.convert, Binary.isNaN_of_isFinite hfin, Binary.isInfinite_of_isFinite hfin,
      Bool.false_eq_true, if_false]
    refine Binary.nearest_le (by decide) (Format.one_shiftLeft_pos _) ?_
    have hle : product.unitCount ≤ x.unitCount * Binary.finerUnits :=
      hcount ▸ Format.unitsAt_mono hproduct
    rw [show Format.single.unitBits - Format.double.unitBits = 0 by decide, Nat.shiftLeft_zero,
      Nat.one_shiftLeft, Nat.mul_comm]
    exact hle
  exact Binary.isFinite_of_le hx hnarrow

/-- Angles in degrees whose radians are given. -/
theorem toRadians_of_radians (θ : Fin 3 → ℝ) :
    (Vec.ofFn fun i => θ i * (180 / Real.pi)).toRadians = Vec.ofFn θ := by
  ext i
  have hradians (v : Vec ℝ 3) : v.toRadians[i] = v[i] * (Real.pi / 180) := Vec.getElem_ofFn _ i
  rw [hradians, Vec.getElem_ofFn, Vec.getElem_ofFn]
  field_simp

/-- The rotation of a transform is near one of the real space. -/
theorem exists_rotationMatrix_near (t : Transform F32) (h : t.rotation.Finite) :
    ∃ T : Transform ℝ, Mat.Near (146 * roundoff) t.rotationMatrix T.rotationMatrix := by
  have hangle (i : Fin 3) : ∃ θ : ℝ, Mat.AngleNear t.rotation.toRadians[i] θ := by
    have hradians : t.rotation.toRadians[i] = Scalar.toRadians t.rotation[i] := Vec.getElem_ofFn _ i
    rw [hradians]
    obtain ⟨θ, hsin, hcos⟩ := Binary.exists_angle (isFinite_toRadians (h i))
    exact ⟨θ, hsin, hcos⟩
  choose θ hθ using hangle
  refine ⟨.new .zero (.ofFn fun i => θ i * (180 / Real.pi)) (.splat 1), ?_⟩
  rw [rotationMatrix, rotationMatrix, new, toRadians_of_radians]
  exact Mat.near_rotationEuler (hθ 0) (hθ 1) (hθ 2)

/-- Where the forward and the upward axis of a finite rotation point is near where those of a
rotation of the real space do. -/
theorem exists_directions_near (t : Transform F32) (h : t.rotation.Finite) :
    ∃ T : Transform ℝ, t.forward.Near (1 / 2048) T.forward ∧ t.up.Near (1 / 2048) T.up := by
  obtain ⟨T, hnear⟩ := t.exists_rotationMatrix_near h
  have hround := roundoff_eq
  have hturned {d : Vec F32 3} {d' : Vec ℝ 3} (hd : d.Near 0 d') (hd' : d'.Small) :
      (t.rotationMatrix.transformDirection d).Near (1 / 2048)
        (T.rotationMatrix.transformDirection d') := by
    have hdirection := hnear.transformDirection T.isRotation_rotationMatrix.small hd hd' (by linarith)
    exact fun i => (hdirection i).mono (by linarith)
  have hzero : |(0 : ℝ)| ≤ 1 := by norm_num
  have hone : |(1 : ℝ)| ≤ 1 := by norm_num
  refine ⟨T, hturned ?_ ?_, hturned ?_ ?_⟩
  · exact Vec.near_of3 Binary.near_zero Binary.near_zero Binary.near_one.neg
  · exact Vec.small_of3 hzero hzero (by rwa [abs_neg])
  · exact Vec.near_of3 Binary.near_zero Binary.near_one Binary.near_zero
  · exact Vec.small_of3 hzero hone hzero

end Transform

/-! ## One step ahead -/

/-- A number below `2 ^ 24` is at most the whole number before it. -/
theorem Binary.toReal_le_of_lt {x : F32} (h : Scalar.abs x < ((2 ^ 24 : Nat) : F32)) :
    x.isFinite = true ∧ |x.toReal| ≤ 16777215 := by
  obtain ⟨hnan, -, hkey⟩ := Binary.lt_iff.mp h
  have hplace : ((2 ^ 24 : Nat) : F32).key = 0x4b800000 := by decide
  have hmag : x.magnitude ≤ 0x4b7fffff := by
    have habs : (Scalar.abs x : F32).key = x.magnitude := rfl
    rw [hplace, habs] at hkey
    omega
  refine ⟨decide_eq_true (Nat.lt_of_le_of_lt hmag (by decide)), ?_⟩
  have hcount : x.unitCount ≤ 16777215 * 2 ^ 149 := by
    have hunits : Format.single.unitsAt 0x4b7fffff = 16777215 * 2 ^ 149 := by decide
    exact hunits ▸ Format.unitsAt_mono hmag
  have hcount' : (x.unitCount : ℝ) ≤ 16777215 * 2 ^ 149 := by exact_mod_cast hcount
  rwa [Binary.abs_toReal, Format.unitBits_single, div_le_iff₀ (by positivity)]

/-- The way back from one step ahead, begun below `2 ^ 24`, is off by little more than one half. -/
theorem Binary.near_offset {p f : F32} {d : ℝ} (hp : p.isFinite = true) (hsize : |p.toReal| ≤ 16777215)
    (hf : Near (1 / 2048) f d) (hd : |d| ≤ 1) : Near (1 / 2 + 1 / 1024) (p - (p + f)) (-d) := by
  have hround := roundoff_eq
  have hf' := hf.abs_le
  have hsum : Near (1 / 2) (p + f) (p.toReal + f.toReal) := by
    have hle : |p.toReal + f.toReal| ≤ 16777216 + 1 / 2 := by
      have := abs_add_le p.toReal f.toReal
      linarith
    have hnear := Binary.rounded_add hp hf.isFinite 24 (by norm_num) (hle.trans (by norm_num))
    exact hnear.mono (by norm_num)
  have hclose := hf.error
  have htarget := hsum.error
  rw [abs_le] at hclose htarget hd
  have hback : Near roundoff (p - (p + f)) (p.toReal - (p + f).toReal) := by
    refine (Binary.rounded_sub hp hsum.isFinite).near ?_
    rw [abs_le]
    constructor <;> linarith
  have hoff : |p.toReal - (p + f).toReal - -d| ≤ 1 / 2 + 1 / 2048 := by
    rw [abs_le]
    constructor <;> linarith
  exact (hback.trans hoff).mono (by linarith)

namespace Camera

variable {t : Transform F32} {n : Vec ℝ 3}

/-- The way back is short, and it reaches backward. -/
theorem offset_spec (hposition : t.WithinReach)
    (hforward : t.forward.Near (1 / 2048) (-n)) (hn : n.dot n = 1) :
    let offset := t.position - (t.position + t.forward)
    offset.Finite ∧ (∀ i : Fin 3, |offset.real[i]| ≤ 8 / 5) ∧
      1 / 8 ≤ offset.real.dot n := by
  intro offset
  have hnear : offset.Near (1 / 2 + 1 / 1024) n := fun i => by
    have hunit : |(-n)[i]| ≤ 1 := by
      rw [Vec.getElem_neg, abs_neg]
      exact Vec.small_of_unit hn i
    obtain ⟨hp, hsize⟩ := Binary.toReal_le_of_lt (hposition i)
    have hstep := Binary.near_offset hp hsize (hforward i) hunit
    rwa [Vec.getElem_neg, neg_neg, ← Vec.getElem_add, ← Vec.getElem_sub] at hstep
  refine ⟨fun i => (hnear i).isFinite, fun i => ?_, ?_⟩
  · linarith [hnear.real_le i, Vec.small_of_unit hn i]
  · have hreach := Vec.dot_ge_of_close hn hnear.real
    rw [hn] at hreach
    linarith

/-- Made a unit vector, it still reaches backward. -/
theorem back_spec {offset : Vec F32 3} (hn : n.dot n = 1) (hfin : offset.Finite)
    (hsize : ∀ i : Fin 3, |offset.real[i]| ≤ 8 / 5) (hreach : 1 / 8 ≤ offset.real.dot n) :
    ∃ back, offset.normalize Tolerance.single = .ok back ∧ back.Finite ∧
      (∀ i : Fin 3, |back.real[i]| ≤ 11 / 10) ∧ 1 / 25 ≤ back.real.dot n := by
  have hround := roundoff_eq
  have hlow := (pow_le_pow_left₀ (by norm_num) hreach 2).trans (Vec.sq_dot_le hn)
  obtain ⟨back, size, hback, hpos, hsquare, hentries⟩ := Vec.exists_normalize hfin
    (fun i => (hsize i).trans (by norm_num)) (le_trans (by norm_num) hlow)
  have hnear : back.Near roundoff (offset.real / size) := fun i => by
    rw [Vec.getElem_div]
    exact (hentries i).2
  refine ⟨back, hback, fun i => (hnear i).isFinite, fun i => ?_, ?_⟩
  · have hle := hnear.real_le i
    rw [Vec.getElem_div] at hle
    linarith [(hentries i).1]
  · have hlong : size ≤ 3 := by
      have := Vec.dot_self_le hsize
      rw [abs_le] at hsquare
      nlinarith
    have hscaled : 1 / 24 ≤ (offset.real / size).dot n := by
      rw [Vec.dot_comm, Vec.dot_div, Vec.dot_comm, inv_mul_eq_div, le_div_iff₀ hpos]
      linarith
    linarith [Vec.dot_ge_of_close hn hnear.real]

/-- The upward axis stands across it, so that what shows to the right is not too short. -/
theorem exists_right {u : Vec ℝ 3} {up back : Vec F32 3} (hu : u.dot u = 1) (hn : n.dot n = 1)
    (hun : u.dot n = 0) (hup : up.Near (1 / 2048) u) (hfin : back.Finite)
    (hsize : ∀ i : Fin 3, |back.real[i]| ≤ 11 / 10) (hreach : 1 / 25 ≤ back.real.dot n) :
    ∃ right, (up.cross back).normalize Tolerance.single = .ok right := by
  obtain ⟨hcross, hcross'⟩ := Vec.near_cross hup (Vec.small_of_unit hu) hfin hsize
  have hunit : (u.cross n).dot (u.cross n) = 1 := (Vec.cross_dot_cross_of_unit hu hun).trans hn
  have haside : 1 / 32 ≤ (up.cross back).real.dot (u.cross n) := by
    have hclose := Vec.dot_ge_of_close hunit hcross.real
    rw [Vec.cross_dot_cross_of_unit hu hun] at hclose
    linarith
  have hlow := (pow_le_pow_left₀ (by norm_num) haside 2).trans (Vec.sq_dot_le hunit)
  have hhigh (i : Fin 3) : |(up.cross back).real[i]| ≤ 9 / 4 := by
    linarith [hcross.real_le i, hcross' i]
  obtain ⟨right, -, hright, -⟩ := Vec.exists_normalize (fun i => (hcross i).isFinite) hhigh
    (le_trans (by norm_num) hlow)
  exact ⟨right, hright⟩

/-! ## Near and far -/

/-- A camera within reach has a view. -/
theorem exists_view (c : Camera F32) (hrotation : t.rotation.Finite) (hposition : t.WithinReach) :
    ∃ v, c.view Tolerance.single t = .ok v := by
  obtain ⟨T, hforward, hup⟩ := t.exists_directions_near hrotation
  obtain ⟨⟨-, hu, hn⟩, ⟨-, hun, -⟩, -⟩ := T.rightHanded_directions
  have hneg : -(-T.forward) = T.forward := Vec.toFun_injective (by simp)
  rw [← hneg] at hforward
  obtain ⟨hfin, hsize, hreach⟩ := offset_spec hposition hforward hn
  obtain ⟨back, hback, hfin', hsize', hreach'⟩ := back_spec hn hfin hsize hreach
  obtain ⟨right, hright⟩ := exists_right hu hn hun hup hfin' hsize' hreach'
  simp only [view, Mat.lookAt, hback, bind, Except.bind, hright]
  exact ⟨_, rfl⟩

end Camera

namespace Transform

variable {t : Transform F32}

/-- Out of reach no step of length one is noticed. -/
theorem OutOfReach.losesStep (h : t.OutOfReach) (hrotation : t.rotation.Finite) : t.LosesStep := by
  obtain ⟨T, hforward, -⟩ := t.exists_directions_near hrotation
  have hn := T.rightHanded_directions.units.2.2
  refine ⟨h.finite, Vec.ext fun i => ?_⟩
  rw [Vec.getElem_add]
  refine Binary.add_eq_left (k := 151) (by decide) (h.finite i) (hforward i).isFinite ?_ ?_
  · have hkey := (Binary.lt_iff.mp (h.large i)).2.2
    have hplace : ((2 ^ 25 : Nat) : F32).key = ((151 + 1) * Format.single.leadingBit : Nat) := by decide
    have habs : (Scalar.abs t.position[i] : F32).key = t.position[i].magnitude := rfl
    rw [hplace, habs] at hkey
    exact Int.ofNat_lt.mp hkey
  · have hsize : |t.forward[i].toReal| < 2 := by
      have hle := (hforward i).abs_le
      have hunit := Vec.small_of_unit hn i
      rw [Vec.getElem_neg, abs_neg] at hunit
      linarith
    rw [Binary.abs_toReal, Format.unitBits_single, div_lt_iff₀ (by positivity)] at hsize
    have hcount : (2 * t.forward[i].unitCount : ℝ) < 2 ^ 151 := by
      calc (2 * t.forward[i].unitCount : ℝ) < 2 * (2 * 2 ^ 149) := by linarith
        _ = 2 ^ 151 := by norm_num
    exact_mod_cast hcount

/-- The way back is nothing then, and nothing has no direction. -/
theorem LosesStep.view (h : t.LosesStep) (c : Camera F32) :
    c.view Tolerance.single t = .error (.zeroLengthVector 0) := by
  have hnone : t.position - t.position = Vec.zero := Vec.ext fun i => by
    rw [Vec.getElem_sub, Vec.getElem_zero]
    exact Binary.sub_eq_zero (h.finite i)
  have hzero : (Vec.zero : Vec F32 3).normalize Tolerance.single = .error (.zeroLengthVector 0) := by
    decide +kernel
  simp only [Camera.view, Mat.lookAt, h.unmoved, hnone, hzero]
  rfl

end Transform

/-- A camera at rest on the third axis, a hundred million away, has a place and a direction like any
other, and no view. -/
theorem Camera.view_far_out :
    let t : Transform F32 := .ofPosition (.of3 0 0 ((100000000 : Nat) : F32))
    t.position.Finite ∧ t.rotation.Finite ∧
      (standard : Camera F32).view Tolerance.single t = .error (.zeroLengthVector 0) := by
  decide +kernel

end SceneEngine
