/-
Wrapping an angle, in single precision.

An angle beyond a full turn is brought back by two turns. Below `2 ^ 28` degrees two turns
are a whole number of the angle's last places, so nothing is rounded. Above, the result is
the number nearest to the difference, which is no farther from the angle than four turns.
Either way the angle does not grow.

Whether the wrapped angle still counts as alike to the angle is then a matter of size
alone: two turns are within the relative tolerance exactly from `72000000` degrees on
(`alike_wrapAngle_iff`).
-/
import SceneEngine.Proofs.Binary.Rounding
import SceneEngine.Transform

namespace SceneEngine

namespace Transform

open Binary

variable {a : F32}

/-- Two turns, in units. -/
def twoTurns : Int := 720 * 2 ^ 149

/-- At most a full turn. -/
def Within (a : F32) : Prop := -((360 : Nat) : F32) ≤ a ∧ a ≤ ((360 : Nat) : F32)

/-- So far that two turns make no difference. -/
def Beyond (a : F32) : Prop := a ≤ -((72000000 : Nat) : F32) ∨ ((72000000 : Nat) : F32) ≤ a

instance (a : F32) : Decidable (Within a) := inferInstanceAs (Decidable (_ ∧ _))

instance (a : F32) : Decidable (Beyond a) := inferInstanceAs (Decidable (_ ∨ _))

theorem within_iff (ha : a.isNaN = false) : Within a ↔ a.magnitude ≤ 0x43b40000 := by
  have hpos : ((360 : Nat) : F32).key = 0x43b40000 := by decide
  have hneg : (-((360 : Nat) : F32)).key = -0x43b40000 := by decide
  have hmag := natAbs_key a
  constructor
  · rintro ⟨hlow, hhigh⟩
    have hlow := (le_iff.mp hlow).2.2
    have hhigh := (le_iff.mp hhigh).2.2
    omega
  · intro h
    exact ⟨le_iff.mpr ⟨by decide, ha, by omega⟩, le_iff.mpr ⟨ha, by decide, by omega⟩⟩

theorem beyond_iff (ha : a.isNaN = false) : Beyond a ↔ 0x4c895440 ≤ a.magnitude := by
  have hpos : ((72000000 : Nat) : F32).key = 0x4c895440 := by decide
  have hneg : (-((72000000 : Nat) : F32)).key = -0x4c895440 := by decide
  have hmag := natAbs_key a
  constructor
  · rintro (hlow | hhigh)
    · have hlow := (le_iff.mp hlow).2.2
      omega
    · have hhigh := (le_iff.mp hhigh).2.2
      omega
  · intro h
    rcases Int.le_total 0 a.key with hsign | hsign
    · exact .inr (le_iff.mpr ⟨by decide, ha, by omega⟩)
    · exact .inl (le_iff.mpr ⟨ha, by decide, by omega⟩)

theorem wrapAngle_of_within (h : Within a) : wrapAngle a = a := by
  obtain ⟨hlow, hhigh⟩ := h
  have hnlow : ¬ a < -((360 : Nat) : F32) := not_lt_of_le hlow
  have hnhigh : ¬ ((360 : Nat) : F32) < a := not_lt_of_le hhigh
  simp only [wrapAngle, if_neg hnlow, if_neg hnhigh]

/-- Whatever the sign of an angle, its size is brought back by two turns and rounded. -/
theorem exists_wrapAngle (hfin : a.isFinite = true) (h : ¬ Within a) : ∃ s : Int,
    (s = 1 ∨ s = -1) ∧ a.units = s * a.unitCount ∧ (wrapAngle a).isNaN = false ∧
      (wrapAngle a).key = s * nearestKey .single (a.unitCount - twoTurns) := by
  have hnan := isNaN_of_isFinite hfin
  have hturn : ((720 : Nat) : F32).isFinite = true := by decide
  have hunits : ((720 : Nat) : F32).units = twoTurns := by decide
  by_cases hlow : a < -((360 : Nat) : F32)
  · have hwrap : wrapAngle a = a.add ((720 : Nat) : F32) := by
      simp only [wrapAngle, if_pos hlow]
      rfl
    have hneg : a.units = -a.unitCount := by
      have hkey := (lt_iff.mp hlow).2.2
      rw [show (-((360 : Nat) : F32)).key = -0x43b40000 by decide] at hkey
      rw [← Int.neg_neg a.units, ← units_neg, units_of_key_nonneg (by rw [key_neg]; omega)]
      rfl
    refine ⟨-1, .inr rfl, by rw [hneg, Int.neg_one_mul], hwrap ▸ isNaN_add hfin hturn, ?_⟩
    rw [hwrap, key_add hfin hturn, hunits, hneg,
      show -(a.unitCount : Int) + twoTurns = -(a.unitCount - twoTurns) by omega, nearestKey_neg,
      Int.neg_one_mul]
  · have hlow' : -((360 : Nat) : F32) ≤ a := le_of_not_lt (by decide) hnan hlow
    have hhigh : ((360 : Nat) : F32) < a :=
      lt_of_not_le (by decide) hnan fun hle => h ⟨hlow', hle⟩
    have hwrap : wrapAngle a = a.sub ((720 : Nat) : F32) := by
      simp only [wrapAngle, if_neg hlow, if_pos hhigh]
      rfl
    have hpos : a.units = a.unitCount := by
      have hkey := (lt_iff.mp hhigh).2.2
      rw [show ((360 : Nat) : F32).key = 0x43b40000 by decide] at hkey
      exact units_of_key_nonneg (by omega)
    refine ⟨1, .inl rfl, by rw [hpos, Int.one_mul], hwrap ▸ isNaN_sub hfin hturn, ?_⟩
    rw [hwrap, key_sub hfin hturn, hunits, hpos, Int.one_mul]

/-! ## Sizes -/

variable {m : Nat}

/-- An angle beyond a full turn is farther from zero than from two turns. -/
theorem twoTurns_lt (h : 0x43b40000 < m) : twoTurns < 2 * Format.single.unitsAt m := by
  have hlt := Format.unitsAt_strictMono .single h
  have hturn : (2 * Format.single.unitsAt 0x43b40000 : Int) = twoTurns := by decide
  omega

/-- Below `2 ^ 28` degrees two turns are a whole number of last places, so they come off
exactly. -/
theorem exists_unitsAt_wrapped (h : 0x43b40000 < m) (hm : m < 0x4d800000) :
    ∃ k < m, Format.single.unitsAt k = (Format.single.unitsAt m - twoTurns : Int).natAbs := by
  have hturns := twoTurns_lt h
  obtain ⟨s, q, hsum, hq, hs⟩ := Format.exists_significand .single m
  have hunits : Format.single.unitsAt m = q * 2 ^ s := by
    rw [hsum]
    exact Format.unitsAt_significand (Nat.le_of_lt hq) hs
  have hlead : Format.single.leadingBit = 0x800000 := by decide
  have hscale : s ≤ 153 := by
    rw [hlead] at hsum hs
    omega
  -- Two turns are `45 * 2 ^ 153` units.
  obtain ⟨c, hc⟩ : ∃ c : Int, twoTurns = c * 2 ^ s := by
    refine ⟨45 * 2 ^ (153 - s), ?_⟩
    rw [Int.mul_assoc, ← Int.pow_add, Nat.sub_add_cancel hscale]
    decide
  have hpow : (0 : Int) < 2 ^ s := Int.pow_pos (by decide)
  have hclose : (q - c : Int).natAbs < q := by
    have hupper : c * 2 ^ s < 2 * q * 2 ^ s := by
      rw [← hc, Int.mul_assoc]
      exact_mod_cast hunits ▸ hturns
    have hlower : 0 < c * 2 ^ s := by
      rw [← hc]
      decide
    have := Int.lt_of_mul_lt_mul_right hupper (Int.le_of_lt hpow)
    have := Int.pos_of_mul_pos_left hlower hpow
    omega
  have hdiff : (Format.single.unitsAt m - twoTurns : Int).natAbs = (q - c : Int).natAbs * 2 ^ s := by
    rw [hunits, hc]
    push_cast
    rw [← Int.sub_mul, Int.natAbs_mul, Int.natAbs_pow]
    rfl
  obtain ⟨k, hk⟩ := Format.exists_unitsAt_eq (f := .single) (q := (q - c : Int).natAbs) (by omega) s
  refine ⟨k, (Format.unitsAt_strictMono .single).lt_iff_lt.mp ?_, hk.trans hdiff.symm⟩
  rw [hk, hunits]
  exact Nat.mul_lt_mul_of_pos_right hclose (Nat.two_pow_pos s)

theorem magnitude_wrapAngle (hfin : a.isFinite = true) (h : ¬ Within a) : (wrapAngle a).magnitude =
    (nearest false (a.unitCount - twoTurns).natAbs 1 : F32).magnitude := by
  obtain ⟨s, hs, -, -, hkey⟩ := exists_wrapAngle hfin h
  have hunit : s.natAbs = 1 := by omega
  rw [← natAbs_key, hkey, Int.natAbs_mul, natAbs_nearestKey (by decide), hunit, Nat.one_mul]

/-- An angle does not grow. -/
theorem magnitude_wrapAngle_le (hfin : a.isFinite = true) :
    (wrapAngle a).magnitude ≤ a.magnitude := by
  by_cases h : Within a
  · rw [wrapAngle_of_within h]
  · rw [magnitude_wrapAngle hfin h]
    rw [within_iff (isNaN_of_isFinite hfin)] at h
    have hturns : twoTurns < 2 * a.unitCount := twoTurns_lt (Nat.not_le.mp h)
    have hpos : 0 < twoTurns := by decide
    refine nearest_le (by decide) Nat.one_pos ?_
    show _ ≤ 1 * a.unitCount
    omega

theorem isFinite_wrapAngle (hfin : a.isFinite = true) : (wrapAngle a).isFinite = true :=
  isFinite_of_le hfin (magnitude_wrapAngle_le hfin)

/-- Below `2 ^ 28` degrees it is wrapped exactly. -/
theorem exists_units_wrapAngle (hfin : a.isFinite = true) (h : ¬ Within a)
    (hm : a.magnitude < 0x4d800000) : ∃ s : Int, (s = 1 ∨ s = -1) ∧
      (wrapAngle a).units = a.units - s * twoTurns ∧ (wrapAngle a).magnitude < a.magnitude := by
  obtain ⟨s, hs, hunits, -, hkey⟩ := exists_wrapAngle hfin h
  have hmag := magnitude_wrapAngle hfin h
  rw [within_iff (isNaN_of_isFinite hfin)] at h
  obtain ⟨k, hk, hkunits⟩ := exists_unitsAt_wrapped (Nat.not_le.mp h) hm
  have hinf : k ≤ Format.single.infinity := Nat.le_of_lt (Nat.lt_trans hk (lt_infinity hfin))
  have hnear : (wrapAngle a).magnitude = k := by
    rw [hmag]
    exact nearest_eq (by decide) Nat.one_pos (by rw [hkunits, Nat.one_mul]; rfl) hinf
  refine ⟨s, hs, ?_, hnear ▸ hk⟩
  have hexact := unitsOf_nearestKey (by decide) hkunits hinf
  rw [units_eq, hkey, unitsOf_mul hs, hunits, ← Int.mul_sub]
  exact congrArg (s * ·) hexact

/-- However far it is, it is carried no farther than four turns. -/
theorem natAbs_units_wrapAngle_le (hfin : a.isFinite = true) (h : ¬ Within a) :
    ((wrapAngle a).units - a.units).natAbs ≤ 2 * twoTurns.natAbs := by
  rcases Nat.lt_or_ge a.magnitude 0x4d800000 with hm | hm
  · obtain ⟨s, hs, hunits, -⟩ := exists_units_wrapAngle hfin h hm
    rw [hunits]
    rcases hs with rfl | rfl <;> omega
  · obtain ⟨s, hs, hunits, -, hkey⟩ := exists_wrapAngle hfin h
    have hpos : 0 < (a.unitCount - twoTurns : Int) := by
      have hmono : Format.single.unitsAt 0x4d800000 ≤ a.unitCount := Format.unitsAt_mono hm
      have hfar : twoTurns < Format.single.unitsAt 0x4d800000 := by decide
      omega
    have hwrapped : (wrapAngle a).units = s * (wrapAngle a).unitCount := by
      rw [units_eq, hkey, unitsOf_mul hs, nearestKey, Int.sign_eq_one_of_pos hpos, Int.one_mul,
        ← magnitude_wrapAngle hfin h, unitsOf_natCast]
      rfl
    have hle := magnitude_wrapAngle_le hfin
    have hmono : (wrapAngle a).unitCount ≤ a.unitCount := Format.unitsAt_mono hle
    have hdist : 2 * (a.unitCount - twoTurns : Int) ≤ (wrapAngle a).unitCount + a.unitCount := by
      rcases Nat.lt_or_eq_of_le hle with hlt | heq
      · -- The middle above the wrapped angle is at most half way to the angle.
        have hmiddle : 2 * (a.unitCount - twoTurns : Int).natAbs ≤ 1 * ((wrapAngle a).unitCount +
            Format.single.unitsAt ((wrapAngle a).magnitude + 1)) :=
          le_middle_of_nearest_le (by decide) Nat.one_pos
            (Nat.le_of_eq (magnitude_wrapAngle hfin h).symm) (lt_infinity (isFinite_wrapAngle hfin))
        have hnext : Format.single.unitsAt ((wrapAngle a).magnitude + 1) ≤ a.unitCount :=
          Format.unitsAt_mono hlt
        omega
      · have hsame : (wrapAngle a).unitCount = a.unitCount :=
          congrArg Format.single.unitsAt heq
        have hturns : 0 < twoTurns := by decide
        omega
    have hunit : s.natAbs = 1 := by omega
    rw [hwrapped, hunits, ← Int.mul_sub, Int.natAbs_mul, hunit]
    omega

/-! ## Likeness -/

variable {b : F32}

/-- The distance of two numbers as it is measured, in double precision. -/
def measured (a b : F32) : F64 := nearest false ((a.units - b.units).natAbs * finerUnits) 1

/-- The distance at which a number of this size still counts as the same. -/
def allowance (b : F32) : F64 := Tolerance.single.relative.mul (b.convert : F64).abs

theorem approxEq_eq (t : Tolerance F64) (a b : F32) :
    t.approxEq a b = if (a.convert : F64).eq b.convert then true
      else ((a.convert : F64).sub b.convert).abs.isFinite &&
        (decide (((a.convert : F64).sub b.convert).abs.le t.absolute = true) ||
          decide (((a.convert : F64).sub b.convert).abs.le (t.relative.mul
            ((a.convert : F64).abs.greatest (b.convert : F64).abs)) = true)) := rfl

/-- When the second of two finite numbers is not the smaller one, its size is what their
distance is held against. -/
theorem approxEq_iff (ha : a.isFinite = true) (hb : b.isFinite = true)
    (hle : a.magnitude ≤ b.magnitude) : Tolerance.single.approxEq a b = true ↔
      (a.convert : F64).eq b.convert = true ∨ (measured a b).isFinite = true ∧
        ((measured a b).le Tolerance.single.absolute = true ∨
          (measured a b).le (allowance b) = true) := by
  obtain ⟨hafin, -, hacount⟩ := widen_exact ha
  obtain ⟨hbfin, -, hbcount⟩ := widen_exact hb
  have hdistance : ((a.convert : F64).sub b.convert).abs = measured a b := by
    refine Binary.ext rfl ?_
    show ((a.convert : F64).sub b.convert).magnitude = _
    rw [← natAbs_key, key_sub hafin hbfin, natAbs_nearestKey (by decide),
      units_widen ha, units_widen hb, ← Int.sub_mul, Int.natAbs_mul, Int.natAbs_natCast, measured]
  have hgreatest : (a.convert : F64).abs.greatest (b.convert : F64).abs = (b.convert : F64).abs := by
    refine greatest_abs (isNaN_of_isFinite hafin) (isNaN_of_isFinite hbfin) ?_
    refine (Format.unitsAt_strictMono .double).le_iff_le.mp ?_
    rw [← unitCount, ← unitCount, hacount, hbcount]
    exact Nat.mul_le_mul_right _ (Format.unitsAt_mono hle)
  rw [approxEq_eq, hdistance, hgreatest, ← allowance]
  split
  · next hsame => simp [hsame]
  · next hsame => simp [hsame]

theorem allowance_eq (hb : b.isFinite = true) : allowance b = nearest false
    (Tolerance.single.relative.unitCount * (b.unitCount * finerUnits))
      (1 <<< Format.double.unitBits) := by
  obtain ⟨hbfin, -, hcount⟩ := widen_exact hb
  have hbnan : (b.convert : F64).abs.isNaN = false := isNaN_of_isFinite hbfin
  have hbinf : (b.convert : F64).abs.isInfinite = false := isInfinite_of_isFinite hbfin
  have hnan : Tolerance.single.relative.isNaN = false := by decide +kernel
  have hinf : Tolerance.single.relative.isInfinite = false := by decide +kernel
  have hneg : Tolerance.single.relative.negative = false := by decide
  have habs : (b.convert : F64).abs.unitCount = b.unitCount * finerUnits := hcount
  simp only [allowance, mul, hnan, hbnan, hinf, hbinf, hneg, habs, Bool.false_eq_true, if_false,
    Bool.or_self]
  rfl

/-- Larger numbers are allowed a larger distance. -/
theorem allowance_mono (ha : a.isFinite = true) (hb : b.isFinite = true)
    (hle : a.magnitude ≤ b.magnitude) : (allowance a).le (allowance b) = true := by
  rw [allowance_eq ha, allowance_eq hb]
  have hunits : a.unitCount ≤ b.unitCount := Format.unitsAt_mono hle
  exact nearest_le_nearest (by decide) (Format.one_shiftLeft_pos _)
    (Nat.mul_le_mul_left _ (Nat.mul_le_mul_right _ hunits))

theorem measured_wrapAngle_le (hfin : a.isFinite = true) (h : ¬ Within a) :
    (measured (wrapAngle a) a).magnitude ≤ ((1440 : Nat) : F64).magnitude := by
  have hfour : ((1440 : Nat) : F64).magnitude =
      (nearest false (2 * twoTurns.natAbs * finerUnits) 1 : F64).magnitude := by decide +kernel
  rw [hfour]
  exact nearest_mono (by decide) Nat.one_pos
    (Nat.mul_le_mul_right _ (natAbs_units_wrapAngle_le hfin h))

theorem measured_wrapAngle (hfin : a.isFinite = true) (h : ¬ Within a)
    (hm : a.magnitude < 0x4d800000) : measured (wrapAngle a) a = ((720 : Nat) : F64) := by
  obtain ⟨s, hs, hunits, -⟩ := exists_units_wrapAngle hfin h hm
  have hdiff : ((wrapAngle a).units - a.units).natAbs = twoTurns.natAbs := by
    rcases hs with rfl | rfl <;> omega
  rw [measured, hdiff]
  decide +kernel

theorem not_alike_wrapAngle (hfin : a.isFinite = true) (h : ¬ Within a)
    (hm : a.magnitude < 0x4c895440) : ¬ Tolerance.single.approxEq (wrapAngle a) a = true := by
  have hsmall : a.magnitude < 0x4d800000 := by omega
  rw [approxEq_iff (isFinite_wrapAngle hfin) hfin (magnitude_wrapAngle_le hfin),
    measured_wrapAngle hfin h hsmall]
  rintro (hsame | ⟨-, habsolute | hrelative⟩)
  · -- Equal numbers have equal units, but these are two turns apart.
    obtain ⟨s, hs, hunits, -⟩ := exists_units_wrapAngle hfin h hsmall
    have hkey : ((wrapAngle a).convert : F64).key = (a.convert : F64).key := by
      simp only [Binary.eq, Bool.and_eq_true, decide_eq_true_eq] at hsame
      exact hsame.2
    have heq : (wrapAngle a).units * finerUnits = a.units * finerUnits := by
      rw [← units_widen (isFinite_wrapAngle hfin), ← units_widen hfin, units_eq, units_eq, hkey]
    have hpos : (finerUnits : Int) ≠ 0 := Int.ofNat_ne_zero.mpr (Nat.ne_of_gt finerUnits_pos)
    have heq := Int.eq_of_mul_eq_mul_right hpos heq
    have hturns : twoTurns ≠ 0 := by decide
    rcases hs with rfl | rfl <;> omega
  · exact absurd habsolute (by decide +kernel)
  · -- The number before `72000000` allows less.
    have hmono := allowance_mono hfin (b := .ofWord 0x4c89543f) (by decide)
      (Nat.le_of_lt_succ (Nat.lt_of_lt_of_eq hm (by decide)))
    exact not_lt_of_le (le_trans hrelative hmono) (by decide +kernel)

theorem alike_wrapAngle_of_beyond (hfin : a.isFinite = true) (h : ¬ Within a)
    (hm : 0x4c895440 ≤ a.magnitude) : Tolerance.single.approxEq (wrapAngle a) a = true := by
  rw [approxEq_iff (isFinite_wrapAngle hfin) hfin (magnitude_wrapAngle_le hfin)]
  have hle := measured_wrapAngle_le hfin h
  have hfour : ((1440 : Nat) : F64).isFinite = true := by decide +kernel
  have hmeasured : (measured (wrapAngle a) a).isFinite = true := isFinite_of_le hfour hle
  refine .inr ⟨hmeasured, .inr ?_⟩
  rcases Nat.lt_or_ge a.magnitude 0x4d800000 with hsmall | hlarge
  · rw [measured_wrapAngle hfin h hsmall]
    exact le_trans (y := allowance (.ofWord 0x4c895440)) (by decide +kernel)
      (allowance_mono (by decide) hfin hm)
  · have hfour : (measured (wrapAngle a) a).le ((1440 : Nat) : F64) = true :=
      le_iff.mpr ⟨isNaN_of_isFinite hmeasured, by decide +kernel, Int.ofNat_le.mpr hle⟩
    exact le_trans (le_trans hfour (z := allowance (.ofWord 0x4d800000)) (by decide +kernel))
      (allowance_mono (by decide) hfin hlarge)

/-- Two turns make no difference from `72000000` degrees on. -/
theorem alike_wrapAngle_iff (hfin : a.isFinite = true) :
    Tolerance.single.approxEq (wrapAngle a) a = true ↔ Within a ∨ Beyond a := by
  have hnan := isNaN_of_isFinite hfin
  by_cases h : Within a
  · have hself : Tolerance.single.approxEq a a = true := by
      rw [approxEq_iff hfin hfin (Nat.le_refl _)]
      left
      simp [Binary.eq, isNaN_of_isFinite (widen_exact hfin).1]
    rw [wrapAngle_of_within h]
    exact iff_of_true hself (.inl h)
  · rw [or_iff_right h, beyond_iff hnan]
    constructor
    · intro halike
      exact Nat.not_lt.mp fun hm => not_alike_wrapAngle hfin h hm halike
    · exact alike_wrapAngle_of_beyond hfin h

end Transform

end SceneEngine
