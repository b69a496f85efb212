/-
The order of binary numbers, and what arithmetic keeps of it.

Numbers other than NaNs compare as their integer keys, so `lt` and `le` are as
transitive as the integers are. `least` and `greatest` bound what they are taken of,
the ranks of words put numbers in the order of their values, and a difference that
comes out positive was one: no rounding turns the order around. A NaN on either side
makes a product a NaN. Numbers that are equal stand at one place in the order, and so do
their sums and differences with equal numbers, though a zero may change its sign.
-/
import SceneEngine.Scalar

namespace SceneEngine

/-! ## Magnitudes and units -/

namespace Format

variable {f : Format}

theorem leadingBit_pos (f : Format) : 0 < f.leadingBit := one_shiftLeft_pos _

theorem unitsAt_zero (f : Format) : f.unitsAt 0 = 0 := by simp [unitsAt]

/-- A magnitude stands for less than the first one of the next exponent. -/
theorem unitsAt_lt (f : Format) (m : Nat) :
    f.unitsAt m < f.leadingBit * Nat.pow 2 (m / f.leadingBit) := by
  have hfrac := Nat.mod_lt m f.leadingBit_pos
  simp only [unitsAt]
  split
  · next he => simpa [he] using hfrac
  · next he =>
    rw [Nat.shiftLeft_eq]
    calc (f.leadingBit + m % f.leadingBit) * 2 ^ (m / f.leadingBit - 1)
        < (f.leadingBit + f.leadingBit) * 2 ^ (m / f.leadingBit - 1) :=
          Nat.mul_lt_mul_of_pos_right (Nat.add_lt_add_left hfrac _) (Nat.two_pow_pos _)
      _ = f.leadingBit * 2 ^ (m / f.leadingBit - 1 + 1) := by
          rw [← Nat.two_mul, Nat.mul_comm 2, Nat.mul_assoc, Nat.pow_succ, Nat.mul_comm 2]
      _ = f.leadingBit * Nat.pow 2 (m / f.leadingBit) := by
          rw [Nat.sub_add_cancel (Nat.pos_of_ne_zero he)]
          rfl

theorem le_unitsAt {m : Nat} (h : 0 < m / f.leadingBit) :
    f.leadingBit * Nat.pow 2 (m / f.leadingBit - 1) ≤ f.unitsAt m := by
  simp only [unitsAt, if_neg (Nat.ne_of_gt h), Nat.shiftLeft_eq]
  exact Nat.mul_le_mul_right _ (Nat.le_add_right _ _)

/-- Magnitudes are ordered as the values they stand for. -/
theorem unitsAt_mono {m n : Nat} (h : m ≤ n) : f.unitsAt m ≤ f.unitsAt n := by
  have hexp : m / f.leadingBit ≤ n / f.leadingBit := Nat.div_le_div_right h
  rcases Nat.lt_or_eq_of_le hexp with hlt | heq
  · calc f.unitsAt m
        ≤ f.leadingBit * Nat.pow 2 (m / f.leadingBit) := Nat.le_of_lt (f.unitsAt_lt m)
      _ ≤ f.leadingBit * Nat.pow 2 (n / f.leadingBit - 1) :=
          Nat.mul_le_mul_left _ (Nat.pow_le_pow_right Nat.two_pos (Nat.le_sub_one_of_lt hlt))
      _ ≤ f.unitsAt n := le_unitsAt (Nat.lt_of_le_of_lt (Nat.zero_le _) hlt)
  · -- Within one exponent the fractions decide.
    have hfrac : m % f.leadingBit ≤ n % f.leadingBit := by
      have hm := Nat.div_add_mod m f.leadingBit
      have hn := Nat.div_add_mod n f.leadingBit
      rw [heq] at hm
      omega
    simp only [unitsAt, heq]
    split
    · exact hfrac
    · rw [Nat.shiftLeft_eq, Nat.shiftLeft_eq]
      exact Nat.mul_le_mul_right _ (Nat.add_le_add_left hfrac _)

end Format

namespace Binary

variable {f : Format} {x y z : Binary f}

/-! ## Comparison by keys -/

theorem lt_iff : x.lt y = true ↔ x.isNaN = false ∧ y.isNaN = false ∧ x.key < y.key := by
  simp [lt, and_assoc]

theorem le_iff : x.le y = true ↔ x.isNaN = false ∧ y.isNaN = false ∧ x.key ≤ y.key := by
  simp [le, and_assoc]

theorem le_trans (hxy : x.le y = true) (hyz : y.le z = true) : x.le z = true := by
  rw [le_iff] at *
  exact ⟨hxy.1, hyz.2.1, Int.le_trans hxy.2.2 hyz.2.2⟩

theorem lt_of_le_of_lt (hxy : x.le y = true) (hyz : y.lt z = true) : x.lt z = true := by
  rw [lt_iff] at *
  rw [le_iff] at hxy
  exact ⟨hxy.1, hyz.2.1, Int.lt_of_le_of_lt hxy.2.2 hyz.2.2⟩

theorem lt_of_lt_of_le (hxy : x.lt y = true) (hyz : y.le z = true) : x.lt z = true := by
  rw [lt_iff] at *
  rw [le_iff] at hyz
  exact ⟨hxy.1, hyz.2.1, Int.lt_of_lt_of_le hxy.2.2 hyz.2.2⟩

theorem lt_irrefl (x : Binary f) : ¬ x.lt x = true := fun h => Int.lt_irrefl _ (lt_iff.mp h).2.2

theorem not_lt_of_le (h : x.le y = true) : ¬ y.lt x = true := by
  rw [le_iff] at h
  rw [lt_iff]
  exact fun hlt => Int.not_lt.mpr h.2.2 hlt.2.2

/-- Of two numbers one is at most the other. -/
theorem le_of_not_lt (hx : x.isNaN = false) (hy : y.isNaN = false) (h : ¬ y.lt x = true) :
    x.le y = true := by
  rw [lt_iff] at h
  rw [le_iff]
  exact ⟨hx, hy, Int.not_lt.mp fun hlt => h ⟨hy, hx, hlt⟩⟩

theorem lt_of_not_le (hx : x.isNaN = false) (hy : y.isNaN = false) (h : ¬ y.le x = true) :
    x.lt y = true := by
  rw [le_iff] at h
  rw [lt_iff]
  exact ⟨hx, hy, Int.not_le.mp fun hle => h ⟨hy, hx, hle⟩⟩

theorem le_refl (hx : x.isNaN = false) : x.le x = true := le_iff.mpr ⟨hx, hx, Int.le_refl _⟩

theorem le_of_lt (h : x.lt y = true) : x.le y = true := by
  rw [lt_iff] at h
  exact le_iff.mpr ⟨h.1, h.2.1, Int.le_of_lt h.2.2⟩

/-- Words in order are numbers in order. -/
theorem le_of_rank_le (hx : x.isNaN = false) (hy : y.isNaN = false) (h : x.rank ≤ y.rank) :
    x.le y = true := by
  refine le_iff.mpr ⟨hx, hy, ?_⟩
  cases hxn : x.negative <;> cases hyn : y.negative <;>
    simp only [rank, key, hxn, hyn, Bool.false_eq_true, if_false, if_true] at h ⊢ <;> omega

/-! ## Least and greatest -/

theorem least_le_left (hx : x.isNaN = false) : (x.least y).le x = true := by
  unfold least
  split
  · exact le_refl hx
  split
  · next hlt =>
    simp only [hx, Bool.false_or] at hlt
    exact le_of_lt hlt
  · exact le_refl hx

theorem least_le_right (hy : y.isNaN = false) : (x.least y).le y = true := by
  simp only [least, hy, Bool.false_eq_true, if_false]
  split
  · exact le_refl hy
  · next hlt =>
    simp only [Bool.or_eq_true, not_or, Bool.not_eq_true] at hlt
    exact le_of_not_lt hlt.1 hy (by simp [hlt.2])

theorem le_greatest_left (hx : x.isNaN = false) : x.le (x.greatest y) = true := by
  unfold greatest
  split
  · exact le_refl hx
  split
  · next hlt =>
    simp only [hx, Bool.false_or] at hlt
    exact le_of_lt hlt
  · exact le_refl hx

theorem le_greatest_right (hy : y.isNaN = false) : y.le (x.greatest y) = true := by
  simp only [greatest, hy, Bool.false_eq_true, if_false]
  split
  · exact le_refl hy
  · next hlt =>
    simp only [Bool.or_eq_true, not_or, Bool.not_eq_true] at hlt
    exact le_of_not_lt hy hlt.1 (by simp [hlt.2])

/-! ## Signs of sums -/

@[simp] theorem isNaN_neg (x : Binary f) : x.neg.isNaN = x.isNaN := rfl

theorem key_neg (x : Binary f) : x.neg.key = -x.key := by
  cases hx : x.negative <;> simp [key, neg, hx]

theorem units_neg (x : Binary f) : x.neg.units = -x.units := by
  cases hx : x.negative <;> simp [units, unitCount, neg, hx]

theorem units_le (h : x.key ≤ y.key) : x.units ≤ y.units := by
  have hmono : ∀ {m n : Nat}, m ≤ n → (f.unitsAt m : Int) ≤ f.unitsAt n :=
    fun h => Int.ofNat_le.mpr (Format.unitsAt_mono h)
  cases hx : x.negative <;> cases hy : y.negative <;>
    simp only [key, hx, hy, Bool.false_eq_true, if_false, if_true] at h <;>
    simp only [units, unitCount, hx, hy, Bool.false_eq_true, if_false, if_true]
  · exact hmono (by omega)
  · -- Only zeros stand at or above zero and at or below it.
    have hx0 : x.magnitude = 0 := by omega
    have hy0 : y.magnitude = 0 := by omega
    simp [hx0, hy0, Format.unitsAt_zero]
  · omega
  · have := hmono (m := y.magnitude) (n := x.magnitude) (by omega)
    omega

theorem natAbs_key (x : Binary f) : x.key.natAbs = x.magnitude := by
  unfold key
  split <;> simp

theorem natAbs_key_le (hx : x.isNaN = false) : x.key.natAbs ≤ f.infinity := by
  rw [natAbs_key]
  simpa [isNaN] using hx

theorem negative_of_key_pos (h : 0 < x.key) : x.negative = false := by
  cases hx : x.negative with
  | false => rfl
  | true =>
    simp only [key, hx, if_true] at h
    omega

theorem key_nonneg (h : x.negative = false) : 0 ≤ x.key := by simp [key, h]

/-- A sum that comes out positive is of numbers of which one is above the other's
opposite. -/
theorem neg_key_lt_of_add_pos (hx : x.isNaN = false) (hy : y.isNaN = false)
    (h : 0 < (x.add y).key) : -y.key < x.key := by
  have hxle := natAbs_key_le hx
  have hyle := natAbs_key_le hy
  simp only [add, hx, hy, Bool.false_eq_true, if_false] at h
  split at h
  · next hxinf =>
    rw [isInfinite, beq_iff_eq, ← natAbs_key] at hxinf
    split at h
    · simp [invalid, signedNaN, key] at h
      omega
    · next hsign =>
      by_cases hyinf : y.isInfinite = true
      · simp only [hyinf, Bool.true_and, bne_iff_ne, ne_eq, Decidable.not_not] at hsign
        have hpos := key_nonneg (hsign.symm.trans (negative_of_key_pos h))
        omega
      · rw [isInfinite, beq_iff_eq, ← natAbs_key] at hyinf
        omega
  split at h
  · next hxinf hyinf =>
    rw [isInfinite, beq_iff_eq, ← natAbs_key] at hxinf hyinf
    omega
  split at h
  · simp [signedZero, key] at h
  · next hsum =>
    have hnonneg : ¬ x.units + y.units < 0 := of_decide_eq_false (negative_of_key_pos h)
    -- Were the keys the other way around, so were the units.
    refine Int.not_le.mp fun hle => ?_
    have := units_le (x := x) (y := y.neg) (by rwa [key_neg])
    rw [units_neg] at this
    omega

/-- A difference that comes out positive is one. -/
theorem lt_of_sub_pos (h : (signedZero false).lt (x.sub y) = true) : y.lt x = true := by
  rw [lt_iff] at h
  obtain ⟨_, hnan, hkey⟩ := h
  have hzero : (signedZero false : Binary f).key = 0 := rfl
  rw [hzero] at hkey
  unfold sub at hnan hkey
  split at hnan
  · next hx => simp [hx] at hnan
  next hx =>
  split at hnan
  · next hy => simp [hy] at hnan
  next hy =>
  rw [Bool.not_eq_true] at hx hy
  simp only [hx, hy, Bool.false_eq_true, if_false] at hkey
  have := neg_key_lt_of_add_pos hx (by simpa using hy) hkey
  rw [key_neg] at this
  exact lt_iff.mpr ⟨hy, hx, by omega⟩

/-! ## Products with a NaN -/

theorem isNaN_mul_left (hx : x.isNaN = true) : (x.mul y).isNaN = true := by simp [mul, hx]

theorem isNaN_mul_right (hy : y.isNaN = true) : (x.mul y).isNaN = true := by
  unfold mul
  split
  · next hx => exact hx
  · simp [hy]

/-! ## Places in the order -/

/-- Comparison cannot tell the two apart. -/
def SamePlace (x y : Binary f) : Prop := x.isNaN = y.isNaN ∧ x.key = y.key

theorem SamePlace.lt_left (h : x.SamePlace y) (z : Binary f) : x.lt z = y.lt z := by
  simp [lt, h.1, h.2]

theorem SamePlace.lt_right (h : x.SamePlace y) (z : Binary f) : z.lt x = z.lt y := by
  simp [lt, h.1, h.2]

theorem SamePlace.le_left (h : x.SamePlace y) (z : Binary f) : x.le z = y.le z := by
  simp [le, h.1, h.2]

/-- Different words with one key are both zeros. -/
theorem eq_or_zero_of_key_eq (h : x.key = y.key) : x = y ∨ x.magnitude = 0 ∧ y.magnitude = 0 := by
  have hmag : x.magnitude = y.magnitude := by rw [← natAbs_key, ← natAbs_key, h]
  by_cases hzero : x.magnitude = 0
  · exact .inr ⟨hzero, hmag ▸ hzero⟩
  · refine .inl (Binary.ext ?_ hmag)
    cases hx : x.negative <;> cases hy : y.negative <;>
      simp only [key, hx, hy, Bool.false_eq_true, Bool.true_eq_false, if_false, if_true] at h ⊢ <;>
      omega

/-- Equal numbers that are different words are both zeros. -/
theorem eq_or_zero_of_eq (h : x.eq y = true) : x = y ∨ x.magnitude = 0 ∧ y.magnitude = 0 := by
  simp only [eq, Bool.and_eq_true, decide_eq_true_eq] at h
  exact eq_or_zero_of_key_eq h.2

theorem isNaN_of_zero (h : x.magnitude = 0) : x.isNaN = false := by simp [isNaN, h]

theorem units_of_zero (h : x.magnitude = 0) : x.units = 0 := by
  simp [units, unitCount, h, Format.unitsAt_zero]

theorem samePlace_add_zero (hf : 0 < f.infinity) (x : Binary f) (hy : y.magnitude = 0)
    (hz : z.magnitude = 0) : (x.add y).SamePlace (x.add z) := by
  have hinf : ∀ {y : Binary f}, y.magnitude = 0 → y.isInfinite = false := fun {y} h => by
    rw [isInfinite, h, beq_eq_false_iff_ne]
    exact Nat.ne_of_lt hf
  simp only [SamePlace, add, isNaN_of_zero hy, isNaN_of_zero hz, hinf hy, hinf hz,
    units_of_zero hy, units_of_zero hz, Bool.false_eq_true, if_false, Bool.false_and]
  split
  · exact ⟨rfl, rfl⟩
  split
  · exact ⟨rfl, rfl⟩
  split
  · -- The sums may be zeros of different signs, which have one key.
    simp [signedZero, isNaN, key]
  · exact ⟨rfl, rfl⟩

theorem samePlace_add (hf : 0 < f.infinity) (x : Binary f) (h : y.eq z = true) :
    (x.add y).SamePlace (x.add z) := by
  rcases eq_or_zero_of_eq h with rfl | ⟨hy, hz⟩
  · exact ⟨rfl, rfl⟩
  · exact samePlace_add_zero hf x hy hz

theorem add_comm (hx : x.isNaN = false) (hy : y.isNaN = false) : x.add y = y.add x := by
  simp only [add, hx, hy, Bool.false_eq_true, if_false, Int.add_comm y.units, Bool.and_comm y.negative]
  cases hxi : x.isInfinite <;> cases hyi : y.isInfinite
  · rfl
  · simp
  · simp
  · -- Two infinities of one sign are the same word.
    simp only [if_true, Bool.true_and, bne_iff_ne, ne_eq, ite_not]
    split
    · next hs =>
      rw [if_pos hs.symm]
      simp only [isInfinite, beq_iff_eq] at hxi hyi
      exact Binary.ext hs (hxi.trans hyi.symm)
    · next hs => rw [if_neg (Ne.symm hs)]

/-- A difference keeps its place when both numbers keep theirs. -/
theorem SamePlace.sub {x' y' : Binary f} (hf : 0 < f.infinity) (hx : x.SamePlace x')
    (hy : y.SamePlace y') (hxn : x.isNaN = false) (hyn : y.isNaN = false) :
    (x.sub y).SamePlace (x'.sub y') := by
  have hxn' : x'.isNaN = false := hx.1 ▸ hxn
  have hyn' : y'.isNaN = false := hy.1 ▸ hyn
  have hxeq : x.eq x' = true := by simp [eq, hxn, hxn', hx.2]
  have hyeq : y.neg.eq y'.neg = true := by simp [eq, hyn, hyn', key_neg, hy.2]
  have hleft : (x.add y.neg).SamePlace (x'.add y.neg) := by
    rw [add_comm hxn (y := y.neg) hyn, add_comm hxn' (y := y.neg) hyn]
    exact samePlace_add hf _ hxeq
  have hright := samePlace_add hf x' hyeq
  simp only [Binary.sub, hxn, hxn', hyn, hyn', Bool.false_eq_true, if_false]
  exact ⟨hleft.1.trans hright.1, hleft.2.trans hright.2⟩

/-- Of two equal numbers either may be the least, so only its place is sure. -/
theorem samePlace_least_comm (hx : x.isNaN = false) (hy : y.isNaN = false) :
    (x.least y).SamePlace (y.least x) := by
  simp only [least, lt, hx, hy, Bool.false_eq_true, if_false, Bool.false_or, Bool.not_false,
    Bool.true_and, decide_eq_true_eq]
  split <;> split
  · omega
  · exact ⟨rfl, rfl⟩
  · exact ⟨rfl, rfl⟩
  · exact ⟨hx.trans hy.symm, by omega⟩

theorem samePlace_greatest_comm (hx : x.isNaN = false) (hy : y.isNaN = false) :
    (x.greatest y).SamePlace (y.greatest x) := by
  simp only [greatest, lt, hx, hy, Bool.false_eq_true, if_false, Bool.false_or, Bool.not_false,
    Bool.true_and, decide_eq_true_eq]
  split <;> split
  · omega
  · exact ⟨rfl, rfl⟩
  · exact ⟨rfl, rfl⟩
  · exact ⟨hx.trans hy.symm, by omega⟩

end Binary

end SceneEngine
