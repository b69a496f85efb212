/-
The shortest decimal reads back.

What a magnitude stands for is taken for it from the middle below it to the middle above
it, and at a middle itself when the magnitude is even, since a tie goes to the even
neighbour (`nearest_even_of_middle`, `nearest_eq_of_between`). That is the interval the
shortest decimal is searched in, and the search never leaves it
(`RoundingInterval.contains_shortest`). So reading the decimal rounds to the number it was
found for, however the zeros are written: `ofDecimal_toDecimal`.

A single is written as the double it is (`convert_convert`), so what is kept of the double is kept
of the single: `Same.single`.
-/
import SceneEngine.Binary.Shortest
import SceneEngine.Proofs.Binary.Special

namespace SceneEngine

/-! ## Ties -/

/-- Half way between two whole numbers the even one is taken. -/
theorem even_roundHalfEven_of_tie {n d k : Nat} (hd : 0 < d) (h : 2 * n = (2 * k + 1) * d) :
    roundHalfEven n d % 2 = 0 := by
  have hdiv := Nat.div_add_mod n d
  have hmod := Nat.mod_lt n hd
  have hsplit : 2 * n = 2 * (k * d) + d := by rw [h]; ring
  have hq : n / d = k := by
    refine Nat.div_eq_of_lt_le (by omega) ?_
    rw [Nat.succ_mul]
    omega
  have hr : 2 * (n % d) = d := by
    rw [hq, Nat.mul_comm d k] at hdiv
    omega
  unfold roundHalfEven
  simp only [hq, hr, Nat.lt_irrefl, true_and, false_or]
  split <;> omega

namespace Format

variable {f : Format}

/-- With more than one bit in the significand every exponent begins at an even magnitude. -/
theorem even_leadingBit (hf : 1 < f.precision) : f.leadingBit % 2 = 0 := by
  obtain ⟨k, hk⟩ : ∃ k, f.precision = k + 2 := ⟨f.precision - 2, by omega⟩
  rw [leadingBit, Nat.one_shiftLeft, fractionBits, hk, Nat.add_sub_assoc (by decide), Nat.pow_succ]
  exact Nat.mul_mod_left _ _

theorem even_mul_leadingBit (hf : 1 < f.precision) (k : Nat) : k * f.leadingBit % 2 = 0 := by
  rw [Nat.mul_mod, even_leadingBit hf, Nat.mul_zero, Nat.zero_mod]

end Format

namespace Binary

variable {f : Format} {n d m : Nat} {negative : Bool}

theorem negative_nearest (negative : Bool) (n d : Nat) :
    (nearest negative n d : Binary f).negative = negative := rfl

/-- A middle between two neighbours rounds to the even one. -/
theorem nearest_even_of_middle (hf : 1 < f.precision) (hd : 0 < d)
    (h : 2 * n = d * (f.unitsAt m + f.unitsAt (m + 1))) :
    (nearest negative n d : Binary f).magnitude % 2 = 0 := by
  obtain ⟨s, q, hmag, hq, hlong, hfull⟩ :=
    exists_nearest_significand (f := f) (by omega) negative n hd
  obtain ⟨t, r, -, hlead, hr, hm, hsucc⟩ := f.exists_unitsAt_succ m
  have hmiddle : 2 * n = (2 * r + 1) * (d * 2 ^ t) := by rw [h, hm, hsucc]; ring
  -- The value is scaled exactly as far as the magnitude below it.
  have hscale : s = t := by
    rcases Nat.lt_trichotomy s t with hlt | heq | hlt
    · have hround : 2 * r + 1 ≤ q := by
        refine hq ▸ le_roundHalfEven (Nat.mul_pos hd (Nat.two_pow_pos s)) ?_
        have hpow : 2 ^ (s + 1) ≤ 2 ^ t := Nat.pow_le_pow_right Nat.two_pos hlt
        have hmul : (2 * r + 1) * (d * 2 ^ (s + 1)) ≤ (2 * r + 1) * (d * 2 ^ t) :=
          Nat.mul_le_mul_left _ (Nat.mul_le_mul_left d hpow)
        have hdouble : (2 * r + 1) * (d * 2 ^ (s + 1)) = 2 * ((2 * r + 1) * (d * 2 ^ s)) := by ring
        omega
      omega
    · exact heq
    · have hle := hfull.resolve_left (by omega)
      have hpow : 2 ^ (t + 1) ≤ 2 ^ s := Nat.pow_le_pow_right Nat.two_pos hlt
      have hmul : f.leadingBit * (d * 2 ^ (t + 1)) ≤ f.leadingBit * (d * 2 ^ s) :=
        Nat.mul_le_mul_left _ (Nat.mul_le_mul_left d hpow)
      have hdouble : 2 * (f.leadingBit * (d * 2 ^ (t + 1))) = 4 * f.leadingBit * (d * 2 ^ t) := by ring
      have hover : 4 * f.leadingBit * (d * 2 ^ t) ≤ (2 * r + 1) * (d * 2 ^ t) := by omega
      have hcancel := Nat.le_of_mul_le_mul_right hover (Nat.mul_pos hd (Nat.two_pow_pos t))
      omega
  have heven : q % 2 = 0 := by
    rw [hq, hscale]
    exact even_roundHalfEven_of_tie (Nat.mul_pos hd (Nat.two_pow_pos t)) hmiddle
  have hplace := Format.even_mul_leadingBit hf s
  have hinfinity : f.infinity % 2 = 0 := Format.even_mul_leadingBit hf _
  omega

/-- Between the middles a value rounds to the magnitude, and at a middle if it is even. -/
theorem nearest_eq_of_between (hf : 1 < f.precision) (hd : 0 < d) (hm : m < f.infinity) (hpos : 0 < m)
    (hlower : d * (f.unitsAt (m - 1) + f.unitsAt m) ≤ 2 * n)
    (hupper : 2 * n ≤ d * (f.unitsAt m + f.unitsAt (m + 1)))
    (hends : m % 2 = 0 ∨ d * (f.unitsAt (m - 1) + f.unitsAt m) < 2 * n ∧
      2 * n < d * (f.unitsAt m + f.unitsAt (m + 1))) :
    (nearest negative n d : Binary f).magnitude = m := by
  have hprecision : 0 < f.precision := by omega
  obtain ⟨k, rfl⟩ := Nat.exists_eq_succ_of_ne_zero (Nat.ne_of_gt hpos)
  rw [Nat.succ_eq_add_one, Nat.add_sub_cancel] at *
  have hstep : ∀ i, d * (f.unitsAt i + f.unitsAt (i + 1)) <
      d * (f.unitsAt (i + 1) + f.unitsAt (i + 1 + 1)) :=
    fun i => by
      have hlow := f.unitsAt_lt_succ i
      have hhigh := f.unitsAt_lt_succ (i + 1)
      exact Nat.mul_lt_mul_of_pos_left (by omega) hd
  refine Nat.le_antisymm ?_ ?_
  · rcases Nat.lt_or_eq_of_le hupper with hlt | htie
    · exact nearest_le_of_lt_middle hprecision hd hlt
    · have hnext : (nearest negative n d : Binary f).magnitude ≤ k + 1 + 1 :=
        nearest_le_of_lt_middle hprecision hd (htie ▸ hstep (k + 1))
      have heven : (nearest negative n d : Binary f).magnitude % 2 = 0 :=
        nearest_even_of_middle hf hd htie
      omega
  · refine Nat.not_lt.mp fun hlt => ?_
    have htie := Nat.le_antisymm
      (le_middle_of_nearest_le (m := k) hprecision hd (Nat.le_of_lt_succ hlt) (by omega)) hlower
    have heven : (nearest negative n d : Binary f).magnitude % 2 = 0 := nearest_even_of_middle hf hd htie
    obtain ⟨i, rfl⟩ : ∃ i, k = i + 1 := ⟨k - 1, by omega⟩
    have hle : (nearest negative n d : Binary f).magnitude ≤ i := by omega
    have hbelow := le_middle_of_nearest_le hprecision hd hle (by omega)
    have hapart := hstep i
    omega

end Binary

/-! ## The search -/

namespace RoundingInterval

variable {i : RoundingInterval} {grid k : Nat}

theorem contains_iff {x : Nat} : i.contains x = true ↔
    i.lower ≤ x ∧ x ≤ i.upper ∧ (i.closed = true ∨ i.lower < x ∧ x < i.upper) := by
  unfold contains
  split
  · next h => simp [h]
  · next h =>
    simp only [h, decide_eq_true_eq, Bool.false_eq_true, false_or]
    omega

theorem contains_onGrid (h : i.onGrid? grid = some k) : i.contains (k * grid) = true := by
  unfold onGrid? at h
  dsimp only at h
  split at h
  · next hbelow habove =>
    obtain rfl := Option.some.inj h
    split
    · exact hbelow
    · exact habove
  · next hbelow _ =>
    obtain rfl := Option.some.inj h
    exact hbelow
  · next _ habove =>
    obtain rfl := Option.some.inj h
    exact habove
  · cases h

theorem contains_shortest (h : i.contains i.value = true) (j : Nat) :
    i.contains ((i.shortest j).1 * 10 ^ (i.shortest j).2) = true := by
  induction j with
  | zero => simpa [shortest] using h
  | succ j ih =>
    unfold shortest
    split
    · next hgrid => exact contains_onGrid hgrid
    · exact ih

end RoundingInterval

namespace Binary

variable {f : Format} {x : Binary f}

theorem contains_interval (h : 0 < x.magnitude) : x.interval.contains x.interval.value = true := by
  obtain ⟨k, hk⟩ := Nat.exists_eq_succ_of_ne_zero (Nat.ne_of_gt h)
  have hbelow := f.unitsAt_lt_succ k
  have habove := f.unitsAt_lt_succ (k + 1)
  have hhalf : 0 < Nat.pow 5 (f.unitBits + 1) := Nat.pow_pos (by decide)
  have hlower : x.interval.lower < x.interval.value := by
    simp only [interval, unitCount, hk, Nat.succ_eq_add_one, Nat.add_sub_cancel]
    exact Nat.mul_lt_mul_of_pos_right (by omega) hhalf
  have hupper : x.interval.value < x.interval.upper := by
    simp only [interval, unitCount, hk, Nat.succ_eq_add_one]
    exact Nat.mul_lt_mul_of_pos_right (by omega) hhalf
  exact RoundingInterval.contains_iff.mpr
    ⟨Nat.le_of_lt hlower, Nat.le_of_lt hupper, .inr ⟨hlower, hupper⟩⟩

/-- Zero is outside the interval of any other number. -/
theorem ne_zero_of_contains {a k : Nat} (h : 0 < x.magnitude)
    (hcontains : x.interval.contains (a * k) = true) :
    a ≠ 0 := by
  intro hzero
  obtain ⟨hlower, -, -⟩ := RoundingInterval.contains_iff.mp hcontains
  have hbelow : f.unitsAt (x.magnitude - 1) < f.unitsAt x.magnitude :=
    f.unitsAt_strictMono (Nat.sub_lt h Nat.one_pos)
  have hpos : 0 < x.interval.lower :=
    Nat.mul_pos (by simp only [unitCount]; omega) (Nat.pow_pos (by decide))
  rw [hzero, Nat.zero_mul] at hlower
  omega

/-- The decimal is in the interval, and not finer than the interval is measured. -/
theorem toDecimal_spec (h : 0 < x.magnitude) :
    ∃ digits j : Nat, x.toDecimal = ⟨digits, (j : Int) - (f.unitBits + 1)⟩ ∧
      x.interval.contains (digits * 10 ^ j) = true := by
  have hzero : x.isZero = false := by
    rw [isZero, beq_eq_false_iff_ne]
    omega
  refine ⟨_, _, ?_, RoundingInterval.contains_shortest (contains_interval h)
    (x.interval.upper.log2 * 1233 / 4096 + 2)⟩
  simp [toDecimal, hzero]

theorem toDecimal_of_isZero (h : x.magnitude = 0) : x.toDecimal = ⟨0, 0⟩ := by
  simp [toDecimal, isZero, h]

theorem le_exponent_toDecimal (x : Binary f) :
    -((f.unitBits + 1 : Nat) : Int) ≤ x.toDecimal.exponent := by
  rcases Nat.eq_zero_or_pos x.magnitude with hzero | hpos
  · rw [toDecimal_of_isZero hzero]
    dsimp only
    omega
  · obtain ⟨digits, j, hdecimal, -⟩ := toDecimal_spec hpos
    rw [hdecimal]
    dsimp only
    omega

theorem exponent_toDecimal_eq_zero (h : x.toDecimal.digits = 0) : x.toDecimal.exponent = 0 := by
  rcases Nat.eq_zero_or_pos x.magnitude with hzero | hpos
  · rw [toDecimal_of_isZero hzero]
  · obtain ⟨digits, j, hdecimal, hcontains⟩ := toDecimal_spec hpos
    rw [hdecimal] at h
    exact absurd h (ne_zero_of_contains hpos hcontains)

/-! ## Reading a decimal -/

/-- A decimal with `p` places, as the interval measures it and as it is rounded. -/
theorem decimal_mul_pow {p : Nat} (a : Nat) (hp : p ≤ f.unitBits + 1) :
    a * 10 ^ (f.unitBits + 1 - p) * 10 ^ p = 2 * (a <<< f.unitBits) * 5 ^ (f.unitBits + 1) := by
  rw [Nat.mul_assoc, ← Nat.pow_add, Nat.sub_add_cancel hp, show 10 = 2 * 5 from rfl, Nat.mul_pow,
    Nat.pow_succ 2, Nat.shiftLeft_eq]
  ring

theorem mul_le_iff_of_mul_eq {a b c d u : Nat} (hb : 0 < b) (hd : 0 < d) (h : a * b = c * d) :
    (u * d ≤ a ↔ b * u ≤ c) ∧ (a ≤ u * d ↔ c ≤ b * u) := by
  have hu : u * d * b = b * u * d := by ring
  constructor
  · rw [← Nat.mul_le_mul_right_iff hb, h, hu, Nat.mul_le_mul_right_iff hd]
  · rw [← Nat.mul_le_mul_right_iff hb, h, hu, Nat.mul_le_mul_right_iff hd]

/-- A decimal in the interval of a number rounds to it. -/
theorem ofDecimal_of_contains {a p : Nat} (hf : 1 < f.precision)
    (hbound : f.unitBits < 1 <<< f.exponentBits)
    (hx : x.isFinite = true) (hpos : 0 < x.magnitude) (hp : p ≤ f.unitBits + 1)
    (h : x.interval.contains (a * 10 ^ (f.unitBits + 1 - p)) = true) :
    ofDecimal x.negative a (-(p : Int)) = x := by
  obtain ⟨hlower, hupper, hends⟩ := RoundingInterval.contains_iff.mp h
  have hten : 0 < 10 ^ p := Nat.pow_pos (by decide)
  have hfive : 0 < 5 ^ (f.unitBits + 1) := Nat.pow_pos (by decide)
  have hcompare := fun u => mul_le_iff_of_mul_eq (u := u) hten hfive (decimal_mul_pow a hp)
  have ha := ne_zero_of_contains hpos h
  have hsmall : ¬ (((1 <<< f.exponentBits : Nat) : Int) < -(p : Int)) := by omega
  have hlarge : ¬ (-(p : Int) < -((a.log2 + 1 <<< f.exponentBits : Nat) : Int)) := by omega
  have hnearest : (ofDecimal x.negative a (-(p : Int)) : Binary f) =
      nearest x.negative (a <<< f.unitBits) (10 ^ p) := by
    simp only [ofDecimal, ha, hsmall, hlarge, if_false, Int.neg_neg, Int.toNat_natCast,
      Int.toNat_neg_natCast, Nat.pow_eq, Nat.pow_zero, Nat.mul_one]
  rw [hnearest]
  refine Binary.ext rfl (nearest_eq_of_between hf hten (lt_infinity hx) hpos
    ((hcompare _).1.mp hlower) ((hcompare _).2.mp hupper) ?_)
  refine hends.imp (fun heven => beq_iff_eq.mp heven) fun ⟨hlt, hgt⟩ => ?_
  exact ⟨Nat.lt_of_not_le fun hle => Nat.not_le.mpr hlt ((hcompare _).2.mpr hle),
    Nat.lt_of_not_le fun hle => Nat.not_le.mpr hgt ((hcompare _).1.mpr hle)⟩

/-- The shortest decimal of a finite number, written out to `p` places, is read as the number. -/
theorem ofDecimal_toDecimal {p : Nat} (hf : 1 < f.precision) (hbound : f.unitBits < 1 <<< f.exponentBits)
    (hx : x.isFinite = true) (hp : p ≤ f.unitBits + 1) (hplaces : 0 ≤ x.toDecimal.exponent + p) :
    ofDecimal x.negative (x.toDecimal.digits * 10 ^ (x.toDecimal.exponent + p).toNat)
      (-(p : Int)) = x := by
  rcases Nat.eq_zero_or_pos x.magnitude with hzero | hpos
  · rw [toDecimal_of_isZero hzero, Nat.zero_mul, ofDecimal, if_pos rfl]
    exact Binary.ext rfl hzero.symm
  · obtain ⟨digits, j, hdecimal, hcontains⟩ := toDecimal_spec hpos
    rw [hdecimal] at hplaces ⊢
    dsimp only at hplaces ⊢
    refine ofDecimal_of_contains hf hbound hx hpos hp ?_
    have hexponent : ((j : Int) - (f.unitBits + 1) + p).toNat + (f.unitBits + 1 - p) = j := by omega
    rw [Nat.mul_assoc, ← Nat.pow_add, hexponent]
    exact hcontains

/-! ## From one format to the other -/

/-- Rounding to the same format keeps all but the payload of a NaN. -/
theorem convert_self (hf : 0 < f.precision) (hx : x.isNaN = false) : (x.convert : Binary f) = x := by
  simp only [convert, hx, Bool.false_eq_true, if_false]
  split
  · next hinf => exact Binary.ext rfl (beq_iff_eq.mp hinf).symm
  · next hinf =>
    have hle : x.magnitude ≤ f.infinity := by simpa [isNaN] using hx
    refine Binary.ext rfl (nearest_eq hf (by simp) ?_ hle)
    simp [unitCount]

/-- A single is still there in the double it is written as. -/
theorem convert_convert {x : F32} (hx : x.isNaN = false) : ((x.convert : F64).convert : F32) = x := by
  cases hfin : x.isFinite with
  | true =>
    obtain ⟨hwide, hsign, hcount⟩ := widen_exact hfin
    have hback : ((x.convert : F64).convert : F32) =
        nearest x.negative (x.unitCount * finerUnits) finerUnits := by
      rw [convert, isNaN_of_isFinite hwide, isInfinite_of_isFinite hwide, hsign, hcount]
      simp only [Bool.false_eq_true, if_false]
      rw [show Format.single.unitBits - Format.double.unitBits = 0 by decide, Nat.shiftLeft_zero,
        Nat.one_shiftLeft, finerUnits]
    have hexact : x.unitCount * finerUnits = finerUnits * Format.single.unitsAt x.magnitude :=
      Nat.mul_comm _ _
    rw [hback]
    exact Binary.ext (negative_nearest _ _ _)
      (nearest_eq (by decide) finerUnits_pos hexact (Nat.le_of_lt (lt_infinity hfin)))
  | false =>
    have hinf := isInfinite_of_not_isFinite hfin hx
    have hwide : (x.convert : F64) = signedInfinity x.negative := by simp [convert, hx, hinf]
    rw [hwide]
    exact Binary.ext rfl (beq_iff_eq.mp hinf).symm

/-! ## The same but for the payload of a NaN -/

/-- The same number, or a NaN on either side. -/
def Same (x y : Binary f) : Prop := x = y ∨ x.isNaN = true ∧ y.isNaN = true

section Same

variable {g : Format} {x y z : Binary f}

/-- What is only true of numbers stays true. -/
theorem Same.imp {p : Binary f → Prop} (h : Same x y) (hx : p x) (hnumber : x.isNaN = false) :
    p y := by
  rcases h with rfl | ⟨hnan, -⟩
  · exact hx
  · rw [hnan] at hnumber
    cases hnumber

theorem Same.trans (hxy : Same x y) (hyz : Same y z) : Same x z := by
  rcases hxy with rfl | ⟨hx, hy⟩
  · exact hyz
  · rcases hyz with rfl | ⟨-, hz⟩
    · exact .inr ⟨hx, hy⟩
    · exact .inr ⟨hx, hz⟩

theorem isNaN_convert (hg : g.infinity < g.quietNaN) (hx : x.isNaN = true) :
    (x.convert : Binary g).isNaN = true := by
  rw [convert, if_pos hx]
  exact decide_eq_true hg

theorem Same.convert (hg : g.infinity < g.quietNaN) (h : Same x y) :
    Same (x.convert : Binary g) (y.convert) := by
  rcases h with rfl | ⟨hx, hy⟩
  · exact .inl rfl
  · exact .inr ⟨isNaN_convert hg hx, isNaN_convert hg hy⟩

/-- A double taken as a double. -/
theorem Same.double {x y : F64} (h : Same x y) : Same x (y.convert : F64) := by
  refine h.trans ?_
  cases hnan : y.isNaN with
  | true => exact .inr ⟨hnan, isNaN_convert (by decide) hnan⟩
  | false => exact .inl (convert_self (by decide) hnan).symm

/-- A single taken from the double it is written as. -/
theorem Same.single {x : F32} {y : F64} (h : Same x.convert y) : Same x (y.convert : F32) := by
  refine Same.trans ?_ (h.convert (by decide))
  cases hnan : x.isNaN with
  | true => exact .inr ⟨hnan, isNaN_convert (by decide) (isNaN_convert (by decide) hnan)⟩
  | false => exact .inl (convert_convert hnan).symm

end Same

end Binary

end SceneEngine
