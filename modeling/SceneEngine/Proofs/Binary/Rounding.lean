/-
What rounding does.

Every magnitude is a significand `q` scaled by a power of two, `s * leadingBit + q` for
`q * 2 ^ s` units, and the next one is a step of `2 ^ s` above it. `Binary.nearest` is told
by the middles between neighbours alone: it stays at or below a magnitude when the value is
below the middle above it (`nearest_le_of_lt_middle`), and it reaches a magnitude only when
the value is not below the middle under it (`middle_le_of_lt_nearest`). So it is monotone,
and exact on what the format has.
-/
import Mathlib.Algebra.Order.Ring.Nat
import Mathlib.Tactic.Ring
import SceneEngine.Proofs.Binary.Order

namespace SceneEngine

/-! ## Whole numbers -/

theorem two_mul_roundHalfEven_le (n d : Nat) :
    2 * roundHalfEven n d * d ≤ 2 * n + d := by
  have hdiv := Nat.div_add_mod n d
  unfold roundHalfEven
  dsimp only
  split
  · calc 2 * (n / d) * d = 2 * (d * (n / d)) := by ring
      _ ≤ 2 * n + d := by omega
  · next h =>
    calc 2 * (n / d + 1) * d = 2 * (d * (n / d)) + 2 * d := by ring
      _ ≤ 2 * n + d := by omega

theorem le_two_mul_roundHalfEven {d : Nat} (n : Nat) (hd : 0 < d) :
    2 * n ≤ (2 * roundHalfEven n d + 1) * d := by
  have hdiv := Nat.div_add_mod n d
  have hmod := Nat.mod_lt n hd
  unfold roundHalfEven
  dsimp only
  split
  · calc 2 * n ≤ 2 * (d * (n / d)) + d := by omega
      _ = (2 * (n / d) + 1) * d := by ring
  · calc 2 * n ≤ 2 * (d * (n / d)) + 3 * d := by omega
      _ = (2 * (n / d + 1) + 1) * d := by ring

theorem roundHalfEven_le {n d k : Nat} (hd : 0 < d) (h : n ≤ k * d) : roundHalfEven n d ≤ k := by
  refine Nat.not_lt.mp fun hlt => ?_
  have hround := two_mul_roundHalfEven_le n d
  have hmul : (k + 1) * d ≤ roundHalfEven n d * d := Nat.mul_le_mul_right d hlt
  rw [Nat.succ_mul] at hmul
  rw [Nat.mul_assoc] at hround
  omega

theorem le_roundHalfEven {n d k : Nat} (hd : 0 < d) (h : k * d ≤ n) : k ≤ roundHalfEven n d := by
  refine Nat.not_lt.mp fun hlt => ?_
  have hround := le_two_mul_roundHalfEven n hd
  have hmul : (roundHalfEven n d + 1) * d ≤ k * d := Nat.mul_le_mul_right d hlt
  rw [Nat.add_mul, Nat.mul_assoc, Nat.one_mul] at hround
  rw [Nat.succ_mul] at hmul
  omega

/-! ## Significands -/

namespace Format

variable {f : Format} {m n q s : Nat}

theorem two_mul_leadingBit (hf : 0 < f.precision) : 2 * f.leadingBit = 2 ^ f.precision := by
  rw [leadingBit, Nat.one_shiftLeft, fractionBits, ← Nat.pow_succ', Nat.succ_eq_add_one,
    Nat.sub_add_cancel hf]

/-- Every magnitude is a scaled significand, of full length unless it is not scaled. -/
theorem exists_significand (f : Format) (m : Nat) : ∃ s q, m = s * f.leadingBit + q ∧
    q < 2 * f.leadingBit ∧ (s = 0 ∨ f.leadingBit ≤ q) := by
  have hdiv := Nat.div_add_mod' m f.leadingBit
  have hmod := Nat.mod_lt m f.leadingBit_pos
  cases he : m / f.leadingBit with
  | zero => exact ⟨0, m, by omega, by rw [he] at hdiv; omega, .inl rfl⟩
  | succ s =>
    rw [he, Nat.succ_mul] at hdiv
    exact ⟨s, f.leadingBit + m % f.leadingBit, by omega, by omega, .inr (by omega)⟩

theorem unitsAt_of_lt (h : m < f.leadingBit) : f.unitsAt m = m := by
  simp [unitsAt, Nat.div_eq_of_lt h, Nat.mod_eq_of_lt h]

theorem unitsAt_of_exponent (h : q < f.leadingBit) :
    f.unitsAt (s * f.leadingBit + (f.leadingBit + q)) = (f.leadingBit + q) * 2 ^ s := by
  have hsum : s * f.leadingBit + (f.leadingBit + q) = q + f.leadingBit * (s + 1) := by ring
  have hdiv : (q + f.leadingBit * (s + 1)) / f.leadingBit = s + 1 := by
    rw [Nat.add_mul_div_left q _ f.leadingBit_pos, Nat.div_eq_of_lt h, Nat.zero_add]
  have hmod : (q + f.leadingBit * (s + 1)) % f.leadingBit = q := by
    rw [Nat.add_mul_mod_self_left, Nat.mod_eq_of_lt h]
  simp [unitsAt, hsum, hdiv, hmod, Nat.shiftLeft_eq]

/-- A scaled significand stands for the units it says, and so does one that is carried over
into the next exponent. -/
theorem unitsAt_significand (hq : q ≤ 2 * f.leadingBit) (hs : s = 0 ∨ f.leadingBit ≤ q) :
    f.unitsAt (s * f.leadingBit + q) = q * 2 ^ s := by
  have hpos := f.leadingBit_pos
  rcases Nat.lt_or_ge q f.leadingBit with hlt | hge
  · obtain rfl : s = 0 := by omega
    rw [Nat.zero_mul, Nat.zero_add, unitsAt_of_lt hlt, Nat.pow_zero, Nat.mul_one]
  obtain ⟨r, rfl⟩ := Nat.exists_eq_add_of_le hge
  rcases Nat.lt_or_ge r f.leadingBit with hr | hr
  · exact unitsAt_of_exponent hr
  · obtain rfl : r = f.leadingBit := by omega
    calc f.unitsAt (s * f.leadingBit + (f.leadingBit + f.leadingBit))
        = f.unitsAt ((s + 1) * f.leadingBit + (f.leadingBit + 0)) := by congr 1; ring
      _ = (f.leadingBit + 0) * 2 ^ (s + 1) := unitsAt_of_exponent hpos
      _ = (f.leadingBit + f.leadingBit) * 2 ^ s := by rw [Nat.pow_succ]; ring

/-- The next magnitude is one more in the last place of the significand. -/
theorem exists_unitsAt_succ (f : Format) (m : Nat) : ∃ s q, m = s * f.leadingBit + q ∧
    (s = 0 ∨ f.leadingBit ≤ q) ∧ q < 2 * f.leadingBit ∧
    f.unitsAt m = q * 2 ^ s ∧ f.unitsAt (m + 1) = (q + 1) * 2 ^ s := by
  obtain ⟨s, q, rfl, hq, hs⟩ := f.exists_significand m
  exact ⟨s, q, rfl, hs, hq, unitsAt_significand (Nat.le_of_lt hq) hs,
    unitsAt_significand (q := q + 1) hq (by omega)⟩

theorem unitsAt_lt_succ (f : Format) (m : Nat) : f.unitsAt m < f.unitsAt (m + 1) := by
  obtain ⟨s, q, -, -, -, hm, hsucc⟩ := f.exists_unitsAt_succ m
  rw [hm, hsucc]
  exact Nat.mul_lt_mul_of_pos_right q.lt_succ_self (Nat.two_pow_pos s)

theorem unitsAt_strictMono (f : Format) : StrictMono f.unitsAt :=
  strictMono_nat_of_lt_succ f.unitsAt_lt_succ

/-- Neighbours are not closer than the significand can tell. -/
theorem unitsAt_mul_le (hf : 0 < f.precision) (h : m < n) :
    f.unitsAt m * 2 ^ f.precision ≤ f.unitsAt n * (2 ^ f.precision - 1) := by
  obtain ⟨n, rfl⟩ := Nat.exists_eq_succ_of_ne_zero (Nat.ne_of_gt (Nat.zero_lt_of_lt h))
  obtain ⟨s, q, -, -, hq, hn, hsucc⟩ := f.exists_unitsAt_succ n
  have hmono : f.unitsAt m ≤ q * 2 ^ s := hn ▸ unitsAt_mono (Nat.le_of_lt_succ h)
  obtain ⟨k, hk⟩ : ∃ k, 2 ^ f.precision = q + 1 + k := by
    rw [two_mul_leadingBit hf] at hq
    exact Nat.exists_eq_add_of_lt hq |>.imp fun k hk => by omega
  rw [hsucc, hk]
  calc f.unitsAt m * (q + 1 + k)
      ≤ q * 2 ^ s * (q + 1 + k) := Nat.mul_le_mul_right _ hmono
    _ ≤ q * 2 ^ s * (q + 1 + k) + k * 2 ^ s := Nat.le_add_right _ _
    _ = (q + 1) * 2 ^ s * (q + k) := by ring
    _ = (q + 1) * 2 ^ s * (q + 1 + k - 1) := by congr 1; omega

/-- Whatever the scale, the format has every significand that is not too long. -/
theorem exists_unitsAt_eq (hq : q ≤ 2 * f.leadingBit) (s : Nat) : ∃ m, f.unitsAt m = q * 2 ^ s := by
  induction s generalizing q with
  | zero => exact ⟨0 * f.leadingBit + q, unitsAt_significand hq (.inl rfl)⟩
  | succ s ih =>
    rcases Nat.lt_or_ge q f.leadingBit with hlt | hge
    · -- A short significand takes another place.
      obtain ⟨m, hm⟩ := ih (q := 2 * q) (by omega)
      exact ⟨m, by rw [hm, Nat.pow_succ]; ring⟩
    · exact ⟨(s + 1) * f.leadingBit + q, unitsAt_significand hq (.inr hge)⟩

/-- Larger magnitudes are whole multiples of the last place of smaller ones. -/
theorem exists_unitsAt_mul (f : Format) (h : m ≤ n) : ∃ s q k, q < 2 * f.leadingBit ∧
    f.unitsAt m = q * 2 ^ s ∧ f.unitsAt n = k * 2 ^ s := by
  obtain ⟨s, q, hm, hq, hs⟩ := f.exists_significand m
  obtain ⟨s', q', hn, hq', hs'⟩ := f.exists_significand n
  have hle : s ≤ s' := by
    refine Nat.not_lt.mp fun hlt => ?_
    have hmul : (s' + 1) * f.leadingBit ≤ s * f.leadingBit := Nat.mul_le_mul_right _ hlt
    rw [Nat.succ_mul] at hmul
    omega
  refine ⟨s, q, q' * 2 ^ (s' - s), hq, hm ▸ unitsAt_significand (Nat.le_of_lt hq) hs, ?_⟩
  rw [hn, unitsAt_significand (Nat.le_of_lt hq') hs', Nat.mul_assoc, ← Nat.pow_add,
    Nat.sub_add_cancel hle]

/-- So the format has the remainder of a division by a smaller magnitude. -/
theorem exists_unitsAt_mod (h : m ≤ n) (hm : 0 < m) :
    ∃ k < m, f.unitsAt k = f.unitsAt n % f.unitsAt m := by
  obtain ⟨s, q, c, hq, hum, hun⟩ := f.exists_unitsAt_mul h
  have hpos : 0 < q := by
    have hlt : f.unitsAt 0 < f.unitsAt m := f.unitsAt_strictMono hm
    rw [hum, unitsAt_zero] at hlt
    exact Nat.pos_of_mul_pos_right hlt
  have hmod : f.unitsAt n % f.unitsAt m = c % q * 2 ^ s := by
    rw [hum, hun, Nat.mul_mod_mul_right]
  have hlt := Nat.mod_lt c hpos
  obtain ⟨k, hk⟩ := exists_unitsAt_eq (f := f) (q := c % q) (by omega) s
  refine ⟨k, f.unitsAt_strictMono.lt_iff_lt.mp ?_, hk.trans hmod.symm⟩
  rw [hk, hum]
  exact Nat.mul_lt_mul_of_pos_right hlt (Nat.two_pow_pos s)

end Format

/-! ## The nearest number -/

namespace Binary

variable {f : Format} {n d m : Nat} {negative : Bool}

/-- What `nearest` scales is a significand, of full length unless it is not scaled. -/
theorem exists_nearest_significand (hf : 0 < f.precision) (negative : Bool) (n : Nat)
    (hd : 0 < d) :
    ∃ s q, (nearest negative n d : Binary f).magnitude = min (s * f.leadingBit + q) f.infinity ∧
      q = roundHalfEven n (d * 2 ^ s) ∧ q ≤ 2 * f.leadingBit ∧
      (s = 0 ∨ f.leadingBit * (d * 2 ^ s) ≤ n) := by
  let s := (n / d).log2 + 1 - f.precision
  have hpos : 0 < d * 2 ^ s := Nat.mul_pos hd (Nat.two_pow_pos s)
  refine ⟨s, roundHalfEven n (d * 2 ^ s), by rw [← Nat.shiftLeft_eq]; rfl, rfl, ?_, ?_⟩
  · rw [Format.two_mul_leadingBit hf]
    refine roundHalfEven_le hpos (Nat.le_of_lt ?_)
    have hlt : n / d < 2 ^ (f.precision + s) :=
      Nat.lt_of_lt_of_le Nat.lt_log2_self (Nat.pow_le_pow_right Nat.two_pos (by omega))
    rw [Nat.div_lt_iff_lt_mul hd, Nat.pow_add] at hlt
    rwa [Nat.mul_comm d, ← Nat.mul_assoc]
  · rcases Nat.eq_zero_or_pos s with hs | hs
    · exact .inl hs
    · right
      have hne : n / d ≠ 0 := by
        intro hzero
        simp only [s, hzero, Nat.log2_zero] at hs
        omega
      have hle : 2 ^ (f.fractionBits + s) ≤ n / d := by
        have hlog : f.fractionBits + s = (n / d).log2 := by
          simp only [s, Format.fractionBits] at hs ⊢
          omega
        exact hlog ▸ Nat.log2_self_le hne
      rw [Nat.le_div_iff_mul_le hd, Nat.pow_add] at hle
      rwa [Format.leadingBit, Nat.one_shiftLeft, Nat.mul_comm d, ← Nat.mul_assoc]

/-- A magnitude is passed only by values at or above the middle between it and the next. -/
theorem middle_le_of_lt_nearest (hf : 0 < f.precision) (hd : 0 < d)
    (h : m < (nearest negative n d : Binary f).magnitude) :
    d * (f.unitsAt m + f.unitsAt (m + 1)) ≤ 2 * n := by
  obtain ⟨s, q, hmag, hq, hlong, hfull⟩ := exists_nearest_significand (f := f) hf negative n hd
  have hpos : 0 < d * 2 ^ s := Nat.mul_pos hd (Nat.two_pow_pos s)
  have hlead : s = 0 ∨ f.leadingBit ≤ q := hfull.imp id fun h => hq ▸ le_roundHalfEven hpos h
  have hlt : m < s * f.leadingBit + q := by omega
  have hsucc : f.unitsAt (m + 1) ≤ q * 2 ^ s :=
    Format.unitsAt_significand hlong hlead ▸ Format.unitsAt_mono hlt
  by_cases hcarried : 0 < s ∧ q = f.leadingBit
  · -- Below the first magnitude of an exponent the neighbours are closer, but a value that
    -- is scaled this far is not below it.
    obtain ⟨hs, rfl⟩ := hcarried
    have hm : f.unitsAt m ≤ f.unitsAt (m + 1) := Format.unitsAt_mono m.le_succ
    calc d * (f.unitsAt m + f.unitsAt (m + 1))
        ≤ d * (f.leadingBit * 2 ^ s + f.leadingBit * 2 ^ s) := Nat.mul_le_mul_left d (by omega)
      _ = 2 * (f.leadingBit * (d * 2 ^ s)) := by ring
      _ ≤ 2 * n := Nat.mul_le_mul_left 2 (hfull.resolve_left (Nat.ne_of_gt hs))
  · have hqpos : 0 < q := by
      have := f.leadingBit_pos
      rcases hlead with rfl | hlead <;> omega
    obtain ⟨r, rfl⟩ : ∃ r, q = r + 1 := ⟨q - 1, by omega⟩
    have hm : f.unitsAt m ≤ r * 2 ^ s := by
      rw [← Format.unitsAt_significand (f := f) (q := r) (s := s) (by omega) (by omega)]
      exact Format.unitsAt_mono (by omega)
    have hround : 2 * (r + 1) * (d * 2 ^ s) ≤ 2 * n + d * 2 ^ s :=
      hq ▸ two_mul_roundHalfEven_le n _
    have hmiddle : d * (f.unitsAt m + f.unitsAt (m + 1)) ≤ d * (r * 2 ^ s + (r + 1) * 2 ^ s) :=
      Nat.mul_le_mul_left d (Nat.add_le_add hm hsucc)
    have hsum : d * (r * 2 ^ s + (r + 1) * 2 ^ s) + d * 2 ^ s = 2 * (r + 1) * (d * 2 ^ s) := by ring
    omega

theorem nearest_le_of_lt_middle (hf : 0 < f.precision) (hd : 0 < d)
    (h : 2 * n < d * (f.unitsAt m + f.unitsAt (m + 1))) :
    (nearest negative n d : Binary f).magnitude ≤ m :=
  Nat.not_lt.mp fun hlt => Nat.not_lt.mpr (middle_le_of_lt_nearest hf hd hlt) h

/-- A finite magnitude is not passed only by values at or below that middle. -/
theorem le_middle_of_nearest_le (hf : 0 < f.precision) (hd : 0 < d)
    (h : (nearest negative n d : Binary f).magnitude ≤ m) (hm : m < f.infinity) :
    2 * n ≤ d * (f.unitsAt m + f.unitsAt (m + 1)) := by
  obtain ⟨s, q, hmag, hq, hlong, hfull⟩ := exists_nearest_significand (f := f) hf negative n hd
  have hpos : 0 < d * 2 ^ s := Nat.mul_pos hd (Nat.two_pow_pos s)
  have hlead : s = 0 ∨ f.leadingBit ≤ q := hfull.imp id fun h => hq ▸ le_roundHalfEven hpos h
  have hle : s * f.leadingBit + q ≤ m := by omega
  have hunits : q * 2 ^ s ≤ f.unitsAt m :=
    Format.unitsAt_significand hlong hlead ▸ Format.unitsAt_mono hle
  have hsucc : (q + 1) * 2 ^ s ≤ f.unitsAt (m + 1) := by
    refine Nat.le_trans ?_ (Format.unitsAt_mono (Nat.add_le_add_right hle 1))
    have hone := f.leadingBit_pos
    rcases Nat.lt_or_eq_of_le hlong with hlt | rfl
    · exact Nat.le_of_eq (Format.unitsAt_significand (q := q + 1) hlt (by omega)).symm
    · -- Carried over, the next place is twice as large.
      have hnext : s * f.leadingBit + 2 * f.leadingBit + 1 =
          (s + 1) * f.leadingBit + (f.leadingBit + 1) := by ring
      rw [hnext, Format.unitsAt_significand (by omega) (.inr (by omega)), Nat.pow_succ]
      calc (2 * f.leadingBit + 1) * 2 ^ s ≤ (2 * f.leadingBit + 2) * 2 ^ s :=
            Nat.mul_le_mul_right _ (by omega)
        _ = (f.leadingBit + 1) * (2 ^ s * 2) := by ring
  calc 2 * n ≤ (2 * q + 1) * (d * 2 ^ s) := hq ▸ le_two_mul_roundHalfEven n hpos
    _ = d * (q * 2 ^ s + (q + 1) * 2 ^ s) := by ring
    _ ≤ d * (f.unitsAt m + f.unitsAt (m + 1)) :=
        Nat.mul_le_mul_left d (Nat.add_le_add hunits hsucc)

theorem nearest_le (hf : 0 < f.precision) (hd : 0 < d) (h : n ≤ d * f.unitsAt m) :
    (nearest negative n d : Binary f).magnitude ≤ m := by
  refine nearest_le_of_lt_middle hf hd ?_
  have hlt := Nat.mul_lt_mul_of_pos_left (f.unitsAt_lt_succ m) hd
  rw [Nat.mul_add]
  omega

theorem le_nearest (hf : 0 < f.precision) (hd : 0 < d) (h : d * f.unitsAt m ≤ n)
    (hm : m ≤ f.infinity) : m ≤ (nearest negative n d : Binary f).magnitude := by
  refine Nat.not_lt.mp fun hlt => ?_
  obtain ⟨k, rfl⟩ := Nat.exists_eq_succ_of_ne_zero (Nat.ne_of_gt (Nat.zero_lt_of_lt hlt))
  have hmiddle := le_middle_of_nearest_le hf hd (Nat.le_of_lt_succ hlt) hm
  have hlt := Nat.mul_lt_mul_of_pos_left (f.unitsAt_lt_succ k) hd
  rw [Nat.mul_add] at hmiddle
  rw [Nat.succ_eq_add_one] at h
  omega

/-- What the format has is not rounded. -/
theorem nearest_eq (hf : 0 < f.precision) (hd : 0 < d) (h : n = d * f.unitsAt m)
    (hm : m ≤ f.infinity) : (nearest negative n d : Binary f).magnitude = m :=
  Nat.le_antisymm (nearest_le hf hd (Nat.le_of_eq h)) (le_nearest hf hd (Nat.le_of_eq h.symm) hm)

/-- Rounding keeps the order. -/
theorem nearest_mono {n' : Nat} (hf : 0 < f.precision) (hd : 0 < d) (h : n ≤ n') :
    (nearest false n d : Binary f).magnitude ≤ (nearest false n' d : Binary f).magnitude := by
  rcases Nat.lt_or_eq_of_le h with hlt | rfl
  · refine Nat.not_lt.mp fun hover => ?_
    have hbelow := middle_le_of_lt_nearest hf hd hover
    have habove := le_middle_of_nearest_le hf hd (Nat.le_refl _)
      (Nat.lt_of_lt_of_le hover (Nat.min_le_right _ _))
    omega
  · exact Nat.le_refl _

theorem isNaN_nearest (negative : Bool) (n d : Nat) :
    (nearest negative n d : Binary f).isNaN = false := by
  simp [isNaN, nearest]

theorem nearest_le_nearest {n' : Nat} (hf : 0 < f.precision) (hd : 0 < d) (h : n ≤ n') :
    (nearest false n d : Binary f).le (nearest false n' d) = true :=
  le_iff.mpr ⟨isNaN_nearest _ _ _, isNaN_nearest _ _ _, Int.ofNat_le.mpr (nearest_mono hf hd h)⟩

/-! ## Keys and units -/

/-- The units of the number with a given key. -/
def unitsOf (f : Format) (k : Int) : Int := k.sign * f.unitsAt k.natAbs

theorem units_eq (x : Binary f) : x.units = unitsOf f x.key := by
  rw [unitsOf, natAbs_key, units, unitCount, key]
  rcases Nat.eq_zero_or_pos x.magnitude with hzero | hpos
  · simp [hzero, Format.unitsAt_zero]
  · split
    · rw [Int.sign_eq_neg_one_of_neg (by omega), Int.neg_one_mul]
    · rw [Int.sign_eq_one_of_pos (by omega), Int.one_mul]

theorem unitsOf_natCast (m : Nat) : unitsOf f m = f.unitsAt m := by
  rcases Nat.eq_zero_or_pos m with rfl | hpos
  · simp [unitsOf, Format.unitsAt_zero]
  · rw [unitsOf, Int.sign_eq_one_of_pos (by omega), Int.one_mul, Int.natAbs_natCast]

theorem unitsOf_mul {s : Int} (hs : s = 1 ∨ s = -1) (k : Int) :
    unitsOf f (s * k) = s * unitsOf f k := by
  rcases hs with rfl | rfl
  · rw [Int.one_mul, Int.one_mul]
  · rw [Int.neg_one_mul, Int.neg_one_mul, unitsOf, unitsOf, Int.sign_neg, Int.natAbs_neg,
      Int.neg_mul]

/-- A number at or above zero has its units whole. -/
theorem units_of_key_nonneg {x : Binary f} (h : 0 ≤ x.key) : x.units = x.unitCount := by
  have hkey : x.key = x.magnitude := by
    rw [← natAbs_key, Int.natAbs_of_nonneg h]
  rw [units_eq, hkey, unitsOf_natCast, unitCount]

/-- The key of the number nearest to a whole number of units. -/
def nearestKey (f : Format) (i : Int) : Int :=
  i.sign * (nearest false i.natAbs 1 : Binary f).magnitude

theorem nearestKey_neg (i : Int) : nearestKey f (-i) = -nearestKey f i := by
  rw [nearestKey, nearestKey, Int.sign_neg, Int.natAbs_neg, Int.neg_mul]

theorem nearestKey_of_nonneg (hf : 0 < f.precision) {i : Int} (h : 0 ≤ i) :
    nearestKey f i = (nearest false i.natAbs 1 : Binary f).magnitude := by
  rcases Int.lt_or_eq_of_le h with hpos | rfl
  · rw [nearestKey, Int.sign_eq_one_of_pos hpos, Int.one_mul]
  · have hnear : (nearest false 0 1 : Binary f).magnitude ≤ 0 :=
      nearest_le hf Nat.one_pos (Nat.zero_le _)
    rw [nearestKey, Int.sign_zero, Int.zero_mul, Int.natAbs_zero, Nat.le_zero.mp hnear]
    rfl

theorem natAbs_nearestKey (hf : 0 < f.precision) (i : Int) :
    (nearestKey f i).natAbs = (nearest false i.natAbs 1 : Binary f).magnitude := by
  rcases Int.le_total 0 i with h | h
  · rw [nearestKey_of_nonneg hf h, Int.natAbs_natCast]
  · rw [← Int.natAbs_neg, ← nearestKey_neg, nearestKey_of_nonneg hf (by omega), Int.natAbs_natCast,
      Int.natAbs_neg]

/-- What the format has keeps its units. -/
theorem unitsOf_nearestKey (hf : 0 < f.precision) {i : Int} (h : f.unitsAt m = i.natAbs)
    (hm : m ≤ f.infinity) : unitsOf f (nearestKey f i) = i := by
  have hnear : (nearest false i.natAbs 1 : Binary f).magnitude = m :=
    nearest_eq hf Nat.one_pos (by rw [h, Nat.one_mul]) hm
  rcases Int.le_total 0 i with hi | hi
  · rw [nearestKey_of_nonneg hf hi, hnear, unitsOf_natCast, h, Int.natAbs_of_nonneg hi]
  · have hneg : nearestKey f i = -1 * m := by
      rw [← Int.neg_neg i, nearestKey_neg, nearestKey_of_nonneg hf (by omega), Int.natAbs_neg, hnear,
        Int.neg_one_mul]
    rw [hneg, unitsOf_mul (.inr rfl), unitsOf_natCast, h]
    omega

theorem nearestKey_mono (hf : 0 < f.precision) {i j : Int} (h : i ≤ j) :
    nearestKey f i ≤ nearestKey f j := by
  have hmono : ∀ {m n : Int}, 0 ≤ m → m ≤ n → nearestKey f m ≤ nearestKey f n := by
    intro m n hm hmn
    rw [nearestKey_of_nonneg hf hm, nearestKey_of_nonneg hf (Int.le_trans hm hmn)]
    exact Int.ofNat_le.mpr (nearest_mono hf Nat.one_pos (by omega))
  have hsign : ∀ {m : Int}, 0 ≤ m → 0 ≤ nearestKey f m := by
    intro m hm
    rw [nearestKey_of_nonneg hf hm]
    exact Int.natCast_nonneg _
  rcases Int.le_total 0 i with hi | hi
  · exact hmono hi h
  · have hneg := hsign (Int.neg_nonneg_of_nonpos hi)
    rw [nearestKey_neg] at hneg
    rcases Int.le_total 0 j with hj | hj
    · exact Int.le_trans (by omega) (hsign hj)
    · have hflip := hmono (Int.neg_nonneg_of_nonpos hj) (Int.neg_le_neg h)
      rw [nearestKey_neg, nearestKey_neg] at hflip
      omega

/-! ## Operations on finite numbers -/

variable {x y : Binary f}

theorem lt_infinity (hx : x.isFinite = true) : x.magnitude < f.infinity := of_decide_eq_true hx

theorem isNaN_of_isFinite (hx : x.isFinite = true) : x.isNaN = false := by
  have := lt_infinity hx
  simp [isNaN]
  omega

theorem isInfinite_of_isFinite (hx : x.isFinite = true) : x.isInfinite = false := by
  have := lt_infinity hx
  simp [isInfinite]
  omega

theorem isInfinite_of_not_isFinite (h : x.isFinite = false) (hnan : x.isNaN = false) :
    x.isInfinite = true := by
  simp only [isFinite, isNaN, decide_eq_false_iff_not] at h hnan
  simp only [isInfinite, beq_iff_eq]
  omega

theorem isFinite_of_isNaN (h : x.isNaN = true) : x.isFinite = false := by
  simp only [isFinite, isNaN, decide_eq_true_eq, decide_eq_false_iff_not] at h ⊢
  omega

theorem isNaN_add_left (h : x.isNaN = true) : (x.add y).isNaN = true := by simp [add, h]

theorem isNaN_div_left (h : x.isNaN = true) : (x.div y).isNaN = true := by simp [div, h]

theorem isFinite_of_le (hx : x.isFinite = true) (h : y.magnitude ≤ x.magnitude) :
    y.isFinite = true :=
  decide_eq_true (Nat.lt_of_le_of_lt h (lt_infinity hx))

theorem add_of_isFinite (hx : x.isFinite = true) (hy : y.isFinite = true) :
    x.add y = if x.units + y.units = 0 then signedZero (x.negative && y.negative)
      else nearest (decide (x.units + y.units < 0)) (x.units + y.units).natAbs 1 := by
  simp only [add, isNaN_of_isFinite hx, isNaN_of_isFinite hy, isInfinite_of_isFinite hx,
    isInfinite_of_isFinite hy, Bool.false_eq_true, if_false]

theorem isNaN_add (hx : x.isFinite = true) (hy : y.isFinite = true) : (x.add y).isNaN = false := by
  rw [add_of_isFinite hx hy]
  split
  · rfl
  · exact isNaN_nearest _ _ _

/-- The sum of finite numbers is their sum in units, rounded. -/
theorem key_add (hx : x.isFinite = true) (hy : y.isFinite = true) :
    (x.add y).key = nearestKey f (x.units + y.units) := by
  rw [add_of_isFinite hx hy, nearestKey]
  rcases Int.lt_trichotomy (x.units + y.units) 0 with h | h | h
  · rw [if_neg (Int.ne_of_lt h), Int.sign_eq_neg_one_of_neg h]
    simp [key, nearest, h]
  · rw [if_pos h, h]
    simp [key, signedZero]
  · rw [if_neg (Int.ne_of_gt h), Int.sign_eq_one_of_pos h]
    simp [key, nearest, Int.not_lt.mpr (Int.le_of_lt h)]

theorem sub_eq_add_neg (hx : x.isNaN = false) (hy : y.isNaN = false) : x.sub y = x.add y.neg := by
  simp [sub, hx, hy]

theorem isNaN_sub (hx : x.isFinite = true) (hy : y.isFinite = true) : (x.sub y).isNaN = false := by
  rw [sub_eq_add_neg (isNaN_of_isFinite hx) (isNaN_of_isFinite hy)]
  exact isNaN_add (y := y.neg) hx hy

theorem key_sub (hx : x.isFinite = true) (hy : y.isFinite = true) :
    (x.sub y).key = nearestKey f (x.units - y.units) := by
  rw [sub_eq_add_neg (isNaN_of_isFinite hx) (isNaN_of_isFinite hy), key_add (y := y.neg) hx hy,
    units_neg, ← Int.sub_eq_add_neg]

/-- Of two sizes the greater one. -/
theorem greatest_abs (hx : x.isNaN = false) (hy : y.isNaN = false)
    (h : x.magnitude ≤ y.magnitude) : x.abs.greatest y.abs = y.abs := by
  have hxabs : x.abs.isNaN = false := hx
  have hyabs : y.abs.isNaN = false := hy
  simp only [greatest, hxabs, hyabs, Bool.false_eq_true, if_false, Bool.false_or]
  split
  · rfl
  · next hlt =>
    refine Binary.ext rfl (Nat.le_antisymm h ?_)
    have hkey := (le_iff.mp (le_of_not_lt hyabs hxabs hlt)).2.2
    simpa [key, Binary.abs] using hkey

/-- Taking a finite number from one that is none has no effect. -/
theorem sub_of_not_isFinite (hx : x.isFinite = false) (hy : y.isFinite = true) : x.sub y = x := by
  have hyn : y.neg.isNaN = false := isNaN_of_isFinite hy
  have hyi : y.neg.isInfinite = false := isInfinite_of_isFinite (x := y.neg) hy
  cases hxn : x.isNaN with
  | true => simp [sub, hxn]
  | false =>
    simp [sub_eq_add_neg hxn (isNaN_of_isFinite hy), add, hxn, hyn, hyi,
      isInfinite_of_not_isFinite hx hxn]

/-- The remainder of a division by a smaller number is below it. -/
theorem rem_lt (hf : 0 < f.precision) (hx : x.isFinite = true) (hy : 0 < y.magnitude)
    (h : y.magnitude ≤ x.magnitude) :
    (x.rem y).negative = x.negative ∧ (x.rem y).magnitude < y.magnitude := by
  have hyf := isFinite_of_le hx h
  have hyz : y.isZero = false := by
    simp [isZero]
    omega
  obtain ⟨k, hk, hmod⟩ := Format.exists_unitsAt_mod h hy
  have hrem : x.rem y = nearest x.negative (x.unitCount % y.unitCount) 1 := by
    simp [rem, isNaN_of_isFinite hx, isNaN_of_isFinite hyf, isInfinite_of_isFinite hx,
      isInfinite_of_isFinite hyf, hyz]
  have hmag : (x.rem y).magnitude = k := by
    rw [hrem]
    refine nearest_eq hf Nat.one_pos ?_ (Nat.le_of_lt (Nat.lt_trans hk (lt_infinity hyf)))
    rw [Nat.one_mul, hmod]
    rfl
  exact ⟨by rw [hrem]; rfl, hmag ▸ hk⟩

/-! ## The wider format -/

/-- How many units of double precision make one of single precision. -/
def finerUnits : Nat := 2 ^ (Format.double.unitBits - Format.single.unitBits)

theorem finerUnits_pos : 0 < finerUnits := Nat.two_pow_pos _

/-- Double precision has every number of single precision. -/
theorem widen_exact {x : F32} (hx : x.isFinite = true) : (x.convert : F64).isFinite = true ∧
    (x.convert : F64).negative = x.negative ∧
    (x.convert : F64).unitCount = x.unitCount * finerUnits := by
  have hconvert : (x.convert : F64) = nearest x.negative (x.unitCount * finerUnits) 1 := by
    simp only [convert, isNaN_of_isFinite hx, isInfinite_of_isFinite hx, Bool.false_eq_true, if_false]
    rw [show Format.single.unitBits - Format.double.unitBits = 0 by decide, Nat.shiftLeft_eq,
      Nat.shiftLeft_zero, finerUnits]
  obtain ⟨s, q, hm, hq, hs⟩ := Format.exists_significand Format.single x.magnitude
  have hunits : x.unitCount = q * 2 ^ s := by
    rw [unitCount, hm]
    exact Format.unitsAt_significand (Nat.le_of_lt hq) hs
  have hlead : 2 * Format.single.leadingBit ≤ 2 * Format.double.leadingBit := by decide
  obtain ⟨m, hm⟩ : ∃ m, Format.double.unitsAt m = x.unitCount * finerUnits := by
    obtain ⟨m, hm⟩ := Format.exists_unitsAt_eq (f := .double) (q := q) (by omega)
      (s + (Format.double.unitBits - Format.single.unitBits))
    exact ⟨m, by rw [hm, hunits, Nat.pow_add, Nat.mul_assoc, finerUnits]⟩
  have hlt : m < Format.double.infinity := by
    refine (Format.unitsAt_strictMono .double).lt_iff_lt.mp ?_
    have hbound : x.unitCount < Format.single.unitsAt Format.single.infinity :=
      Format.unitsAt_strictMono _ (lt_infinity hx)
    have hroom : Format.single.unitsAt Format.single.infinity * finerUnits ≤
        Format.double.unitsAt Format.double.infinity := by decide +kernel
    rw [hm]
    exact Nat.lt_of_lt_of_le (Nat.mul_lt_mul_of_pos_right hbound finerUnits_pos) hroom
  have hmag : (x.convert : F64).magnitude = m := by
    rw [hconvert]
    exact nearest_eq (by decide) Nat.one_pos (by rw [hm, Nat.one_mul]) (Nat.le_of_lt hlt)
  refine ⟨decide_eq_true (hmag ▸ hlt), by rw [hconvert]; rfl, ?_⟩
  rw [unitCount, hmag, hm]

theorem units_widen {x : F32} (hx : x.isFinite = true) :
    (x.convert : F64).units = x.units * finerUnits := by
  obtain ⟨-, hneg, hcount⟩ := widen_exact hx
  rw [units, units, hneg, hcount]
  split <;> push_cast <;> ring

end Binary

end SceneEngine
