/-
Binary floating point as words.

A number is a sign and a magnitude, the magnitude being the word without its
sign bit. Magnitudes are ordered as the values they stand for: below
`Format.infinity` finite, at it infinite, above it not a number. So no field is
ever unpacked to compare two numbers, and `Binary.key` reads every number as an
integer with the same order and with both zeros at `0`.

A finite magnitude stands for a whole number of units (`Binary.unitCount`), the
unit being the least positive value of the format, `2 ^ -unitBits`. All
arithmetic is exact on units and rounds once.
-/

namespace SceneEngine

/-- An interchange format: how many bits a significand has, the leading one
included, and how many the exponent. -/
structure Format where
  precision : Nat
  exponentBits : Nat
deriving DecidableEq, Repr

namespace Format

/-- 24 bits of significand in a word of 32. -/
def single : Format := ⟨24, 8⟩

/-- 53 bits of significand in a word of 64. -/
def double : Format := ⟨53, 11⟩

/-- The significand bits a word stores: all but the leading one. -/
def fractionBits (f : Format) : Nat := f.precision - 1

/-- The bits of a word without its sign. -/
def magnitudeBits (f : Format) : Nat := f.exponentBits + f.fractionBits

/-- How many magnitudes there are. -/
def magnitudeCount (f : Format) : Nat := 1 <<< f.magnitudeBits

/-- The leading bit of a significand, which a word does not store. -/
def leadingBit (f : Format) : Nat := 1 <<< f.fractionBits

/-- The least positive value is `2 ^ -unitBits`. -/
def unitBits (f : Format) : Nat := (1 <<< (f.exponentBits - 1)) - 2 + f.fractionBits

/-- The magnitude of infinity: a full exponent over an empty fraction. -/
def infinity (f : Format) : Nat := ((1 <<< f.exponentBits) - 1) * f.leadingBit

/-- The magnitude of the quiet NaN without payload. -/
def quietNaN (f : Format) : Nat := f.magnitudeCount - (1 <<< (f.fractionBits - 1))

/-- The units a magnitude stands for. Infinity reads as the power of two after the
last finite number. -/
def unitsAt (f : Format) (magnitude : Nat) : Nat :=
  let exponent := magnitude / f.leadingBit
  let fraction := magnitude % f.leadingBit
  if exponent = 0 then fraction else (f.leadingBit + fraction) <<< (exponent - 1)

theorem one_shiftLeft_pos (k : Nat) : 0 < 1 <<< k := by
  rw [Nat.one_shiftLeft]
  exact Nat.two_pow_pos k

theorem magnitudeCount_pos (f : Format) : 0 < f.magnitudeCount := one_shiftLeft_pos _

theorem infinity_lt (f : Format) : f.infinity < f.magnitudeCount := by
  unfold infinity leadingBit magnitudeCount magnitudeBits
  rw [Nat.shiftLeft_add, Nat.shiftLeft_eq (1 <<< f.exponentBits), Nat.one_shiftLeft f.fractionBits]
  exact Nat.mul_lt_mul_of_pos_right (Nat.sub_lt (one_shiftLeft_pos _) Nat.one_pos)
    (Nat.two_pow_pos _)

theorem quietNaN_lt (f : Format) : f.quietNaN < f.magnitudeCount :=
  Nat.sub_lt f.magnitudeCount_pos (one_shiftLeft_pos _)

end Format

/-- A number of format `f`: one word, split into its sign and the rest. -/
structure Binary (f : Format) where
  negative : Bool
  magnitude : Nat
  inRange : magnitude < f.magnitudeCount
deriving DecidableEq

/-- Numbers of single precision. -/
abbrev F32 := Binary Format.single

/-- Numbers of double precision. -/
abbrev F64 := Binary Format.double

namespace Binary

variable {f : Format}

@[ext] theorem ext {x y : Binary f} (hs : x.negative = y.negative)
    (hm : x.magnitude = y.magnitude) : x = y := by
  cases x; cases y; simp_all

/-! ## Words -/

/-- The number with the given word; bits beyond the format's width are dropped. -/
def ofWord (w : Nat) : Binary f where
  negative := w.testBit f.magnitudeBits
  magnitude := w % f.magnitudeCount
  inRange := Nat.mod_lt _ f.magnitudeCount_pos

/-- The word of a number. -/
def toWord (x : Binary f) : Nat :=
  (if x.negative then f.magnitudeCount else 0) + x.magnitude

/-- The bytes of the word, the low one first. -/
def littleEndian (x : Binary f) : List Nat :=
  (List.range ((f.magnitudeBits + 1) / 8)).map fun i => x.toWord >>> (8 * i) % 256

/-! ## Classes of numbers -/

def isNaN (x : Binary f) : Bool := decide (f.infinity < x.magnitude)

def isInfinite (x : Binary f) : Bool := x.magnitude == f.infinity

def isFinite (x : Binary f) : Bool := decide (x.magnitude < f.infinity)

def isZero (x : Binary f) : Bool := x.magnitude == 0

/-- The zero of the given sign. -/
def signedZero (negative : Bool) : Binary f :=
  ⟨negative, 0, f.magnitudeCount_pos⟩

/-- The infinity of the given sign. -/
def signedInfinity (negative : Bool) : Binary f :=
  ⟨negative, f.infinity, f.infinity_lt⟩

/-- A quiet NaN of the given sign. -/
def signedNaN (negative : Bool) : Binary f :=
  ⟨negative, f.quietNaN, f.quietNaN_lt⟩

/-- The result of an operation that has none, such as `0 / 0`: a quiet NaN whose
sign bit is set. -/
def invalid : Binary f := signedNaN true

/-! ## Sign -/

/-- Flips the sign, of a NaN too. -/
def neg (x : Binary f) : Binary f := { x with negative := !x.negative }

/-- Clears the sign, of a NaN too. -/
def abs (x : Binary f) : Binary f := { x with negative := false }

/-! ## Order -/

/-- The integer that orders a number among the others. Both zeros have key `0`. -/
def key (x : Binary f) : Int := if x.negative then -(x.magnitude : Int) else x.magnitude

/-- Strictly less; false when either side is a NaN. -/
def lt (x y : Binary f) : Bool := !x.isNaN && !y.isNaN && decide (x.key < y.key)

/-- At most; false when either side is a NaN. -/
def le (x y : Binary f) : Bool := !x.isNaN && !y.isNaN && decide (x.key ≤ y.key)

/-- Equal as numbers: the zeros are equal, a NaN equals nothing. -/
def eq (x y : Binary f) : Bool := !x.isNaN && !y.isNaN && decide (x.key = y.key)

/-- The lesser of two numbers; a NaN gives way to a number, and the first of two stays. -/
def least (x y : Binary f) : Binary f :=
  if y.isNaN then x else if x.isNaN || y.lt x then y else x

/-- The greater of two numbers; a NaN gives way to a number, and the first of two stays. -/
def greatest (x y : Binary f) : Binary f :=
  if y.isNaN then x else if x.isNaN || x.lt y then y else x

/-- Where a word stands in the order of all words: negative NaNs first, then the
numbers with `-0` before `0`, then positive NaNs. -/
def rank (x : Binary f) : Int := if x.negative then -(x.magnitude : Int) - 1 else x.magnitude

/-! ## Units -/

/-- The units of a finite number, its sign aside. -/
def unitCount (x : Binary f) : Nat := f.unitsAt x.magnitude

/-- The units of a finite number, signed. -/
def units (x : Binary f) : Int := if x.negative then -(x.unitCount : Int) else x.unitCount

end Binary

end SceneEngine
