/-
Sine, cosine and tangent.

An angle `x` is reduced to `r = x - q · π/2` with `0 ≤ r < π/2` in fixed point,
the series of sine and cosine are summed at `r`, and the quarter turns `q` say
which of the two is meant and with what sign. `fractionDigits` leaves more than
twice the significand below the least result, so the one rounding at the end
decides the last bit.

An angle below `2 ^ -precision` is its own sine and tangent to half a unit in
the last place, and its cosine is `1`.
-/
import SceneEngine.Binary.Rounding

namespace SceneEngine

namespace FixedPoint

/-- `scale / k - scale / (3 k³) + scale / (5 k⁵) - …`, the arc tangent of `1 / k`
times `scale`, up to `terms` terms. `power` is `scale / k ^ n` and `n` the odd
number of the next term. -/
def arctanTerms (k : Nat) : (terms : Nat) → (power : Nat) → (n : Nat) → Int
  | 0, _, _ => 0
  | terms + 1, power, n => (power / n : Nat) - arctanTerms k terms (power / (k * k)) (n + 2)

/-- The arc tangent of `1 / k` with `bits` bits after the point. Each term is at
most a quarter of the one before. -/
def arctanInverse (k bits : Nat) : Int :=
  arctanTerms k (bits / 2 + 1) ((1 <<< bits) / k) 1

/-- `π / 2` with `bits` bits after the point, from `π / 4 = 4 arctan 1/5 - arctan 1/239`.
The sum carries 32 more bits than it returns. -/
def halfPi (bits : Nat) : Nat :=
  ((4 * arctanInverse 5 (bits + 32) - arctanInverse 239 (bits + 32)) * 2).toNat >>> 32

/-- `term - term · r² / (n (n + 1)) + …`, for `square` the square of `r` with `bits`
bits after the point. -/
def alternatingTerms (bits square : Nat) : (terms : Nat) → (term : Nat) → (n : Nat) → Int
  | 0, _, _ => 0
  | terms + 1, term, n =>
    (term : Int) -
      alternatingTerms bits square terms ((term * square) >>> bits / (n * (n + 1))) (n + 2)

/-- The sine of `r`, both with `bits` bits after the point. -/
def sine (bits r : Nat) : Nat :=
  (alternatingTerms bits ((r * r) >>> bits) (bits / 2) r 2).toNat

/-- The cosine of `r`, both with `bits` bits after the point. -/
def cosine (bits r : Nat) : Nat :=
  (alternatingTerms bits ((r * r) >>> bits) (bits / 2) (1 <<< bits) 1).toNat

end FixedPoint

namespace Binary

variable {f : Format}

/-- Bits after the point while a circular function is computed. -/
def fractionDigits (f : Format) : Nat := 4 * f.precision + 48

/-- Whether `x` is so close to zero that it is its own sine. -/
def isTinyAngle (x : Binary f) : Bool := decide (x.unitCount < 1 <<< (f.unitBits - f.precision))

/-- The quarter turns in the size of a finite angle, and the angle left over with
`fractionDigits` bits after the point. -/
def quarterTurns (x : Binary f) : Nat × Nat :=
  let bits := fractionDigits f + (1 <<< (f.exponentBits - 1)) + 64
  let quarter := FixedPoint.halfPi bits
  let angle := (x.unitCount <<< bits) >>> f.unitBits
  (angle / quarter, (angle % quarter) >>> (bits - fractionDigits f))

/-- Sine and cosine of the size of a finite angle: whether each is negative, and
its size with `fractionDigits` bits after the point. -/
def circular (x : Binary f) : (Bool × Nat) × (Bool × Nat) :=
  let (turns, r) := x.quarterTurns
  let s := FixedPoint.sine (fractionDigits f) r
  let c := FixedPoint.cosine (fractionDigits f) r
  match turns % 4 with
  | 0 => ((false, s), (false, c))
  | 1 => ((false, c), (true, s))
  | 2 => ((true, s), (true, c))
  | _ => ((true, c), (false, s))

def sin (x : Binary f) : Binary f :=
  if x.isNaN then x
  else if x.isInfinite then invalid
  else if x.isTinyAngle then x
  else
    let (negative, s) := x.circular.1
    nearest (x.negative != negative) (s <<< f.unitBits) (1 <<< fractionDigits f)

def cos (x : Binary f) : Binary f :=
  if x.isNaN then x
  else if x.isInfinite then invalid
  else if x.isTinyAngle then ofNat 1
  else
    let (negative, c) := x.circular.2
    nearest negative (c <<< f.unitBits) (1 <<< fractionDigits f)

def tan (x : Binary f) : Binary f :=
  if x.isNaN then x
  else if x.isInfinite then invalid
  else if x.isTinyAngle then x
  else
    let ((sinNegative, s), (cosNegative, c)) := x.circular
    nearest (x.negative != (sinNegative != cosNegative)) (s <<< f.unitBits) c

end Binary

end SceneEngine
