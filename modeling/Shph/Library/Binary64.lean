/-
Floating-point numbers of 64 bits, as far as they are stored, compared, added
where they are not negative, and converted from and to integers.
-/
import Mathlib

/-- A number as its sign, exponent and fraction bits. -/
structure Binary64 where
  bits : UInt64
deriving Repr, DecidableEq

namespace Binary64

/-- All bits but the sign. -/
def magnitude (value : Binary64) : Nat := value.bits.toNat % 2 ^ 63

def isNegative (value : Binary64) : Bool := 2 ^ 63 ≤ value.bits.toNat

/-- The largest exponent belongs to the infinities and to what is no number. -/
def isFinite (value : Binary64) : Bool := value.magnitude < 0x7ff * 2 ^ 52

/-- Finite numbers are ordered as their magnitudes are, the sign in front;
both zeros get the same place. -/
def place (value : Binary64) : Int :=
  if value.isNegative then -value.magnitude else value.magnitude

/-- Finite, and between two bounds. -/
def within (value low high : Binary64) : Bool :=
  value.isFinite && low.place ≤ value.place && value.place ≤ high.place

/-- The smaller of two; what is no number gives way. -/
def min (left right : Binary64) : Binary64 :=
  if 0x7ff * 2 ^ 52 < left.magnitude then right
  else if 0x7ff * 2 ^ 52 < right.magnitude ∨ left.place ≤ right.place then left
  else right

/-- A finite number without its sign, as a numerator and a denominator. -/
def ratio (value : Binary64) : Nat × Nat :=
  let exponent := value.magnitude / 2 ^ 52
  let fraction := value.magnitude % 2 ^ 52
  if exponent = 0 then (fraction, 2 ^ 1074)
  else ((2 ^ 52 + fraction) * 2 ^ exponent, 2 ^ 1075)

/-- Divide; what lies in the middle goes to the even one. -/
def roundDiv (value divisor : Nat) : Nat :=
  let quotient := value / divisor
  let twice := 2 * (value % divisor)
  if divisor < twice ∨ (twice = divisor ∧ quotient % 2 = 1) then quotient + 1
  else quotient

/-- The nearest number to a fraction that is not below all normal numbers.  The
quotient is scaled to 53 bits or one more, which is taken off again; with its
leading one it is added to one less than the exponent, so that a carry raises
it. -/
def ofRatio (value divisor : Nat) : Binary64 :=
  if value = 0 then ⟨0⟩
  else
    let up := Nat.log2 divisor + 53
    let down := Nat.log2 value
    let value := value * 2 ^ (up - down)
    let divisor := divisor * 2 ^ (down - up)
    let extra := if divisor * 2 ^ 53 ≤ value then 1 else 0
    ⟨UInt64.ofNat ((1074 + extra + down - up) * 2 ^ 52 +
      roundDiv value (divisor * 2 ^ extra))⟩

def ofNat (value : Nat) : Binary64 := ofRatio value 1

/-- The sum of two numbers that are not negative. -/
def addMagnitudes (left right : Binary64) : Binary64 :=
  let (value, divisor) := left.ratio
  let (value', divisor') := right.ratio
  ofRatio (value * divisor' + value' * divisor) (divisor * divisor')

def ofInt : Int → Binary64
  | .ofNat value => ofNat value
  | .negSucc value =>
      ⟨UInt64.ofNat (2 ^ 63 + (ofNat (value + 1)).bits.toNat)⟩

/-- Eight, the nearest to an integer that needs 54 bits, and that to a tenth. -/
example : ofNat 8 = ⟨0x4020000000000000⟩ ∧
    ofNat (2 ^ 53 + 3) = ⟨0x4340000000000002⟩ ∧
    ofRatio 1 10 = ⟨0x3fb999999999999a⟩ := by
  decide +kernel

end Binary64
