/-!
# Rounding to double precision

Shares of a counter and cycles per instruction are computed in IEEE-754 double
precision.  Only non-negative values between `2 ^ (-64)` and `2 ^ 64` arise, so a
double is represented here by the rational number it denotes: fifty-three
significant bits and no bound on the exponent.

Main results:

- `nearest` rounds a rational to the closest double, ties to the even
  significand; `nearest_of_nonpos` fixes its value at and below zero.
- `quotient` and `product` are the correctly rounded operations, and `encoding`
  is the 64-bit interchange encoding of a double.
-/

namespace CacheMeter.Binary64

/-! ## Rounding -/

/-- The integer closest to `x`; a half goes to the even neighbour. -/
def roundHalfEven (x : Rat) : Int :=
  let below := x.floor
  let fraction := x - below
  if fraction < 1 / 2 then below
  else if 1 / 2 < fraction then below + 1
  else if below % 2 = 0 then below
  else below + 1

/-- The exponent `e` of a positive rational, with `2 ^ e ≤ x < 2 ^ (e + 1)`. -/
def exponent (x : Rat) : Int :=
  let estimate : Int := (x.num.toNat.log2 : Int) - x.den.log2
  if (2 : Rat) ^ estimate ≤ x then estimate else estimate - 1

/-- The gap between neighbouring doubles around a positive `x`. -/
def spacing (x : Rat) : Rat :=
  (2 : Rat) ^ (exponent x - 52)

/-- The double closest to `x`, ties to the even significand. -/
def nearest (x : Rat) : Rat :=
  if x ≤ 0 then 0 else roundHalfEven (x / spacing x) * spacing x

theorem nearest_of_nonpos {x : Rat} (h : x ≤ 0) : nearest x = 0 := by
  simp [nearest, h]

/-! ## Operations -/

/-- A word as a double. -/
def ofWord (n : UInt64) : Rat :=
  nearest (n.toNat : Rat)

/-- The rounded quotient of two doubles. -/
def quotient (a b : Rat) : Rat :=
  nearest (a / b)

/-- The rounded product of two doubles. -/
def product (a b : Rat) : Rat :=
  nearest (a * b)

/-- The integer part of a double as a word; what does not fit becomes the largest
word. -/
def toWord (x : Rat) : UInt64 :=
  UInt64.ofNat (min x.floor.toNat (UInt64.size - 1))

/-! ## Interchange encoding -/

/-- The leading bit of a significand. -/
def leadingBit : Nat := 0x10000000000000

/-- The 64 bits of a non-negative double: biased exponent, then the significand
without its leading one. -/
def encoding (x : Rat) : UInt64 :=
  if x ≤ 0 then 0
  else
    let significand := (x / spacing x).floor.toNat
    UInt64.ofNat ((exponent x + 1023).toNat * leadingBit + (significand - leadingBit))

end CacheMeter.Binary64
