namespace FilterAlgebra

/-- A 64-bit binary floating-point number, held as its bit pattern. Without its sign a pattern grows
with the absolute value that it stands for. -/
structure Binary64 where
  bits : UInt64
deriving DecidableEq, Repr

namespace Binary64

/-- Half of all patterns: those of the numbers without a sign. -/
def signBit : Nat := 9223372036854775808

/-- The number of fractions in one binade. -/
def binade : Nat := 4503599627370496

def infinity : Nat := 2047 * binade

/-- The pattern without its sign. -/
def magnitude (x : Binary64) : Nat := x.bits.toNat % signBit

def isNegative (x : Binary64) : Bool := signBit ≤ x.bits.toNat

def isNaN (x : Binary64) : Bool := infinity < x.magnitude

def isFinite (x : Binary64) : Bool := x.magnitude < infinity

def ofMagnitude (negative : Bool) (magnitude : Nat) : Binary64 :=
  ⟨.ofNat (if negative then signBit + magnitude else magnitude)⟩

/-- Equality of numbers: the two zeros are one number, and NaN differs from itself. -/
def same (x y : Binary64) : Bool :=
  !x.isNaN && !y.isNaN && (x.bits == y.bits || x.magnitude == 0 && y.magnitude == 0)

/-- A finite number is its significand times two to the power of its exponent. -/
def significand (x : Binary64) : Nat :=
  if x.magnitude < binade then x.magnitude else x.magnitude % binade + binade

def exponent (x : Binary64) : Int :=
  if x.magnitude < binade then -1074 else (x.magnitude / binade : Nat) - 1075

def roundHalfEven (num den : Nat) : Nat :=
  let q := num / den
  let twice := 2 * (num % den)
  if twice < den ∨ twice = den ∧ q % 2 = 0 then q else q + 1

/-- The ratio `num / den` divided by two to the power of `e`. -/
def scaleDown (num den : Nat) (e : Int) : Nat × Nat :=
  (num <<< (-e).toNat, den <<< e.toNat)

/-- The exponent that gives a positive ratio a significand of 53 bits, or the least one. -/
def exponentOf (num den : Nat) : Int :=
  let low : Int := (num.log2 : Int) - den.log2 - 53
  let (n, d) := scaleDown num den low
  let e := if n < d <<< 53 then low else low + 1
  if e < -1074 then -1074 else e

/-- The unsigned pattern nearest to a ratio; of two equally near, the even one. -/
def nearest (num den : Nat) : Nat :=
  if num = 0 then 0 else
  let e := exponentOf num den
  let (n, d) := scaleDown num den e
  let m := (e + 1074).toNat * binade + roundHalfEven n d
  if m < infinity then m else infinity

def ofInt (n : Int) : Binary64 := ofMagnitude (n < 0) (nearest n.natAbs 1)

/-- The absolute value of a finite number. -/
def ratio (x : Binary64) : Nat × Nat :=
  (x.significand <<< x.exponent.toNat, 1 <<< (-x.exponent).toNat)

/-- The rounded product of two finite numbers, signs apart. -/
def product (x y : Binary64) : Binary64 :=
  ofMagnitude false (nearest (x.ratio.1 * y.ratio.1) (x.ratio.2 * y.ratio.2))

def quotient (x y : Binary64) : Binary64 :=
  ofMagnitude false (nearest (x.ratio.1 * y.ratio.2) (x.ratio.2 * y.ratio.1))

end Binary64
end FilterAlgebra
