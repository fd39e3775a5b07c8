import FilterAlgebra.Binary64

namespace FilterAlgebra

/-- The number `digits × 10 ^ exponent`. -/
structure Decimal where
  digits : Nat
  exponent : Int
deriving DecidableEq, Repr

namespace Decimal

def tenTo (n : Nat) : Nat := Nat.pow 10 n

def digitChars (d : Decimal) : List Char := Nat.toDigits 10 d.digits

def leading (d : Decimal) : Int := d.digitChars.length - 1 + d.exponent

/-- The nearest unsigned pattern, by which numerals are chosen for writing. Those far beyond the
binary range are not multiplied out. -/
def magnitude (d : Decimal) : Nat :=
  if d.digits = 0 ∨ d.leading < -400 then 0
  else if 400 < d.leading then Binary64.infinity
  else Binary64.nearest (d.digits * tenTo d.exponent.toNat) (tenTo (-d.exponent).toNat)

def powerOfTen (n : Nat) : Binary64 := .ofInt (tenTo n)

/-- A number with its point moved to the left, at most 308 places at a time. -/
def lowered (x : Binary64) (places : Nat) : Binary64 :=
  if places ≤ 308 then x.quotient (powerOfTen places)
  else if x.magnitude = 0 then x
  else lowered (x.quotient (powerOfTen 308)) (places - 308)
termination_by places

/-- The number that is read. Its digits, the power of ten and their product or quotient are rounded
by themselves, so the number is close to what is spelled but need not be the nearest one. -/
def approximate (d : Decimal) : Binary64 :=
  let x := .ofInt d.digits
  if d.exponent < 0 then lowered x (-d.exponent).toNat
  else if d.exponent ≤ 308 then x.product (powerOfTen d.exponent.toNat)
  else if d.digits = 0 then x
  else .ofMagnitude false Binary64.infinity

/-- Which of two equally near numerals is taken. -/
inductive Tie where
  | even | up
deriving DecidableEq, Repr

def leadingOf (num den : Nat) : Int :=
  if den ≤ num then (Nat.toDigits 10 (num / den)).length - 1
  else -(Nat.toDigits 10 (den / num)).length

/-- The two multiples of `10 ^ e` around a ratio, the nearer one first. -/
def neighbours (tie : Tie) (num den : Nat) (e : Int) : List Decimal :=
  let n := num * tenTo (-e).toNat
  let d := den * tenTo e.toNat
  let low := n / d
  let twice := 2 * (n % d)
  let lowFirst := twice < d || twice == d && tie == .even && low % 2 == 0
  if lowFirst then [⟨low, e⟩, ⟨low + 1, e⟩] else [⟨low + 1, e⟩, ⟨low, e⟩]

def exact (x : Binary64) : Decimal :=
  ⟨x.significand * Nat.pow 5 (-x.exponent).toNat <<< x.exponent.toNat,
    if x.exponent < 0 then x.exponent else 0⟩

/-- Numerals for a finite number, coarser grids first, all its digits last. -/
def candidates (tie : Tie) (x : Binary64) : List Decimal :=
  let (num, den) := x.ratio
  let top := leadingOf num den + 1
  (List.range 18).flatMap (fun i : Nat => neighbours tie num den (top - i)) ++ [exact x]

/-- The shortest numeral that is read back as the finite number `x`, sign apart. -/
def shortest (tie : Tie) (x : Binary64) : Decimal :=
  if x.magnitude = 0 then ⟨0, 0⟩
  else ((candidates tie x).find? (·.magnitude == x.magnitude)).getD (exact x)

def plain (d : Decimal) : List Char :=
  let ds := d.digitChars
  let places := (-d.exponent).toNat
  if places = 0 then ds ++ List.replicate d.exponent.toNat '0'
  else if places < ds.length then
    ds.take (ds.length - places) ++ '.' :: ds.drop (ds.length - places)
  else '0' :: '.' :: List.replicate (places - ds.length) '0' ++ ds

def scientific (d : Decimal) : List Char :=
  let ds := d.digitChars
  let fraction := if ds.length < 2 then [] else '.' :: ds.drop 1
  ds.take 1 ++ fraction ++ 'e' :: (if d.leading < 0 then '-' else '+') ::
    Nat.toDigits 10 d.leading.natAbs

/-- Plain writing that always shows a point, for leading exponents from -5 to 15; scientific
writing for all others. -/
def pointed (d : Decimal) : List Char :=
  if -5 ≤ d.leading ∧ d.leading ≤ 15 then
    if d.exponent < 0 then d.plain else d.plain ++ ['.', '0']
  else d.scientific

end Decimal

namespace Binary64

def sign (x : Binary64) : List Char := if x.isNegative then ['-'] else []

/-- The text of a finite number in a document: a tie goes to the even digit, and the numeral
shows that it is not an integer. -/
def numeral (x : Binary64) : List Char := x.sign ++ (Decimal.shortest .even x).pointed

/-- The text of a number for people: positional, a tie going up. -/
def display (x : Binary64) : String :=
  if x.isNaN then "NaN"
  else if x.isFinite then .ofList (x.sign ++ (Decimal.shortest .up x).plain)
  else .ofList (x.sign ++ ['i', 'n', 'f'])

end Binary64
end FilterAlgebra
