namespace FilterAlgebra

/-- A day of the proleptic Gregorian calendar. -/
structure Date where
  year : Int
  month : Nat
  day : Nat
deriving DecidableEq, Repr

namespace Date

/-- A year counted from March, so that a leap day is the last day of its year, and the day within
it. -/
structure FromMarch where
  year : Int
  day : Nat
deriving DecidableEq, Repr

def FromMarch.ofDayNumber (n : Int) : FromMarch :=
  let inCycle := (n % 146097).toNat
  let century := if inCycle / 36524 < 3 then inCycle / 36524 else 3
  let inCentury := inCycle - 36524 * century
  let span := inCentury / 1461
  let inSpan := inCentury - 1461 * span
  let year := if inSpan / 365 < 3 then inSpan / 365 else 3
  ⟨400 * (n / 146097) + (100 * century + 4 * span + year : Nat), inSpan - 365 * year⟩

def FromMarch.toDayNumber (y : FromMarch) : Int :=
  365 * y.year + y.year / 4 - y.year / 100 + y.year / 400 + y.day

/-- Months from March follow each other with 153 days to every five of them. -/
def ofFromMarch (y : FromMarch) : Date :=
  let fromMarch := (5 * y.day + 2) / 153
  let day := y.day - (153 * fromMarch + 2) / 5 + 1
  if fromMarch < 10 then ⟨y.year, fromMarch + 3, day⟩ else ⟨y.year + 1, fromMarch - 9, day⟩

def toFromMarch (d : Date) : FromMarch :=
  let fromMarch := (d.month + 9) % 12
  ⟨if d.month < 3 then d.year - 1 else d.year, (153 * fromMarch + 2) / 5 + d.day - 1⟩

def ofDayNumber (n : Int) : Date := ofFromMarch (FromMarch.ofDayNumber n)

def toDayNumber (d : Date) : Int := d.toFromMarch.toDayNumber

end Date
end FilterAlgebra
