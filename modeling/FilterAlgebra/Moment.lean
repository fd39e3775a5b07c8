import FilterAlgebra.Calendar

namespace FilterAlgebra

/-- Decimal digits, padded on the left with zeros up to a width. -/
def padded (width n : Nat) : List Char :=
  let digits := Nat.toDigits 10 n
  List.replicate (width - digits.length) '0' ++ digits

/-- A wall clock reading, in nanoseconds since the start of the calendar's day zero, and the
seconds by which that clock is ahead of UTC. -/
structure Moment where
  wall : Int
  offset : Int
deriving DecidableEq, Repr

namespace Moment

def nanosPerSecond : Nat := 1000000000
def nanosPerDay : Nat := 86400000000000
def millisPerDay : Nat := 86400000

def instant (m : Moment) : Int := m.wall - m.offset * nanosPerSecond

def millisecond (m : Moment) : Int := m.instant / 1000000

def utcDate (m : Moment) : Date := Date.ofDayNumber (m.millisecond / millisPerDay)

/-- The calendar day and the nanosecond of that day shown by the wall clock. -/
def wallDate (m : Moment) : Date := Date.ofDayNumber (m.wall / nanosPerDay)

def wallNanos (m : Moment) : Nat := (m.wall % nanosPerDay).toNat

def ofWall (d : Date) (nanos : Nat) (offset : Int) : Moment :=
  ⟨d.toDayNumber * nanosPerDay + nanos, offset⟩

/-- A calendar day stands for its midnight in UTC. -/
def midnight (d : Date) : Moment := ofWall d 0 0

/-- Whether the UTC year is one of those that a text can carry. -/
def expressible (m : Moment) : Bool :=
  -9999 ≤ m.utcDate.year && m.utcDate.year ≤ 9999

def yearText (y : Int) : List Char :=
  if y < 0 then '-' :: padded 4 y.natAbs else padded 4 y.natAbs

def dateText (d : Date) : List Char :=
  yearText d.year ++ '-' :: padded 2 d.month ++ '-' :: padded 2 d.day

def timeText (ms : Nat) : List Char :=
  padded 2 (ms / 3600000) ++ ':' :: padded 2 (ms / 60000 % 60) ++
    ':' :: padded 2 (ms / 1000 % 60) ++ '.' :: padded 3 (ms % 1000)

def text (m : Moment) : String :=
  .ofList (dateText m.utcDate ++ 'T' :: timeText (m.millisecond % millisPerDay).toNat ++ ['Z'])

end Moment
end FilterAlgebra
