namespace FilterAlgebra.Text

def hexDigit? (c : Char) : Option Nat :=
  if c.isDigit then some (c.toNat - 48)
  else if 'a' ≤ c ∧ c ≤ 'f' then some (c.toNat - 87)
  else if 'A' ≤ c ∧ c ≤ 'F' then some (c.toNat - 55)
  else none

/-- The number that digits of a base up to sixteen spell. -/
def valueOf? (base : Nat) (ds : List Char) : Option Nat :=
  ds.foldl (fun acc c => do
    let d ← hexDigit? c
    if d < base then return base * (← acc) + d else none) (some 0)

end FilterAlgebra.Text
