import FilterAlgebra.Operator
import FilterAlgebra.Moment
import FilterAlgebra.Json.Typed

namespace FilterAlgebra

/-- An operand of a comparison. Documents know neither moments nor sentinels: both are written as
strings, and a string that spells a sentinel is read as that sentinel. -/
inductive Value where
  | null
  | bool (b : Bool)
  | int (n : Int64)
  | float (x : Binary64)
  | text (s : String)
  | date (m : Moment)
  | sentinel (s : Sentinel)
deriving DecidableEq, Repr

namespace Value

def isNull : Value → Bool
  | null => true
  | _ => false

def text? : Value → Option String
  | text s => some s
  | _ => none

def sentinel? : Value → Option Sentinel
  | sentinel s => some s
  | _ => none

/-- The value that a spelling stands for where sentinels are understood. -/
def ofText (s : String) : Value :=
  match Sentinel.ofSpelling? s with
  | some x => sentinel x
  | none => text s

def markNull : Value → Value
  | null => sentinel .null
  | v => v

/-- Only sentinels have partners. -/
def negateIf (inverse : Bool) : Value → Value
  | sentinel s => sentinel (s.negateIf inverse)
  | v => v

/-- Whether the value has a text. Only a moment can lack one. -/
def expressible : Value → Bool
  | date m => m.expressible
  | _ => true

def display : Value → String
  | null => "null"
  | bool b => .ofList (Json.keyword b)
  | int n => .ofList (Json.integer n.toInt)
  | float x => x.display
  | text s => s
  | date m => m.text
  | sentinel s => s.spelling

/-- The name of the field that the value stands for as a first operand. -/
def fieldName : Value → String
  | text s => s
  | v => v.display

/-- Equality as the comparison operators see it: numbers by value, moments by instant. -/
def same : Value → Value → Bool
  | float x, float y => x.same y
  | date m, date m' => m.instant == m'.instant
  | v, w => v == w

def toJson : Value → Json
  | null => .null
  | bool b => .bool b
  | int n => .int n.toInt
  | float x => .float x
  | text s => .text s
  | date m => .text m.text
  | sentinel s => .text s.spelling

/-- An integer beyond 64 bits with a sign is read as the nearest floating-point number. -/
def ofInteger (n : Int) : Value :=
  if -9223372036854775808 ≤ n ∧ n ≤ 9223372036854775807 then int (.ofInt n)
  else float (.ofInt n)

/-- The value that a document without brackets stands for. -/
def ofJson? : Json → Option Value
  | .null => some null
  | .bool b => some (bool b)
  | .int n => some (ofInteger n)
  | .float x => some (float x)
  | .text s => some (ofText s)
  | .array _ | .object _ => none

def reader (room : Nat) : Json.Reader Value :=
  (Json.document .keep room).check fun j =>
    match ofJson? j with
    | some v => .ok v
    | none => .error (.mismatch (.noVariant "ValueWire"))

def read (s : String) : Except Json.Fault Value := (reader Json.nestingLimit).readAll s

end Value
end FilterAlgebra
