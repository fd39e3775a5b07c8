import FilterAlgebra.Decimal
import FilterAlgebra.Text.Debug

namespace FilterAlgebra.Json

inductive Found where
  | null
  | bool (b : Bool)
  | int (n : Int)
  | float (x : Binary64)
  | text (s : String)
  | sequence
  | map
  | bareVariant
deriving DecidableEq, Repr

def Found.describe : Found → String
  | null => "null"
  | bool b => "boolean `" ++ (if b then "true" else "false") ++ "`"
  | int n => "integer `" ++ toString n ++ "`"
  | float x => "floating point `" ++ .ofList x.numeral ++ "`"
  | text s => "string " ++ Text.debug s
  | sequence => "sequence"
  | map => "map"
  | bareVariant => "unit variant"

inductive Expected where
  | text
  | sequence
  | float
  | record (name : String)
  | unit
  | wrappingVariant
deriving DecidableEq, Repr

def Expected.describe : Expected → String
  | text => "a string"
  | sequence => "a sequence"
  | float => "f64"
  | record name => "struct " ++ name
  | unit => "unit"
  | wrappingVariant => "newtype variant"

/-- A document of the wrong shape. -/
inductive Mismatch where
  | wrongType (found : Found) (expected : Expected)
  | missingField (name : String)
  | duplicateField (name : String)
  | wrongLength (found : Nat) (record : String) (fields : Nat)
  | unknownVariant (name : String) (known : List String)
  | noVariant (choice : String)
  | unknownKind (kind : String)
  | missingOperand (operator : String)
  | notPredicate (connective : String)
deriving DecidableEq, Repr

/-- Names in quotes, two of them joined by a word, more of them listed. -/
def alternatives (names : List String) : String :=
  match names.map fun n => "`" ++ n ++ "`" with
  | [a] => a
  | [a, b] => a ++ " or " ++ b
  | many => "one of " ++ ", ".intercalate many

def Mismatch.message : Mismatch → String
  | wrongType found expected =>
    "invalid type: " ++ found.describe ++ ", expected " ++ expected.describe
  | missingField name => "missing field `" ++ name ++ "`"
  | duplicateField name => "duplicate field `" ++ name ++ "`"
  | wrongLength found record fields =>
    "invalid length " ++ toString found ++ ", expected struct " ++ record ++ " with " ++
      toString fields ++ " elements"
  | unknownVariant name known =>
    "unknown variant `" ++ name ++ "`, expected " ++ alternatives known
  | noVariant choice => "data did not match any variant of untagged enum " ++ choice
  | unknownKind kind => "unknown expression type '" ++ kind ++ "'"
  | missingOperand operator => "predicate '" ++ operator ++ "' is missing dataField"
  | notPredicate connective => "expected a predicate, found a '" ++ connective ++ "' node"

/-- Why a text was not read. -/
inductive Fault where
  | truncated
  | malformed
  | mismatch (m : Mismatch)
deriving DecidableEq, Repr

end FilterAlgebra.Json
