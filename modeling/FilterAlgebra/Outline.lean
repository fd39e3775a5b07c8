import FilterAlgebra.Form.Basic
import FilterAlgebra.Predicate

namespace FilterAlgebra

/-- An array form whose triples have become predicates. Its tokens still show the connective of each
level. -/
inductive Outline where
  | predicate (p : Predicate)
  | token (t : Token)
  | value (v : Value)
  | level (items : List Outline)

namespace Outline

def level? : Outline → Option (List Outline)
  | level items => some items
  | _ => none

def predicate? : Outline → Option Predicate
  | predicate p => some p
  | _ => none

mutual

def predicateCount : Outline → Nat
  | predicate _ => 1
  | level items => predicateCounts items
  | _ => 0

def predicateCounts : List Outline → Nat
  | [] => 0
  | x :: xs => predicateCount x + predicateCounts xs

end

def ofTriple : Value × Comparison × Value → Predicate
  | (f, c, v) => ⟨f.fieldName, c, v⟩

mutual

/-- A form inside a list: a triple becomes a bare predicate. -/
def ofItem : Form → Outline
  | .value v => value v
  | .token t => token t
  | .list items =>
    match Form.tripleOf? items with
    | some t => predicate (ofTriple t)
    | none => level (ofItems items)

def ofItems : List Form → List Outline
  | [] => []
  | x :: xs => ofItem x :: ofItems xs

end

/-- A whole form: a triple by itself makes a level of one predicate. -/
def ofForm (x : Form) : Outline :=
  match x.triple? with
  | some t => level [predicate (ofTriple t)]
  | none => ofItem x

end Outline

namespace Form

mutual

/-- Whether every field that a triple names has a text. -/
def fieldsExpressible : Form → Bool
  | list items =>
    match tripleOf? items with
    | some (f, _, _) => f.expressible
    | none => fieldsExpressibleIn items
  | _ => true

def fieldsExpressibleIn : List Form → Bool
  | [] => true
  | x :: xs => fieldsExpressible x && fieldsExpressibleIn xs

end
end Form
end FilterAlgebra
