import FilterAlgebra.Value

namespace FilterAlgebra

structure Predicate where
  field : String
  operator : Comparison
  value : Value
deriving DecidableEq, Repr

namespace Predicate

def same (p q : Predicate) : Bool :=
  p.field == q.field && p.operator == q.operator && p.value.same q.value

def expressible (p : Predicate) : Bool := p.value.expressible

def toJson (p : Predicate) : Json :=
  .object [("type", .text p.operator.spelling), ("dataField", .text p.field),
    ("value", p.value.toJson)]

end Predicate
end FilterAlgebra
