import FilterAlgebra.Form.Basic

namespace FilterAlgebra

/-- Values to compare with. A null by itself is no value; a null among listed values is kept. -/
def Value.alone : Value → List Value
  | .null => []
  | v => [v]

namespace Form

def separated (c : Connective) (xs : List Form) : List Form := xs.intersperse (token (.join c))

/-- The triples of every field with every value, a field's triples standing together. -/
def triples (fields : List String) (c : Comparison) (values : List Value) : List Form :=
  fields.flatMap fun f => values.map fun v => triple f c v

def product (fields : List String) (c : Comparison) (values : List Value) : Form :=
  list (separated .or (triples fields c values))

/-- A null check looks for the null sentinel, whatever the values; any other comparison needs a
value. -/
def compare (fields : List String) (c : Comparison) (values : List Value) : Option Form :=
  match c with
  | .blank => some (product fields .equal [.sentinel .null])
  | .notBlank => some (product fields .notEqual [.sentinel .null])
  | c => if values.isEmpty then none else some (product fields c values)

def negate (x : Option Form) : Option Form := x.map fun x => list [token .not, x]

/-- The forms that are present, joined. One form by itself is left as it is. -/
def join (c : Connective) (xs : List (Option Form)) : Option Form :=
  match xs.filterMap id with
  | [] => none
  | [x] => some x
  | xs => some (list (separated c xs))

def conjoin (xs : List (Option Form)) : Option Form := join .and xs

def disjoin (xs : List (Option Form)) : Option Form := join .or xs

end Form

/-- A filter that grows step by step, each step standing before what is there already. -/
structure Filter where
  form : Option Form
deriving DecidableEq

namespace Filter

def empty : Filter := ⟨none⟩

def isEmpty (f : Filter) : Bool := f.form.isNone

def combine (c : Connective) (f : Filter) (incoming : Option Form) : Filter :=
  match incoming, f.form with
  | some x, some y => ⟨some (.list [x, .token (.join c), y])⟩
  | some x, none => ⟨some x⟩
  | none, y => ⟨y⟩

def and (f : Filter) (incoming : Option Form) : Filter := f.combine .and incoming

def or (f : Filter) (incoming : Option Form) : Filter := f.combine .or incoming

end Filter
end FilterAlgebra
