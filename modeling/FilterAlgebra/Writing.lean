import FilterAlgebra.Failure
import FilterAlgebra.Outline
import FilterAlgebra.Form.Text
import FilterAlgebra.Tree.Text

namespace FilterAlgebra

/-- A result that only something expressible has. -/
def whenExpressible (expressible : Bool) (a : α) : Except Failure α :=
  if expressible then .ok a else .error .inexpressible

theorem whenExpressible_eq_ok {b : Bool} {a r : α} :
    whenExpressible b a = .ok r ↔ b ∧ a = r := by
  cases b <;> simp [whenExpressible]

theorem map_whenExpressible (b : Bool) (a : α) (f : α → β) :
    (whenExpressible b a).map f = whenExpressible b (f a) := by
  unfold whenExpressible
  split <;> rfl

theorem whenExpressible_eq_error {b : Bool} {a : α} :
    whenExpressible b a = .error .inexpressible ↔ ¬ b := by
  cases b <;> simp [whenExpressible]

def Value.shown (v : Value) : Except Failure String := whenExpressible v.expressible v.display

def Value.written (v : Value) : Except Failure String :=
  whenExpressible v.expressible v.toJson.compact

def Form.written (x : Form) : Except Failure String := whenExpressible x.expressible x.text

def Form.outlined (x : Form) : Except Failure Outline :=
  whenExpressible x.fieldsExpressible (.ofForm x)

def Tree.written (t : Tree) : Except Failure String := whenExpressible t.expressible t.text

def Tree.writtenInLines (t : Tree) : Except Failure String :=
  whenExpressible t.expressible t.toJson.indented

end FilterAlgebra
