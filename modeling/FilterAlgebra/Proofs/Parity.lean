import Mathlib.Data.Nat.Bits
import FilterAlgebra.Form.Normal

namespace FilterAlgebra.Form

def isMark (x : Form) : Bool := x == token .not

/-- The part at the end of a path. A step of a path is the index of an item. -/
def at? (x : Form) : (path : List Nat) → Option Form
  | [] => some x
  | i :: path =>
    match x with
    | list items => items[i]?.bind (at? · path)
    | _ => none

/-- What a part becomes, its inside not looked at, if its values are first read by `read`. -/
def Becomes (read : Value → Value) (inverse : Bool) : Form → Form → Prop
  | value v, y => y = value ((read v).negateIf inverse)
  | token t, y => y = token (t.negateIf inverse)
  | list items, y => ∃ items', y = list items' ∧ items'.length = items.countP (!isMark ·)

theorem at?_cons_eq_some {x e : Form} {i : Nat} {path : List Nat} :
    x.at? (i :: path) = some e ↔
      ∃ items y, x = list items ∧ items[i]? = some y ∧ y.at? path = some e := by
  cases x with
  | value v => simp [at?]
  | token t => simp [at?]
  | list items => simp [at?, Option.bind_eq_some_iff]

/-- One mark reaches the first triple and the `and`, two marks reach the second triple. -/
example : pushDown (list [token .not, triple "a" .equal (.int 1), token (.join .and),
      list [token .not, triple "b" .less (.sentinel .null)]]) =
    list [triple "a" .notEqual (.int 1), token (.join .or),
      list [triple "b" .less (.sentinel .null)]] := by
  cbv

end FilterAlgebra.Form
