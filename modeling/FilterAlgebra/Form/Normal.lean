import FilterAlgebra.Form.Basic

namespace FilterAlgebra.Form

mutual

def markNulls : Form → Form
  | value v => value v.markNull
  | token t => token t
  | list items => list (markNullsIn items)

def markNullsIn : List Form → List Form
  | [] => []
  | x :: xs => markNulls x :: markNullsIn xs

end

/-- The items of a list without negation marks, where `inverse` tells whether an odd number of
marks reaches the first of them. -/
def pushDownItems : (inverse : Bool) → List Form → List Form
  | _, [] => []
  | inverse, token .not :: xs => pushDownItems (!inverse) xs
  | inverse, token t :: xs => token (t.negateIf inverse) :: pushDownItems inverse xs
  | inverse, value v :: xs => value (v.negateIf inverse) :: pushDownItems inverse xs
  | inverse, list ys :: xs => list (pushDownItems inverse ys) :: pushDownItems inverse xs

/-- Negation pushed down to operators and sentinels. A mark by itself negates nothing. -/
def pushDown : Form → Form
  | list items => list (pushDownItems false items)
  | token .not => list []
  | x => x

def normalize (x : Form) : Form := x.markNulls.pushDown

end FilterAlgebra.Form
