import FilterAlgebra.Value

namespace FilterAlgebra

/-- The array form of a filter: values and tokens in nested lists, their meaning in position alone. -/
inductive Form where
  | value (v : Value)
  | token (t : Token)
  | list (items : List Form)

namespace Form

mutual

def decEq : (x y : Form) → Decidable (x = y)
  | value v, value w => if h : v = w then isTrue (h ▸ rfl) else isFalse fun e => h (by injection e)
  | token t, token u => if h : t = u then isTrue (h ▸ rfl) else isFalse fun e => h (by injection e)
  | list xs, list ys =>
    match decEqList xs ys with
    | isTrue h => isTrue (h ▸ rfl)
    | isFalse h => isFalse fun e => h (by injection e)
  | value _, token _ | value _, list _ | token _, value _ | token _, list _ | list _, value _
  | list _, token _ => isFalse (by simp)

def decEqList : (xs ys : List Form) → Decidable (xs = ys)
  | [], [] => isTrue rfl
  | x :: xs, y :: ys =>
    match decEq x y, decEqList xs ys with
    | isTrue h, isTrue h' => isTrue (h ▸ h' ▸ rfl)
    | isFalse h, _ => isFalse fun e => h (by injection e)
    | _, isFalse h => isFalse fun e => h (by injection e)
  | [], _ :: _ | _ :: _, [] => isFalse (by simp)

end

instance : DecidableEq Form := decEq

def items? : Form → Option (List Form)
  | list items => some items
  | _ => none

def triple (field : String) (c : Comparison) (v : Value) : Form :=
  list [value (.text field), token (.compare c), value v]

/-- The parts of a list that is a triple. -/
def tripleOf? : List Form → Option (Value × Comparison × Value)
  | [value f, token (.compare c), value v] => some (f, c, v)
  | _ => none

def triple? : Form → Option (Value × Comparison × Value)
  | list items => tripleOf? items
  | _ => none

def hasJoin (c : Connective) : Form → Bool
  | list items => items.any fun x => x == token (.join c)
  | _ => false

mutual

def tripleCount : Form → Nat
  | list items => if (tripleOf? items).isSome then 1 else tripleCounts items
  | _ => 0

def tripleCounts : List Form → Nat
  | [] => 0
  | x :: xs => tripleCount x + tripleCounts xs

end

mutual

/-- Equality as the comparison operators see it. -/
def same : Form → Form → Bool
  | value v, value w => v.same w
  | token t, token u => t == u
  | list xs, list ys => sameItems xs ys
  | _, _ => false

def sameItems : List Form → List Form → Bool
  | [], [] => true
  | x :: xs, y :: ys => same x y && sameItems xs ys
  | _, _ => false

end

mutual

/-- Whether every value in the form has a text. -/
def expressible : Form → Bool
  | value v => v.expressible
  | token _ => true
  | list items => expressibleItems items

def expressibleItems : List Form → Bool
  | [] => true
  | x :: xs => expressible x && expressibleItems xs

end
end Form
end FilterAlgebra
