import FilterAlgebra.Form.Basic

namespace FilterAlgebra.Form

mutual

/-- Depth by recursion: a list is one deeper than its deepest item, all else is flat. -/
def nesting : Form → Nat
  | list items => nestingOfItems items + 1
  | _ => 0

def nestingOfItems : List Form → Nat
  | [] => 0
  | x :: xs => Nat.max (nesting x) (nestingOfItems xs)

end

mutual

def size : Form → Nat
  | list items => sizeOfItems items + 1
  | _ => 1

def sizeOfItems : List Form → Nat
  | [] => 0
  | x :: xs => size x + sizeOfItems xs

end

/-- A part still to be visited, and the number of lists around it. -/
structure Pending where
  form : Form
  around : Nat

def pendingSize : List Pending → Nat
  | [] => 0
  | p :: stack => p.form.size + pendingSize stack

def pendingItems (items : List Form) (around : Nat) : List Pending := items.map (⟨·, around⟩)

theorem size_pos (x : Form) : 0 < x.size := by cases x <;> simp [size]

theorem pendingSize_append (s t : List Pending) :
    pendingSize (s ++ t) = pendingSize s + pendingSize t := by
  induction s with
  | nil => simp [pendingSize]
  | cons p s ih => simp only [List.cons_append, pendingSize, ih]; omega

theorem pendingSize_reverse (s : List Pending) : pendingSize s.reverse = pendingSize s := by
  induction s with
  | nil => rfl
  | cons p s ih => simp only [List.reverse_cons, pendingSize_append, pendingSize, ih]; omega

theorem pendingSize_pendingItems (items : List Form) (around : Nat) :
    pendingSize (pendingItems items around) = sizeOfItems items := by
  induction items with
  | nil => rfl
  | cons x xs ih =>
    rw [pendingItems] at ih ⊢
    simp only [List.map_cons, pendingSize, sizeOfItems, ih]

/-- Visits the part on top of the stack and puts the items of a list on top, the last one first
to be visited. -/
def depthFrom (stack : List Pending) (deepest : Nat) : Nat :=
  match stack with
  | [] => deepest
  | ⟨list items, around⟩ :: rest =>
    depthFrom ((pendingItems items (around + 1)).reverse ++ rest) (Nat.max deepest (around + 1))
  | _ :: rest => depthFrom rest deepest
termination_by pendingSize stack
decreasing_by
  · simp only [pendingSize_append, pendingSize_reverse, pendingSize_pendingItems, pendingSize, size]
    omega
  · simp only [pendingSize]
    exact Nat.lt_add_of_pos_left (size_pos _)

def depth (x : Form) : Nat := depthFrom [⟨x, 0⟩] 0

end FilterAlgebra.Form
