import FilterAlgebra.Outline

namespace FilterAlgebra

inductive Tree where
  | leaf (p : Predicate)
  | junction (c : Connective) (children : List Tree)

namespace Tree

def connective? : Tree → Option Connective
  | leaf _ => none
  | junction c _ => some c

def predicate? : Tree → Option Predicate
  | leaf p => some p
  | junction _ _ => none

def isLeaf : Tree → Bool
  | leaf _ => true
  | junction _ _ => false

def children : Tree → List Tree
  | leaf _ => []
  | junction _ ts => ts

mutual

def leaves : Tree → List Predicate
  | leaf p => [p]
  | junction _ ts => leavesOf ts

def leavesOf : List Tree → List Predicate
  | [] => []
  | t :: ts => leaves t ++ leavesOf ts

end

mutual

def leafCount : Tree → Nat
  | leaf _ => 1
  | junction _ ts => leafCounts ts

def leafCounts : List Tree → Nat
  | [] => 0
  | t :: ts => leafCount t + leafCounts ts

end

mutual

/-- Nodes on the longest way down; a leaf by itself has depth one. -/
def depth : Tree → Nat
  | leaf _ => 1
  | junction _ ts => depthOf ts + 1

def depthOf : List Tree → Nat
  | [] => 0
  | t :: ts => Nat.max (depth t) (depthOf ts)

end

mutual

def same : Tree → Tree → Bool
  | leaf p, leaf q => p.same q
  | junction c ts, junction d us => c == d && sameAll ts us
  | _, _ => false

def sameAll : List Tree → List Tree → Bool
  | [], [] => true
  | t :: ts, u :: us => same t u && sameAll ts us
  | _, _ => false

end

mutual

def expressible : Tree → Bool
  | leaf p => p.expressible
  | junction _ ts => expressibleAll ts

def expressibleAll : List Tree → Bool
  | [] => true
  | t :: ts => expressible t && expressibleAll ts

end

mutual

def decEq : (t u : Tree) → Decidable (t = u)
  | leaf p, leaf q => if h : p = q then isTrue (h ▸ rfl) else isFalse fun e => h (by injection e)
  | junction c ts, junction d us =>
    if h : c = d then
      match decEqList ts us with
      | isTrue h' => isTrue (h ▸ h' ▸ rfl)
      | isFalse h' => isFalse fun e => h' (by injection e)
    else isFalse fun e => h (by injection e)
  | leaf _, junction _ _ | junction _ _, leaf _ => isFalse (by simp)

def decEqList : (ts us : List Tree) → Decidable (ts = us)
  | [], [] => isTrue rfl
  | t :: ts, u :: us =>
    match decEq t u, decEqList ts us with
    | isTrue h, isTrue h' => isTrue (h ▸ h' ▸ rfl)
    | isFalse h, _ => isFalse fun e => h (by injection e)
    | _, isFalse h => isFalse fun e => h (by injection e)
  | [], _ :: _ | _ :: _, [] => isFalse (by simp)

end

instance : DecidableEq Tree := decEq

mutual

/-- The truth of a tree where `holds` tells which predicates are true. -/
def eval (holds : Predicate → Bool) : Tree → Bool
  | leaf p => holds p
  | junction .and ts => evalAll holds ts
  | junction .or ts => evalAny holds ts

def evalAll (holds : Predicate → Bool) : List Tree → Bool
  | [] => true
  | t :: ts => eval holds t && evalAll holds ts

def evalAny (holds : Predicate → Bool) : List Tree → Bool
  | [] => false
  | t :: ts => eval holds t || evalAny holds ts

end

def levelConnective (items : List Outline) : Connective :=
  if items.any fun | .token (.join .and) => true | _ => false then .and else .or

def ofItems : List Outline → List Tree
  | [] => []
  | .level items :: xs => junction (levelConnective items) (ofItems items) :: ofItems xs
  | .predicate p :: xs => leaf p :: ofItems xs
  | .token _ :: xs => ofItems xs
  | .value _ :: xs => ofItems xs

def ofOutline : Outline → Tree
  | .level items => junction (levelConnective items) (ofItems items)
  | .predicate p => junction .or [leaf p]
  | .token _ | .value _ => junction .or []

end Tree
end FilterAlgebra
