import FilterAlgebra.Proofs.Reread

namespace FilterAlgebra.Json

mutual

/-- The document that is read back. -/
def settled : Json → Json
  | float x => if x.isFinite then float x else null
  | array items => array (settledItems items)
  | object members => object (settledMembers members)
  | j => j

def settledItems : List Json → List Json
  | [] => []
  | x :: xs => settled x :: settledItems xs

def settledMembers : List (String × Json) → List (String × Json)
  | [] => []
  | (k, x) :: ms => (k, settled x) :: settledMembers ms

end

mutual

/-- The document with every number in it as its numeral is read. -/
def reread : Json → Json
  | float x => float x.reread
  | array items => array (rereadItems items)
  | object members => object (rereadMembers members)
  | j => j

def rereadItems : List Json → List Json
  | [] => []
  | x :: xs => reread x :: rereadItems xs

def rereadMembers : List (String × Json) → List (String × Json)
  | [] => []
  | (k, x) :: ms => (k, reread x) :: rereadMembers ms

end

mutual

def nesting : Json → Nat
  | array items => nestingOfItems items + 1
  | object members => nestingOfMembers members + 1
  | _ => 0

def nestingOfItems : List Json → Nat
  | [] => 0
  | x :: xs => max (nesting x) (nestingOfItems xs)

def nestingOfMembers : List (String × Json) → Nat
  | [] => 0
  | (_, x) :: ms => max (nesting x) (nestingOfMembers ms)

end

mutual

/-- All integers of the document have 64 bits. -/
def Writable : Json → Prop
  | int n => Fits n
  | array items => WritableItems items
  | object members => WritableMembers members
  | _ => True

def WritableItems : List Json → Prop
  | [] => True
  | x :: xs => Writable x ∧ WritableItems xs

def WritableMembers : List (String × Json) → Prop
  | [] => True
  | (_, x) :: ms => Writable x ∧ WritableMembers ms

end

theorem settled_reread_float (x : Binary64) :
    (float x).reread.settled = if x.isFinite then float x.reread else null := by
  rw [reread, settled, x.isFinite_reread]

mutual

/-- What is read back is written the same way. -/
theorem write_settled (l : Layout) (depth : Nat) :
    (j : Json) → (rest : List Char) → write l depth j.settled rest = write l depth j rest
  | null, _ | bool _, _ | int _, _ | text _, _ | array [], _ | object [], _ => rfl
  | float x, rest => by
    rw [settled, write]
    split
    · next hx => rw [write, if_pos hx]
    · rfl
  | array (x :: xs), rest => by
    rw [settled, settledItems, write, write, write_settled, writeItems_settled]
  | object ((k, x) :: ms), rest => by
    rw [settled, settledMembers, write, write, write_settled, writeMembers_settled]

theorem writeItems_settled (l : Layout) (depth : Nat) : (xs : List Json) → (rest : List Char) →
    writeItems l depth (settledItems xs) rest = writeItems l depth xs rest
  | [], _ => rfl
  | x :: xs, rest => by
    rw [settledItems, writeItems, writeItems, write_settled, writeItems_settled]

theorem writeMembers_settled (l : Layout) (depth : Nat) :
    (ms : List (String × Json)) → (rest : List Char) →
      writeMembers l depth (settledMembers ms) rest = writeMembers l depth ms rest
  | [], _ => rfl
  | (k, x) :: ms, rest => by
    rw [settledMembers, writeMembers, writeMembers, write_settled, writeMembers_settled]

end

end FilterAlgebra.Json
