import FilterAlgebra.Tree.Basic

namespace FilterAlgebra

/-- A node as it is read, before its kind is known to exist. -/
inductive RawNode where
  | mk (kind : String) (field : Option String) (value : Option Value) (inner : List RawNode)

namespace RawNode

mutual

/-- The tree of a node. A connective takes its inner nodes, the first bad one deciding; a
comparison takes its field and value and ignores its inner nodes. -/
def toTree : RawNode → Except Json.Mismatch Tree
  | mk kind field value inner =>
    match Connective.ofSpelling? kind with
    | some c => do return .junction c (← toTrees inner)
    | none =>
      match Comparison.ofSpelling? kind with
      | none => .error (.unknownKind kind)
      | some op =>
        match field with
        | none => .error (.missingOperand op.spelling)
        | some f => .ok (.leaf ⟨f, op, value.getD .null⟩)

def toTrees : List RawNode → Except Json.Mismatch (List Tree)
  | [] => .ok []
  | n :: ns => do
    let t ← toTree n
    return t :: (← toTrees ns)

end

structure Partial where
  kind : Option String
  field : Option String
  value : Option Value
  inner : List RawNode

/-- A node inside brackets that may hold `room` more; `nodes` reads its inner nodes. -/
def record (room : Nat) (nodes : Json.Reader (List RawNode)) : Json.Record Partial RawNode where
  name := "ExpressionWire"
  fields := [
    .of "type" (.text .text) fun kind p => { p with kind := some kind },
    .of "dataField" (.optional (.text .text)) fun field p => { p with field },
    .of "value" (.optional (Value.reader room)) fun value p => { p with value },
    .of "predicates" nodes fun inner p => { p with inner }]
  blank := ⟨none, none, none, []⟩
  finish p :=
    match p.kind with
    | some kind => .ok (mk kind p.field p.value p.inner)
    | none => .error "type"

mutual

def reader : (room : Nat) → Json.Reader RawNode
  | 0 => (record 0 .refuse).reader 0
  | room + 1 => (record room (listReader room)).reader (room + 1)

def listReader : (room : Nat) → Json.Reader (List RawNode)
  | 0 => .sequence 0 .refuse
  | room + 1 => .sequence (room + 1) (reader room)

end
end RawNode

namespace Tree

mutual

def toJson : Tree → Json
  | leaf p => p.toJson
  | junction c ts => .object [("type", .text c.spelling), ("predicates", .array (listToJson ts))]

def listToJson : List Tree → List Json
  | [] => []
  | t :: ts => toJson t :: listToJson ts

end

def reader (room : Nat) : Json.Reader Tree :=
  (RawNode.reader room).check fun n =>
    match n.toTree with
    | .ok t => .ok t
    | .error m => .error (.mismatch m)

def read (s : String) : Except Json.Fault Tree := (reader Json.nestingLimit).readAll s

def text (t : Tree) : String := t.toJson.compact

end Tree

namespace Predicate

def reader (room : Nat) : Json.Reader Predicate :=
  (Tree.reader room).check fun
    | .leaf p => .ok p
    | .junction c _ => .error (.mismatch (.notPredicate c.spelling))

def read (s : String) : Except Json.Fault Predicate := (reader Json.nestingLimit).readAll s

def text (p : Predicate) : String := p.toJson.compact

end Predicate
end FilterAlgebra
