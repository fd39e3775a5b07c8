import FilterAlgebra.Writing

namespace FilterAlgebra

inductive AggregateOperation where
  | count | sum | max | min | avg
deriving DecidableEq, Repr

namespace AggregateOperation

def all : List AggregateOperation := [count, sum, max, min, avg]

def name : AggregateOperation → String
  | count => "count"
  | sum => "sum"
  | max => "max"
  | min => "min"
  | avg => "avg"

def ofName? (s : String) : Option AggregateOperation := all.find? (·.name == s)

def choice : Json.Choice AggregateOperation := all.map fun o => (o.name, .bare o)

end AggregateOperation

structure Aggregable where
  field : String
  operation : AggregateOperation
deriving DecidableEq, Repr

namespace Aggregable

def toJson (a : Aggregable) : Json :=
  .object [("dataField", .text a.field), ("operation", .text a.operation.name)]

structure Partial where
  field : Option String
  operation : Option AggregateOperation

def record (room : Nat) : Json.Record Partial Aggregable where
  name := "Aggregable"
  fields := [
    .of "dataField" (.text .text) fun field p => { p with field := some field },
    .of "operation" (AggregateOperation.choice.reader room) fun operation p =>
      { p with operation := some operation }]
  blank := ⟨none, none⟩
  finish p :=
    match p.field, p.operation with
    | none, _ => .error "dataField"
    | _, none => .error "operation"
    | some field, some operation => .ok ⟨field, operation⟩

def reader (room : Nat) : Json.Reader Aggregable := (record (room - 1)).reader room

def read (s : String) : Except Json.Fault Aggregable := (reader Json.nestingLimit).readAll s

def text (a : Aggregable) : String := a.toJson.compact

end Aggregable

structure Aggregation where
  field : String
  operation : AggregateOperation
  result : Binary64
deriving DecidableEq, Repr

namespace Aggregation

def toJson (a : Aggregation) : Json :=
  .object [("dataField", .text a.field), ("operation", .text a.operation.name),
    ("result", .float a.result)]

structure Partial where
  field : Option String
  operation : Option AggregateOperation
  result : Option Binary64

def record (room : Nat) : Json.Record Partial Aggregation where
  name := "Aggregation"
  fields := [
    .of "dataField" (.text .text) fun field p => { p with field := some field },
    .of "operation" (AggregateOperation.choice.reader room) fun operation p =>
      { p with operation := some operation },
    .of "result" .float fun result p => { p with result := some result }]
  blank := ⟨none, none, none⟩
  finish p :=
    match p.field, p.operation, p.result with
    | none, _, _ => .error "dataField"
    | _, none, _ => .error "operation"
    | _, _, none => .error "result"
    | some field, some operation, some result => .ok ⟨field, operation, result⟩

def reader (room : Nat) : Json.Reader Aggregation := (record (room - 1)).reader room

def read (s : String) : Except Json.Fault Aggregation := (reader Json.nestingLimit).readAll s

def text (a : Aggregation) : String := a.toJson.compact

end Aggregation

structure Payload where
  filterable : Option Tree
  aggregables : Option (List Aggregable)
deriving DecidableEq

namespace Payload

def empty : Payload := ⟨none, none⟩

def ofTree (t : Option Tree) : Payload := ⟨t, none⟩

/-- One more aggregate, asked for after those already there. -/
def withAggregable (p : Payload) (a : Aggregable) : Payload :=
  { p with aggregables := some (p.aggregables.getD [] ++ [a]) }

def toJson (p : Payload) : Json :=
  .object ((p.filterable.map fun t => ("filterable", t.toJson)).toList ++
    (p.aggregables.map fun as => ("aggregables", .array (as.map (·.toJson)))).toList)

def expressible (p : Payload) : Bool := p.filterable.all (·.expressible)

def record (room : Nat) : Json.Record Payload Payload where
  name := "Payload"
  fields := [
    .of "filterable" (.optional (Tree.reader room)) fun filterable p => { p with filterable },
    .of "aggregables" (.optional (.sequence room (Aggregable.reader (room - 1))))
      fun aggregables p => { p with aggregables }]
  blank := empty
  finish := .ok

def reader (room : Nat) : Json.Reader Payload := (record (room - 1)).reader room

def read (s : String) : Except Json.Fault Payload := (reader Json.nestingLimit).readAll s

def text (p : Payload) : String := p.toJson.compact

def written (p : Payload) : Except Failure String := whenExpressible p.expressible p.text

end Payload

/-- The answer to a query. Its pagination is a document of the caller's own shape. -/
structure ResultPage where
  pagination : Json
  aggregations : Option (List Aggregation)

namespace ResultPage

def result? (page : ResultPage) (field : String) (operation : AggregateOperation) :
    Option Binary64 :=
  ((page.aggregations.getD []).find? fun a => a.field == field && a.operation == operation).map
    (·.result)

def toJson (page : ResultPage) : Json :=
  .object (("pagination", page.pagination) ::
    (page.aggregations.map fun as => ("aggregations", .array (as.map (·.toJson)))).toList)

structure Partial where
  pagination : Option Json
  aggregations : Option (List Aggregation)

def record (room : Nat) : Json.Record Partial ResultPage where
  name := "ResultPage"
  fields := [
    .of "pagination" (Json.document .keep room) fun j p => { p with pagination := some j.sorted },
    .of "aggregations" (.optional (.sequence room (Aggregation.reader (room - 1))))
      fun aggregations p => { p with aggregations }]
  blank := ⟨none, none⟩
  finish p :=
    match p.pagination with
    | none => .error "pagination"
    | some pagination => .ok ⟨pagination, p.aggregations⟩

def reader (room : Nat) : Json.Reader ResultPage := (record (room - 1)).reader room

def read (s : String) : Except Json.Fault ResultPage := (reader Json.nestingLimit).readAll s

def text (page : ResultPage) : String := page.toJson.compact

end ResultPage
end FilterAlgebra
