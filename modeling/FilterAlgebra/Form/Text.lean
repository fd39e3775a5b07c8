import FilterAlgebra.Form.Basic

namespace FilterAlgebra.Form

/-- What a string in a form stands for. -/
def ofText (s : String) : Form :=
  match Token.ofSpelling? s with
  | some t => token t
  | none => value (.ofText s)

mutual

def toJson : Form → Json
  | value v => v.toJson
  | token t => .text t.spelling
  | list items => .array (itemsToJson items)

def itemsToJson : List Form → List Json
  | [] => []
  | x :: xs => toJson x :: itemsToJson xs

end

mutual

def ofJson? : Json → Option Form
  | .text s => some (ofText s)
  | .array xs => (ofItems? xs).map list
  | .object _ => none
  | j => (Value.ofJson? j).map value

def ofItems? : List Json → Option (List Form)
  | [] => some []
  | j :: js =>
    match ofJson? j, ofItems? js with
    | some x, some xs => some (x :: xs)
    | _, _ => none

end

def reader (room : Nat) : Json.Reader Form :=
  (Json.document .keep room).check fun j =>
    match ofJson? j with
    | some x => .ok x
    | none => .error (.mismatch (.noVariant "IrWire"))

def read (s : String) : Except Json.Fault Form := (reader Json.nestingLimit).readAll s

def text (x : Form) : String := x.toJson.compact

end FilterAlgebra.Form
