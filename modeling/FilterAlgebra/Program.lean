import FilterAlgebra.Pipeline

namespace FilterAlgebra

/-- A program over the builders. -/
inductive Program where
  | absent
  /-- A form as it stands. -/
  | form (x : Form)
  /-- A form written in a text. -/
  | text (s : String)
  /-- A list that holds one form. -/
  | wrap (p : Program)
  | compare (fields : List String) (c : Comparison) (values : List Value)
  | compareSpelled (fields : List String) (operator : String) (values : List Value)
  | negate (p : Program)
  | join (c : Connective) (ps : List Program)
  /-- One step of a filter that grows: `incoming` is put before what is there already. -/
  | extend (c : Connective) (existing incoming : Program)
  /-- A program that is run after another one, whose form is dropped. -/
  | instead (dropped p : Program)

namespace Program

/-- A comparison; one without values is logged. -/
def runCompare (fields : List String) (c : Comparison) (values : List Value) :
    Run (Option Form) := do
  let x := Form.compare fields c values
  if x.isNone then Run.emit (.noValues c)
  return x

mutual

/-- The form that a program yields. Its parts are run from left to right, and the first failure
ends the run. -/
def run : Program → Run (Option Form)
  | absent => pure none
  | form x => pure (some x)
  | text s =>
    match Form.read s with
    | .ok x => pure (some x)
    | .error f => Run.fail (.unreadable f)
  | wrap p => do return (← run p).map fun x => .list [x]
  | compare fields c values => runCompare fields c values
  | compareSpelled fields operator values =>
    match Comparison.ofSpelling? operator with
    | some c => runCompare fields c values
    | none => Run.fail (.unknownOperator operator)
  | negate p => do return Form.negate (← run p)
  | join c ps => do return Form.join c (← runAll ps)
  | extend c existing incoming => do
    let f : Filter := ⟨← run existing⟩
    return (f.combine c (← run incoming)).form
  | instead dropped p => do
    let _ ← run dropped
    run p

def runAll : List Program → Run (List (Option Form))
  | [] => pure []
  | p :: ps => do
    let x ← run p
    return x :: (← runAll ps)

end

def evalCompare (holds : Predicate → Bool) (fields : List String) (c : Comparison)
    (values : List Value) : Option Bool :=
  match c with
  | .blank => some (fields.any fun f => holds ⟨f, .equal, .sentinel .null⟩)
  | .notBlank => some (fields.any fun f => holds ⟨f, .notEqual, .sentinel .null⟩)
  | c =>
    if values.isEmpty then none
    else some (fields.any fun f => values.any fun v => holds ⟨f, c, v.markNull⟩)

def evalJoin (c : Connective) (xs : List (Option Bool)) : Option Bool :=
  let present := xs.filterMap id
  if present.isEmpty then none
  else match c with
    | .and => some (present.all id)
    | .or => some (present.any id)

mutual

/-- The meaning of a program where `holds` tells which predicates are true. Forms that are given
as they stand have the truth of their trees. -/
def eval (holds : Predicate → Bool) : Program → Option Bool
  | absent => none
  | form x => some (x.parse.eval holds)
  | text s =>
    match Form.read s with
    | .ok x => some (x.parse.eval holds)
    | .error _ => none
  | wrap p => eval holds p
  | compare fields c values => evalCompare holds fields c values
  | compareSpelled fields operator values =>
    match Comparison.ofSpelling? operator with
    | some c => evalCompare holds fields c values
    | none => none
  | negate p => (eval holds p).map (! ·)
  | join c ps => evalJoin c (evalAll holds ps)
  | extend c existing incoming => evalJoin c [eval holds incoming, eval holds existing]
  | instead _ p => eval holds p

def evalAll (holds : Predicate → Bool) : List Program → List (Option Bool)
  | [] => []
  | p :: ps => eval holds p :: evalAll holds ps

end
end Program
end FilterAlgebra
