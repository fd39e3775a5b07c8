import FilterAlgebra.Pipeline
import FilterAlgebra.Text.Blank
import FilterAlgebra.Text.Correction

namespace FilterAlgebra

def version : String := "0.4.0"

namespace Shell

def banner : String := "datafilter " ++ version ++ " (:q to quit)"

/-- The answer to a line that holds an array form. -/
def evaluate (c : Config) (line : String) : Run String :=
  match Form.read line with
  | .error f => Run.fail (.unreadable f)
  | .ok x => do
    let normal ← Run.ofExcept (← c.normalize x).written
    let tree ← Run.ofExcept (← c.parse x).writtenInLines
    return "normalized: " ++ normal ++ "\ntree:\n" ++ tree

inductive Command where
  | nothing
  | quit
  | evaluate (line : String)
deriving DecidableEq, Repr

/-- White space around a line does not count. -/
def Command.ofLine (line : String) : Command :=
  let s := Text.trim line.toList
  if s.isEmpty then nothing
  else if s = [':', 'q'] ∨ s = [':', 'q', 'u', 'i', 't'] then quit
  else evaluate (.ofList s)

inductive Answer where
  | printed (text : String)
  | refused (failure : Failure)
deriving DecidableEq, Repr

def answer (c : Config) (line : String) : Answer :=
  match (evaluate c line).result with
  | .ok text => .printed text
  | .error f => .refused f

def answers (c : Config) : List String → List Answer
  | [] => []
  | line :: lines =>
    match Command.ofLine line with
    | .nothing => answers c lines
    | .quit => []
    | .evaluate s => answer c s :: answers c lines

def Answer.output : Answer → String
  | printed text => text ++ "\n"
  | refused _ => ""

def Answer.isRefused : Answer → Bool
  | printed _ => false
  | refused _ => true

/-- Everything that a session prints on standard output. -/
def output (c : Config) (lines : List String) : String :=
  banner ++ "\n" ++ String.join ((answers c lines).map Answer.output)

/-- The lines of an input. A line feed ends a line; what is left at the end is a line too. -/
def splitLines : List Char → List String
  | [] => []
  | s@(_ :: _) => go s []
where
  go : List Char → List Char → List String
    | [], line => if line.isEmpty then [] else [.ofList line.reverse]
    | '\n' :: s, line => .ofList line.reverse :: go s []
    | c :: s, line => go s (c :: line)

/-- The lines of an input as corrected by the one who typed them. -/
def typedLines (input : List Char) : List (Option String) :=
  (splitLines input).map fun line => (Text.correct? line.toList).map .ofList

/-- The lines that the shell gets to see: those before the first one without a correction. -/
def handedOver : List (Option String) → List String
  | some line :: lines => line :: handedOver lines
  | none :: _ | [] => []

/-- Whether a session ends in order: no line lacks a correction, or a quit line comes before. -/
def endsInOrder (lines : List (Option String)) : Bool :=
  lines.all (·.isSome) || (handedOver lines).any fun line => Command.ofLine line == .quit

end Shell
end FilterAlgebra
