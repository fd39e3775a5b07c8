import FilterAlgebra.Config.Line
import FilterAlgebra.Failure

namespace FilterAlgebra

structure Config where
  /-- The deepest nesting that is accepted. -/
  maxDepth : Nat := 128
  /-- Whether the result of each stage is logged. -/
  traceStages : Bool := false
deriving DecidableEq, Repr

namespace Config

structure Given where
  maxDepth : Option Nat
  traceStages : Option Bool

def Given.put (g : Given) (s : Setting) : Option Given :=
  if s.key == "max_depth" && g.maxDepth.isNone then do
    return { g with maxDepth := some (← natural? s.value) }
  else if s.key == "trace_stages" && g.traceStages.isNone then do
    return { g with traceStages := some (← truth? s.value) }
  else none

def Given.putLine (g : Given) (line : List Char) : Option Given := do
  match ← setting? line with
  | some s => g.put s
  | none => return g

def Given.complete (g : Given) : Config :=
  ⟨g.maxDepth.getD 128, g.traceStages.getD false⟩

/-- A byte order mark may stand before the text. -/
def dropMark : List Char → List Char
  | '\ufeff' :: s => s
  | s => s

def read (s : String) : Except ConfigFailure Config :=
  match (lines (dropMark s.toList)).foldlM Given.putLine ⟨none, none⟩ with
  | some g => .ok g.complete
  | none => .error .invalid

def ofFile (path : String) (content : Except FileFault ByteArray) : Except ConfigFailure Config :=
  match content with
  | .error fault => .error (.unreadable path fault)
  | .ok bytes =>
    match String.fromUTF8? bytes with
    | none => .error (.unreadable path .notText)
    | some s => read s

end Config
end FilterAlgebra
