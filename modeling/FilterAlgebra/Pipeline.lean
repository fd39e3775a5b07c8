import FilterAlgebra.Config
import FilterAlgebra.Run
import FilterAlgebra.Builder
import FilterAlgebra.Form.Depth
import FilterAlgebra.Form.Normal
import FilterAlgebra.Tree.Basic
import FilterAlgebra.Writing

namespace FilterAlgebra

namespace Form

def parse (x : Form) : Tree := .ofOutline (.ofForm x.normalize)

/-- The tree of a form whose fields all have names. -/
def parsed (x : Form) : Except Failure Tree := x.normalize.outlined.map .ofOutline

theorem parsed_eq (x : Form) :
    x.parsed = whenExpressible x.normalize.fieldsExpressible x.parse := by
  unfold parsed outlined whenExpressible
  split <;> rfl

end Form

namespace Filter

def parse (f : Filter) : Option Tree := f.form.map Form.parse

def parsed (f : Filter) : Except Failure (Option Tree) := f.form.mapM Form.parsed

end Filter

namespace Config

/-- The depth of a form that is not too deep. -/
def measure (c : Config) (x : Form) : Run Nat :=
  if x.depth ≤ c.maxDepth then pure x.depth
  else do
    Run.emit (.tooDeep x.depth c.maxDepth)
    Run.fail (.tooDeep x.depth c.maxDepth)

def normalize (c : Config) (x : Form) : Run Form := do
  let _ ← c.measure x
  return x.normalize

/-- Logs the result of a stage, if stages are logged. -/
def trace (c : Config) (event : Except Failure Event) : Run Unit :=
  if c.traceStages then Run.ofExcept event >>= Run.emit else pure ()

def parse (c : Config) (x : Form) : Run Tree := do
  let depth ← c.measure x
  Run.emit (.parsing depth x.tripleCount)
  let normal := x.normalize
  c.trace (normal.written.map .normalized)
  let outline ← Run.ofExcept normal.outlined
  c.trace (.ok (.outlined outline.predicateCount))
  let tree := Tree.ofOutline outline
  c.trace (tree.written.map .assembled)
  Run.emit (.parsed tree.leafCount tree.depth)
  return tree

/-- The tree of a form that is written in a text. -/
def parseText (c : Config) (s : String) : Run Tree :=
  match Form.read s with
  | .ok x => c.parse x
  | .error f => Run.fail (.unreadable f)

end Config
end FilterAlgebra
