import FilterAlgebra.Pipeline

namespace FilterAlgebra

namespace Config

variable {c : Config}

theorem result_measure_bind (c : Config) (x : Form) (f : Nat → Run α) :
    (c.measure x >>= f).result =
      if x.depth ≤ c.maxDepth then (f x.depth).result
      else .error (.tooDeep x.depth c.maxDepth) := by
  rw [Run.result_bind, measure]
  split <;> rfl

theorem result_normalize (c : Config) (x : Form) :
    (c.normalize x).result =
      if x.depth ≤ c.maxDepth then .ok x.normalize else .error (.tooDeep x.depth c.maxDepth) :=
  result_measure_bind c x _

theorem result_parse (htrace : c.traceStages = false) (x : Form) :
    (c.parse x).result =
      if x.depth ≤ c.maxDepth then x.parsed else .error (.tooDeep x.depth c.maxDepth) := by
  rw [parse, result_measure_bind]
  congr 1
  simp only [trace, htrace]
  rw [Form.parsed]
  cases x.normalize.outlined <;> rfl

/-- A text is accepted when it is read, not too deep, and names every field. -/
theorem result_parseText_eq_ok (htrace : c.traceStages = false) {s : String} {t : Tree} :
    (c.parseText s).result = .ok t ↔
      ∃ x, Form.read s = .ok x ∧ x.depth ≤ c.maxDepth ∧ x.parsed = .ok t := by
  rw [parseText]
  cases Form.read s with
  | error f => simp [Run.fail]
  | ok x =>
    dsimp only
    rw [result_parse htrace]
    by_cases hdepth : x.depth ≤ c.maxDepth
    · simp [hdepth]
    · simp [hdepth]

end Config
end FilterAlgebra
