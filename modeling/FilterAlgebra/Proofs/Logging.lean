import FilterAlgebra.Proofs.Operands
import FilterAlgebra.Proofs.Passage

namespace FilterAlgebra

theorem Form.outlined_of_parsed {x : Form} (h : x.parsed = .ok x.parse) :
    x.normalize.outlined = .ok (.ofForm x.normalize) := by
  rw [Form.parsed_eq, whenExpressible_eq_ok] at h
  exact if_pos h.1

namespace Config

variable {c : Config}

theorem result_trace (c : Config) (event : Except Failure Event) :
    (c.trace event).result = if c.traceStages then event.map fun _ => () else .ok () := by
  rw [trace]
  split
  · cases event <;> rfl
  · rfl

theorem result_parse_logged (htrace : c.traceStages) (x : Form) :
    (c.parse x).result =
      if x.depth ≤ c.maxDepth then whenExpressible x.expressible x.parse
      else .error (.tooDeep x.depth c.maxDepth) := by
  rw [parse, result_measure_bind]
  congr 1
  simp only [Run.result_bind, result_trace, htrace]
  by_cases hx : x.expressible
  · have hnormal : x.normalize.written = .ok x.normalize.text :=
      if_pos (x.expressible_normalize.trans hx)
    have houtline := Form.outlined_of_parsed (Form.parsed_of_expressible hx)
    have htree : (Tree.ofOutline (.ofForm x.normalize)).written = .ok x.parse.text :=
      if_pos (Tree.expressible_parse hx)
    simp only [hnormal, houtline, htree, Run.ofExcept, Except.map, bind, Except.bind]
    rw [whenExpressible, if_pos hx]
    rfl
  · -- The normal form is logged first, and it has no text.
    have hnormal : x.normalize.written = .error .inexpressible := by
      rw [Form.written, x.expressible_normalize, whenExpressible, if_neg hx]
    rw [hnormal, whenExpressible, if_neg hx]
    rfl

/-- Logged or not, the passage ends in the tree of the form, for the want of a text or at once. -/
theorem result_parse_eq (c : Config) (x : Form) :
    (c.parse x).result =
      if x.depth ≤ c.maxDepth then
        whenExpressible (if c.traceStages then x.expressible else x.normalize.fieldsExpressible)
          x.parse
      else .error (.tooDeep x.depth c.maxDepth) := by
  cases htrace : c.traceStages with
  | false => rw [result_parse htrace, Form.parsed_eq]; rfl
  | true => rw [result_parse_logged htrace]; rfl

theorem parsed_of_result_parse {x : Form} {t : Tree} (h : (c.parse x).result = .ok t) :
    x.depth ≤ c.maxDepth ∧ x.parsed = .ok t ∧ (c.traceStages → x.expressible) := by
  rw [result_parse_eq] at h
  split at h
  · next hdepth =>
    obtain ⟨hneeded, rfl⟩ := whenExpressible_eq_ok.1 h
    refine ⟨hdepth, ?_, ?_⟩
    · split at hneeded
      · exact Form.parsed_of_expressible hneeded
      · exact x.parsed_eq.trans (if_pos hneeded)
    · intro htrace
      rwa [if_pos htrace] at hneeded
  · cases h

theorem result_parse_of_expressible (c : Config) {x : Form} (hx : x.expressible) :
    (c.parse x).result =
      if x.depth ≤ c.maxDepth then .ok x.parse else .error (.tooDeep x.depth c.maxDepth) := by
  cases htrace : c.traceStages with
  | false => rw [result_parse htrace, Form.parsed_of_expressible hx]
  | true => rw [result_parse_logged htrace, whenExpressible, if_pos hx]

/-- The logged passage ends like the plain one, but for one thing more: it needs a text of every
value. The two differ exactly where the plain passage finds a tree and some value has no text. -/
theorem outcome_of_logging (m : ℕ) (x : Form) :
    ((⟨m, true⟩ : Config).parse x).result =
        ((⟨m, false⟩ : Config).parse x).result >>= whenExpressible x.expressible ∧
      (((⟨m, true⟩ : Config).parse x).result = ((⟨m, false⟩ : Config).parse x).result ↔
        x.expressible ∨ ∀ t, ((⟨m, false⟩ : Config).parse x).result ≠ .ok t) := by
  rw [result_parse_logged rfl, result_parse rfl, Form.parsed_eq]
  by_cases hdepth : x.depth ≤ m
  · rw [if_pos hdepth, if_pos hdepth]
    by_cases hx : x.expressible
    · have hnamed := Form.parsed_of_expressible hx
      rw [Form.parsed_eq, whenExpressible_eq_ok] at hnamed
      simp [whenExpressible, hx, hnamed.1, bind, Except.bind]
    · cases x.normalize.fieldsExpressible <;> simp [whenExpressible, hx, bind, Except.bind]
  · rw [if_neg hdepth, if_neg hdepth]
    simp [bind, Except.bind]

/-- Beside a comparison, a moment one second before the last writable year ends, on a clock that is
an hour behind. -/
def besideLateMoment : Form :=
  .list [.triple "a" .equal (.int 1), .token (.join .or),
    .value (.date (.ofWall ⟨9999, 12, 31⟩ 86399000000000 (-3600)))]

/-- A moment that no predicate holds is never written, unless the stages are logged. -/
theorem not_same_outcome_logged :
    ¬ ∀ (m : ℕ) (x : Form),
      ((⟨m, true⟩ : Config).parse x).result = ((⟨m, false⟩ : Config).parse x).result := by
  intro h
  have hdepth : besideLateMoment.depth ≤ 128 := by
    rw [Form.depth_eq_nesting]
    decide
  have hplain : ((⟨128, false⟩ : Config).parse besideLateMoment).result =
      .ok (.junction .or [.leaf ⟨"a", .equal, .int 1⟩]) := by
    rw [result_parse rfl, if_pos hdepth]
    cbv
  have hlogged : ((⟨128, true⟩ : Config).parse besideLateMoment).result =
      .error .inexpressible := by
    rw [result_parse_logged rfl, if_pos hdepth]
    decide +kernel
  rw [h, hplain] at hlogged
  cases hlogged

end Config
end FilterAlgebra
