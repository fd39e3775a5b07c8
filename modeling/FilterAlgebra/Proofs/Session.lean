import FilterAlgebra.Proofs.Limit
import FilterAlgebra.Proofs.Reentry

namespace FilterAlgebra.Shell

theorem read_indented_parse {s : String} {x : Form} (h : Form.read s = .ok x)
    (hnumbers : ∀ v ∈ x.values, v.ReadsBack) (hdepth : x.depth ≤ 63) :
    Tree.read x.parse.toJson.indented = .ok x.parse := by
  rw [Tree.read_indented, Form.within_parse h hnumbers hdepth]

/-- An answer shows the normal form on its first line and the tree below the second one. However it
is cut there, both are found again in the texts, if the numbers in the line are read back from
their numerals and the form is not too deep for the text of its tree. -/
theorem answer_read_back {c : Config} {line out : String}
    (h : (evaluate c line).result = .ok out) :
    ∃ x, Form.read line = .ok x ∧
      (∃ N T, x.normalize.written = .ok N ∧ x.parse.writtenInLines = .ok T ∧ out = shown N T) ∧
      (x.depth ≤ 63 → (∀ v ∈ x.values, v.ReadsBack) → ∀ N T, out = shown N T →
        Form.read N = .ok x.normalize ∧ Tree.read T = .ok x.parse) := by
  obtain ⟨x, hread, -, rfl⟩ := result_evaluate_eq_ok.1 h
  have hexpressible := Form.expressible_of_read hread
  have hnormal : x.normalize.written = .ok x.normalize.text :=
    if_pos (x.expressible_normalize.trans hexpressible)
  have htree : x.parse.writtenInLines = .ok x.parse.toJson.indented :=
    if_pos (Tree.expressible_parse hexpressible)
  refine ⟨x, hread, ⟨_, _, hnormal, htree, rfl⟩, fun hdepth hnumbers N T hshown => ?_⟩
  -- The compact text has no line feed at all, so the first one in the answer ends it.
  have hline : '\n' ∉ x.normalize.text.toList := (Json.printed_compact _).not_mem (by decide)
  obtain ⟨rfl, rfl⟩ := shown_inj hline (noLineOpens_tree _) hshown.symm
  exact ⟨Form.read_text_normalize hread hnumbers, read_indented_parse hread hnumbers hdepth⟩

/-- A mark before a comparison of strings that look like parts of an answer, a comparison with a
number, and an empty list. -/
def quotedLine : String :=
  "[\"!\",[\"f\\n\x7d\\\"\",\"=\",\"\\ntree:\\n\"],\"or\",[\"f\",\"<\",1.5],\"or\",[]]"

theorem answer_read_back_quotedLine :
    ∃ N T t, (evaluate {} quotedLine).result = .ok (shown N T) ∧
      N = "[[\"f\\n\x7d\\\"\",\"<>\",\"\\ntree:\\n\"],\"and\",[\"f\",\">=\",1.5],\"and\",[]]" ∧
      Tree.read T = .ok t ∧
      t = .junction .and [.leaf ⟨"f\n\x7d\"", .notEqual, .text "\ntree:\n"⟩,
        .leaf ⟨"f", .atLeast, .float ⟨0x3ff8000000000000⟩⟩, .junction .or []] := by
  generalize hx : Form.list [.token .not, .triple "f\n\x7d\"" .equal (.text "\ntree:\n"),
    .token (.join .or), .triple "f" .less (.float ⟨0x3ff8000000000000⟩), .token (.join .or),
    .list []] = x
  have hread : Form.read quotedLine = .ok x := by
    rw [← hx]
    decide +kernel
  have hnumbers : ∀ v ∈ x.values, v.ReadsBack := by
    rw [← hx]
    decide +kernel
  have hdepth : x.depth ≤ 2 := by
    rw [← hx, Form.depth_eq_nesting]
    decide
  have hnormal : x.normalize = .list [.triple "f\n\x7d\"" .notEqual (.text "\ntree:\n"),
      .token (.join .and), .triple "f" .atLeast (.float ⟨0x3ff8000000000000⟩),
      .token (.join .and), .list []] := by
    rw [← hx]
    cbv
  have h : (evaluate {} quotedLine).result =
      .ok (shown x.normalize.text x.parse.toJson.indented) :=
    result_evaluate_eq_ok.2 ⟨x, hread, hdepth.trans (by decide), rfl⟩
  obtain ⟨y, hy, -, hback⟩ := answer_read_back h
  obtain rfl : x = y := Except.ok.inj (hread.symm.trans hy)
  obtain ⟨-, htree⟩ := hback (hdepth.trans (by decide)) hnumbers _ _ rfl
  refine ⟨_, _, _, h, ?_, htree, ?_⟩
  · rw [hnormal]
    decide +kernel
  · rw [← hx]
    cbv

def trimmed (line : String) : String := .ofList (Text.trim line.toList)

/-- What a line adds to standard output as long as the session goes on. -/
def printed (c : Config) (line : String) : String :=
  if trimmed line = "" then ""
  else
    match (evaluate c (trimmed line)).result with
    | .ok text => text ++ "\n"
    | .error _ => ""

variable {c : Config} {line : String}

end FilterAlgebra.Shell
