import FilterAlgebra.Shell
import FilterAlgebra.Proofs.Decoded
import FilterAlgebra.Proofs.Lines
import FilterAlgebra.Proofs.Logging
import FilterAlgebra.Proofs.NormalForm

namespace FilterAlgebra

namespace Form

variable {x : Form}

theorem plain_normalize (hx : ∀ v ∈ x.values, v.Plain) : ∀ v ∈ x.normalize.values, v.Plain := by
  intro v hv
  obtain ⟨w, hw, inverse, rfl⟩ := exists_of_mem_normalize hv
  exact (hx w hw).marked inverse

theorem readsBack_normalize (hx : ∀ v ∈ x.values, v.ReadsBack) :
    ∀ v ∈ x.normalize.values, v.ReadsBack := by
  intro v hv
  obtain ⟨w, hw, inverse, rfl⟩ := exists_of_mem_normalize hv
  exact (hx w hw).marked inverse

theorem read_text_normalize {s : String} (h : read s = .ok x)
    (hnumbers : ∀ v ∈ x.values, v.ReadsBack) : read x.normalize.text = .ok x.normalize := by
  obtain ⟨hplain, hroom⟩ := plain_of_read h
  have hnormal := x.depth_normalize_le
  exact read_text_of_plain (plain_normalize hplain) (readsBack_normalize hnumbers) (by omega)

end Form

namespace Shell

/-- The answer that shows a normal form and a tree. -/
def shown (normal tree : String) : String := "normalized: " ++ normal ++ "\ntree:\n" ++ tree

/-- Whatever is logged, what is read is answered unless it is too deep. -/
theorem result_evaluate (c : Config) (s : String) :
    (evaluate c s).result =
      match Form.read s with
      | .error f => .error (.unreadable f)
      | .ok x =>
        if x.depth ≤ c.maxDepth then .ok (shown x.normalize.text x.parse.toJson.indented)
        else .error (.tooDeep x.depth c.maxDepth) := by
  unfold evaluate
  cases hread : Form.read s with
  | error f => rfl
  | ok x =>
    have hx := Form.expressible_of_read hread
    have hnormal : x.normalize.written = .ok x.normalize.text :=
      if_pos (x.expressible_normalize.trans hx)
    have htree : x.parse.writtenInLines = .ok x.parse.toJson.indented :=
      if_pos (Tree.expressible_parse hx)
    simp only [Run.result_bind, Config.result_normalize, Config.result_parse_of_expressible c hx]
    by_cases hdepth : x.depth ≤ c.maxDepth
    · simp only [if_pos hdepth, pure, Run.ofExcept, bind, Except.bind, hnormal, htree]
      rfl
    · simp only [if_neg hdepth]
      rfl

theorem result_evaluate_eq_ok {c : Config} {s out : String} :
    (evaluate c s).result = .ok out ↔
      ∃ x, Form.read s = .ok x ∧ x.depth ≤ c.maxDepth ∧
        shown x.normalize.text x.parse.toJson.indented = out := by
  rw [result_evaluate]
  cases Form.read s with
  | error f => simp
  | ok x => by_cases hdepth : x.depth ≤ c.maxDepth <;> simp [hdepth]

/-- The text of a tree starts with a brace, and no line of it starts with a letter. -/
theorem noLineOpens_tree (t : Tree) :
    Json.NoLineOpens 't' ('\n' :: t.toJson.indented.toList) := by
  have hlines := Json.noLineOpens_indented (c := 't') (by decide) (by decide) (by decide) t.toJson
  obtain ⟨s, hs⟩ : ∃ s, t.toJson.indented.toList = '{' :: s := by
    rw [Json.indented, String.toList_ofList]
    cases t with
    | leaf p => exact ⟨_, rfl⟩
    | junction c ts => exact ⟨_, rfl⟩
  rw [hs] at hlines ⊢
  exact hlines.lineFeed (by decide)

/-- The two parts of an answer can be told apart: the normal form ends where the first line does,
and no later line starts like the one below it. -/
theorem shown_inj {N T N₀ T₀ : String} (hN₀ : '\n' ∉ N₀.toList)
    (hT₀ : Json.NoLineOpens 't' ('\n' :: T₀.toList)) (h : shown N T = shown N₀ T₀) :
    N = N₀ ∧ T = T₀ := by
  have hbreak (U : String) : ("\ntree:\n" ++ U).toList =
      '\n' :: 't' :: ("ree:".toList ++ '\n' :: U.toList) := by
    rw [String.toList_append]
    rfl
  have h : N.toList ++ ("\ntree:\n" ++ T).toList = N₀.toList ++ ("\ntree:\n" ++ T₀).toList := by
    simpa [shown] using congrArg String.toList h
  -- If `N` were the shorter one, `N₀` would hold the line break after it, and if it were the longer
  -- one, a line of `T₀` would open with the heading after it.
  have hN : N.toList = N₀.toList := by
    rcases List.append_eq_append_iff.1 h with ⟨a, ha, htail⟩ | ⟨a, ha, htail⟩
    · cases a with
      | nil => simpa using ha.symm
      | cons b a =>
        rw [hbreak, List.cons_append, List.cons.injEq] at htail
        simp [ha, ← htail.1] at hN₀
    · cases a with
      | nil => simpa using ha
      | cons b a =>
        rw [hbreak, hbreak, List.cons_append, List.cons.injEq] at htail
        have hlines : Json.NoLineOpens 't' ("tree:".toList ++ '\n' :: T₀.toList) :=
          hT₀.printed_append (by simp [Json.Printed])
        change Json.NoLineOpens 't' ('t' :: ("ree:".toList ++ '\n' :: T₀.toList)) at hlines
        rw [htail.2] at hlines
        exact absurd rfl ((List.isChain_append_cons_cons.1 hlines).2.1 rfl)
  rw [hN, List.append_cancel_left_eq, String.toList_append, String.toList_append,
    List.append_cancel_left_eq] at h
  exact ⟨String.toList_inj.1 hN, String.toList_inj.1 h⟩

/-- The normal form in an answer stands on one line, and entering it gets the same answer, if the
numbers in the line are read back from their numerals. A limit of no lists at all would refuse the
empty list that a mark by itself is answered with. -/
theorem same_answer_again {c : Config} (hlimit : 1 ≤ c.maxDepth) {s out : String}
    (h : (evaluate c s).result = .ok out) :
    (∃ N T, out = shown N T) ∧ ∀ N T, out = shown N T →
      '\n' ∉ N.toList ∧ '\r' ∉ N.toList ∧
        ((∀ x, Form.read s = .ok x → ∀ v ∈ x.values, v.ReadsBack) →
          (evaluate c N).result = .ok out) := by
  obtain ⟨x, hread, hdepth, rfl⟩ := result_evaluate_eq_ok.1 h
  refine ⟨⟨_, _, rfl⟩, fun N T hshown => ?_⟩
  have hprinted : Json.Printed x.normalize.text.toList := Json.printed_compact _
  have hline : '\n' ∉ x.normalize.text.toList := hprinted.not_mem (by decide)
  obtain ⟨rfl, rfl⟩ := shown_inj hline (noLineOpens_tree _) hshown.symm
  refine ⟨hline, hprinted.not_mem (by decide), fun hnumbers => ?_⟩
  have hnormal := x.depth_normalize_le
  have hback := Form.read_text_normalize hread (hnumbers x hread)
  refine result_evaluate_eq_ok.2 ⟨_, hback, by omega, ?_⟩
  rw [Form.normalize_normalize, Form.parse_normalize]

/-- A line with blanks, an escape, a mark, a plain null and a zero at the end of a number, none of
which is in the answer. -/
def markedLine : String := " [ \"!\", [\"\\u0066\", \"=\", null], [\"f\", \"<\", 1.50] ] "

theorem same_answer_again_markedLine :
    ∃ N T, N = "[[\"f\",\"<>\",\"@notnull\"],[\"f\",\">=\",1.5]]" ∧
      (evaluate ⟨2, true⟩ markedLine).result = .ok (shown N T) ∧
      (evaluate ⟨2, true⟩ N).result = .ok (shown N T) := by
  generalize hx : Form.list [.token .not, .triple "f" .equal .null,
    .triple "f" .less (.float ⟨0x3ff8000000000000⟩)] = x
  have hread : Form.read markedLine = .ok x := by
    rw [← hx]
    decide +kernel
  have hnumbers : ∀ v ∈ x.values, v.ReadsBack := by
    rw [← hx]
    decide +kernel
  have hdepth : x.depth ≤ 2 := by
    rw [← hx, Form.depth_eq_nesting]
    decide
  have hnormal : x.normalize = .list [.triple "f" .notEqual (.sentinel .notNull),
      .triple "f" .atLeast (.float ⟨0x3ff8000000000000⟩)] := by
    rw [← hx]
    cbv
  have h : (evaluate ⟨2, true⟩ markedLine).result =
      .ok (shown x.normalize.text x.parse.toJson.indented) :=
    result_evaluate_eq_ok.2 ⟨x, hread, hdepth, rfl⟩
  obtain ⟨-, hagain⟩ := same_answer_again (by decide) h
  refine ⟨_, _, ?_, h, (hagain _ _ rfl).2.2 fun y hy => ?_⟩
  · rw [hnormal]
    decide +kernel
  · obtain rfl : x = y := Except.ok.inj (hread.symm.trans hy)
    exact hnumbers

end Shell
end FilterAlgebra
