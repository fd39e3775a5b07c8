import FilterAlgebra.Proofs.Decoded
import FilterAlgebra.Proofs.TreeDepth

namespace FilterAlgebra

namespace Tree

mutual

theorem nest_le : (t : Tree) → t.nest ≤ 2 * t.depth
  | leaf p => by
    rw [nest, depth]
    omega
  | junction c ts => by
    have hts := nestOf_le ts
    rw [nest, depth]
    omega

theorem nestOf_le : (ts : List Tree) → nestOf ts ≤ 2 * depthOf ts
  | [] => by
    rw [nestOf]
    exact Nat.zero_le _
  | t :: ts => by
    have ht := nest_le t
    have hts := nestOf_le ts
    rw [nestOf, depthOf_cons]
    omega

end

/-- A tree takes at most two brackets for each list around a part of its form, and at least what
a single predicate in a level of its own takes. -/
theorem nest_parse_le (x : Form) : x.parse.nest ≤ max 3 (2 * x.depth) := by
  cases htriple : x.normalize.triple? with
  | none =>
    have hnest := x.parse.nest_le
    rw [depth_parse, htriple, if_neg (by simp)] at hnest
    omega
  | some t =>
    have htree : x.parse = junction .or [leaf (Outline.ofTriple t)] := by
      rw [Form.parse, Outline.ofForm, htriple]
      simp [ofOutline, levelConnective, ofItems]
    rw [htree]
    exact Nat.le_max_left _ _

end Tree

namespace Form

/-- The items of a list that holds `n` lists inside one another and nothing else. -/
def tower : (n : ℕ) → List Form
  | 0 => []
  | n + 1 => [list (tower n)]

theorem valuesOf_tower (n : ℕ) : valuesOf (tower n) = [] := by
  induction n with
  | zero => rw [tower, valuesOf_nil]
  | succ n ih => rw [tower, valuesOf_list, ih, valuesOf_nil, List.append_nil]

theorem nestingOfItems_tower (n : ℕ) : nestingOfItems (tower n) = n := by
  induction n with
  | zero => rfl
  | succ n ih => rw [tower, nestingOfItems_cons, nesting, ih, nestingOfItems, Nat.max_zero]

theorem depth_list_tower (n : ℕ) : (list (tower n)).depth = n + 1 := by
  rw [depth_eq_nesting, nesting, nestingOfItems_tower]

theorem values_list_tower (n : ℕ) : (list (tower n)).values = [] := by
  rw [values, valuesOf_tower]

theorem read_text_tower {n : ℕ} (hn : n < 127) :
    read (list (tower n)).text = .ok (list (tower n)) := by
  have hdepth := depth_list_tower n
  apply read_text_of_plain
  · simp [values_list_tower]
  · simp [values_list_tower]
  · omega

theorem tripleOf?_tower (n : ℕ) : tripleOf? (tower n) = none := by cases n <;> rfl

theorem normalItems_tower (n : ℕ) : normalItems false (tower n) = tower n := by
  induction n with
  | zero => rw [tower, normalItems_nil]
  | succ n ih => rw [tower, normalItems_list, ih, normalItems_nil]

end Form

namespace Tree

theorem nest_node_tower (n : ℕ) : (node (Form.tower n)).nest = 2 * (n + 1) := by
  induction n with
  | zero => simp [node, Form.tower, Form.tripleOf?, nest, nestOf]
  | succ n ih =>
    rw [node, Form.tripleOf?_tower]
    dsimp only
    rw [Form.tower, nodes_list, nodes_nil, nest, nestOf, nestOf, ih]
    omega

theorem nest_parse_tower (n : ℕ) : (Form.parse (.list (Form.tower n))).nest = 2 * (n + 1) := by
  rw [parse_list, Form.normalItems_tower, Form.tripleOf?_tower]
  exact nest_node_tower n

end Tree

/-- The tree of a form that has been read is read back from a text of its own, if its numbers are
and the form is not too deep for it. -/
theorem Form.within_parse {s : String} {x : Form} (h : read s = .ok x)
    (hnumbers : ∀ v ∈ x.values, v.ReadsBack) (hdepth : x.depth ≤ 63) :
    Json.within 127 Tree.nest (fun t => t.reread.mapValues Value.canon) x.parse = .ok x.parse := by
  have hnest := Tree.nest_parse_le x
  rw [Json.within_of_le (by omega), Tree.reread_eq_self (readsBack_parse hnumbers),
    mapValues_canon_parse (plain_of_read h).1]

namespace Config

/-- Whether every tree made of a text is read back from its own text, as far as the numbers in the
text are read back from their numerals. -/
def ReadsBack (c : Config) : Prop :=
  ∀ s x t, Form.read s = .ok x → (∀ v ∈ x.values, v.ReadsBack) → (c.parseText s).result = .ok t →
    ∃ w, t.written = .ok w ∧ Tree.read w = .ok t

theorem readsBack_of_le {c : Config} (htrace : c.traceStages = false) (hlimit : c.maxDepth ≤ 63) :
    c.ReadsBack := by
  intro s x t hread hnumbers h
  obtain ⟨y, hread', hdepth, hparsed⟩ := (result_parseText_eq_ok htrace).1 h
  obtain rfl : x = y := Except.ok.inj (hread.symm.trans hread')
  have hexpressible := Form.expressible_of_read hread
  rw [Form.parsed_of_expressible hexpressible] at hparsed
  obtain rfl : x.parse = t := Except.ok.inj hparsed
  refine ⟨x.parse.text, if_pos (Tree.expressible_parse hexpressible), ?_⟩
  rw [Tree.read_text, Form.within_parse hread hnumbers (by omega)]

/-- Sixty-four lists are accepted where the limit allows them, but not the text of their tree. -/
theorem exists_unreadable_tree {c : Config} (htrace : c.traceStages = false)
    (hlimit : 63 < c.maxDepth) : ∃ s x t w, Form.read s = .ok x ∧ x.values = [] ∧
      (c.parseText s).result = .ok t ∧ t.written = .ok w ∧ Tree.read w = .error .malformed := by
  have hread : Form.read (Form.list (Form.tower 63)).text = .ok (Form.list (Form.tower 63)) :=
    Form.read_text_tower (by decide)
  have hdepth : (Form.list (Form.tower 63)).depth = 64 := Form.depth_list_tower 63
  have hnest : (Form.parse (.list (Form.tower 63))).nest = 128 := Tree.nest_parse_tower 63
  have hvalues : (Form.list (Form.tower 63)).values = [] := Form.values_list_tower 63
  have hexpressible := Form.expressible_of_read hread
  generalize Form.list (Form.tower 63) = x at hread hdepth hnest hvalues hexpressible
  refine ⟨x.text, x, x.parse, x.parse.text, hread, hvalues, ?_,
    if_pos (Tree.expressible_parse hexpressible), ?_⟩
  · exact (result_parseText_eq_ok htrace).2
      ⟨x, hread, by omega, Form.parsed_of_expressible hexpressible⟩
  · rw [Tree.read_text, Json.within_of_lt (by omega)]

/-- The limit up to which a tree's own text is as good as the tree. Above it some text is accepted
that has a tree of which this is not so. -/
theorem readsBack_iff (m : ℕ) :
    ((⟨m, false⟩ : Config).ReadsBack ↔ m ≤ 63) ∧
      (63 < m → ∃ s t w, ((⟨m, false⟩ : Config).parseText s).result = .ok t ∧
        t.written = .ok w ∧ Tree.read w = .error .malformed) := by
  have hexists (hlimit : 63 < m) := exists_unreadable_tree (c := ⟨m, false⟩) rfl hlimit
  refine ⟨⟨?_, fun hlimit => readsBack_of_le rfl hlimit⟩, fun hlimit => ?_⟩
  · intro hback
    by_contra hlimit
    obtain ⟨s, x, t, w, hx, hvalues, ht, hw, hread⟩ := hexists (Nat.lt_of_not_le hlimit)
    obtain ⟨w', hw', hread'⟩ := hback s x t hx (by simp [hvalues]) ht
    obtain rfl : w = w' := Except.ok.inj (hw.symm.trans hw')
    rw [hread] at hread'
    cases hread'
  · obtain ⟨s, x, t, w, -, -, hunreadable⟩ := hexists hlimit
    exact ⟨s, t, w, hunreadable⟩

/-- The limit that holds unless another one is given is too high. The largest one that is not lets
a text with a number through. -/
theorem readsBack_iff_default :
    ¬ ({} : Config).ReadsBack ∧ (∃ s t w, (({} : Config).parseText s).result = .ok t ∧
      t.written = .ok w ∧ Tree.read w = .error .malformed) ∧
    ∃ t w, ((⟨63, false⟩ : Config).parseText "[\"a\",\"=\",1.5]").result = .ok t ∧
      t.written = .ok w ∧ Tree.read w = .ok t := by
  obtain ⟨hiff, hexists⟩ := readsBack_iff 128
  refine ⟨fun h => absurd (hiff.1 h) (by decide), hexists (by decide), ?_⟩
  generalize hx : Form.triple "a" .equal (.float ⟨0x3ff8000000000000⟩) = x
  have hread : Form.read "[\"a\",\"=\",1.5]" = .ok x := by
    rw [← hx]
    decide +kernel
  have hnumbers : ∀ v ∈ x.values, v.ReadsBack := by
    rw [← hx]
    decide +kernel
  have hdepth : x.depth ≤ 63 := by
    rw [← hx, Form.depth_eq_nesting]
    decide
  have hexpressible := Form.expressible_of_read hread
  have h : ((⟨63, false⟩ : Config).parseText "[\"a\",\"=\",1.5]").result = .ok x.parse :=
    (result_parseText_eq_ok rfl).2 ⟨x, hread, hdepth, Form.parsed_of_expressible hexpressible⟩
  obtain ⟨w, hw⟩ := (readsBack_iff 63).1.2 le_rfl _ x _ hread hnumbers h
  exact ⟨_, w, h, hw⟩

end Config
end FilterAlgebra
