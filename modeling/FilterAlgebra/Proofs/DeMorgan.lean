import FilterAlgebra.Proofs.Meaning
import FilterAlgebra.Proofs.Operands

namespace FilterAlgebra

/-- Two forms whose trees ask the same: the same predicates in the same order, with the same truth
whichever of them are true. If a field has no name, neither form has a tree. -/
structure Form.AsksSame (x y : Form) : Prop where
  leaves : x.parse.leaves = y.parse.leaves
  truth : ∀ holds, x.parse.eval holds = y.parse.eval holds
  parsed : x.parsed = .ok x.parse ∧ y.parsed = .ok y.parse ∨
    x.parsed = .error .inexpressible ∧ y.parsed = .error .inexpressible

namespace Form

theorem parsed_or_parsed {x y : Form}
    (h : x.normalize.fieldsExpressible = y.normalize.fieldsExpressible) :
    x.parsed = .ok x.parse ∧ y.parsed = .ok y.parse ∨
      x.parsed = .error .inexpressible ∧ y.parsed = .error .inexpressible := by
  rw [parsed_eq, parsed_eq, ← h]
  cases x.normalize.fieldsExpressible
  · exact .inr ⟨rfl, rfl⟩
  · exact .inl ⟨rfl, rfl⟩

theorem AsksSame.refl (x : Form) : AsksSame x x := ⟨rfl, fun _ => rfl, parsed_or_parsed rfl⟩

theorem asksSame_of_node {xs ys : List Form}
    (hleaves :
      (Tree.node (normalItems false xs)).leaves = (Tree.node (normalItems false ys)).leaves)
    (htruth : ∀ holds, (Tree.node (normalItems false xs)).eval holds =
      (Tree.node (normalItems false ys)).eval holds)
    (hnamed : fieldsExpressible (list (normalItems false xs)) =
      fieldsExpressible (list (normalItems false ys))) : AsksSame (list xs) (list ys) where
  leaves := by rw [Tree.leaves_parse_list, Tree.leaves_parse_list, hleaves]
  truth holds := by rw [Tree.eval_parse_list, Tree.eval_parse_list, htruth]
  parsed := parsed_or_parsed (by rw [normalize_list, normalize_list, hnamed])

end Form

namespace Tree

theorem leaves_node_separated (c : Connective) (ls : List (List Form)) :
    (node (Form.separated c (ls.map .list))).leaves = ls.flatMap fun l => (node l).leaves := by
  rw [node_separated, leaves, leavesOf_eq_flatMap, List.flatMap_map]

theorem leaves_node_singleton (items : List Form) :
    (node [.list items]).leaves = (node items).leaves := by
  have h := leaves_node_separated .or [items]
  simpa [Form.separated] using h

end Tree

namespace Form

theorem fieldsExpressible_singleton (items : List Form) :
    fieldsExpressible (list [list items]) = fieldsExpressible (list items) := by
  have h := fieldsExpressible_separated .or [items]
  simpa [separated] using h

def marked (items : List Form) : List Form := [token .not, list items]

theorem normalItems_marked (inverse : Bool) (items : List Form) :
    normalItems inverse (marked items) = [list (normalItems (!inverse) items)] := by
  simp [marked]

/-- A mark before joined lists, and joined lists with a mark before each of them. -/
theorem asksSame_separated (c : Connective) {ls : List (List Form)} (hne : ls ≠ []) :
    AsksSame (list (marked (separated c (ls.map list))))
      (list (separated c.negate ((ls.map marked).map list))) := by
  have hleft : normalItems false (marked (separated c (ls.map list))) =
      [list (separated c.negate ((ls.map (normalItems true)).map list))] := by
    rw [normalItems_marked, normalItems_separated]
    rfl
  have hright : normalItems false (separated c.negate ((ls.map marked).map list)) =
      separated c.negate ((ls.map fun l => [list (normalItems true l)]).map list) := by
    have hmarked : (ls.map marked).map (normalItems false) =
        ls.map fun l => [list (normalItems true l)] := by
      rw [List.map_map]
      exact List.map_congr_left fun l _ => normalItems_marked false l
    rw [normalItems_separated, hmarked]
    rfl
  -- The left side has one list around all the lists, the right side one around each of them.
  apply asksSame_of_node
  · rw [hleft, hright, Tree.leaves_node_singleton, Tree.leaves_node_separated,
      Tree.leaves_node_separated, List.flatMap_map, List.flatMap_map]
    simp only [Tree.leaves_node_singleton]
  · intro holds
    rw [hleft, hright, Tree.eval_node_singleton,
      Tree.eval_node_separated _ _ _ (by simpa using hne),
      Tree.eval_node_separated _ _ _ (by simpa using hne), List.map_map, List.map_map]
    simp only [Function.comp_def, Tree.eval_node_singleton]
  · rw [hleft, hright, fieldsExpressible_singleton, fieldsExpressible_separated,
      fieldsExpressible_separated, List.all_map, List.all_map]
    simp only [Function.comp_def, fieldsExpressible_singleton]

/-- Joining one form by itself leaves it as it is, and then both sides are the same form. -/
theorem exists_asksSame_join (c : Connective) {ls : List (List Form)} (hne : ls ≠ []) :
    ∃ y z, negate (join c (ls.map fun l => some (list l))) = some y ∧
      join c.negate (ls.map fun l => negate (some (list l))) = some z ∧ AsksSame y z := by
  have hleft : (ls.map fun l => some (list l)).filterMap id = ls.map list := by
    rw [List.filterMap_map]
    exact congrFun (List.filterMap_eq_map (f := list)) ls
  have hright :
      (ls.map fun l => negate (some (list l))).filterMap id = (ls.map marked).map list := by
    rw [List.filterMap_map, List.map_map]
    exact congrFun (List.filterMap_eq_map (f := list ∘ marked)) ls
  rcases ls with _ | ⟨l, _ | ⟨l', ls⟩⟩
  · exact absurd rfl hne
  · exact ⟨_, _, rfl, rfl, AsksSame.refl _⟩
  · rw [join, join, hleft, hright]
    exact ⟨_, _, rfl, rfl, asksSame_separated c hne⟩

/-- Whatever stands in the lists, negating all of them together asks what joining their negations
the other way asks. -/
theorem de_morgan {ls : List (List Form)} (hne : ls ≠ []) :
    (∃ y z, negate (conjoin (ls.map fun l => some (list l))) = some y ∧
      disjoin (ls.map fun l => negate (some (list l))) = some z ∧ AsksSame y z) ∧
    ∃ y z, negate (disjoin (ls.map fun l => some (list l))) = some y ∧
      conjoin (ls.map fun l => negate (some (list l))) = some z ∧ AsksSame y z :=
  ⟨exists_asksSame_join .and hne, exists_asksSame_join .or hne⟩

/-- A list that is a triple but for its mark, an empty list, and a list of both connectives and a
stray value. -/
def mixedOperands : List (List Form) :=
  [[value (.text "a"), token .not, token (.compare .equal), value .null], [],
    [triple "b" .less (.int 2), token (.join .and), triple "c" .contains (.text "x"),
      token (.join .or), value (.int 5)]]

theorem de_morgan_mixedOperands :
    mixedOperands ≠ [] ∧ ∃ y z,
      negate (conjoin (mixedOperands.map fun l => some (list l))) = some y ∧
      disjoin (mixedOperands.map fun l => negate (some (list l))) = some z ∧ AsksSame y z ∧
        z.parse.leaves = [⟨"a", .equal, .sentinel .null⟩, ⟨"b", .atLeast, .int 2⟩,
          ⟨"c", .notContains, .text "x"⟩] := by
  have hne : mixedOperands ≠ [] := by simp [mixedOperands]
  obtain ⟨⟨y, z, hy, hz, h⟩, -⟩ := de_morgan hne
  refine ⟨hne, y, z, hy, hz, h, ?_⟩
  obtain rfl : list (separated .or ((mixedOperands.map marked).map list)) = z := Option.some.inj hz
  cbv

end Form
end FilterAlgebra
