import FilterAlgebra.Proofs.Logging
import FilterAlgebra.Proofs.NormalForm

namespace FilterAlgebra

namespace Tree

open Form (nestingOfItems nestingOfItems_cons)

theorem depthOf_cons (t : Tree) (ts : List Tree) : depthOf (t :: ts) = max t.depth (depthOf ts) :=
  rfl

theorem depth_node {items : List Form} (hnodes : depthOf (nodes items) = nestingOfItems items) :
    (node items).depth = nestingOfItems items + 1 := by
  rw [node]
  cases htriple : Form.tripleOf? items with
  | none =>
    dsimp only
    rw [depth, hnodes]
  | some t =>
    -- There is no list in a triple.
    obtain ⟨o, c, v⟩ := t
    rw [Form.eq_of_tripleOf? htriple]
    rfl

theorem depthOf_nodes : (items : List Form) → depthOf (nodes items) = nestingOfItems items
  | [] => by rw [nodes_nil]; rfl
  | .value v :: xs => by simp [nestingOfItems_cons, depthOf_nodes xs, Form.nesting]
  | .token t :: xs => by simp [nestingOfItems_cons, depthOf_nodes xs, Form.nesting]
  | .list ys :: xs => by
    rw [nodes_list, depthOf_cons, nestingOfItems_cons, depth_node (depthOf_nodes ys),
      depthOf_nodes xs, Form.nesting]

theorem depth_parse_list (items : List Form) :
    (Form.parse (.list items)).depth =
      if (Form.tripleOf? (Form.normalItems false items)).isSome then 2
      else (Form.list items).depth := by
  have hnode := depth_node (depthOf_nodes (Form.normalItems false items))
  rw [Form.nestingOfItems_normalItems] at hnode
  rw [parse_list, Form.depth_eq_nesting, Form.nesting]
  cases htriple : Form.tripleOf? (Form.normalItems false items) with
  | none => exact hnode
  | some t =>
    -- The level that is made around the predicate is the second one.
    rw [node, htriple]
    rfl

theorem depth_parse (x : Form) :
    x.parse.depth = if x.normalize.triple?.isSome then 2 else max 1 x.depth := by
  cases x with
  | value v =>
    rw [parse_value, Form.depth_eq_nesting]
    rfl
  | token t =>
    rw [parse_token, Form.depth_eq_nesting]
    cases t <;> rfl
  | list items =>
    have hlevel : 1 ≤ (Form.list items).depth := by
      rw [Form.depth_eq_nesting, Form.nesting]
      omega
    rw [depth_parse_list, Form.normalize_list, Form.triple?, Nat.max_eq_right hlevel]

end Tree

theorem whenExpressible_ne_tooDeep {α : Type} (b : Bool) (a : α) (d l : ℕ) :
    whenExpressible b a ≠ .error (.tooDeep d l) := by
  cases b <;> exact nofun

namespace Config

variable {c : Config} {x : Form}

/-- The passage does not refuse the form for its depth, however else it ends. -/
def Accepts (c : Config) (x : Form) : Prop := ∀ d l, (c.parse x).result ≠ .error (.tooDeep d l)

theorem accepts_iff : c.Accepts x ↔ x.depth ≤ c.maxDepth := by
  rw [Accepts, result_parse_eq]
  by_cases hdepth : x.depth ≤ c.maxDepth
  · simp [hdepth, whenExpressible_ne_tooDeep]
  · simp [hdepth]

/-- The depth of a form is the depth of its normal form and of its tree, but for the levels that
have to be made. So what an accepted form is made into exceeds the limit by these levels at most. -/
theorem depth_of_stages :
    (∀ x : Form, x.normalize.depth = if x = .token .not then 1 else x.depth) ∧
      (∀ x : Form, x.parse.depth = if x.normalize.triple?.isSome then 2 else max 1 x.depth) ∧
      ∀ (c : Config) (x : Form), c.Accepts x →
        (c.normalize x).result = .ok x.normalize ∧ x.normalize.depth ≤ max c.maxDepth 1 ∧
          (∀ t, (c.parse x).result = .ok t → t = x.parse) ∧ x.parse.depth ≤ max c.maxDepth 2 := by
  refine ⟨Form.depth_normalize, Tree.depth_parse, fun c x hx => ?_⟩
  have hdepth := accepts_iff.1 hx
  refine ⟨?_, ?_, fun t ht => ?_, ?_⟩
  · rw [result_normalize, if_pos hdepth]
  · have hnormal := x.depth_normalize_le
    omega
  · obtain ⟨-, hparsed, -⟩ := parsed_of_result_parse ht
    rw [Form.parsed_eq, whenExpressible_eq_ok] at hparsed
    exact hparsed.2.symm
  · rw [Tree.depth_parse]
    split <;> omega

/-- A triple but for the mark in it, and a mark by itself: both exceed the limit as far as anything
can. -/
theorem depth_of_stages_atLimit : ∃ x : Form,
    x = .list [.value (.text "a"), .token .not, .token (.compare .equal), .value .null] ∧
      (⟨1, true⟩ : Config).Accepts x ∧ ((⟨1, true⟩ : Config).parse x).result = .ok x.parse ∧
      x.parse.depth = 2 ∧ x.parse.depth ≤ max 1 2 ∧
      (⟨0, false⟩ : Config).Accepts (.token .not) ∧
      ((⟨0, false⟩ : Config).normalize (.token .not)).result = .ok (.list []) ∧
      (Form.list []).depth = 1 ∧ (Form.list []).depth ≤ max 0 1 := by
  obtain ⟨hnormal, htree, hbound⟩ := depth_of_stages
  generalize hx :
    Form.list [.value (.text "a"), .token .not, .token (.compare .equal), .value .null] = x
  have hexpressible : x.expressible := by rw [← hx]; rfl
  have hdepth : x.depth ≤ 1 := by
    rw [← hx, Form.depth_eq_nesting]
    decide
  have htriple : x.normalize.triple?.isSome := by
    rw [← hx]
    cbv
  have htwo : x.parse.depth = 2 := by rw [htree, if_pos htriple]
  have haccepts : (⟨1, true⟩ : Config).Accepts x := accepts_iff.2 hdepth
  have hmark : (⟨0, false⟩ : Config).Accepts (.token .not) := by
    rw [accepts_iff, Form.depth_eq_nesting]
    exact Nat.le_refl 0
  obtain ⟨-, -, -, hlimit⟩ := hbound _ _ haccepts
  obtain ⟨hempty, hone, -⟩ := hbound _ _ hmark
  refine ⟨x, rfl, haccepts, ?_, htwo, hlimit, hmark, hempty, hnormal (.token .not), hone⟩
  rw [result_parse_of_expressible _ hexpressible, if_pos hdepth]

end Config
end FilterAlgebra
