import Mathlib.Data.List.ProdSigma
import FilterAlgebra.Proofs.Meaning

namespace FilterAlgebra

namespace Comparison

/-- The operator that is asked for. A null check is an equation with the null sentinel, or its
contrary. -/
def lowered : Comparison → Comparison
  | blank => equal
  | notBlank => notEqual
  | c => c

/-- The values that are compared with. A null check has one of its own. -/
def targets (c : Comparison) (values : List Value) : List Value :=
  if c.isNullCheck then [.sentinel .null] else values

end Comparison

namespace Form

/-- What comparing fields with values yields: a list of all triples with an `or` behind each but
the last, and for a tree a level of their predicates. -/
structure ComparesEach (fields : List String) (c : Comparison) (values : List Value) (x : Form) :
    Prop where
  items : ∃ items, x = list items ∧
    items.length = 2 * (fields.length * values.length) - 1 ∧
    (∀ k f v, (fields ×ˢ values)[k]? = some (f, v) → items[2 * k]? = some (triple f c v)) ∧
    ∀ k, k + 1 < fields.length * values.length → items[2 * k + 1]? = some (token (.join .or))
  noField : fields = [] → x = list []
  someField : fields ≠ [] → 1 ≤ fields.length * values.length
  tree : x.parse = .junction .or
    ((fields ×ˢ values).map fun (f, v) => .leaf ⟨f, c, v.markNull⟩)
  parsed : x.parsed = .ok x.parse

theorem triples_eq_map_product (fields : List String) (c : Comparison) (values : List Value) :
    triples fields c values = (fields ×ˢ values).map fun (f, v) => triple f c v := by
  unfold triples
  rw [SProd.sprod, List.instSProd]
  dsimp only
  rw [List.product, List.map_flatMap]
  simp only [List.map_map]
  rfl

theorem compare_eq (fields : List String) (c : Comparison) (values : List Value) :
    compare fields c values =
      if (c.targets values).isEmpty then none
      else some (product fields c.lowered (c.targets values)) := by
  cases c <;> rfl

theorem targets_eq_nil {c : Comparison} {values : List Value} :
    c.targets values = [] ↔ values = [] ∧ ¬ c.isNullCheck := by
  unfold Comparison.targets
  cases c.isNullCheck <;> simp

def operands (c : Comparison) (p : String × Value) : List Form :=
  [value (.text p.1), token (.compare c), value p.2]

theorem product_eq_separated (fields : List String) (c : Comparison) (values : List Value) :
    product fields c values =
      list (separated .or (((fields ×ˢ values).map (operands c)).map list)) := by
  rw [product, triples_eq_map_product, List.map_map]
  rfl

theorem connectiveOf_separated_or (ls : List (List Form)) :
    Tree.connectiveOf (separated .or (ls.map list)) = .or := by
  have hand : Tree.connectiveOf (separated .or (ls.map list)) ≠ .and := by
    rw [Ne, Tree.connectiveOf_eq_and, join_mem_separated]
    exact fun h => absurd h.1 (by decide)
  cases h : Tree.connectiveOf (separated .or (ls.map list)) with
  | and => exact absurd h hand
  | or => rfl

/-- A triple keeps its words, whatever they spell, and only a null is read as something else. -/
theorem node_operands (c : Comparison) (p : String × Value) :
    Tree.node (normalItems false (operands c p)) = .leaf ⟨p.1, c, p.2.markNull⟩ := by
  simp only [operands, normalItems_value, normalItems_compare, normalItems_nil,
    Value.negateIf_false]
  rfl

theorem parse_product (fields : List String) (c : Comparison) (values : List Value) :
    (product fields c values).parse =
      .junction .or ((fields ×ˢ values).map fun (f, v) => .leaf ⟨f, c, v.markNull⟩) := by
  have hor : Connective.or.negateIf false = .or := rfl
  rw [product_eq_separated, Tree.parse_list, normalItems_separated, tripleOf?_separated, hor,
    Tree.node_separated, connectiveOf_separated_or, List.map_map, List.map_map]
  have hnodes : (Tree.node ∘ normalItems false) ∘ operands c =
      fun p => .leaf ⟨p.1, c, p.2.markNull⟩ := funext (node_operands c)
  rw [hnodes]
  rfl

theorem parsed_product (fields : List String) (c : Comparison) (values : List Value) :
    (product fields c values).parsed = .ok (product fields c values).parse := by
  have hnamed : Named (separated .or (((fields ×ˢ values).map (operands c)).map list)) := by
    apply named_separated
    rw [List.forall_mem_map]
    exact fun p _ => named_triple ⟨p.1, c, p.2⟩
  rw [parsed_eq, whenExpressible_eq_ok, product_eq_separated]
  exact ⟨hnamed false, rfl⟩

theorem comparesEach_product (fields : List String) (c : Comparison) {values : List Value}
    (hv : values ≠ []) : ComparesEach fields c values (product fields c values) where
  items := by
    have hlen : (triples fields c values).length = fields.length * values.length := by
      rw [triples_eq_map_product, List.length_map, List.length_product]
    -- The triples stand at the even places, the `or` between them at the odd ones.
    refine ⟨separated .or (triples fields c values), rfl, ?_, ?_, ?_⟩
    · rw [separated, List.length_intersperse, hlen]
    · intro k f v hk
      rw [separated, List.getElem?_intersperse_two_mul, triples_eq_map_product, List.getElem?_map,
        hk]
      rfl
    · intro k hk
      rw [separated, List.getElem?_intersperse_two_mul_add_one (by rwa [hlen])]
  noField := by
    rintro rfl
    rfl
  someField := by
    intro hf
    have hfields := List.length_pos_iff.2 hf
    have hvalues := List.length_pos_iff.2 hv
    exact Nat.mul_pos hfields hvalues
  tree := parse_product fields c values
  parsed := parsed_product fields c values

end Form

namespace Program

/-- A comparison asked for by a spelling is the comparison that is so spelled, and is refused if
there is none. It yields nothing if there is nothing to compare with, and else the product of the
fields and the values. -/
theorem product_of_comparison (fields : List String) (values : List Value) :
    (∀ s, (∀ c : Comparison, c.spelling ≠ s) →
      (compareSpelled fields s values).run.result = .error (.unknownOperator s)) ∧
    (∀ c : Comparison,
      (compareSpelled fields c.spelling values).run = (compare fields c values).run ∧
      (compare fields c values).run.result = .ok (Form.compare fields c values)) ∧
    ∀ c : Comparison, (Form.compare fields c values = none ↔ values = [] ∧ ¬ c.isNullCheck) ∧
      ∀ x, Form.compare fields c values = some x →
        Form.ComparesEach fields c.lowered (c.targets values) x := by
  refine ⟨?_, ?_, ?_⟩
  · intro s hs
    rw [run, Comparison.ofSpelling?_eq_none hs]
    rfl
  · intro c
    constructor
    · rw [run, run, Comparison.ofSpelling?_spelling]
    · rw [run, result_runCompare]
  · intro c
    rw [Form.compare_eq]
    by_cases htargets : c.targets values = []
    · obtain ⟨hvalues, hcheck⟩ := Form.targets_eq_nil.1 htargets
      rw [htargets]
      simp [hvalues, hcheck]
    · have hsome : (c.targets values).isEmpty = false := by simpa using htargets
      rw [hsome]
      constructor
      · simpa using mt Form.targets_eq_nil.2 htargets
      · intro x hx
        cases hx
        exact Form.comparesEach_product fields c.lowered htargets

/-- Fields and values that look like operators, a null among the values, and every pair twice. -/
theorem product_of_comparison_alike : ∃ x,
    Form.compare ["=", "="] .contains [.null, .text "!"] = some x ∧
      (∀ c : Comparison, c.spelling ≠ "~=") ∧
      (compareSpelled ["="] "~=" []).run.result = .error (.unknownOperator "~=") ∧
      x.parse = .junction .or [.leaf ⟨"=", .contains, .sentinel .null⟩,
        .leaf ⟨"=", .contains, .text "!"⟩, .leaf ⟨"=", .contains, .sentinel .null⟩,
        .leaf ⟨"=", .contains, .text "!"⟩] := by
  have hspelling : ∀ c : Comparison, c.spelling ≠ "~=" := by
    intro c
    cases c <;> decide
  obtain ⟨hunknown, -, -⟩ := product_of_comparison ["="] []
  obtain ⟨-, -, hcompare⟩ := product_of_comparison ["=", "="] [.null, .text "!"]
  exact ⟨_, rfl, hspelling, hunknown "~=" hspelling, ((hcompare .contains).2 _ rfl).tree⟩

end Program
end FilterAlgebra
