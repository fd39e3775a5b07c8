import FilterAlgebra.Builder
import FilterAlgebra.Proofs.Level

namespace FilterAlgebra

theorem Comparison.negateIf_not (inverse : Bool) (c : Comparison) :
    c.negateIf (!inverse) = (c.negateIf inverse).negate := by
  cases inverse <;> simp [negateIf]

theorem Connective.negateIf_not (inverse : Bool) (c : Connective) :
    c.negateIf (!inverse) = (c.negateIf inverse).negate := by
  cases inverse <;> simp [negateIf]

theorem Value.negateIf_not (inverse : Bool) (v : Value) :
    v.negateIf (!inverse) = (v.negateIf inverse).negateIf true := by
  cases v with
  | sentinel s => cases inverse <;> simp [negateIf, Sentinel.negateIf]
  | _ => rfl

theorem Token.negateIf_not (inverse : Bool) (t : Token) :
    t.negateIf (!inverse) = (t.negateIf inverse).negateIf true := by
  cases t with
  | not => rfl
  | compare c => exact congrArg compare (c.negateIf_not inverse)
  | join c => exact congrArg join (c.negateIf_not inverse)

theorem Value.expressible_negateIf (inverse : Bool) (v : Value) :
    (v.negateIf inverse).expressible = v.expressible := by
  cases v <;> rfl

/-- Only the two null sentinels name another field when they are exchanged. -/
theorem Value.fieldName_negateIf {v : Value} (hnull : v ≠ sentinel .null)
    (hnotNull : v ≠ sentinel .notNull) : (v.negateIf true).fieldName = v.fieldName := by
  cases v with
  | sentinel s =>
    cases s with
    | now => rfl
    | null => exact absurd rfl hnull
    | notNull => exact absurd rfl hnotNull
  | _ => rfl

namespace Form

mutual

/-- Every token and every sentinel exchanged for its partner. -/
def opposite : Form → Form
  | value v => value (v.negateIf true)
  | token t => token (t.negateIf true)
  | list items => list (oppositeItems items)

def oppositeItems : List Form → List Form
  | [] => []
  | x :: xs => opposite x :: oppositeItems xs

end

theorem oppositeItems_eq_map (items : List Form) : oppositeItems items = items.map opposite := by
  induction items with
  | nil => rw [oppositeItems, List.map_nil]
  | cons x xs ih => rw [oppositeItems, ih, List.map_cons]

theorem pushDownItems_opposite (inverse : Bool) (items : List Form) :
    pushDownItems (!inverse) items = oppositeItems (pushDownItems inverse items) := by
  fun_induction pushDownItems inverse items with
  | case1 inverse => rw [pushDownItems, oppositeItems]
  | case2 inverse xs ih => rw [pushDownItems, ih]
  | case3 inverse t xs ht ih =>
    rw [pushDownItems, oppositeItems, opposite, ih, t.negateIf_not inverse]
    exact ht
  | case4 inverse v xs ih => rw [pushDownItems, oppositeItems, opposite, ih, v.negateIf_not inverse]
  | case5 inverse ys xs ihys ihxs => rw [pushDownItems, oppositeItems, opposite, ihys, ihxs]

theorem normalItems_opposite (inverse : Bool) (items : List Form) :
    normalItems (!inverse) items = oppositeItems (normalItems inverse items) :=
  pushDownItems_opposite inverse (markNullsIn items)

theorem opposite_eq_join {x : Form} {c : Connective} :
    x.opposite = token (.join c) ↔ x = token (.join c.negate) := by
  cases x with
  | value v => simp [opposite]
  | list items => simp [opposite]
  | token t =>
    cases t with
    | not => simp [opposite, Token.negateIf]
    | compare d => simp [opposite, Token.negateIf]
    | join d => cases c <;> cases d <;> decide

theorem join_mem_oppositeItems (c : Connective) (items : List Form) :
    token (.join c) ∈ oppositeItems items ↔ token (.join c.negate) ∈ items := by
  rw [oppositeItems_eq_map, List.mem_map]
  simp only [opposite_eq_join, exists_eq_right]

def oppositeTriple : Value × Comparison × Value → Value × Comparison × Value
  | (o, c, v) => (o.negateIf true, c.negate, v.negateIf true)

/-- Exchanging keeps values values, comparisons comparisons, and the number of items. -/
theorem tripleOf?_oppositeItems (items : List Form) :
    tripleOf? (oppositeItems items) = (tripleOf? items).map oppositeTriple := by
  rcases items with _ | ⟨_ | _ | _, _ | ⟨_ | (_ | _ | _) | _, _ | ⟨_ | _ | _, _ | _⟩⟩⟩ <;> rfl

mutual

theorem fieldsExpressible_opposite :
    (x : Form) → fieldsExpressible x.opposite = fieldsExpressible x
  | value v => by simp [opposite, fieldsExpressible]
  | token t => by simp [opposite, fieldsExpressible]
  | list items => by
    rw [opposite, fieldsExpressible, fieldsExpressible, tripleOf?_oppositeItems,
      fieldsExpressibleIn_oppositeItems items]
    cases tripleOf? items with
    | none => rfl
    | some t => exact Value.expressible_negateIf true t.1

theorem fieldsExpressibleIn_oppositeItems :
    (items : List Form) → fieldsExpressibleIn (oppositeItems items) = fieldsExpressibleIn items
  | [] => by rw [oppositeItems]
  | x :: xs => by
    rw [oppositeItems, fieldsExpressibleIn, fieldsExpressibleIn, fieldsExpressible_opposite x,
      fieldsExpressibleIn_oppositeItems xs]

end

end Form

theorem Connective.eq_or_of_ne_and {c : Connective} (h : c ≠ and) : c = or := by
  cases c with
  | and => exact absurd rfl h
  | or => rfl

/-- The connectives of a level before and after negation, as the tokens of the level decide. -/
inductive Connective.Turns (items : List Form) : Connective → Connective → Prop where
  | onlyAnd (hand : .token (.join .and) ∈ items) (hor : .token (.join .or) ∉ items) :
    Turns items .and .or
  | onlyOr (hand : .token (.join .and) ∉ items) (hor : .token (.join .or) ∈ items) :
    Turns items .or .and
  | both (hand : .token (.join .and) ∈ items) (hor : .token (.join .or) ∈ items) :
    Turns items .and .and
  | neither (hand : .token (.join .and) ∉ items) (hor : .token (.join .or) ∉ items) :
    Turns items .or .or

namespace Tree

mutual

/-- The node that a list of a normal form becomes, and its node once the form is negated. -/
inductive Opposed : List Form → Tree → Tree → Prop where
  | leaf {items : List Form} {o : Value} {c : Comparison} {v : Value}
    (htriple : Form.tripleOf? items = some (o, c, v)) :
    Opposed items (leaf ⟨o.fieldName, c, v⟩)
      (leaf ⟨(o.negateIf true).fieldName, c.negate, v.negateIf true⟩)
  | level {items : List Form} {c c' : Connective} {ts ts' : List Tree}
    (htriple : Form.tripleOf? items = none) (hturns : Connective.Turns items c c')
    (hor : c' = .and ↔ .token (.join .or) ∈ items) (hts : OpposedAll items ts ts') :
    Opposed items (junction c ts) (junction c' ts')

/-- The same of the nodes that the lists among some items become, one after the other. -/
inductive OpposedAll : List Form → List Tree → List Tree → Prop where
  | nil : OpposedAll [] [] []
  | value {v : Value} {xs : List Form} {ts ts' : List Tree} (hts : OpposedAll xs ts ts') :
    OpposedAll (.value v :: xs) ts ts'
  | token {t : Token} {xs : List Form} {ts ts' : List Tree} (hts : OpposedAll xs ts ts') :
    OpposedAll (.token t :: xs) ts ts'
  | list {ys xs : List Form} {t t' : Tree} {ts ts' : List Tree} (ht : Opposed ys t t')
    (hts : OpposedAll xs ts ts') : OpposedAll (.list ys :: xs) (t :: ts) (t' :: ts')

end

theorem connectiveOf_oppositeItems (items : List Form) :
    connectiveOf (Form.oppositeItems items) = .and ↔ .token (.join .or) ∈ items :=
  connectiveOf_eq_and.trans (Form.join_mem_oppositeItems .and items)

theorem turns_connectiveOf (items : List Form) :
    Connective.Turns items (connectiveOf items) (connectiveOf (Form.oppositeItems items)) := by
  have hleft : connectiveOf items = .and ↔ .token (.join .and) ∈ items := connectiveOf_eq_and
  have hright := connectiveOf_oppositeItems items
  by_cases hand : .token (.join .and) ∈ items
  · rw [hleft.2 hand]
    by_cases hor : .token (.join .or) ∈ items
    · rw [hright.2 hor]
      exact .both hand hor
    · rw [Connective.eq_or_of_ne_and (mt hright.1 hor)]
      exact .onlyAnd hand hor
  · rw [Connective.eq_or_of_ne_and (mt hleft.1 hand)]
    by_cases hor : .token (.join .or) ∈ items
    · rw [hright.2 hor]
      exact .onlyOr hand hor
    · rw [Connective.eq_or_of_ne_and (mt hright.1 hor)]
      exact .neither hand hor

theorem opposed_node {items : List Form}
    (hts : OpposedAll items (nodes items) (nodes (Form.oppositeItems items))) :
    Opposed items (node items) (node (Form.oppositeItems items)) := by
  rw [node, node, Form.tripleOf?_oppositeItems]
  cases htriple : Form.tripleOf? items with
  | some t => exact .leaf htriple
  | none =>
    exact .level htriple (turns_connectiveOf items) (connectiveOf_oppositeItems items) hts

theorem opposedAll_nodes :
    (items : List Form) → OpposedAll items (nodes items) (nodes (Form.oppositeItems items))
  | [] => by
    rw [Form.oppositeItems, nodes_nil]
    exact .nil
  | .value v :: xs => by
    rw [Form.oppositeItems, Form.opposite, nodes_value, nodes_value]
    exact .value (opposedAll_nodes xs)
  | .token t :: xs => by
    rw [Form.oppositeItems, Form.opposite, nodes_token, nodes_token]
    exact .token (opposedAll_nodes xs)
  | .list ys :: xs => by
    rw [Form.oppositeItems, Form.opposite, nodes_list, nodes_list]
    exact .list (opposed_node (opposedAll_nodes ys)) (opposedAll_nodes xs)

/-- The tree of a form with a mark in front: the tree of a list inside a level of its own. -/
theorem parse_not (items : List Form) :
    Form.parse (.list [.token .not, .list items]) =
      junction .or [node (Form.normalItems true items)] := by
  have hitems : Form.normalItems false [.token .not, .list items] =
      [.list (Form.normalItems true items)] := by simp
  rw [parse_list, hitems, if_neg (by simp [Form.tripleOf?]), node, Form.tripleOf?]
  · simp [connectiveOf, Form.hasJoin]
  · simp

/-- Whatever stands in a list, its negation has the tree with every leaf asking with exchanged
parts and every connective read off the exchanged tokens, below one more disjunction. -/
theorem tree_of_negation (items : List Form) :
    ∃ y ns t t', Form.negate (some (.list items)) = some y ∧
      Form.normalize (.list items) = .list ns ∧ Opposed ns t t' ∧
      Form.parse (.list items) = (if (Form.tripleOf? ns).isSome then junction .or [t] else t) ∧
      y.parse = junction .or [t'] ∧
      (Form.parsed (.list items) = .ok (Form.parse (.list items)) ∧ y.parsed = .ok y.parse ∨
        Form.parsed (.list items) = .error .inexpressible ∧ y.parsed = .error .inexpressible) ∧
      ∀ o : Value, o ≠ .sentinel .null → o ≠ .sentinel .notNull →
        (o.negateIf true).fieldName = o.fieldName := by
  have hopposite : Form.normalItems true items =
      Form.oppositeItems (Form.normalItems false items) := Form.normalItems_opposite false items
  refine ⟨_, _, node (Form.normalItems false items), node (Form.normalItems true items), rfl,
    Form.normalize_list items, ?_, parse_list items, parse_not items, ?_, ?_⟩
  · rw [hopposite]
    exact opposed_node (opposedAll_nodes _)
  · -- Both sides name the same fields, so a field that has no text stops both or neither.
    have hnamed : (Form.list [.token .not, .list items]).normalize.fieldsExpressible =
        (Form.list items).normalize.fieldsExpressible := by
      have hlevel := Form.fieldsExpressible_opposite (.list (Form.normalItems false items))
      rw [Form.opposite, ← hopposite] at hlevel
      rw [Form.normalize_list, Form.normalize_list, ← hlevel]
      simp [Form.fieldsExpressible, Form.fieldsExpressibleIn, Form.tripleOf?]
    rw [Form.parsed_eq, Form.parsed_eq, hnamed]
    by_cases h : (Form.list items).normalize.fieldsExpressible
    · exact .inl ⟨if_pos h, if_pos h⟩
    · exact .inr ⟨if_neg h, if_neg h⟩
  · intro o hnull hnotNull
    exact Value.fieldName_negateIf hnull hnotNull

/-- A level that mixes the two connectives is a conjunction on both sides of a mark. -/
example : Form.parse (.list [.token .not, .list [Form.triple "a" .equal (.int 1),
      .token (.join .and), Form.triple "b" .less (.int 2), .token (.join .or)]]) =
    junction .or [junction .and [leaf ⟨"a", .notEqual, .int 1⟩, leaf ⟨"b", .atLeast, .int 2⟩]] := by
  cbv

end Tree
end FilterAlgebra
