import FilterAlgebra.Pipeline

namespace FilterAlgebra

@[simp] theorem Value.negateIf_false (v : Value) : v.negateIf false = v := by
  cases v <;> rfl

namespace Form

/-- The normal form of the items of a list that an odd number of marks reaches if `inverse`. -/
def normalItems (inverse : Bool) (items : List Form) : List Form :=
  pushDownItems inverse (markNullsIn items)

theorem normalize_list (items : List Form) :
    normalize (list items) = list (normalItems false items) := rfl

@[simp] theorem normalItems_nil (inverse : Bool) : normalItems inverse [] = [] := by
  simp [normalItems, markNullsIn, pushDownItems]

@[simp] theorem normalItems_not (inverse : Bool) (xs : List Form) :
    normalItems inverse (token .not :: xs) = normalItems (!inverse) xs := by
  simp [normalItems, markNullsIn, markNulls, pushDownItems]

theorem normalItems_token (inverse : Bool) {t : Token} (ht : t ≠ .not) (xs : List Form) :
    normalItems inverse (token t :: xs) =
      token (t.negateIf inverse) :: normalItems inverse xs := by
  rw [normalItems, markNullsIn, markNulls, pushDownItems]
  · rfl
  · exact ht

/-- Induction along a level. A mark turns the flag round, and lists pass it on to their items. -/
@[elab_as_elim] theorem level_induct {motive : Bool → List Form → Prop}
    (nil : ∀ inverse, motive inverse [])
    (mark : ∀ inverse xs, motive (!inverse) xs → motive inverse (token .not :: xs))
    (token : ∀ inverse t xs, t ≠ .not → motive inverse xs → motive inverse (token t :: xs))
    (value : ∀ inverse v xs, motive inverse xs → motive inverse (value v :: xs))
    (list : ∀ inverse ys xs, motive inverse ys → motive inverse xs →
      motive inverse (list ys :: xs))
    (inverse : Bool) (items : List Form) : motive inverse items :=
  pushDownItems.induct motive nil mark token value list inverse items

@[simp] theorem normalItems_compare (inverse : Bool) (c : Comparison) (xs : List Form) :
    normalItems inverse (token (.compare c) :: xs) =
      token (.compare (c.negateIf inverse)) :: normalItems inverse xs :=
  normalItems_token inverse (by simp) xs

@[simp] theorem normalItems_join (inverse : Bool) (c : Connective) (xs : List Form) :
    normalItems inverse (token (.join c) :: xs) =
      token (.join (c.negateIf inverse)) :: normalItems inverse xs :=
  normalItems_token inverse (by simp) xs

@[simp] theorem normalItems_value (inverse : Bool) (v : Value) (xs : List Form) :
    normalItems inverse (value v :: xs) =
      value (v.markNull.negateIf inverse) :: normalItems inverse xs := by
  simp [normalItems, markNullsIn, markNulls, pushDownItems]

@[simp] theorem normalItems_list (inverse : Bool) (ys xs : List Form) :
    normalItems inverse (list ys :: xs) =
      list (normalItems inverse ys) :: normalItems inverse xs := by
  simp [normalItems, markNullsIn, markNulls, pushDownItems]

theorem eq_of_tripleOf? {items : List Form} {o : Value} {c : Comparison} {v : Value}
    (h : tripleOf? items = some (o, c, v)) : items = [value o, token (.compare c), value v] := by
  unfold tripleOf? at h
  split at h
  · cases h; rfl
  · cases h

end Form

namespace Outline

theorem ofItems_eq_map (items : List Form) : ofItems items = items.map ofItem := by
  induction items with
  | nil => simp [ofItems]
  | cons x xs ih => simp [ofItems, ih]

theorem ofItem_eq_token {x : Form} {t : Token} : ofItem x = token t ↔ x = .token t := by
  rcases x with v | u | ys
  · simp [ofItem]
  · simp [ofItem]
  · rw [ofItem]
    split <;> simp

end Outline

namespace Tree

def nodes (items : List Form) : List Tree := ofItems (Outline.ofItems items)

/-- A level is a conjunction if an `and` stands directly in it. -/
def connectiveOf (items : List Form) : Connective :=
  if Form.hasJoin .and (.list items) then .and else .or

/-- What a list becomes inside another list: a triple is a leaf, any other list a junction. -/
def node (items : List Form) : Tree :=
  match Form.tripleOf? items with
  | some t => leaf (Outline.ofTriple t)
  | none => junction (connectiveOf items) (nodes items)

theorem connectiveOf_eq_and {items : List Form} :
    connectiveOf items = .and ↔ .token (.join .and) ∈ items := by
  simp [connectiveOf, Form.hasJoin]

theorem connectiveOf_congr {xs ys : List Form}
    (h : .token (.join .and) ∈ xs ↔ .token (.join .and) ∈ ys) :
    connectiveOf xs = connectiveOf ys := by
  rw [← connectiveOf_eq_and, ← connectiveOf_eq_and] at h
  cases hx : connectiveOf xs <;> cases hy : connectiveOf ys <;> simp_all

theorem levelConnective_eq_and {items : List Outline} :
    levelConnective items = .and ↔ .token (.join .and) ∈ items := by
  constructor
  · intro h
    unfold levelConnective at h
    split at h
    · next hany =>
      obtain ⟨x, hx, hm⟩ := List.any_eq_true.1 hany
      split at hm
      · exact hx
      · cases hm
    · cases h
  · intro h
    exact if_pos (List.any_eq_true.2 ⟨_, h, rfl⟩)

theorem levelConnective_ofItems (items : List Form) :
    levelConnective (Outline.ofItems items) = connectiveOf items := by
  have h : levelConnective (Outline.ofItems items) = .and ↔ connectiveOf items = .and := by
    rw [levelConnective_eq_and, connectiveOf_eq_and, Outline.ofItems_eq_map, List.mem_map]
    simp only [Outline.ofItem_eq_token, exists_eq_right]
  cases hl : levelConnective (Outline.ofItems items) <;>
    cases hc : connectiveOf items <;> simp_all

@[simp] theorem nodes_nil : nodes [] = [] := by simp [nodes, Outline.ofItems, ofItems]

@[simp] theorem nodes_token (t : Token) (xs : List Form) : nodes (.token t :: xs) = nodes xs := by
  simp [nodes, Outline.ofItems, Outline.ofItem, ofItems]

@[simp] theorem nodes_value (v : Value) (xs : List Form) : nodes (.value v :: xs) = nodes xs := by
  simp [nodes, Outline.ofItems, Outline.ofItem, ofItems]

@[simp] theorem nodes_list (ys xs : List Form) :
    nodes (.list ys :: xs) = node ys :: nodes xs := by
  rw [nodes, Outline.ofItems, Outline.ofItem, node]
  cases h : Form.tripleOf? ys with
  | some t => simp [ofItems, nodes]
  | none => simp [ofItems, nodes, levelConnective_ofItems]

theorem evalAll_eq_all (holds : Predicate → Bool) (ts : List Tree) :
    evalAll holds ts = ts.all (eval holds) := by
  induction ts with
  | nil => simp [evalAll]
  | cons t ts ih => simp [evalAll, ih]

theorem evalAny_eq_any (holds : Predicate → Bool) (ts : List Tree) :
    evalAny holds ts = ts.any (eval holds) := by
  induction ts with
  | nil => simp [evalAny]
  | cons t ts ih => simp [evalAny, ih]

theorem leavesOf_eq_flatMap (ts : List Tree) : leavesOf ts = ts.flatMap leaves := by
  induction ts with
  | nil => simp [leavesOf]
  | cons t ts ih => simp [leavesOf, ih]

/-- A whole form that is a triple is still made a level. -/
theorem parse_list (items : List Form) :
    Form.parse (.list items) =
      if (Form.tripleOf? (Form.normalItems false items)).isSome
      then junction .or [node (Form.normalItems false items)]
      else node (Form.normalItems false items) := by
  rw [Form.parse, Form.normalize_list, Outline.ofForm, Form.triple?, node]
  cases h : Form.tripleOf? (Form.normalItems false items) with
  | some t => simp [ofOutline, levelConnective, ofItems]
  | none => simp [Outline.ofItem, h, ofOutline, nodes, levelConnective_ofItems]

@[simp] theorem parse_value (v : Value) : Form.parse (.value v) = junction .or [] := by
  simp [Form.parse, Form.normalize, Form.markNulls, Form.pushDown, Outline.ofForm, Form.triple?,
    Outline.ofItem, ofOutline]

@[simp] theorem parse_token (t : Token) : Form.parse (.token t) = junction .or [] := by
  cases t <;> simp [Form.parse, Form.normalize, Form.markNulls, Form.pushDown, Outline.ofForm,
    Form.triple?, Form.tripleOf?, Outline.ofItem, Outline.ofItems, ofOutline, levelConnective,
    ofItems]

theorem eval_parse_list (holds : Predicate → Bool) (items : List Form) :
    (Form.parse (.list items)).eval holds = (node (Form.normalItems false items)).eval holds := by
  rw [parse_list]
  split
  · simp [eval, evalAny]
  · rfl

end Tree
end FilterAlgebra
